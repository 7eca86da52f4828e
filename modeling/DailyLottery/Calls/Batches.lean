import DailyLottery.Calls.Attest
import DailyLottery.Calls.Determined

set_option linter.unusedSectionVars false

namespace DailyLottery

open Lib Ballot AccountInfo

variable {K : Type} [DecidableEq K] [Inhabited K] {rt : Runtime K}
    {acts as as₁ as₂ : List (Action K)}
  {w w' w₁ w₂ : World K} {ws : List (World K)} {id : ℕ} {c : Config K} {l l' : Lottery K}
  {p p' : Participant K} {r r' r₁ r₂ : Round K} {payer : K}

namespace VoteTally

variable {t t' : VoteTally K} {bs : List (Ballot K)}

/-- What a tally holds besides the votes for a count. -/
structure SameHead (t t' : VoteTally K) : Prop where
  lottery : t'.lottery = t.lottery
  totalAttested : t'.totalAttested = t.totalAttested
  weights : t'.weights[0]? = t.weights[0]?
  firstSeen : t'.firstSeen[0]? = t.firstSeen[0]?

theorem SameHead.refl (t : VoteTally K) : t.SameHead t := ⟨rfl, rfl, rfl, rfl⟩

theorem SameHead.trans {t'' : VoteTally K} (h : t.SameHead t') (h' : t'.SameHead t'') :
    t.SameHead t'' :=
  ⟨h'.1.trans h.1, h'.2.trans h.2, h'.3.trans h.3, h'.4.trans h.4⟩

theorem SameHead.addVote (t : VoteTally K) (count weight : ℕ) (time : ℤ) :
    t.SameHead (t.addVote count weight time) := by
  unfold VoteTally.addVote
  split_ifs with hrange hlen hseen
  · exact ⟨rfl, rfl, rfl, rfl⟩
  · exact ⟨rfl, rfl, rfl, rfl⟩
  · have hne : count ≠ 0 := fun hz ↦ hrange (.inl hz)
    exact ⟨rfl, rfl, List.getElem?_set_ne hne, List.getElem?_set_ne hne⟩
  · have hne : count ≠ 0 := fun hz ↦ hrange (.inl hz)
    exact ⟨rfl, rfl, List.getElem?_set_ne hne, rfl⟩

theorem getElem?_of_getD {α : Type} {xs ys : List α} {d : α} {n : ℕ} (hx : xs.length = n + 1)
    (hy : ys.length = n + 1) (hz : ys[0]? = xs[0]?)
    (h : ∀ c, 1 ≤ c → c ≤ n → ys.getD c d = xs.getD c d) : ys = xs := by
  refine List.ext_getElem (hy.trans hx.symm) fun i hi hi' ↦ ?_
  rcases Nat.eq_zero_or_pos i with rfl | hpos
  · rw [List.getElem?_eq_getElem hi, List.getElem?_eq_getElem hi'] at hz
    exact Option.some.inj hz
  · have hi'' := h i hpos (by omega)
    rwa [List.getD_eq_getElem _ _ hi, List.getD_eq_getElem _ _ hi'] at hi''

/-- Two tallies of the same ballots are the same tally. -/
theorem Counts.eq_of_sameHead (h : t.Counts bs) (h' : t'.Counts bs) (hs : t.SameHead t')
    (hmw : t'.maxWinners = t.maxWinners) (hproc : t'.processedCount = t.processedCount) :
      t' = t := by
  have hweights : t'.weights = t.weights :=
    getElem?_of_getD h.weights_length (hmw ▸ h'.weights_length) hs.weights fun c hpos hle ↦
      (h'.weights c hpos (hmw ▸ hle)).trans (h.weights c hpos hle).symm
  have hseen : t'.firstSeen = t.firstSeen :=
    getElem?_of_getD h.firstSeen_length (hmw ▸ h'.firstSeen_length) hs.firstSeen fun c hpos hle ↦
      (h'.firstSeen c hpos (hmw ▸ hle)).trans (h.firstSeen c hpos hle).symm
  obtain ⟨_, _, _, _, _, _⟩ := t
  obtain ⟨_, _, _, _, _, _⟩ := t'
  simp only [VoteTally.mk.injEq]
  exact ⟨hs.lottery, hmw, hs.totalAttested, hproc, hweights, hseen⟩

end VoteTally

/-- What uploads leave of a lottery. -/
def Lottery.besides (l : Lottery K) : Lottery K :=
  { l with
    settlementStartUnix := 0
    remediationStartUnix := 0
    remediationDeadlineUnix := 0
    providerUploadedCount := 0
    uploadsComplete := false
    pocAggregateHash := Vector.replicate 32 0
    selectedNumberOfWinners := 0 }

theorem Lottery.eq_of_besides (h : l'.besides = l.besides)
    (hss : l'.settlementStartUnix = l.settlementStartUnix)
    (hrs : l'.remediationStartUnix = l.remediationStartUnix)
    (hrd : l'.remediationDeadlineUnix = l.remediationDeadlineUnix)
    (hprov : l'.providerUploadedCount = l.providerUploadedCount)
    (huc : l'.uploadsComplete = l.uploadsComplete)
    (hhash : l'.pocAggregateHash = l.pocAggregateHash)
    (hsel : l'.selectedNumberOfWinners = l.selectedNumberOfWinners) : l' = l := by
  have hl (l : Lottery K) : l = { l.besides with
      settlementStartUnix := l.settlementStartUnix
      remediationStartUnix := l.remediationStartUnix
      remediationDeadlineUnix := l.remediationDeadlineUnix
      providerUploadedCount := l.providerUploadedCount
      uploadsComplete := l.uploadsComplete
      pocAggregateHash := l.pocAggregateHash
      selectedNumberOfWinners := l.selectedNumberOfWinners } := rfl
  rw [hl l', hl l, h, hss, hrs, hrd, hprov, huc, hhash, hsel]

/-- A participant with its reveal included. -/
def Participant.reveal (rt : Runtime K) (p : Participant K) (plaintext : Bytes) : Participant K :=
  { p with revealScore := DailyLottery.revealScore plaintext }.includeVerifiedReveal
    (computeRevealDigest rt p.wallet plaintext)

theorem Participant.revealIncluded_reveal (p : Participant K) (plaintext : Bytes) :
    (p.reveal rt plaintext).revealIncluded = true := by
  simp [reveal, includeVerifiedReveal]

namespace Round

/-- Uploads of `entries` in all, whether or not a stranger was among the uploaders. -/
structure Uploaded (rt : Runtime K) (id : ℕ) (r : Round K) (entries : List (K × Bytes))
    (stranger : Bool) (r' : Round K) : Prop where
  now : r'.now = r.now
  config : r'.config = r.config
  opened : r.lottery.settled = false ∧ r.lottery.settlementComplete = false
  two_le : 2 ≤ r.lottery.participantsCount
  lottery : r'.lottery.besides = r.lottery.besides
  nodup : (entries.map Prod.fst).Nodup
  included : ∀ e ∈ entries, ∃ p ∈ r'.participants,
    e.1 = rt.slotKey id (.participant p.wallet) ∧ p.revealIncluded = true
  length : r'.participants.length = r.participants.length
  rows : ∀ (i : ℕ) p, r.participants[i]? = some p →
    (rt.slotKey id (.participant p.wallet) ∉ entries.map Prod.fst ∧ r'.participants[i]? = some p) ∨
      ∃ plaintext, (rt.slotKey id (.participant p.wallet), plaintext) ∈ entries ∧
        p.revealIncluded = false ∧ r'.participants[i]? = some (p.reveal rt plaintext)
  settlement : r'.lottery.settlementStartUnix =
    if r.lottery.settlementStartUnix = 0 then r.now else r.lottery.settlementStartUnix
  remediation : r'.lottery.remediationStartUnix =
    if stranger = true ∧ r.lottery.remediationStartUnix = 0 then r.now
    else r.lottery.remediationStartUnix
  deadline : r'.lottery.remediationDeadlineUnix =
    if stranger = true ∧ r.lottery.remediationStartUnix = 0 then
      r.now + Sizes.defaultRemediationWindowSecs
    else r.lottery.remediationDeadlineUnix
  complete : r'.lottery.uploadsComplete =
    decide (r'.lottery.attestedCount ≤ r'.lottery.providerUploadedCount)
  tally : ∃ t, r'.tally = some t ∧
    r'.lottery.selectedNumberOfWinners = t.selectedWinners r'.lottery.participantsCount ∧
    { r.openTally 0 with totalAttested := r.lottery.attestedCount }.SameHead t

namespace Uploaded

variable {E E' : List (K × Bytes)} {stranger stranger' : Bool} {r'' : Round K}

theorem trans (h : Uploaded rt id r E stranger r') (h' : Uploaded rt id r' E' stranger' r'') :
    Uploaded rt id r (E ++ E') (stranger || stranger') r'' := by
  have hopen {p : Participant K} (hp : p ∈ r'.participants) (hinc : p.revealIncluded = true) :
      rt.slotKey id (.participant p.wallet) ∉ E'.map Prod.fst ∧ p ∈ r''.participants := by
    obtain ⟨i, hi⟩ := List.mem_iff_getElem?.mp hp
    rcases h'.rows i p hi with ⟨hno, hsame⟩ | ⟨plaintext, -, hno, -⟩
    · exact ⟨hno, List.mem_of_getElem? hsame⟩
    · simp [hinc] at hno
  refine ⟨h'.now.trans h.now, h'.config.trans h.config, h.opened, h.two_le,
    h'.lottery.trans h.lottery, ?_, ?_,
    h'.length.trans h.length, ?_, ?_, ?_, ?_, h'.complete, ?_⟩
  · rw [List.map_append, List.nodup_append']
    refine ⟨h.nodup, h'.nodup, fun k hk hk' ↦ ?_⟩
    obtain ⟨e, he, rfl⟩ := List.mem_map.mp hk
    obtain ⟨p, hp, hkey, hinc⟩ := h.included e he
    exact (hopen hp hinc).1 (hkey ▸ hk')
  · intro e he
    rcases List.mem_append.mp he with he | he
    · obtain ⟨p, hp, hkey, hinc⟩ := h.included e he
      exact ⟨p, (hopen hp hinc).2, hkey, hinc⟩
    · exact h'.included e he
  · intro i p hi
    rcases h.rows i p hi with ⟨hno, hi'⟩ | ⟨plaintext, hmem, hno, hi'⟩
    · rcases h'.rows i p hi' with ⟨hno', hi''⟩ | ⟨plaintext, hmem, hno', hi''⟩
      · refine .inl ⟨fun hmem ↦ ?_, hi''⟩
        rw [List.map_append, List.mem_append] at hmem
        exact hmem.elim hno hno'
      · exact .inr ⟨plaintext, List.mem_append_right _ hmem, hno', hi''⟩
    · rcases h'.rows i _ hi' with ⟨-, hi''⟩ | ⟨-, -, hno', -⟩
      · exact .inr ⟨plaintext, List.mem_append_left _ hmem, hno, hi''⟩
      · simp [Participant.revealIncluded_reveal] at hno'
  · rw [h'.settlement, h.settlement, h.now]
    split_ifs <;> rfl
  · rw [h'.remediation, h.remediation, h.now]
    by_cases hz : r.lottery.remediationStartUnix = 0
    · cases stranger <;> cases stranger' <;> simp [hz]
    · cases stranger <;> cases stranger' <;> simp [hz]
  · rw [h'.deadline, h.deadline, h.remediation, h.now]
    by_cases hz : r.lottery.remediationStartUnix = 0
    · cases stranger <;> cases stranger' <;> simp [hz]
    · cases stranger <;> cases stranger' <;> simp [hz]
  · obtain ⟨t, ht, -, hhead⟩ := h.tally
    obtain ⟨t', ht', hsel, hhead'⟩ := h'.tally
    have hatt : r'.lottery.besides.attestedCount =
      r.lottery.besides.attestedCount := by rw [h.lottery]
    have hopen : r'.openTally 0 = t := by
      rw [openTally, ht]
      rfl
    rw [hopen] at hhead'
    exact ⟨t', ht', hsel, hhead'.lottery.trans hhead.lottery, hhead'.totalAttested.trans hatt,
      hhead'.weights.trans hhead.weights, hhead'.firstSeen.trans hhead.firstSeen⟩

theorem same {β : Type} {f : Lottery K → β} (h : Uploaded rt id r E stranger r')
    (hf : ∀ l : Lottery K, f l.besides = f l) : f r'.lottery = f r.lottery := by
  rw [← hf r'.lottery, h.lottery, hf]

theorem opened_after (h : Uploaded rt id r E stranger r') :
    r'.lottery.settled = false ∧ r'.lottery.settlementComplete = false ∧
      r'.lottery.participantsCount = r.lottery.participantsCount :=
  ⟨(h.same (f := Lottery.settled) fun _ ↦ rfl).trans h.opened.1,
    (h.same (f := Lottery.settlementComplete) fun _ ↦ rfl).trans h.opened.2,
    h.same (f := Lottery.participantsCount) fun _ ↦ rfl⟩

theorem participants_eq (h₁ : Uploaded rt id r E stranger r₁)
    (h₂ : Uploaded rt id r E' stranger' r₂)
    (hperm : E.Perm E') : r₁.participants = r₂.participants := by
  refine List.ext_getElem? fun i ↦ ?_
  cases hi : r.participants[i]? with
  | none =>
    rw [List.getElem?_eq_none_iff] at hi
    rw [List.getElem?_eq_none (h₁.length ▸ hi), List.getElem?_eq_none (h₂.length ▸ hi)]
  | some p =>
    have hkeys : rt.slotKey id (.participant p.wallet) ∈ E.map Prod.fst ↔
        rt.slotKey id (.participant p.wallet) ∈ E'.map Prod.fst := (hperm.map Prod.fst).mem_iff
    rcases h₁.rows i p hi with ⟨hno₁, hi₁⟩ | ⟨x, hx, -, hi₁⟩
    · rcases h₂.rows i p hi with ⟨-, hi₂⟩ | ⟨y, hy, -, -⟩
      · exact hi₁.trans hi₂.symm
      · exact absurd (hkeys.mpr (List.mem_map.mpr ⟨_, hy, rfl⟩)) hno₁
    · rcases h₂.rows i p hi with ⟨hno₂, -⟩ | ⟨y, hy, -, hi₂⟩
      · exact absurd (hkeys.mp (List.mem_map.mpr ⟨_, hx, rfl⟩)) hno₂
      · have hxy := List.inj_on_of_nodup_map h₁.nodup hx (hperm.mem_iff.mpr hy) rfl
        rw [hi₁, hi₂, (Prod.mk.inj hxy).2]

/-- Neither the order of the entries nor how they are cut into calls shows in the result. -/
theorem unique (h₁ : Uploaded rt id r E stranger r₁) (h₂ : Uploaded rt id r E' stranger r₂)
    (hperm : E.Perm E') (hreach₁ : (machine rt).Reachable r₁)
    (hreach₂ : (machine rt).Reachable r₂) :
    r₁.lottery = r₂.lottery ∧ r₁.participants = r₂.participants ∧ r₁.tally = r₂.tally := by
  have hb₁ := (invariant hreach₁).books.balanced
  have hb₂ := (invariant hreach₂).books.balanced
  have hps := h₁.participants_eq h₂ hperm
  have hballots : r₁.books.ballots = r₂.books.ballots := congrArg (List.map Participant.ballot) hps
  have hbesides : r₁.lottery.besides = r₂.lottery.besides := h₁.lottery.trans h₂.lottery.symm
  obtain ⟨-, -, hpc₁⟩ := h₁.opened_after
  obtain ⟨-, -, hpc₂⟩ := h₂.opened_after
  have hmw : r₁.books.maxWinners = r₂.books.maxWinners := by
    show r₁.config.effectiveMaxWinners r₁.lottery.participantsCount =
      r₂.config.effectiveMaxWinners r₂.lottery.participantsCount
    rw [h₁.config, h₂.config, hpc₁, hpc₂]
  obtain ⟨t₁, ht₁, hsel₁, hhead₁⟩ := h₁.tally
  obtain ⟨t₂, ht₂, hsel₂, hhead₂⟩ := h₂.tally
  obtain ⟨hc₁, hm₁, hproc₁⟩ := hb₁.tallied t₁ ht₁
  obtain ⟨hc₂, hm₂, hproc₂⟩ := hb₂.tallied t₂ ht₂
  have htally : t₁ = t₂ := by
    refine hc₂.eq_of_sameHead (hballots ▸ hc₁) ⟨?_, ?_, ?_, ?_⟩ ?_ ?_
    · exact hhead₁.lottery.trans hhead₂.lottery.symm
    · exact hhead₁.totalAttested.trans hhead₂.totalAttested.symm
    · exact hhead₁.weights.trans hhead₂.weights.symm
    · exact hhead₁.firstSeen.trans hhead₂.firstSeen.symm
    · rw [hm₁, hm₂, hmw]
    · rw [hproc₁, hproc₂, hballots]
  have hprov : r₁.lottery.providerUploadedCount = r₂.lottery.providerUploadedCount :=
    hb₁.included.trans (hballots ▸ hb₂.included.symm)
  have hatt : r₁.lottery.attestedCount = r₂.lottery.attestedCount :=
    (h₁.same (f := Lottery.attestedCount) fun _ ↦ rfl).trans
      (h₂.same (f := Lottery.attestedCount) fun _ ↦ rfl).symm
  refine ⟨Lottery.eq_of_besides hbesides ?_ ?_ ?_ hprov ?_ ?_ ?_, hps, ?_⟩
  · rw [h₁.settlement, h₂.settlement]
  · rw [h₁.remediation, h₂.remediation]
  · rw [h₁.deadline, h₂.deadline]
  · rw [h₁.complete, h₂.complete, hprov, hatt]
  · have hpoc₁ : r₁.lottery.pocAggregateHash = _ := hb₁.hash.resolve_right fun hone ↦ by
      have hpc : r₁.lottery.participantsCount = 1 := hone.1
      have := h₁.two_le
      omega
    have hpoc₂ : r₂.lottery.pocAggregateHash = _ := hb₂.hash.resolve_right fun hone ↦ by
      have hpc : r₂.lottery.participantsCount = 1 := hone.1
      have := h₂.two_le
      omega
    rw [hpoc₁, hpoc₂, hballots]
  · rw [hsel₁, hsel₂, htally, hpc₁, hpc₂]
  · rw [ht₁, ht₂, htally]

end Uploaded

end Round

namespace UploadReveals

variable {entries : List (K × Bytes)} {isAuthority : Bool} {es : List (ℕ × Bytes)} {t : VoteTally K}
  {ps : List (Participant K)} {digests : List Bytes32}

theorem canRemediate_eq (h : checkPhase l isAuthority w.clock = .ok l') :
    canRemediate l isAuthority w.clock = !isAuthority := by
  obtain ⟨-, hwho, -⟩ := checkPhase_ok h
  cases isAuthority
  · exact hwho.resolve_left Bool.false_ne_true
  · rfl

theorem IncludeVisit.sameHead {mw : ℕ} {s s' : VoteTally K × List Bytes32} {plaintext : Bytes}
    (h : Round.IncludeVisit rt mw s plaintext p s' p') : s.1.SameHead s'.1 := by
  obtain ⟨digest, hinc, -⟩ := h
  obtain ⟨-, -, -, -, ht, -⟩ := includeReveal_ok hinc
  rw [ht]
  split
  · exact .addVote _ _ _ _
  · exact .refl _

theorem Uploads.entry {r : Round K} {e : K × Bytes}
    (h : Uploads rt id isAuthority entries r es l t ps digests l') (he : e ∈ entries) :
    ∃ i p, r.participants[i]? = some p ∧ e.1 = rt.slotKey id (.participant p.wallet) ∧
      (i, e.2) ∈ es := by
  obtain ⟨j, hj, hje⟩ := List.getElem_of_mem ((mem_provided : e ∈ provided rt entries ↔ _).mpr he)
  have hj' : j < es.length := h.names.length_eq ▸ hj
  obtain ⟨hpt, p, hp, hk⟩ := List.forall₂_iff_get.mp h.names |>.2 j hj' hj
  simp only [List.get_eq_getElem, hje] at hpt hp hk
  refine ⟨es[j].1, p, hp, hk, ?_⟩
  rw [hpt]
  exact List.getElem_mem hj'

theorem Uploads.uploaded (h : Uploads rt id isAuthority entries r es l t ps digests l')
    (hr : Represents rt acts w ws id r) (hnd : (entries.map Prod.fst).Nodup) :
    r.Uploaded rt id entries (!isAuthority) { r with
      lottery := l', participants := ps
      tally := some { t with
        processedCount := saturatingAdd 64 t.processedCount digests.length } } := by
  have hcan := h.phase
  rw [← hr.now] at hcan
  replace hcan := canRemediate_eq hcan
  rw [hr.now] at hcan
  obtain ⟨-, -, hset, hsc, huc, -, -, hl⟩ := checkPhase_ok h.phase
  obtain ⟨htwo, hl'⟩ := includeUploads_ok h.included
  rw [hcan] at hl
  have hpc : l.participantsCount = r.lottery.participantsCount := by rw [hl]
  refine ⟨rfl, rfl, ⟨hset, hsc⟩, hpc ▸ htwo, ?_, hnd, ?_, h.sweep.length_eq, ?_, ?_, ?_, ?_, ?_, ?_⟩
  · rw [hl', hl]
    rfl
  · intro e he
    obtain ⟨i, p, hi, hkey, hes⟩ := h.entry he
    rcases h.row hi with ⟨hni, -⟩ | ⟨plaintext, -, -, -, -, -, hrow⟩
    · exact absurd (List.mem_map.mpr ⟨_, hes, rfl⟩) hni
    · exact ⟨_, List.mem_of_getElem? hrow, hkey, p.revealIncluded_reveal plaintext⟩
  · intro i p hi
    rcases h.row hi with ⟨hni, hsame⟩ | ⟨plaintext, -, hno, -, -, hmem, hrow⟩
    · refine .inl ⟨fun hmem ↦ ?_, hsame⟩
      obtain ⟨e, he, hkey⟩ := List.mem_map.mp hmem
      obtain ⟨j, q, hj, hq, hes⟩ := h.entry he
      have hji : j = i := by
        by_contra hne
        refine hr.roster.wallet_ne hi hj hne ?_
        simpa using hq.symm.trans hkey
      exact hni (List.mem_map.mpr ⟨_, hes, hji⟩)
    · exact .inr ⟨plaintext, hmem, hno, hrow⟩
  · rw [hl', hl]
  · rw [hl', hl]
  · rw [hl', hl]
  · rw [hl']
    simp [hl, huc]
  · have hatt : l.attestedCount = r.lottery.attestedCount := by rw [hl]
    have hhead : { r.openTally l.attestedCount with totalAttested := l.attestedCount }.SameHead t :=
      h.sweep.invariant (P := fun _ s ↦ { r.openTally l.attestedCount with
          totalAttested := l.attestedCount }.SameHead s.1) (.refl _)
        fun _ _ _ _ _ _ _ hs _ hv ↦ hs.trans (IncludeVisit.sameHead hv)
    refine ⟨_, rfl, ?_, ?_⟩
    · rw [hl']
    · rw [hatt] at hhead
      unfold Round.openTally at hhead ⊢
      cases htl : r.tally with
      | none =>
        rw [htl] at hhead
        exact ⟨hhead.lottery, hhead.totalAttested, hhead.weights, hhead.firstSeen⟩
      | some t₀ =>
        rw [htl] at hhead
        exact ⟨hhead.lottery, hhead.totalAttested, hhead.weights, hhead.firstSeen⟩

end UploadReveals

def Action.brought : Action K → List (K × Bytes)
  | .instruction _ (.uploadReveals entries) _ => entries
  | _ => []

def Action.Uploading (rt : Runtime K) (id : ℕ) : Action K → Prop
  | .instruction _ (.uploadReveals _) accounts => CallsOn rt accounts id
  | _ => False

theorem Action.Uploading.eq_instruction {a : Action K} (h : a.Uploading rt id) :
    ∃ pre entries accounts, a = .instruction pre (.uploadReveals entries) accounts ∧
      CallsOn rt accounts id := by
  unfold Action.Uploading at h
  split at h
  · exact ⟨_, _, _, rfl, h⟩
  · exact h.elim

/-- Whether the uploader is somebody else than `authority`. -/
def Action.byStranger (authority : K) : Action K → Bool
  | .instruction _ _ accounts => decide (accounts[2]?.map AccountInfo.key ≠ some authority)
  | _ => false

namespace Represents

theorem uploaded_step {a : Action K} (hw : WellTyped rt w) (hr : Represents rt acts w ws id r)
    (hreach : (Round.machine rt).Reachable r) (hs : Step rt w a w') (hup : a.Uploading rt id) :
    ∃ r', (Round.machine rt).Reachable r' ∧ Represents rt (a :: acts) w' (w :: ws) id r' ∧
      r.Uploaded rt id a.brought (a.byStranger r.config.authority) r' := by
  obtain ⟨pre, entries, accounts, rfl, hup⟩ := hup.eq_instruction
  cases hs with
  | instruction hsig hok =>
    obtain ⟨id', -, hon, hvalid, hall⟩ :=
      UploadReveals.follow hw hsig hok pre (.uploadReveals entries)
    obtain rfl := hup.eq hon
    obtain ⟨-, -, isAuthority, es, l, t, ps, digests, l', hwho, hups, hr'⟩ := hall _ _ r hr
    refine ⟨_, hreach.step (a := ()) (.uploadReveals hups.phase hups.fits hups.sweep hups.included),
      hr', ?_⟩
    have hstranger : Action.byStranger r.config.authority
        (.instruction pre (.uploadReveals entries) accounts) = !isAuthority := by
      simp only [Action.byStranger, ne_eq, hwho]
      cases isAuthority <;> rfl
    rw [hstranger]
    exact hups.uploaded hr (UploadReveals.validateEntries_ok hvalid).1

theorem uploaded_path (h : (system rt).History acts (w :: ws)) (hr : Represents rt acts w ws id r)
    (hreach : (Round.machine rt).Reachable r) (hp : (system rt).Path w as w') (hne : as ≠ [])
    (hup : ∀ a ∈ as, a.Uploading rt id) :
    ∃ ws' r', (system rt).History (as.reverse ++ acts) (w' :: ws') ∧
      (Round.machine rt).Reachable r' ∧ Represents rt (as.reverse ++ acts) w' ws' id r' ∧
      r.Uploaded rt id (as.flatMap Action.brought)
      (as.any (Action.byStranger r.config.authority)) r' := by
  induction hp generalizing acts ws r with
  | nil => exact absurd rfl hne
  | @cons w w₁ w' a as hs hp ih =>
    obtain ⟨r₁, hreach₁, hr₁, hup₁⟩ :=
      hr.uploaded_step (consistent h).typed hreach hs (hup a List.mem_cons_self)
    cases as with
    | nil =>
      cases hp
      refine ⟨w :: ws, r₁, h.step hs, hreach₁, hr₁, ?_⟩
      simpa using hup₁
    | cons b as =>
      obtain ⟨ws', r', hh, hreach', hr', hup'⟩ := ih (h.step hs) hr₁ hreach₁ (List.cons_ne_nil b as)
        fun x hx ↦ hup x (List.mem_cons_of_mem _ hx)
      rw [hup₁.config] at hup'
      refine ⟨ws', r', by simpa using hh, hreach', by simpa using hr', ?_⟩
      rw [List.flatMap_cons, List.any_cons]
      exact hup₁.trans hup'

end Represents

/-- Two states hold the same lottery, tally and participants. -/
structure AlikeIn (rt : Runtime K) (id : ℕ) (w₁ w₂ : World K) : Prop where
  lottery : (w₁.view rt id .lottery).data = (w₂.view rt id .lottery).data
  tally : (w₁.view rt id .voteTally).data = (w₂.view rt id .voteTally).data
  participants : ∀ wallet, (w₁.view rt id (.participant wallet)).data =
    (w₂.view rt id (.participant wallet)).data

theorem View.Fits.participant_data {v : View K} (h : v.Fits rt id) (wallet : K) :
    (v (.participant wallet)).data = .empty ∨ ∃ p : Participant K,
      (v (.participant wallet)).data = .participant p ∧ p.wallet = wallet := by
  have hholds := h.holds (s := .participant wallet)
  cases hd : (v (.participant wallet)).data with
  | empty => exact .inl rfl
  | participant p =>
    rw [hd] at hholds
    exact .inr ⟨p, rfl, (hholds (by simp)).2.1⟩
  | _ =>
    rw [hd] at hholds
    exact (hholds (by simp)).elim

namespace Represents

variable {acts₁ acts₂ : List (Action K)} {ws₁ ws₂ : List (World K)}

theorem participant_iff (hr : Represents rt acts w ws id r) (hfits : (w.view rt id).Fits rt id)
    (hopen : r.lottery.settled = false ∧ r.lottery.settlementComplete = false) {wallet : K} :
    (w.view rt id (.participant wallet)).data = .participant p ↔
      p ∈ r.participants ∧ p.wallet = wallet := by
  constructor
  · intro hd
    have hholds := hfits.holds (s := .participant wallet) (by simp [hd])
    rw [hd] at hholds
    exact ⟨hr.roster.mem_of_data hd, hholds.2.1⟩
  · rintro ⟨hp, rfl⟩
    exact hr.stored_of_open hopen hp

theorem alikeIn (h₁ : Represents rt acts₁ w₁ ws₁ id r₁) (h₂ : Represents rt acts₂ w₂ ws₂ id r₂)
    (hw₁ : WellTyped rt w₁) (hw₂ : WellTyped rt w₂)
    (hopen : r₁.lottery.settled = false ∧ r₁.lottery.settlementComplete = false)
    (hl : r₁.lottery = r₂.lottery) (hps : r₁.participants = r₂.participants)
    (ht : r₁.tally = r₂.tally) : AlikeIn rt id w₁ w₂ := by
  refine ⟨?_, ?_, fun wallet ↦ ?_⟩
  · rw [h₁.lottery, h₂.lottery, hl]
  · rw [h₁.tally, h₂.tally, ht]
  · have hiff {p : Participant K} : (w₁.view rt id (.participant wallet)).data = .participant p ↔
        (w₂.view rt id (.participant wallet)).data = .participant p := by
      rw [h₁.participant_iff (hw₁.fits id) hopen,
        h₂.participant_iff (hw₂.fits id) (hl ▸ hopen), hps]
    rcases (hw₁.fits id).participant_data wallet with he₁ | ⟨p, hp, -⟩
    · rcases (hw₂.fits id).participant_data wallet with he₂ | ⟨p, hp, -⟩
      · rw [he₁, he₂]
      · rw [hp, hiff.mpr hp]
    · rw [hp, hiff.mp hp]

theorem uploads_alike (h : (system rt).History acts (w :: ws)) (hr : Represents rt acts w ws id r)
    (hreach : (Round.machine rt).Reachable r) (hp₁ : (system rt).Path w as₁ w₁)
    (hp₂ : (system rt).Path w as₂ w₂) (hne₁ : as₁ ≠ []) (hne₂ : as₂ ≠ [])
    (hup₁ : ∀ a ∈ as₁, a.Uploading rt id) (hup₂ : ∀ a ∈ as₂, a.Uploading rt id)
    (hperm : (as₁.flatMap Action.brought).Perm (as₂.flatMap Action.brought))
    (hwho : as₁.any (Action.byStranger r.config.authority) =
      as₂.any (Action.byStranger r.config.authority)) : AlikeIn rt id w₁ w₂ := by
  obtain ⟨ws₁, r₁, hh₁, hreach₁, hr₁, hu₁⟩ := hr.uploaded_path h hreach hp₁ hne₁ hup₁
  obtain ⟨ws₂, r₂, hh₂, hreach₂, hr₂, hu₂⟩ := hr.uploaded_path h hreach hp₂ hne₂ hup₂
  obtain ⟨hset, hsc, -⟩ := hu₁.opened_after
  rw [← hwho] at hu₂
  obtain ⟨hl, hps, ht⟩ := hu₁.unique hu₂ hperm hreach₁ hreach₂
  exact hr₁.alikeIn hr₂ (consistent hh₁).typed (consistent hh₂).typed ⟨hset, hsc⟩ hl hps ht

end Represents

/-- Which uploader brings which of the reveals, in how many calls and in which order, does not show
in the lottery, its tally or its participants: only the entries do, and whether a stranger was among
the uploaders. -/
theorem uploads_confluent (h : (system rt).History acts (w :: ws))
    (hc : (w.accounts rt.configKey).data = .config c)
    (hl : (w.view rt id .lottery).data = .lottery l) (hp₁ : (system rt).Path w as₁ w₁)
    (hp₂ : (system rt).Path w as₂ w₂) (hne₁ : as₁ ≠ []) (hne₂ : as₂ ≠ [])
    (hup₁ : ∀ a ∈ as₁, a.Uploading rt id) (hup₂ : ∀ a ∈ as₂, a.Uploading rt id)
    (hperm : (as₁.flatMap Action.brought).Perm (as₂.flatMap Action.brought))
    (hwho : as₁.any (Action.byStranger c.authority) = as₂.any (Action.byStranger c.authority)) :
    AlikeIn rt id w₁ w₂ := by
  obtain ⟨r, hreach, -, hr, -⟩ := represented h hl
  obtain rfl := hr.eq_config hc
  exact hr.uploads_alike h hreach hp₁ hp₂ hne₁ hne₂ hup₁ hup₂ hperm hwho

namespace Sample

/-- Two reveals from one stranger, and in the other order from two. -/
def fromOne : List (Action Key) := [upload 1 5 [20], upload 1 5 [21]]

def fromTwo : List (Action Key) := [upload 1 6 [21], upload 1 5 [20]]

theorem uploading_of_pair {n m : ℕ} {us vs : List ℕ} :
    ∀ a ∈ [upload 1 n us, upload 1 m vs], a.Uploading Sample.rt 1 :=
  List.forall_mem_cons.mpr ⟨rfl, List.forall_mem_singleton.mpr rfl⟩

end Sample

/-- Two strangers in one order and one in the other leave the same. -/
theorem uploads_confluent_sample : ∃ w w₁ w₂ : World Sample.Key,
    (system Sample.rt).Path w Sample.fromOne w₁ ∧ (system Sample.rt).Path w Sample.fromTwo w₂ ∧
    AlikeIn Sample.rt 1 w₁ w₂ := by
  obtain ⟨w, ws, l, h, hl, hp⟩ := Sample.run_lottery Sample.receipts 1
    (fun w _ ↦ ((AccountType.unwrap (w.accounts Sample.rt.configKey).data :
      Option (Config Sample.Key)).any fun (c : Config Sample.Key) ↦
        Sample.fromOne.any (Action.byStranger c.authority) ==
          Sample.fromTwo.any (Action.byStranger c.authority)) &&
      (execAll Sample.rt Sample.Key.isWallet Sample.fromOne w).isSome &&
      (execAll Sample.rt Sample.Key.isWallet Sample.fromTwo w).isSome) (by decide +kernel)
  simp only [Bool.and_eq_true, Option.any_eq_true, Option.isSome_iff_exists, beq_iff_eq] at hp
  obtain ⟨⟨⟨c, hc, hwho⟩, w₁, hw₁⟩, w₂, hw₂⟩ := hp
  have hp₁ := execAll_path Sample.foreign_of_isWallet hw₁
  have hp₂ := execAll_path Sample.foreign_of_isWallet hw₂
  exact ⟨w, w₁, w₂, hp₁, hp₂, uploads_confluent h (unwrap_config.mp hc) hl hp₁ hp₂
    (List.cons_ne_nil _ _) (List.cons_ne_nil _ _) Sample.uploading_of_pair Sample.uploading_of_pair
    (List.Perm.swap _ _ []) hwho⟩

theorem Round.hasMissing_of_mem (hi : r.Invariant rt) (hp : p ∈ r.participants)
    (hatt : p.attestedUploaded = true) (hno : p.revealIncluded = false) :
    r.lottery.hasMissingAttestedReveals = true := by
  have hbal := hi.books.balanced
  have hattested : r.lottery.attestedCount = _ := hbal.attested
  have hincluded : r.lottery.providerUploadedCount = _ := hbal.included
  have hle := hbal.included_le
  have hne : Ballot.attestedOf r.books.ballots ≠ Ballot.includedOf r.books.ballots := by
    intro heq
    have hinc := of_countP_eq (fun y hy ↦ (hbal.valid y hy).attested) heq.symm p.ballot
      (List.mem_map_of_mem hp) hatt
    exact absurd hinc (by simp [Participant.ballot, hno])
  rw [Lottery.hasMissing_eq_true]
  omega

namespace UploadReveals

/-- While reveals are missing, an uploader that was let through once is let through again. -/
theorem readmitted {E : List (K × Bytes)} {isAuthority : Bool}
    (h : r.Uploaded rt id E (!isAuthority) r')
    (hallow : checkPhase r.lottery isAuthority r.now = .ok l)
    (hmiss : r.lottery.hasMissingAttestedReveals = true)
    (hmiss' : r'.lottery.hasMissingAttestedReveals = true) :
    ∃ l', checkPhase r'.lottery isAuthority r.now = .ok l' := by
  obtain ⟨hexp, hwho, -, -, -, hopened, hatt, -⟩ := checkPhase_ok hallow
  obtain ⟨hset, hsc, -⟩ := h.opened_after
  have hel : r'.lottery.uploadElapsed r.now = r.lottery.uploadElapsed r.now :=
    h.same (f := fun l ↦ l.uploadElapsed r.now) fun _ ↦ rfl
  have hall : r'.lottery.allAttested = r.lottery.allAttested :=
    h.same (f := Lottery.allAttested) fun _ ↦ rfl
  have hatt' : r'.lottery.attestedCount = r.lottery.attestedCount :=
    h.same (f := Lottery.attestedCount) fun _ ↦ rfl
  have huc : r'.lottery.uploadsComplete = false := by
    rw [h.complete, decide_eq_false_iff_not, not_le]
    exact (Lottery.hasMissing_eq_true.mp hmiss').2
  have hexp' : r'.lottery.remediationExpired r.now = false := by
    simp only [Lottery.remediationExpired, hmiss, hmiss', Bool.and_true, decide_eq_false_iff_not]
      at hexp ⊢
    rw [h.deadline]
    split
    · have : (0 : ℤ) ≤ Sizes.defaultRemediationWindowSecs := by decide
      omega
    · exact hexp
  have hcan : canRemediate r'.lottery isAuthority r.now = !isAuthority := by
    cases isAuthority with
    | true => rfl
    | false => simpa [canRemediate, hel, hmiss', hexp'] using
        canRemediate_elapsed (hwho.resolve_left Bool.false_ne_true)
  -- the remediation is not begun twice
  have hbegun : ¬(canRemediate r'.lottery isAuthority r.now = true ∧
      r'.lottery.remediationStartUnix = 0) := by
    rintro ⟨hstranger, hz⟩
    rw [hcan] at hstranger
    have hpos := Lottery.now_pos_of_elapsed (canRemediate_elapsed
      (hwho.resolve_left fun ha ↦ by simp [ha] at hstranger))
    rw [h.remediation] at hz
    split at hz
    · omega
    · next hno => exact hno ⟨hstranger, hz⟩
  simp only [checkPhase, exists_bind_eq_ok, rejectIf_eq_ok, exists_const, pure_eq_ok]
  refine ⟨by simp [hexp'], by simp [hcan], r'.lottery, if_neg hbegun,
    by simp [hset, hsc, huc], ?_, ?_, _, rfl⟩
  · rintro ⟨hno, hnall, hz⟩
    rw [hel] at hno
    rw [hall] at hnall
    rw [h.settlement] at hz
    rcases hopened with he | ha | hs
    · simp [he] at hno
    · simp [ha] at hnall
    · rw [if_neg hs] at hz
      exact hs hz
  · split
    · exact hatt' ▸ hatt
    · exact hatt' ▸ hatt

def call (rt : Runtime K) (id : ℕ) (uploader : K) (entries : List (K × Bytes)) : Action K :=
  .instruction [] (.uploadReveals entries) (accounts rt id uploader entries)

theorem call_uploading (entries : List (K × Bytes)) :
    (call rt id payer entries).Uploading rt id := rfl

theorem byStranger_call (authority : K) (entries : List (K × Bytes)) :
    (call rt id payer entries).byStranger authority = !decide (payer = authority) := by
  simp [Action.byStranger, call, accounts]

theorem batches_path {batches : List (List (K × Bytes))} (h : (system rt).History acts (w :: ws))
    (hr : Represents rt acts w ws id r) (hreach : (Round.machine rt).Reachable r)
    (htwo : 2 ≤ r.lottery.participantsCount) (hf : rt.Foreign payer)
    (hallow : batches ≠ [] →
      ∃ l, checkPhase r.lottery (decide (payer = r.config.authority)) r.now = .ok l)
    (hready : TallyReady rt id w payer (r.config.effectiveMaxWinners r.lottery.participantsCount))
    (hne : ∀ b ∈ batches, b ≠ []) (hnd : (batches.flatten.map Prod.fst).Nodup)
    (hlen : ∀ e ∈ batches.flatten, e.2.length ≤ maxRevealPlaintextBytes)
    (hans : ∀ e ∈ batches.flatten, ∃ p, Answers rt id (w.view rt id) e p) :
    ∃ w', (system rt).Path w (batches.map (call rt id payer)) w' := by
  induction batches generalizing acts w ws r with
  | nil => exact ⟨w, .nil w⟩
  | cons b bs ih =>
    obtain ⟨l, hallow⟩ := hallow (List.cons_ne_nil b bs)
    rw [List.flatten_cons] at hnd hlen hans
    rw [List.map_append, List.nodup_append'] at hnd
    obtain ⟨hnd, hnds, hdisj⟩ := hnd
    have htyped := (consistent h).typed
    obtain ⟨w₁, hok⟩ := admitted h ⟨htyped, hr.config,
      hr.lottery⟩ htwo (hr.now ▸ hallow) hready hf hnd
      (fun e he ↦ hlen e (List.mem_append_left _ he)) (fun e he ↦
        hans e (List.mem_append_left _ he))
    have hs : Step rt w (call rt id payer b) w₁ := step_of_succeeds hf hok
    obtain ⟨r₁, hreach₁, hr₁, hup⟩ := hr.uploaded_step htyped hreach hs (call_uploading b)
    rw [byStranger_call] at hup
    obtain ⟨hset, hsc, hpc⟩ := hup.opened_after
    have hans₁ : ∀ e ∈ bs.flatten, ∃ p, Answers rt id (w₁.view rt id) e p := by
      intro e he
      obtain ⟨p, hp⟩ := hans e (List.mem_append_right _ he)
      obtain ⟨i, hi⟩ := hr.roster.getElem_of_data hp.data
      have hno : rt.slotKey id (.participant p.wallet) ∉ b.map Prod.fst := fun hmem ↦
        hdisj hmem (List.mem_map.mpr ⟨e, he, hp.key⟩)
      rcases hup.rows i p hi with ⟨-, hi₁⟩ | ⟨plaintext, hmem, -⟩
      · exact ⟨p, hp.key, hr₁.stored_of_open ⟨hset, hsc⟩ (List.mem_of_getElem? hi₁), hp.attested,
          hp.missing, hp.hash⟩
      · exact absurd (List.mem_map.mpr ⟨_, hmem, rfl⟩) hno
    have hready₁ : TallyReady rt id w₁ payer
        (r₁.config.effectiveMaxWinners r₁.lottery.participantsCount) := by
      intro he
      obtain ⟨t, ht, -⟩ := hup.tally
      rw [hr₁.tally, ht] at he
      cases he
    have hallow₁ : bs ≠ [] →
        ∃ l, checkPhase r₁.lottery (decide (payer = r₁.config.authority)) r₁.now = .ok l := by
      intro hbs
      obtain ⟨x, hx⟩ := List.exists_mem_of_ne_nil bs hbs
      obtain ⟨e, he⟩ := List.exists_mem_of_ne_nil x (hne x (List.mem_cons_of_mem _ hx))
      have hmem : e ∈ bs.flatten := List.mem_flatten.mpr ⟨x, hx, he⟩
      obtain ⟨p, hp⟩ := hans e (List.mem_append_right _ hmem)
      obtain ⟨p₁, hp₁⟩ := hans₁ e hmem
      rw [hup.config, hup.now]
      exact readmitted hup hallow
        (Round.hasMissing_of_mem (Round.invariant hreach)
          (hr.roster.mem_of_data hp.data) hp.attested
          hp.missing)
        (Round.hasMissing_of_mem (Round.invariant hreach₁) (hr₁.roster.mem_of_data hp₁.data)
          hp₁.attested hp₁.missing)
    obtain ⟨w', hp'⟩ := ih (h.step hs) hr₁ hreach₁ (hpc ▸ htwo) hallow₁ hready₁
      (fun x hx ↦ hne x (List.mem_cons_of_mem _ hx)) hnds
      (fun e he ↦ hlen e (List.mem_append_right _ he)) hans₁
    exact ⟨w', .cons hs hp'⟩

theorem batches_uploading (batches : List (List (K × Bytes))) :
    ∀ a ∈ batches.map (call rt id payer), a.Uploading rt id := by
  intro a ha
  obtain ⟨b, -, rfl⟩ := List.mem_map.mp ha
  exact call_uploading b

theorem batches_brought (batches : List (List (K × Bytes))) :
    (batches.map (call rt id payer)).flatMap Action.brought = batches.flatten := by
  rw [List.flatMap_map]
  exact List.flatMap_id

theorem batches_byStranger {batches : List (List (K × Bytes))} (hne : batches ≠ [])
    (authority : K) : (batches.map (call rt id payer)).any (Action.byStranger authority) =
      !decide (payer = authority) := by
  obtain ⟨b, bs, rfl⟩ := List.exists_cons_of_ne_nil hne
  simp only [List.map_cons, List.any_cons, List.any_map, Function.comp_def, byStranger_call]
  cases decide (payer = authority) <;> simp

theorem ne_nil_of_perm {batches : List (List (K × Bytes))} {entries : List (K × Bytes)}
    (hsome : entries ≠ []) (hperm : batches.flatten.Perm entries) : batches ≠ [] := by
  rintro rfl
  exact hsome hperm.symm.eq_nil

variable (rt) in
/-- Some upload to lottery `id` by `uploader` goes through. -/
def Admits (id : ℕ) (w : World K) (uploader : K) : Prop :=
  ∃ pre entries accounts w', Step rt w (.instruction pre (.uploadReveals entries) accounts) w' ∧
    CallsOn rt accounts id ∧ accounts[2]?.map AccountInfo.key = some uploader

theorem tallyReady_of_ok {mw : ℕ} {uploaderAi voteTallyAi lotteryAi : AccountInfo K}
    {x : World K × VoteTally K} (hacc : w'.accounts = w.accounts)
    (hk : voteTallyAi.key = rt.slotKey id .voteTally)
    (h : loadOrCreateTally rt w' l mw uploaderAi voteTallyAi lotteryAi = .ok x) :
    TallyReady rt id w uploaderAi.key mw := by
  intro he
  have hempty : dataIsEmpty w' voteTallyAi = true := by
    rw [dataIsEmpty, hk, hacc, AccountData.isEmpty_eq_true]
    exact he
  simp only [loadOrCreateTally, hempty, if_true, bind_eq_ok] at h
  obtain ⟨-, -, w₁, hcreate, -⟩ := h
  obtain ⟨-, hunused, hdata, howner, hle, -⟩ := createAccount_eq_ok.mp hcreate
  rw [hk, hacc] at hunused
  rw [hacc] at hdata howner hle
  refine ⟨fun hsq ↦ absurd (congrArg Account.lamports hunused) hsq.funded.ne', _, ?_, hle⟩
  rw [← howner, ← AccountData.isEmpty_eq_true.mp hdata]

/-- Whom an upload was taken from passes the phase checks, and there is a tally for its reveals. -/
theorem Admits.ready (hadm : Admits rt id w payer) (hw : WellTyped rt w)
    (hc : (w.accounts rt.configKey).data = .config c)
    (hl : (w.view rt id .lottery).data = .lottery l) : rt.Foreign payer ∧
      (∃ l₁, checkPhase l (decide (payer = c.authority)) w.clock = .ok l₁) ∧
      TallyReady rt id w payer (c.effectiveMaxWinners l.participantsCount) := by
  obtain ⟨pre, entries, accounts, w', hs, hon, hwho⟩ := hadm
  obtain ⟨hsig, hok⟩ : SignersAreKeys rt accounts ∧ process rt w accounts entries = .ok w' := by
    cases hs with
    | instruction hsig hok => exact ⟨hsig, hok⟩
  unfold process at hok
  split at hok
  · next configAi lotteryAi uploaderAi _ voteTallyAi rest =>
    obtain rfl : uploaderAi.key = payer := Option.some.inj hwho
    simp only [bind_eq_ok, assertPdaOwned_eq_ok, assertPdaKey_eq_ok, requireSigner_eq_ok,
      requireWritable_eq_ok, requireKeyMatch_eq_ok, rejectIf_eq_ok, exists_const,
      writeAccountData_eq_ok, Prod.exists, not_not, ne_eq] at hok
    obtain ⟨⟨hck, -⟩, -, hsign, -, -, -, -, c₁, hc₁, l₁, hl₁, ⟨hlk, -⟩, -, l₂, hcheck, hvk,
      w₁, t, htally, -⟩ := hok
    obtain ⟨hlk, hld, -, -⟩ := hw.readLottery hlk hl₁
    obtain rfl : id = l₁.id := hon.eq (congrArg some hlk)
    cases hl.symm.trans hld
    cases hc.symm.trans (hw.readConfig hck hc₁).1
    have hvk : voteTallyAi.key = rt.slotKey l.id .voteTally := by
      rw [← hvk, hlk]
      rfl
    have hready := tallyReady_of_ok (World.accounts_ite_emit _ _ _) hvk htally
    rw [(checkPhase_ok hcheck).2.2.2.2.2.2.2] at hready
    exact ⟨hsig uploaderAi (by simp) hsign, ⟨l₂, hcheck⟩, hready⟩
  · cases hok

end UploadReveals

/-- However the reveals that an uploader may bring are cut into calls and ordered, within a call and
among them, every call is taken, and together they leave what one call with all of them leaves. -/
theorem batches_taken {entries : List (K × Bytes)} {batches : List (List (K × Bytes))}
    {l₁ : Lottery K}
    (h : (system rt).History acts (w :: ws)) (hc : (w.accounts rt.configKey).data = .config c)
    (hl : (w.view rt id .lottery).data = .lottery l) (htwo : 2 ≤ l.participantsCount)
    (hf : rt.Foreign payer)
    (hallow : UploadReveals.checkPhase l (decide (payer = c.authority)) w.clock = .ok l₁)
    (hready : TallyReady rt id w payer (c.effectiveMaxWinners l.participantsCount))
    (hsome : entries ≠ []) (hnd : (entries.map Prod.fst).Nodup)
    (hlen : ∀ e ∈ entries, e.2.length ≤ maxRevealPlaintextBytes)
    (hans : ∀ e ∈ entries, ∃ p, Answers rt id (w.view rt id) e p)
    (hne : ∀ b ∈ batches, b ≠ []) (hperm : batches.flatten.Perm entries) :
    ∃ w₁ w₂, Step rt w (UploadReveals.call rt id payer entries) w₁ ∧
      (system rt).Path w (batches.map (UploadReveals.call rt id payer)) w₂ ∧
      AlikeIn rt id w₁ w₂ := by
  obtain ⟨r, hreach, -, hr, rfl, -⟩ := represented h hl
  obtain rfl := hr.eq_config hc
  obtain ⟨w₁, hok⟩ := UploadReveals.admitted h ⟨(consistent h).typed, hc,
    hl⟩ htwo hallow hready hf hnd
    hlen hans
  have hs : Step rt w (UploadReveals.call rt id payer entries) w₁ :=
    UploadReveals.step_of_succeeds hf hok
  obtain ⟨w₂, hp⟩ := UploadReveals.batches_path h hr hreach htwo hf (fun _ ↦ ⟨_, hr.now ▸ hallow⟩)
    hready hne ((hperm.map Prod.fst).nodup_iff.mpr hnd) (fun e he ↦ hlen e (hperm.mem_iff.mp he))
    (fun e he ↦ hans e (hperm.mem_iff.mp he))
  have hbs := UploadReveals.ne_nil_of_perm hsome hperm
  refine ⟨w₁, w₂, hs, hp, hr.uploads_alike h hreach (.one hs) hp (List.cons_ne_nil _ _)
    (List.map_eq_nil_iff.not.mpr hbs) (List.forall_mem_singleton.mpr
      (UploadReveals.call_uploading entries)) (UploadReveals.batches_uploading batches) ?_ ?_⟩
  · rw [UploadReveals.batches_brought]
    simpa [UploadReveals.call, Action.brought] using hperm.symm
  · rw [UploadReveals.batches_byStranger hbs, List.any_cons, List.any_nil, Bool.or_false,
      UploadReveals.byStranger_call]

namespace Sample

def both : List (Key × Bytes) := [(participantKey 1 20, reveal 20),
    (participantKey 1 21, reveal 21)]

def inTurn : List (List (Key × Bytes)) :=
  [[(participantKey 1 21, reveal 21)], [(participantKey 1 20, reveal 20)]]

theorem inTurn_ne_nil : ∀ b ∈ inTurn, b ≠ [] :=
  List.forall_mem_cons.mpr ⟨List.cons_ne_nil _ _,
    List.forall_mem_singleton.mpr (List.cons_ne_nil _ _)⟩

theorem inTurn_perm : inTurn.flatten.Perm both := .swap _ _ []

theorem receipts_reveals : ∃ (w : World Key) (ws : List (World Key)) (l l₁ : Lottery Key)
    (c : Config Key), (system Sample.rt).History receipts.reverse (w :: ws) ∧
    (w.accounts Sample.rt.configKey).data = .config c ∧
    (w.view Sample.rt 1 .lottery).data = .lottery l ∧ 2 ≤ l.participantsCount ∧
    UploadReveals.checkPhase l (decide (Key.wallet 5 = c.authority)) w.clock = .ok l₁ ∧
    TallyReady Sample.rt 1 w (.wallet 5) (c.effectiveMaxWinners l.participantsCount) ∧
    ∀ e ∈ both, ∃ p, Answers Sample.rt 1 (w.view Sample.rt 1) e p := by
  obtain ⟨w, ws, l, h, hl, hp⟩ := run_lottery receipts 1 (fun w l ↦
    decide (2 ≤ l.participantsCount) && missing w 20 && missing w 21 &&
    ((AccountType.unwrap (w.accounts Sample.rt.configKey).data : Option (Config Key)).any
      fun (c : Config Key) ↦
        (UploadReveals.checkPhase l (decide (Key.wallet 5 = c.authority))
          w.clock).toOption.isSome &&
        funds w c 5 l.participantsCount)) (by decide +kernel)
  simp only [Bool.and_eq_true, decide_eq_true_eq, Option.any_eq_true,
    Option.isSome_iff_exists] at hp
  obtain ⟨⟨⟨htwo, h20⟩, h21⟩, c, hc, ⟨l₁, hl₁⟩, hfunds⟩ := hp
  have hcheck : UploadReveals.checkPhase l (decide (Key.wallet 5 = c.authority)) w.clock =
    .ok l₁ := by
    cases hx : UploadReveals.checkPhase l (decide (Key.wallet 5 = c.authority)) w.clock with
    | error e => simp [hx, Except.toOption] at hl₁
    | ok l₂ =>
      rw [hx] at hl₁
      exact congrArg _ (Option.some.inj hl₁)
  refine ⟨w, ws, l, l₁, c, h, unwrap_config.mp hc, hl, htwo, hcheck, tallyReady_of_funds hfunds, ?_⟩
  exact List.forall_mem_cons.mpr ⟨answers_of_missing h20,
    List.forall_mem_singleton.mpr (answers_of_missing h21)⟩

end Sample

/-- The two calls leave what the one leaves. -/
theorem batches_taken_sample : ∃ w w₁ w₂ : World Sample.Key,
    Step Sample.rt w (UploadReveals.call Sample.rt 1 (.wallet 5) Sample.both) w₁ ∧
    (system Sample.rt).Path w (Sample.inTurn.map (UploadReveals.call Sample.rt 1 (.wallet 5))) w₂ ∧
    AlikeIn Sample.rt 1 w₁ w₂ := by
  obtain ⟨w, ws, l, l₁, c, h, hc, hl, htwo, hallow, hready, hans⟩ := Sample.receipts_reveals
  have hnd : (Sample.both.map Prod.fst).Nodup := by decide +kernel
  have hlen : ∀ e ∈ Sample.both, e.2.length ≤ maxRevealPlaintextBytes := by decide
  obtain ⟨w₁, w₂, hs, hp, halike⟩ := batches_taken h hc hl htwo (Sample.foreign_of_isWallet _ rfl)
    hallow hready (List.cons_ne_nil _ _) hnd hlen hans Sample.inTurn_ne_nil Sample.inTurn_perm
  exact ⟨w, w₁, w₂, hs, hp, halike⟩

/-- What an account holds and whose it is, whatever is written in it. -/
def Account.shell (a : Account K) : ℕ × K := (a.lamports, a.owner)

theorem World.shell_setData (w : World K) (k k' : K) (d : AccountData K) :
    ((w.setData k d).accounts k').shell = (w.accounts k').shell := by
  by_cases hk : k' = k
  · subst hk
    simp [World.setData, World.setAccount, Account.shell]
  · simp [World.setData, World.setAccount, Function.update_of_ne hk]

namespace UploadReveals

theorem processEntries_shell {mw : ℕ} {lotteryAi : AccountInfo K} {rest : List (AccountInfo K)}
    {entries : List (K × Bytes)} {t t' : VoteTally K} {ds ds' : List Bytes32}
    (h : processEntries rt mw lotteryAi rest entries w t ds = .ok (w', t', ds')) (k : K) :
    (w'.accounts k).shell = (w.accounts k).shell := by
  induction entries generalizing w t ds with
  | nil =>
    cases h
    rfl
  | cons e entries ih =>
    simp only [processEntries, bind_eq_ok, writeAccountData_eq_ok, Prod.exists] at h
    obtain ⟨ai, -, -, -, p, -, -, -, -, -, t₁, p₁, digest, -, w₁, ⟨-, -, -, rfl⟩, h⟩ := h
    exact (ih h).trans (World.shell_setData w _ _ _)

/-- The tally is created with the rent of its size, and nothing else changes but data. -/
theorem loadOrCreateTally_shell {mw : ℕ} {t : VoteTally K}
    {uploaderAi voteTallyAi lotteryAi : AccountInfo K} (hf : rt.Foreign uploaderAi.key)
    (hvk : voteTallyAi.key = rt.slotKey id .voteTally)
    (h : loadOrCreateTally rt w l mw uploaderAi voteTallyAi lotteryAi = .ok (w', t)) (s : Slot K) :
    (w'.view rt id s).shell =
      if s = .voteTally ∧ (w.view rt id .voteTally).data.isEmpty = true then
        (rt.minimumBalance (VoteTally.accountSizeFor mw), rt.programId)
      else (w.view rt id s).shell := by
  unfold loadOrCreateTally dataIsEmpty at h
  rw [hvk, World.accounts_slotKey] at h
  split at h
  · next he =>
    simp only [bind_eq_ok, pure_eq_ok, Prod.mk.injEq, writeAccountData_eq_ok, exists_const,
      requireWritable_eq_ok] at h
    obtain ⟨-, w₁, hcreate, _, ⟨-, -, -, rfl⟩, rfl, -⟩ := h
    obtain ⟨-, -, hv⟩ := createAccount_ok hf hvk hcreate
    have hshell := World.shell_setData w₁ voteTallyAi.key (rt.slotKey id s)
      (AccountType.wrap (VoteTally.new lotteryAi.key mw l.attestedCount)
        (w₁.accounts voteTallyAi.key).data)
    rw [World.accounts_slotKey, World.accounts_slotKey, hv] at hshell
    rw [hshell]
    by_cases hs : s = .voteTally
    · subst hs
      rw [if_pos ⟨rfl, he⟩]
      simp [Account.shell]
    · rw [if_neg fun h ↦ hs h.1]
      simp [hs]
  · next he =>
    simp only [bind_eq_ok, rejectIf_eq_ok, exists_const, pure_eq_ok, Prod.mk.injEq] at h
    obtain ⟨_, -, -, -, rfl, -⟩ := h
    rw [if_neg fun h ↦ he h.2]

/-- An upload creates the tally where there is none, with the rent of its size, and moves no other
lamports of the lottery. -/
theorem shell_of_step {entries : List (K × Bytes)} (hw : WellTyped rt w)
    (hc : (w.accounts rt.configKey).data = .config c)
    (hl : (w.view rt id .lottery).data = .lottery l)
    (hs : Step rt w (call rt id payer entries) w') (s : Slot K) :
    (w'.view rt id s).shell =
      if s = .voteTally ∧ (w.view rt id .voteTally).data.isEmpty = true then
        (rt.minimumBalance (VoteTally.accountSizeFor
          (c.effectiveMaxWinners l.participantsCount)), rt.programId)
      else (w.view rt id s).shell := by
  cases hs with
  | instruction hsig hok =>
    have hf : rt.Foreign payer := hsig ⟨payer, true, true⟩ (by simp [accounts]) rfl
    simp only [processInstruction, process, accounts, readonly, writable, bind_eq_ok,
      assertPdaOwned_eq_ok, assertPdaKey_eq_ok, requireSigner_eq_ok, requireWritable_eq_ok,
      requireKeyMatch_eq_ok, rejectIf_eq_ok, exists_const, writeAccountData_eq_ok,
      Prod.exists] at hok
    obtain ⟨-, -, -, -, -, -, -, c', hc', l', hl', ⟨hlk, -⟩, -, l₁, hadmit, -, w₁, t, h₁, _, -,
      w₂, t', ds, h₂, l₂, -, _, ⟨-, -, -, rfl⟩, -, -, -, rfl⟩ := hok
    obtain rfl : c' = c := AccountData.config.inj ((hw.readConfig rfl hc').1.symm.trans hc)
    obtain ⟨hk, hld, -, -⟩ := hw.readLottery hlk hl'
    have hon : CallsOn rt (accounts rt id payer entries) id := rfl
    obtain rfl : id = l'.id := hon.eq (congrArg some hk)
    cases hl.symm.trans hld
    have hpc : l₁.participantsCount = l.participantsCount := by
      rw [(checkPhase_ok hadmit).2.2.2.2.2.2.2]
    have htally := loadOrCreateTally_shell hf rfl h₁ s
    rw [World.view_ite_emit, hpc] at htally
    rw [← htally, World.view, World.shell_setData, World.accounts_emit, World.shell_setData,
      World.accounts_ite_emit]
    exact processEntries_shell h₂ _

theorem shell_of_path {batches : List (List (K × Bytes))} (h : (system rt).History acts (w :: ws))
    (hc : (w.accounts rt.configKey).data = .config c)
    (hl : (w.view rt id .lottery).data = .lottery l) (hne : batches ≠ [])
    (hp : (system rt).Path w (batches.map (call rt id payer)) w') (s : Slot K) :
    (w'.view rt id s).shell =
      if s = .voteTally ∧ (w.view rt id .voteTally).data.isEmpty = true then
        (rt.minimumBalance (VoteTally.accountSizeFor
          (c.effectiveMaxWinners l.participantsCount)), rt.programId)
      else (w.view rt id s).shell := by
  induction batches generalizing acts w ws c l with
  | nil => exact absurd rfl hne
  | cons b bs ih =>
    cases hp with
    | @cons _ v _ _ _ hs hp =>
      have hshell := shell_of_step (consistent h).typed hc hl hs s
      by_cases hbs : bs = []
      · subst hbs
        cases hp
        exact hshell
      · -- the tally is there now
        obtain ⟨r, hreach, -, hr, rfl, -⟩ := represented h hl
        obtain ⟨r₁, -, hr₁, hup⟩ :=
          hr.uploaded_step (consistent h).typed hreach hs (call_uploading b)
        obtain ⟨t, ht, -⟩ := hup.tally
        have hdata : (v.view rt id .voteTally).data.isEmpty = false := by
          rw [hr₁.tally, ht]
          rfl
        rw [ih (h.step hs) hr₁.config hr₁.lottery hbs hp, if_neg (by simp [hdata]), hshell]

end UploadReveals

theorem AlikeIn.account_eq {w₁ w₂ : World K} (h : AlikeIn rt id w₁ w₂) {s : Slot K}
    (hs : s = .lottery ∨ s = .voteTally ∨ ∃ wallet, s = .participant wallet)
    (hshell : (w₁.view rt id s).shell = (w₂.view rt id s).shell) :
    w₁.view rt id s = w₂.view rt id s := by
  have hdata : (w₁.view rt id s).data = (w₂.view rt id s).data := by
    rcases hs with rfl | rfl | ⟨wallet, rfl⟩
    · exact h.lottery
    · exact h.tally
    · exact h.participants wallet
  cases h₁ : w₁.view rt id s
  cases h₂ : w₂.view rt id s
  rw [h₁, h₂] at hdata hshell
  obtain ⟨hlamports, howner⟩ := Prod.mk.inj hshell
  rw [Account.mk.injEq]
  exact ⟨hlamports, howner, hdata⟩

/-- Wherever an uploader is let through at all, how it cuts its reveals into calls and in which order
it brings them makes no difference: every call is taken, and the accounts are the same after it. -/
theorem batches_confluent {entries : List (K × Bytes)}
    {batches₁ batches₂ : List (List (K × Bytes))} (h : (system rt).History acts (w :: ws)) (hl : (w.view rt id .lottery).data = .lottery l)
    (htwo : 2 ≤ l.participantsCount) (hadm : UploadReveals.Admits rt id w payer)
    (hsome : entries ≠ []) (hnd : (entries.map Prod.fst).Nodup)
    (hlen : ∀ e ∈ entries, e.2.length ≤ maxRevealPlaintextBytes)
    (hans : ∀ e ∈ entries, ∃ p, Answers rt id (w.view rt id) e p)
    (hne₁ : ∀ b ∈ batches₁, b ≠ []) (hperm₁ : batches₁.flatten.Perm entries)
    (hne₂ : ∀ b ∈ batches₂, b ≠ []) (hperm₂ : batches₂.flatten.Perm entries) :
    ∃ w₁ w₂, (system rt).Path w (batches₁.map (UploadReveals.call rt id payer)) w₁ ∧
      (system rt).Path w (batches₂.map (UploadReveals.call rt id payer)) w₂ ∧
      ∀ s, s = .lottery ∨ s = .voteTally ∨ (∃ wallet, s = .participant wallet) →
        w₁.view rt id s = w₂.view rt id s := by
  obtain ⟨r, hreach, -, hr, rfl, -⟩ := represented h hl
  obtain ⟨hf, ⟨l₁, hallow⟩, hready⟩ := hadm.ready (consistent h).typed hr.config hl
  have hruns {batches : List (List (K × Bytes))} (hne : ∀ b ∈ batches, b ≠ [])
      (hperm : batches.flatten.Perm entries) :
      ∃ w', (system rt).Path w (batches.map (UploadReveals.call rt id payer)) w' :=
    UploadReveals.batches_path h hr hreach htwo hf (fun _ ↦ ⟨_, hr.now ▸ hallow⟩) hready hne
      ((hperm.map Prod.fst).nodup_iff.mpr hnd) (fun e he ↦ hlen e (hperm.mem_iff.mp he))
      (fun e he ↦ hans e (hperm.mem_iff.mp he))
  obtain ⟨w₁, hp₁⟩ := hruns hne₁ hperm₁
  obtain ⟨w₂, hp₂⟩ := hruns hne₂ hperm₂
  have hbs₁ := UploadReveals.ne_nil_of_perm hsome hperm₁
  have hbs₂ := UploadReveals.ne_nil_of_perm hsome hperm₂
  have halike : AlikeIn rt id w₁ w₂ := by
    refine hr.uploads_alike h hreach hp₁ hp₂ (List.map_eq_nil_iff.not.mpr hbs₁)
      (List.map_eq_nil_iff.not.mpr hbs₂) (UploadReveals.batches_uploading batches₁)
      (UploadReveals.batches_uploading batches₂) ?_ ?_
    · rw [UploadReveals.batches_brought, UploadReveals.batches_brought]
      exact hperm₁.trans hperm₂.symm
    · rw [UploadReveals.batches_byStranger hbs₁, UploadReveals.batches_byStranger hbs₂]
  refine ⟨w₁, w₂, hp₁, hp₂, fun s hs ↦ halike.account_eq hs ?_⟩
  rw [UploadReveals.shell_of_path h hr.config hl hbs₁ hp₁,
    UploadReveals.shell_of_path h hr.config hl hbs₂ hp₂]

/-- Wallet 5 brings the reveals of wallets 20 and 21 at once, or one by one. -/
theorem batches_confluent_sample : ∃ w w₁ w₂ : World Sample.Key,
    (system Sample.rt).Path w [UploadReveals.call Sample.rt 1 (.wallet 5) Sample.both] w₁ ∧
    (system Sample.rt).Path w (Sample.inTurn.map (UploadReveals.call Sample.rt 1 (.wallet 5))) w₂ ∧
    w₁.view Sample.rt 1 .lottery = w₂.view Sample.rt 1 .lottery ∧
    w₁.view Sample.rt 1 .voteTally = w₂.view Sample.rt 1 .voteTally ∧
    ∀ wallet, w₁.view Sample.rt 1 (.participant wallet) =
      w₂.view Sample.rt 1 (.participant wallet) := by
  obtain ⟨w, ws, l, l₁, c, h, hc, hl, htwo, hallow, hready, hans⟩ := Sample.receipts_reveals
  have hf := Sample.foreign_of_isWallet (.wallet 5) rfl
  have hnd : (Sample.both.map Prod.fst).Nodup := by decide +kernel
  have hlen : ∀ e ∈ Sample.both, e.2.length ≤ maxRevealPlaintextBytes := by decide
  have hadm : UploadReveals.Admits Sample.rt 1 w (.wallet 5) := by
    obtain ⟨w', hok⟩ := UploadReveals.admitted h ⟨(consistent h).typed, hc,
      hl⟩ htwo hallow hready hf
      hnd hlen hans
    exact ⟨[], _, _, w', UploadReveals.step_of_succeeds hf hok, rfl, rfl⟩
  have hone : ∀ b ∈ [Sample.both], b ≠ [] := List.forall_mem_singleton.mpr (List.cons_ne_nil _ _)
  have hperm : [Sample.both].flatten.Perm Sample.both := .refl _
  obtain ⟨w₁, w₂, hp₁, hp₂, hsame⟩ := batches_confluent h hl htwo hadm (List.cons_ne_nil _ _) hnd
    hlen hans hone hperm Sample.inTurn_ne_nil Sample.inTurn_perm
  exact ⟨w, w₁, w₂, hp₁, hp₂, hsame _ (.inl rfl), hsame _ (.inr (.inl rfl)), fun wallet ↦
    hsame _ (.inr (.inr ⟨wallet, rfl⟩))⟩

end DailyLottery
