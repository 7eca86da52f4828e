import DailyLottery.Round.Balanced

set_option linter.unusedSectionVars false

namespace DailyLottery

open Lib Ballot

variable {K : Type} [DecidableEq K] [Inhabited K]

theorem Lottery.hasMissing_eq_true {l : Lottery K} : l.hasMissingAttestedReveals = true ↔
    0 < l.attestedCount ∧ l.providerUploadedCount < l.attestedCount := by
  simp [hasMissingAttestedReveals]

theorem Lottery.hasMissing_eq_false {l : Lottery K} : l.hasMissingAttestedReveals = false ↔
    (l.attestedCount = 0 ∨ l.attestedCount ≤ l.providerUploadedCount) := by
  rw [← Bool.not_eq_true, hasMissing_eq_true]
  omega

theorem Lottery.remediationExpired_eq_true {l : Lottery K} {now : ℤ} :
    l.remediationExpired now = true ↔ (0 < l.remediationDeadlineUnix ∧
      l.remediationDeadlineUnix < now) ∧ l.hasMissingAttestedReveals = true := by
  simp [remediationExpired]

theorem VoteTally.selectedWinners_update (t : VoteTally K) (m p n : ℕ) :
    { t with totalAttested := m, processedCount := p }.selectedWinners n = t.selectedWinners n := by
  have hscan (cs : List ℕ) (b : Best) :
      { t with totalAttested := m, processedCount := p }.scan cs b = t.scan cs b := by
    induction cs generalizing b with
    | nil => rfl
    | cons c cs ih =>
      unfold scan
      simp only [ih]
  unfold selectedWinners
  simp only [hscan]

theorem Lottery.now_pos_of_elapsed {l : Lottery K} {now : ℤ} (h : l.uploadElapsed now = true) :
    0 < now := by
  have := uploadElapsed_eq_true.mp h
  omega

theorem UploadReveals.canRemediate_elapsed {l : Lottery K} {isAuthority : Bool} {now : ℤ}
    (h : canRemediate l isAuthority now = true) : l.uploadElapsed now = true := by
  simp only [canRemediate, Bool.and_eq_true] at h
  exact h.1.1.2

namespace Books

/-- Every attested reveal is in, and nobody can attest any more. -/
structure Sealed (b : Books K) : Prop where
  two_le : 1 < b.lottery.participantsCount
  attested : b.lottery.attestedCount ≠ 0
  no_missing : b.lottery.hasMissingAttestedReveals = false
  ended : b.lottery.uploadsComplete = true ∨ b.lottery.uploadElapsed b.now = true

/-- The number of winners the votes ask for. -/
def elected (b : Books K) : ℕ :=
  b.tally.elim 1 fun t ↦ t.selectedWinners b.lottery.participantsCount

variable {b b' : Books K}

theorem Sound.included_le (h : b.Sound) :
    b.lottery.providerUploadedCount ≤ b.lottery.attestedCount ∧
      b.lottery.attestedCount ≤ b.lottery.participantsCount ∧
      b.lottery.participantsCount ≤ Sizes.maxParticipants := by
  have hle := h.balanced.included_le
  rw [← h.balanced.attested, ← h.balanced.included] at hle
  have hatt := attestedOf_le b.ballots
  rw [← h.balanced.attested, h.enrolled.length] at hatt
  exact ⟨hle, hatt, h.enrolled.le⟩

theorem Sound.included_eq (h : b.Sound) (hs : b.Sealed) :
    includedOf b.ballots = attestedOf b.ballots ∧ includedOf b.ballots ≠ 0 := by
  have hle := h.balanced.included_le
  have hatt := h.balanced.attested
  have hinc := h.balanced.included
  have hne := hs.attested
  have := Lottery.hasMissing_eq_false.mp hs.no_missing
  omega

theorem Sound.included_of_attested (h : b.Sound) (hs : b.Sealed) {x : Ballot K}
    (hx : x ∈ b.ballots) (hatt : x.attested = true) : x.included = true := by
  refine of_countP_eq (fun y hy ↦ ?_) (h.included_eq hs).1 x hx hatt
  exact (h.balanced.valid y hy).attested

theorem Sealed.not_started (h : b.Sealed) (hb : b.Sound) :
    0 < b.lottery.uploadStartUnix ∧ b.lottery.uploadStartUnix ≤ b.now :=
  hb.timely.started (.inl h.attested)

theorem Sealed.not_upload (h : b.Sealed) (hb : b.Sound) : b.lottery.phase b.now ≠ .upload := by
  intro hph
  obtain ⟨-, hset, -, -, hle⟩ := Lottery.phase_upload hph
  rcases h.ended with hc | he
  · rcases hb.timely.complete hc with hpc | hs
    · have := h.two_le
      omega
    · exact hset (hb.timely.settling hs).1
  · have := (Lottery.uploadElapsed_eq_true.mp he).2
    omega

theorem Sealed.no_visit (h : b.Sealed) (hb : b.Sound) {entries : List (ℕ × Bytes)}
    {s s' : VoteTally K × List Bytes32} {bs : List (Ballot K)}
    (hsweep : Sweep (IncludeVisit b.maxWinners) b.ballots s entries bs s') :
    entries = [] ∧ bs = b.ballots ∧ s' = s := by
  cases hsweep with
  | nil => exact ⟨rfl, rfl, rfl⟩
  | cons hx hv _ =>
    obtain ⟨hinc, hatt, -⟩ := hv
    have := hb.included_of_attested h (List.mem_of_getElem? hx) hatt
    simp [hinc] at this

/-- Once sealed, the books stay as they are. -/
structure Frozen (b b' : Books K) : Prop where
  ballots : b'.ballots = b.ballots
  id : b'.lottery.id = b.lottery.id
  participantsCount : b'.lottery.participantsCount = b.lottery.participantsCount
  attestedCount : b'.lottery.attestedCount = b.lottery.attestedCount
  providerUploadedCount : b'.lottery.providerUploadedCount = b.lottery.providerUploadedCount
  pocAggregateHash : b'.lottery.pocAggregateHash = b.lottery.pocAggregateHash
  totalFunds : b'.lottery.totalFunds = b.lottery.totalFunds
  serviceChargeBps : b'.lottery.serviceChargeBps = b.lottery.serviceChargeBps
  maxWinnersCap : b'.config.maxWinnersCap = b.config.maxWinnersCap
  elected : b'.elected = b.elected

theorem Sealed.step (h : b.Sealed) (hb : b.Sound) (hs : b.Step b') : b'.Sealed ∧ b.Frozen b' := by
  have hstarted := h.not_started hb
  have hupload := h.not_upload hb
  cases hs with
  | @quiet now config l hle _ hcap hl _ =>
    have hl := Lottery.sameSales hl
    refine ⟨⟨?_, ?_, ?_, ?_⟩, ⟨rfl, hl.id, hl.participantsCount, hl.attestedCount,
      hl.providerUploadedCount, hl.pocAggregateHash, hl.totalFunds, hl.serviceChargeBps, hcap, ?_⟩⟩
    · rw [hl.participantsCount]
      exact h.two_le
    · rw [hl.attestedCount]
      exact h.attested
    · rw [Lottery.hasMissing_eq_false, hl.attestedCount, hl.providerUploadedCount,
        ← Lottery.hasMissing_eq_false]
      exact h.no_missing
    · rw [hl.uploadsComplete, Lottery.uploadElapsed_eq_true, hl.uploadDeadlineUnix]
      refine h.ended.imp_right fun he ↦ ?_
      have he := Lottery.uploadElapsed_eq_true.mp he
      exact ⟨he.1, he.2.trans_le hle⟩
    · simp only [elected, hl.participantsCount]
  | buyFirst hbuy _ _ => exact absurd hstarted hbuy.not_started
  | buyMore hbuy _ => exact absurd hstarted hbuy.not_started
  | beginReveal hns => exact absurd hstarted hns
  | attest _ hph => exact absurd hph hupload
  | reveal _ hph => exact absurd hph hupload
  | @upload entries n start rstart rdeadline selected t t' bs digests huc hpc _ hatt _ hopen hsweep =>
    obtain ⟨-, rfl, hs⟩ := h.no_visit hb hsweep
    obtain ⟨rfl, rfl⟩ := Prod.mk.inj hs
    have htally : b.tally = some t := by
      rcases hopen with ⟨ht, -⟩ | ⟨ht, -⟩
      · exact ht
      · exact absurd (hb.balanced.untallied ht) (hb.included_eq h).2
    have hprov : saturatingAdd 64 b.lottery.providerUploadedCount 0 =
        b.lottery.providerUploadedCount := by
      have hmax : Sizes.maxParticipants < 2 ^ 63 := by decide
      have := hb.included_le
      exact saturatingAdd_of_lt (by omega)
    have hmiss := Lottery.hasMissing_eq_false.mp h.no_missing
    refine ⟨⟨h.two_le, h.attested, ?_, .inl ?_⟩,
      ⟨rfl, rfl, rfl, rfl, hprov, rfl, rfl, rfl, rfl, ?_⟩⟩
    · rw [Lottery.hasMissing_eq_false]
      dsimp only [List.length_nil]
      rw [hprov]
      exact hmiss
    · exact decide_eq_true ((hmiss.resolve_left h.attested).trans_eq hprov.symm)
    · unfold elected
      rw [htally]
      exact t.selectedWinners_update _ _ _

end Books

namespace Round

/-- Which way a lottery is settled, and how far. -/
structure Routed (r : Round K) : Prop where
  status : r.lottery.getStatus = .settled ↔ r.lottery.settled = true
  complete : r.lottery.settlementComplete = true →
    r.lottery.settled = true ∧ r.lottery.winnersCount ≠ 0
  payout : r.lottery.winnersCount = 0 → r.lottery.totalPayout = 0
  won : r.lottery.winnersCount ≠ 0 → r.ledger ≠ none
  sealed_of_ledger : r.ledger ≠ none → r.books.Sealed
  refunded : r.lottery.settled = true → r.lottery.winnersCount = 0 →
    r.lottery.attestedCount = 0 ∨ r.lottery.hasMissingAttestedReveals = true
  paying : r.lottery.settled = true → r.lottery.winnersCount ≠ 0 →
    r.lottery.settlementComplete = true
  unremediated : r.lottery.remediationStartUnix = 0 → r.lottery.remediationDeadlineUnix = 0
  remediated : r.lottery.remediationStartUnix ≠ 0 → 0 < r.lottery.remediationStartUnix ∧
    r.lottery.remediationDeadlineUnix =
      r.lottery.remediationStartUnix + Sizes.defaultRemediationWindowSecs ∧
    r.lottery.attestedCount ≠ 0 ∧ r.lottery.uploadElapsed r.now = true

theorem Finalizable.sealed {r : Round K} (h : r.Finalizable) : r.books.Sealed :=
  ⟨h.two_le, h.attested, h.no_missing, h.elapsed⟩

namespace Routed

variable {rt : Runtime K} {r r' : Round K}

theorem ledger_none (h : r.Routed) (hs : r.lottery.settled = true)
    (hw : r.lottery.winnersCount = 0) :
    r.ledger = none := by
  by_contra hne
  have hseal := h.sealed_of_ledger hne
  have hmiss := hseal.no_missing
  rcases h.refunded hs hw with ha | hm
  · exact hseal.attested ha
  · rw [show r.lottery.hasMissingAttestedReveals = false from hmiss] at hm
    cases hm

structure SameRoute (l l' : Lottery K) : Prop where
  status : l'.status = l.status
  settled : l'.settled = l.settled
  settlementComplete : l'.settlementComplete = l.settlementComplete
  winnersCount : l'.winnersCount = l.winnersCount
  totalPayout : l'.totalPayout = l.totalPayout

theorem keep (h : r.Routed) (hs : SameRoute r.lottery r'.lottery)
    (hledger : r.ledger ≠ none → r'.ledger ≠ none) (hseal : r'.ledger ≠ none → r'.books.Sealed)
    (hrefund : r.lottery.settled = true → r.lottery.winnersCount = 0 →
      r'.lottery.attestedCount = 0 ∨ r'.lottery.hasMissingAttestedReveals = true)
    (hunrem : r'.lottery.remediationStartUnix = 0 → r'.lottery.remediationDeadlineUnix = 0)
    (hrem : r'.lottery.remediationStartUnix ≠ 0 → 0 < r'.lottery.remediationStartUnix ∧
      r'.lottery.remediationDeadlineUnix =
        r'.lottery.remediationStartUnix + Sizes.defaultRemediationWindowSecs ∧
      r'.lottery.attestedCount ≠ 0 ∧ r'.lottery.uploadElapsed r'.now = true) : r'.Routed := by
  refine ⟨?_, ?_, ?_, ?_, hseal, ?_, ?_, hunrem, hrem⟩
  · rw [Lottery.getStatus, hs.status, hs.settled]
    exact h.status
  · rw [hs.settlementComplete, hs.settled, hs.winnersCount]
    exact h.complete
  · rw [hs.winnersCount, hs.totalPayout]
    exact h.payout
  · rw [hs.winnersCount]
    exact fun hw ↦ hledger (h.won hw)
  · rw [hs.settled, hs.winnersCount]
    exact hrefund
  · rw [hs.settled, hs.winnersCount, hs.settlementComplete]
    exact h.paying

theorem same (h : r.Routed) (hb : r.books.Sound) (hst : r.Step rt r')
    (hs : SameRoute r.lottery r'.lottery) (hledger : r'.ledger = r.ledger)
    (hatt : r'.lottery.attestedCount = r.lottery.attestedCount)
    (hprov : r'.lottery.providerUploadedCount = r.lottery.providerUploadedCount)
    (hstart : r'.lottery.remediationStartUnix = r.lottery.remediationStartUnix)
    (hdl : r'.lottery.remediationDeadlineUnix = r.lottery.remediationDeadlineUnix)
    (hel : r.lottery.attestedCount ≠ 0 → r.lottery.uploadElapsed r.now = true →
      r'.lottery.uploadElapsed r'.now = true) : r'.Routed := by
  refine h.keep hs (by rw [hledger]; exact id) ?_ ?_ ?_ ?_
  · rw [hledger]
    exact fun hne ↦ ((h.sealed_of_ledger hne).step hb hst.books).1
  · rw [Lottery.hasMissing_eq_true, hatt, hprov, ← Lottery.hasMissing_eq_true]
    exact h.refunded
  · rw [hstart, hdl]
    exact h.unremediated
  · rw [hstart, hdl, hatt]
    intro hne
    obtain ⟨hpos, hd, ha, he⟩ := h.remediated hne
    exact ⟨hpos, hd, ha, hel ha he⟩

theorem init (h : r.Created rt) : r.Routed := by
  obtain ⟨id, config, authority, vault, bump, bps, price, hnew, -, -⟩ := h.lottery
  obtain ⟨-, -, -, -, -, -, -, -, hst, -, -, -, -, -, hset, hatt, -, hwc, htp, -, -, hsc, hrs,
    hrd, -, -⟩ :=
    Lottery.new_ok hnew
  refine ⟨?_, ?_, fun _ ↦ htp, ?_, ?_, ?_, ?_, fun _ ↦ hrd, ?_⟩
  · simp [Lottery.getStatus, hst, hset, LotteryStatus.ofU8]
  · simp [hsc]
  · simp [hwc]
  · simp [h.ledger]
  · simp [hatt]
  · simp [hwc]
  · simp [hrs]

theorem step (h : r.Routed) (hb : r.books.Sound) (hs : r.Step rt r') : r'.Routed := by
  have hsame := h.same hb hs
  have hseal (hne : r.ledger ≠ none) := (h.sealed_of_ledger hne).step hb hs.books
  have hfinal (hf : r.Finalizable) := (hf.sealed.step hb hs.books).1
  cases hs with
  | refl => exact h
  | tick hle hlt =>
    refine hsame ⟨rfl, rfl, rfl, rfl, rfl⟩ rfl rfl rfl rfl rfl fun _ he ↦ ?_
    rw [Lottery.uploadElapsed_eq_true] at he ⊢
    exact ⟨he.1, he.2.trans_le hle⟩
  | reconfigure => exact hsame ⟨rfl, rfl, rfl, rfl, rfl⟩ rfl rfl rfl rfl rfl fun _ he ↦ he
  | deposit => exact hsame ⟨rfl, rfl, rfl, rfl, rfl⟩ rfl rfl rfl rfl rfl fun _ he ↦ he
  | buyFirst => exact hsame ⟨rfl, rfl, rfl, rfl, rfl⟩ rfl rfl rfl rfl rfl fun _ he ↦ he
  | buyMore => exact hsame ⟨rfl, rfl, rfl, rfl, rfl⟩ rfl rfl rfl rfl rfl fun _ he ↦ he
  | beginReveal _ hns _ _ _ _ _ _ _ hopen =>
    obtain rfl := BeginRevealPhase.openWindow_ok hopen
    rw [BeginRevealPhase.autoComplete_eq] at hsame ⊢
    refine hsame ⟨rfl, rfl, rfl, rfl, rfl⟩ rfl rfl rfl rfl rfl fun hatt _ ↦ ?_
    exact absurd (hb.timely.started (.inl hatt)) hns
  | @attestUploaded i p vote hp hcan =>
    have hset := (Lottery.phase_upload hcan.phase).1
    refine h.keep ?_ id (fun hne ↦ (hseal hne).1) (fun hs ↦ by simp [hset] at hs) ?_ ?_
    all_goals rw [Lottery.countAttestation_eq]
    · exact ⟨rfl, rfl, rfl, rfl, rfl⟩
    · exact h.unremediated
    · intro hne
      obtain ⟨hpos, hd, -, he⟩ := h.remediated hne
      exact ⟨hpos, hd, Nat.succ_ne_zero _, he⟩
  | attestReveal hp hcan _ _ _ _ _ hrec _ _ hconc =>
    have hset := (Lottery.phase_upload hcan.phase).1
    obtain ⟨-, rfl⟩ := AttestReveal.recordReveal_ok hrec
    obtain rfl := AttestReveal.conclude_ok hconc
    refine h.keep ⟨rfl, rfl, rfl, rfl, rfl⟩ id (fun hne ↦ (hseal hne).1)
      (fun hs ↦ by simp [hset] at hs) h.unremediated fun hne ↦ ?_
    obtain ⟨hpos, hd, -, he⟩ := h.remediated hne
    exact ⟨hpos, hd, Nat.succ_ne_zero _, he⟩
  | @uploadReveals isAuthority entries l l' t ps digests hadmit _ _ hinc =>
    obtain ⟨-, -, hset, -, -, -, hatt, rfl⟩ := UploadReveals.checkPhase_ok hadmit
    obtain ⟨-, rfl⟩ := UploadReveals.includeUploads_ok hinc
    refine h.keep ⟨rfl, rfl, rfl, rfl, rfl⟩ id (fun hne ↦ (hseal hne).1)
      (fun hs ↦ by simp [hset] at hs) ?_ ?_
    · dsimp only
      split
      · next hc =>
        intro hz
        exact absurd hz (Lottery.now_pos_of_elapsed (UploadReveals.canRemediate_elapsed hc.1)).ne'
      · exact h.unremediated
    · dsimp only
      split
      · next hc =>
        have he := UploadReveals.canRemediate_elapsed hc.1
        exact fun _ ↦ ⟨Lottery.now_pos_of_elapsed he, rfl, hatt, he⟩
      · exact h.remediated
  | beginRemediation hset _ _ hmiss he hz hrem =>
    obtain ⟨hne, -⟩ | ⟨-, rfl⟩ := Lottery.beginRemediation_ok hrem
    · exact absurd hz hne
    · have hpos := Lottery.now_pos_of_elapsed he
      have hatt := (Lottery.hasMissing_eq_true.mp hmiss).1.ne'
      refine h.keep ⟨rfl, rfl, rfl, rfl, rfl⟩ id (fun hne ↦ (hseal hne).1)
        (fun hs ↦ by simp [hset] at hs) (fun hz ↦ absurd hz hpos.ne') ?_
      exact fun _ ↦ ⟨hpos, rfl, hatt, he⟩
  | @aggregate chunk ps root root' l hfin _ _ _ _ hend =>
    have hsealed := hfinal hfin
    have hset := hfin.not_settled
    have hl : ∃ n, l = { r.lottery with selectedNumberOfWinners := n } := by
      split at hend
      · obtain ⟨_, _, _, _, _, _, _, rfl, -⟩ := FinalizeWinners.finishAggregation_ok hend
        exact ⟨_, rfl⟩
      · cases hend
        exact ⟨_, rfl⟩
    obtain ⟨n, rfl⟩ := hl
    exact h.keep ⟨rfl, rfl, rfl, rfl, rfl⟩ (fun _ ↦ by simp) (fun _ ↦ hsealed)
      (fun hs ↦ by simp [hset] at hs) h.unremediated h.remediated
  | select hfin =>
    have hsealed := hfinal hfin
    have hset := hfin.not_settled
    exact h.keep ⟨rfl, rfl, rfl, rfl, rfl⟩ (fun _ ↦ by simp) (fun _ ↦ hsealed)
      (fun hs ↦ by simp [hset] at hs) h.unremediated h.remediated
  | selectLast hfin _ _ _ _ _ _ _ hnext =>
    have hsealed := hfinal hfin
    have hset := hfin.not_settled
    rcases FinalizeWinners.nextRound_ok hnext with ⟨-, hcomp⟩ | ⟨-, rfl, -⟩
    · obtain ⟨fee, bitmap, -, hne, -, -, -, rfl, -⟩ := FinalizeWinners.completeFinalization_ok hcomp
      refine ⟨h.status, ?_, fun hz ↦ absurd hz hne, by simp, fun _ ↦ hsealed, ?_, ?_,
        h.unremediated, h.remediated⟩
      · intro hc
        exact absurd (hfin.not_complete.symm.trans hc) (by decide)
      · exact fun _ hz ↦ absurd hz hne
      · intro hs
        exact absurd (hset.symm.trans hs) (by decide)
    · exact h.keep ⟨rfl, rfl, rfl, rfl, rfl⟩ (fun _ ↦ by simp) (fun _ ↦ hsealed)
        (fun hs ↦ by simp [hset] at hs) h.unremediated h.remediated
  | payBatch hpays _ =>
    obtain ⟨old, -, hrun⟩ := hpays.page_eq
    obtain ⟨bitmap, rfl⟩ := hrun.lottery
    exact hsame ⟨rfl, rfl, rfl, rfl, rfl⟩ rfl rfl rfl rfl rfl fun _ he ↦ he
  | payLast hpays _ _ hcomp =>
    obtain ⟨old, -, hrun⟩ := hpays.page_eq
    obtain ⟨bitmap, rfl⟩ := hrun.lottery
    obtain rfl := Lottery.completeSettlement_ok hcomp
    exact ⟨iff_of_true rfl rfl, fun _ ↦ ⟨rfl, hpays.winners_pos⟩, h.payout, h.won,
      fun hne ↦ (hseal hne).1, fun _ hw ↦ absurd hw hpays.winners_pos, fun _ _ ↦ rfl,
      h.unremediated, h.remediated⟩
  | finalizeNoAttesters hset _ hwhy =>
    have hno : r.ledger = none := by
      by_contra hne
      have hsealed := h.sealed_of_ledger hne
      rcases hwhy with ha | he
      · exact hsealed.attested ha
      · have := (Lottery.remediationExpired_eq_true.mp he).2
        exact absurd (hsealed.no_missing.symm.trans this) (by decide)
    have hwc : r.lottery.winnersCount = 0 := by
      by_contra hne
      exact h.won hne hno
    refine ⟨iff_of_true rfl rfl, ?_, h.payout, h.won, fun hne ↦ (hseal hne).1, ?_,
      fun _ hne ↦ absurd hwc hne, h.unremediated, h.remediated⟩
    · intro hc
      exact absurd (h.complete hc).1 (by simp [hset])
    · exact fun _ _ ↦ hwhy.imp_right fun he ↦ (Lottery.remediationExpired_eq_true.mp he).2
  | claimRefund => exact hsame ⟨rfl, rfl, rfl, rfl, rfl⟩ rfl rfl rfl rfl rfl fun _ he ↦ he
  | closeRefundVault => exact hsame ⟨rfl, rfl, rfl, rfl, rfl⟩ rfl rfl rfl rfl rfl fun _ he ↦ he

end Routed

end Round

end DailyLottery
