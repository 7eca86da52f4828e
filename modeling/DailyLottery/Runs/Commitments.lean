import DailyLottery.Runs.Refunds

set_option linter.unusedSectionVars false

namespace DailyLottery

open Lib

variable {K : Type} [DecidableEq K] [Inhabited K] {rt : Runtime K} {acts : List (Action K)}
  {w w' : World K} {ws : List (World K)} {id : ℕ} {l : Lottery K} {p p' p'' : Participant K}
  {ix : Instruction K} {accounts : List (AccountInfo K)} {now : ℤ} {wallet : K} {a : Action K}
    {c : Config K}

/-- Whether the accounts of an attestation name lottery `id` and a wallet. -/
def attestsFor (rt : Runtime K) (id : ℕ) (wallet : K) (accounts : List (AccountInfo K)) : Bool :=
  decide (accounts[1]?.map AccountInfo.key = some (rt.lotteryKey id)) &&
    decide (accounts[3]?.map AccountInfo.key = some wallet)

theorem attestsFor_iff :
    attestsFor rt id wallet accounts = true ↔
      CallsOn rt accounts id ∧ accounts[3]?.map AccountInfo.key = some wallet := by
  simp only [attestsFor, Bool.and_eq_true, decide_eq_true_eq]
  rfl

/-- The plaintexts a batch supplies for the participant of a wallet. -/
def plaintextsFor (rt : Runtime K) (id : ℕ) (wallet : K) (entries : List (K × Bytes)) :
    List Bytes :=
  (entries.filter fun e ↦ decide (e.1 = rt.slotKey id (.participant wallet))).map Prod.snd

/-- The votes an action casts on lottery `id` for a wallet. -/
def Action.votes (rt : Runtime K) (id : ℕ) (wallet : K) : Action K → List ℕ
  | .instruction _ (.attestUploaded vote) accounts =>
    if attestsFor rt id wallet accounts then [vote] else []
  | .instruction _ (.attestReveal vote _) accounts =>
    if attestsFor rt id wallet accounts then [vote] else []
  | _ => []

/-- The plaintexts an action supplies on lottery `id` for a wallet. -/
def Action.plaintexts (rt : Runtime K) (id : ℕ) (wallet : K) : Action K → List Bytes
  | .instruction _ (.attestReveal _ plaintext) accounts =>
    if attestsFor rt id wallet accounts then [plaintext] else []
  | .instruction _ (.uploadReveals entries) accounts =>
    if decide (accounts[1]?.map AccountInfo.key = some (rt.lotteryKey id)) then
      plaintextsFor rt id wallet entries else []
  | _ => []

/-- The votes and plaintexts of a whole run, latest first. -/
def votesOf (rt : Runtime K) (id : ℕ) (wallet : K) (acts : List (Action K)) : List ℕ :=
  acts.flatMap (Action.votes rt id wallet)

def plaintextsOf (rt : Runtime K) (id : ℕ) (wallet : K) (acts : List (Action K)) : List Bytes :=
  acts.flatMap (Action.plaintexts rt id wallet)

theorem mem_plaintextsFor {entries : List (K × Bytes)} {plaintext : Bytes} :
    plaintext ∈ plaintextsFor rt id wallet entries ↔
      (rt.slotKey id (.participant wallet), plaintext) ∈ entries := by
  simp only [plaintextsFor, List.mem_map, List.mem_filter, decide_eq_true_eq]
  constructor
  · rintro ⟨e, ⟨he, hk⟩, rfl⟩
    rwa [← hk]
  · intro h
    exact ⟨_, ⟨h, rfl⟩, rfl⟩

theorem plaintextsFor_eq {entries : List (K × Bytes)} {plaintext : Bytes}
    (hnd : (entries.map Prod.fst).Nodup)
    (h : (rt.slotKey id (.participant wallet), plaintext) ∈ entries) :
    plaintextsFor rt id wallet entries = [plaintext] := by
  unfold plaintextsFor
  induction entries with
  | nil => cases h
  | cons e entries ih =>
    rw [List.map_cons, List.nodup_cons] at hnd
    rcases List.mem_cons.mp h with rfl | h
    · have hrest : entries.filter (fun e ↦ decide
        (e.1 = rt.slotKey id (.participant wallet))) = [] := by
        rw [List.filter_eq_nil_iff]
        intro e he hk
        have hmem : e.1 ∈ entries.map Prod.fst := List.mem_map_of_mem he
        rw [of_decide_eq_true hk] at hmem
        exact hnd.1 hmem
      rw [List.filter_cons_of_pos (by simp), hrest]
      rfl
    · have hne : e.1 ≠ rt.slotKey id (.participant wallet) := by
        rintro he
        exact hnd.1 (he ▸ List.mem_map_of_mem h)
      rw [List.filter_cons_of_neg (by simpa using hne)]
      exact ih hnd.2 h

/-- The plaintext opens the commitment of a participant, whose digest is its own. -/
structure Participant.RevealedBy (rt : Runtime K) (p : Participant K) (plaintext : Bytes) :
    Prop where
  length_le : plaintext.length ≤ maxRevealPlaintextBytes
  hash : rt.sha256 plaintext = p.proofOfChanceHash
  digest : p.revealDigest = computeRevealDigest rt p.wallet plaintext

/-- What stays as it is from the first purchase on, and the marks that are never cleared. -/
structure Participant.Kept (p p' : Participant K) : Prop where
  lottery : p'.lottery = p.lottery
  wallet : p'.wallet = p.wallet
  participantIndex : p'.participantIndex = p.participantIndex
  proofOfChanceHash : p'.proofOfChanceHash = p.proofOfChanceHash
  attested : p.attestedUploaded = true → p'.attestedUploaded = true
  votedWinners : p.attestedUploaded = true → p'.votedWinners = p.votedWinners
  included : p.revealIncluded = true → p'.revealIncluded = true
  digest : p.revealIncluded = true → p'.revealDigest = p.revealDigest
  claimed : p.refundClaimed = true → p'.refundClaimed = true

namespace Participant.Kept

theorem refl (p : Participant K) : p.Kept p := by
  constructor <;> first | rfl | exact fun h ↦ h | exact fun _ ↦ rfl

theorem trans (h : p.Kept p') (h' : p'.Kept p'') : p.Kept p'' where
  lottery := h'.lottery.trans h.lottery
  wallet := h'.wallet.trans h.wallet
  participantIndex := h'.participantIndex.trans h.participantIndex
  proofOfChanceHash := h'.proofOfChanceHash.trans h.proofOfChanceHash
  attested := fun ha ↦ h'.attested (h.attested ha)
  votedWinners := fun ha ↦ (h'.votedWinners (h.attested ha)).trans (h.votedWinners ha)
  included := fun hi ↦ h'.included (h.included hi)
  digest := fun hi ↦ (h'.digest (h.included hi)).trans (h.digest hi)
  claimed := fun hc ↦ h'.claimed (h.claimed hc)

end Participant.Kept

/-- What one action makes of a participant, with the votes it casts and the plaintexts it supplies
for it. -/
structure Participant.Onward (rt : Runtime K) (p : Participant K) (votes : List ℕ)
    (plaintexts : List Bytes) (p' : Participant K) : Prop where
  kept : p.Kept p'
  votes : (votes = [] ∧ p'.attestedUploaded = p.attestedUploaded) ∨
    p.attestedUploaded = false ∧ p'.attestedUploaded = true ∧ votes = [p'.votedWinners]
  plaintexts : (plaintexts = [] ∧ p'.revealIncluded = p.revealIncluded) ∨
    p.revealIncluded = false ∧ p'.revealIncluded = true ∧
      ∃ plaintext, plaintexts = [plaintext] ∧ p'.RevealedBy rt plaintext

theorem Participant.Onward.refl (p : Participant K) : p.Onward rt [] [] p :=
  ⟨.refl p, .inl ⟨rfl, rfl⟩, .inl ⟨rfl, rfl⟩⟩

theorem Participant.RevealedBy.of_includeVerifiedReveal {plaintext : Bytes} {digest : Bytes32}
    (hlen : plaintext.length ≤ maxRevealPlaintextBytes)
    (hhash : rt.sha256 plaintext = p.proofOfChanceHash)
    (hd : digest = computeRevealDigest rt p.wallet plaintext) :
    (p.includeVerifiedReveal digest).RevealedBy rt plaintext :=
  ⟨hlen, hhash, hd⟩

theorem Participant.revealIncluded_attest (p : Participant K) (vote : ℕ) (now : ℤ) :
    (p.attest vote now).revealIncluded = false := by
  rw [revealIncluded_eq]
  exact getLsbD_voteWord vote (by decide)

theorem Participant.revealIncluded_new (lottery wallet : K) (hash : Bytes32) (tickets index : ℕ) :
    (Participant.new lottery wallet hash tickets index).revealIncluded = false := by
  rw [revealIncluded_eq]
  exact BitVec.getLsbD_zero

theorem Participant.Change.kept (h : p.Change rt now accounts l ix p')
    (hinc : p.revealIncluded = true → p.attestedUploaded = true)
    (hcl : l.settled = false → p.refundClaimed = false) : p.Kept p' := by
  have hattest {c : Config K} {vote : ℕ} (ha : l.CanAttest c now p vote) :
    p.Kept (p.attest vote now) := by
    have hni : p.revealIncluded ≠ true := fun hi ↦ by simpa [ha.fresh] using hinc hi
    have hnc := hcl (Lottery.phase_upload ha.phase).1
    refine ⟨rfl, rfl, rfl, rfl, fun _ ↦ rfl, fun h ↦ ?_, fun h ↦ absurd h hni,
      fun h ↦ absurd h hni, fun h ↦ ?_⟩
    · simp [ha.fresh] at h
    · simp [hnc] at h
  have hreveal (q : Participant K) (digest : Bytes32) (hq : q.revealIncluded = false) :
      q.Kept (q.includeVerifiedReveal digest) := by
    refine ⟨rfl, rfl, rfl, rfl, fun h ↦ h, fun _ ↦ ?_, fun _ ↦ ?_, fun h ↦ ?_, fun h ↦ ?_⟩
    · exact Participant.votedWinners_markRevealIncluded _
    · exact Participant.revealIncluded_markRevealIncluded _
    · simp [hq] at h
    · rwa [Participant.refundClaimed_includeVerifiedReveal]
  cases h with
  | buyTickets =>
      exact ⟨rfl, rfl, rfl, rfl, fun h ↦ h, fun _ ↦ rfl, fun h ↦ h, fun _ ↦ rfl, fun h ↦ h⟩
  | attestUploaded ha => exact hattest ha
  | @attestReveal c vote _ ha =>
      exact (hattest ha).trans (hreveal _ _ (revealIncluded_attest p vote now))
  | @uploadReveals _ plaintext _ _ hni =>
    have hscore : p.Kept { p with revealScore := DailyLottery.revealScore plaintext } :=
      ⟨rfl, rfl, rfl, rfl, fun h ↦ h, fun _ ↦ rfl, fun h ↦ h, fun _ ↦ rfl, fun h ↦ h⟩
    exact hscore.trans (hreveal _ _ hni)
  | finalizeWinners _ hum =>
    have hkept : p.unmarked.Kept p'.unmarked := hum ▸ .refl _
    exact ⟨hkept.lottery, hkept.wallet, hkept.participantIndex, hkept.proofOfChanceHash,
      hkept.attested, hkept.votedWinners, hkept.included, hkept.digest, hkept.claimed⟩
  | claimRefund =>
    refine ⟨rfl, rfl, rfl, rfl, fun h ↦ h, fun _ ↦ ?_, fun h ↦ ?_, fun _ ↦ rfl, fun _ ↦ ?_⟩
    · exact Participant.votedWinners_markRefundClaimed _
    · rwa [Participant.revealIncluded_markRefundClaimed]
    · exact Participant.refundClaimed_markRefundClaimed _

theorem Participant.Change.onward {pre : List (K × Bytes)} (h : p.Change rt now accounts l ix p')
    (hid : l.id = id) (hon : CallsOn rt accounts id)
    (hnd : ∀ entries, ix = .uploadReveals entries → (entries.map Prod.fst).Nodup)
    (hinc : p.revealIncluded = true → p.attestedUploaded = true)
    (hcl : l.settled = false → p.refundClaimed = false) :
    p.Onward rt ((Action.instruction pre ix accounts).votes rt id p.wallet)
      ((Action.instruction pre ix accounts).plaintexts rt id p.wallet) p' := by
  subst hid
  refine ⟨h.kept hinc hcl, ?_, ?_⟩
  · cases h with
    | buyTickets => exact .inl ⟨rfl, rfl⟩
    | attestUploaded ha hwallet =>
      rw [Action.votes, if_pos (attestsFor_iff.mpr ⟨hon, hwallet⟩),
        p.votedWinners_attest (Round.vote_lt ha)]
      exact .inr ⟨ha.fresh, rfl, rfl⟩
    | @attestReveal c vote plaintext ha _ _ _ hwallet =>
      have hvote : ((p.attest vote now).includeVerifiedReveal
          (computeRevealDigest rt p.wallet plaintext)).votedWinners = vote :=
        (Participant.votedWinners_markRevealIncluded _).trans
          (p.votedWinners_attest (Round.vote_lt ha) now)
      rw [Action.votes, if_pos (attestsFor_iff.mpr ⟨hon, hwallet⟩), hvote]
      exact .inr ⟨ha.fresh, rfl, rfl⟩
    | uploadReveals => exact .inl ⟨rfl, rfl⟩
    | finalizeWinners _ hum =>
      have hatt : p'.unmarked.attestedUploaded = p.unmarked.attestedUploaded := by rw [hum]
      exact .inl ⟨rfl, hatt⟩
    | claimRefund => exact .inl ⟨rfl, rfl⟩
  · cases h with
    | buyTickets => exact .inl ⟨rfl, rfl⟩
    | @attestUploaded c vote ha =>
      have hni : p.revealIncluded = false :=
        Bool.eq_false_iff.mpr fun hi ↦ by simpa [ha.fresh] using hinc hi
      exact .inl ⟨rfl, (p.revealIncluded_attest vote now).trans hni.symm⟩
    | attestReveal ha hni hlen hhash hwallet =>
      rw [Action.plaintexts, if_pos (attestsFor_iff.mpr ⟨hon, hwallet⟩)]
      exact .inr ⟨hni, Participant.revealIncluded_markRevealIncluded _, _, rfl,
        .of_includeVerifiedReveal hlen hhash rfl⟩
    | uploadReveals _ _ hni hmem hlen hhash =>
      have hon' : decide (accounts[1]?.map AccountInfo.key = some (rt.lotteryKey l.id)) = true :=
        decide_eq_true_eq.mpr hon
      rw [Action.plaintexts, if_pos hon', plaintextsFor_eq (hnd _ rfl) hmem]
      exact .inr ⟨hni, Participant.revealIncluded_markRevealIncluded _, _, rfl,
        .of_includeVerifiedReveal hlen hhash rfl⟩
    | finalizeWinners _ hum =>
      have hinc : p'.unmarked.revealIncluded = p.unmarked.revealIncluded := by rw [hum]
      exact .inl ⟨rfl, hinc⟩
    | claimRefund => exact .inl ⟨rfl, Participant.revealIncluded_markRefundClaimed _⟩

/-- An action names the participant of a wallet: it attests for it or supplies a plaintext. -/
inductive Action.Names (rt : Runtime K) (id : ℕ) (wallet : K) : Action K → Prop
  | attestUploaded {pre : List (K × Bytes)} {vote : ℕ} {accounts : List (AccountInfo K)} :
      CallsOn rt accounts id → accounts[3]?.map AccountInfo.key = some wallet →
      Names rt id wallet (.instruction pre (.attestUploaded vote) accounts)
  | attestReveal {pre : List (K × Bytes)} {vote : ℕ} {plaintext : Bytes}
      {accounts : List (AccountInfo K)} :
      CallsOn rt accounts id → accounts[3]?.map AccountInfo.key = some wallet →
      Names rt id wallet (.instruction pre (.attestReveal vote plaintext) accounts)
  | uploadReveals {pre : List (K × Bytes)} {entries : List (K × Bytes)} {plaintext : Bytes}
      {accounts : List (AccountInfo K)} :
      CallsOn rt accounts id → (rt.slotKey id (.participant wallet), plaintext) ∈ entries →
      Names rt id wallet (.instruction pre (.uploadReveals entries) accounts)

theorem Action.votes_of_not_names (h : ¬a.Names rt id wallet) : a.votes rt id wallet = [] := by
  unfold votes
  split
  · exact if_neg fun hfor ↦ h (.attestUploaded (attestsFor_iff.mp hfor).1
      (attestsFor_iff.mp hfor).2)
  · exact if_neg fun hfor ↦ h (.attestReveal (attestsFor_iff.mp hfor).1 (attestsFor_iff.mp hfor).2)
  · rfl

theorem Action.plaintexts_of_not_names (h : ¬a.Names rt id wallet) :
    a.plaintexts rt id wallet = [] := by
  unfold plaintexts
  split
  · exact if_neg fun hfor ↦ h (.attestReveal (attestsFor_iff.mp hfor).1 (attestsFor_iff.mp hfor).2)
  · split
    · next hon =>
      rw [List.eq_nil_iff_forall_not_mem]
      intro plaintext hmem
      have hon := of_decide_eq_true hon
      exact h (.uploadReveals hon (mem_plaintextsFor.mp hmem))
    · rfl
  · rfl

theorem Step.named (h : (system rt).History acts (w :: ws)) (hs : Step rt w a w')
    (hn : a.Names rt id wallet) :
    ∃ l p p', (w.view rt id .lottery).data = .lottery l ∧
      (w.view rt id (.participant wallet)).data = .participant p ∧
      (w'.view rt id (.participant wallet)).data = .participant p' ∧ p ≠ p' := by
  have hc := consistent h
  cases hn with
  | @attestUploaded _ vote _ hon hwallet =>
    cases hs with
    | instruction hsig hok =>
      obtain ⟨c, l, p, -, hl, hon', hwallet', hp, -, hcan, -, hv⟩ :=
        AttestUploaded.effect hc.typed hok
      obtain rfl := hon.eq hon'
      obtain rfl : wallet = p.wallet := Option.some.inj (hwallet.symm.trans hwallet')
      refine ⟨l, p, p.attest vote w.clock, hl, hp, by rw [hv]; simp, fun he ↦ ?_⟩
      have hatt := congrArg Participant.attestedUploaded he
      rw [hcan.fresh] at hatt
      cases hatt
  | @attestReveal _ vote plaintext _ hon hwallet =>
    cases hs with
    | instruction hsig hok =>
      obtain ⟨c, l, p, p', l₁, l', t, t', v, -, hl, hon', hwallet', hp, hcan, -, -, -, -, -, -,
        rfl, -, -, -, hopen, hv⟩ := AttestReveal.effect hc.typed hsig hok
      obtain rfl := hon.eq hon'
      obtain rfl : wallet = p.wallet := Option.some.inj (hwallet.symm.trans hwallet')
      refine ⟨l, p, (p.attest vote w.clock).includeVerifiedReveal
        (computeRevealDigest rt p.wallet plaintext), hl, hp, by rw [hv]; simp, fun he ↦ ?_⟩
      have hatt := congrArg Participant.attestedUploaded he
      rw [hcan.fresh] at hatt
      cases hatt
  | @uploadReveals pre entries _ _ hon hmem =>
    cases hs with
    | instruction hsig hok =>
      obtain ⟨id₀, hne, hon₀, -, hall⟩ :=
        UploadReveals.follow hc.typed hsig hok pre (.uploadReveals entries)
      obtain rfl := hon.eq hon₀
      obtain ⟨r, hreach, hr⟩ := hc.round _ hne
      obtain ⟨-, -, isAuthority, es, l, t, ps, digests, l', -, hup, hr'⟩ := hall acts ws r hr
      obtain ⟨i, p, hi, rfl, hes⟩ := hup.named hmem
      have hmem : i ∈ es.map Prod.fst := List.mem_map_of_mem hes
      obtain ⟨plaintext, -, hni, -, -, -, hi'⟩ := (hup.row hi).resolve_left fun hno ↦ hno.1 hmem
      obtain ⟨-, -, hset, hsc, -, -, -, hl⟩ := UploadReveals.checkPhase_ok hup.phase
      have hopen : l'.settled = false ∧ l'.settlementComplete = false := by
        rw [(UploadReveals.includeUploads_ok hup.included).2, hl]
        exact ⟨hset, hsc⟩
      have hp' := hr'.stored_of_open hopen (List.mem_of_getElem? hi')
      refine ⟨r.lottery, p, _, hr.lottery, hr.stored_of_open ⟨hset,
        hsc⟩ (List.mem_of_getElem? hi), hp', fun he ↦ ?_⟩
      have hinc := congrArg Participant.revealIncluded he
      rw [hni, Participant.includeVerifiedReveal,
        Participant.revealIncluded_markRevealIncluded] at hinc
      cases hinc

theorem Step.past (h : (system rt).History acts (w :: ws)) (hs : Step rt w a w')
    (hl : (w.view rt id .lottery).data = .lottery l) (hp : pastOf rt (w :: ws) id wallet = some p) :
    ∃ p', pastOf rt (w' :: w :: ws) id wallet = some p' ∧
      p.Onward rt (a.votes rt id wallet) (a.plaintexts rt id wallet) p' := by
  obtain ⟨r, hreach, hi, hr, rfl, hid⟩ := represented h hl
  obtain ⟨hmem, rfl⟩ := (hr.pastOf_eq _ _).mp hp
  have hsame (hn : ¬a.Names rt id p.wallet)
      (hpast : pastOf rt (w' :: w :: ws) id p.wallet = pastOf rt (w :: ws) id p.wallet) :
      ∃ p', pastOf rt (w' :: w :: ws) id p.wallet = some p' ∧
        p.Onward rt (a.votes rt id p.wallet) (a.plaintexts rt id p.wallet) p' := by
    rw [Action.votes_of_not_names hn, Action.plaintexts_of_not_names hn]
    exact ⟨p, hpast.trans hp, .refl p⟩
  by_cases hinst : ∃ pre ix accounts, a = .instruction pre ix accounts
  · obtain ⟨pre, ix, accounts, rfl⟩ := hinst
    rcases (hs.changes (consistent h) id).participant _ hl p.wallet with hd | ⟨hon, halt⟩
    · refine hsame (fun hn ↦ ?_) (pastOf_of_same (.inl hd))
      obtain ⟨_, q, q', -, hq, hq', hne⟩ := hs.named h hn
      rw [hq, hq'] at hd
      cases hd
      exact hne rfl
    · generalize hd : (w.view rt id (.participant p.wallet)).data = d at halt
      generalize hd' : (w'.view rt id (.participant p.wallet)).data = d' at halt
      cases halt with
      | first hbuy =>
        rcases hr.stored hi.routed hmem with hs | ⟨-, hset⟩
        · simp [hd] at hs
        · simp [hbuy.not_settled] at hset
      | @change q p' _ hch =>
        obtain rfl : p = q := Option.some.inj (hp.symm.trans (pastOf_of_data hd))
        refine ⟨p', pastOf_of_data hd', hch.onward hid hon ?_ ?_ ?_⟩
        · rintro entries rfl
          cases hs with
          | instruction hsig hok =>
            obtain ⟨-, -, -, hvalid, -⟩ :=
              UploadReveals.follow (consistent h).typed hsig hok pre (.uploadReveals entries)
            exact (UploadReveals.validateEntries_ok hvalid).1
        · exact (hi.books.balanced.valid p.ballot (List.mem_map_of_mem hmem)).attested
        · exact fun hset ↦ hi.funded.unclaimed (.inl hset) p hmem
  · have hinst : ∀ pre ix accounts, a ≠ .instruction pre ix accounts := by
      rintro pre ix accounts rfl
      exact hinst ⟨pre, ix, accounts, rfl⟩
    refine hsame (fun hn ↦ ?_) (pastOf_of_same (hs.environment hinst id _))
    cases hn <;> exact hinst _ _ _ rfl

theorem Step.past_none (h : (system rt).History acts (w :: ws)) (hs : Step rt w a w')
    (hl : (w.view rt id .lottery).data = .lottery l) (hp : pastOf rt (w :: ws) id wallet = none) :
    ¬a.Names rt id wallet ∧ ∀ p', pastOf rt (w' :: w :: ws) id wallet = some p' →
      p'.attestedUploaded = false ∧ p'.revealIncluded = false := by
  have hnone (hpast : pastOf rt (w' :: w :: ws) id wallet = pastOf rt (w :: ws) id wallet) :
      ∀ p', pastOf rt (w' :: w :: ws) id wallet = some p' →
        p'.attestedUploaded = false ∧ p'.revealIncluded = false := by
    intro p' hp'
    simp [hpast, hp] at hp'
  refine ⟨fun hn ↦ ?_, ?_⟩
  · obtain ⟨_, q, -, -, hq, -⟩ := hs.named h hn
    simp [pastOf_of_data hq] at hp
  by_cases hinst : ∃ pre ix accounts, a = .instruction pre ix accounts
  · obtain ⟨pre, ix, accounts, rfl⟩ := hinst
    rcases (hs.changes (consistent h) id).participant _ hl wallet with hd | ⟨hon, halt⟩
    · exact hnone (pastOf_of_same (.inl hd))
    · generalize hd : (w.view rt id (.participant wallet)).data = d at halt
      generalize hd' : (w'.view rt id (.participant wallet)).data = d' at halt
      cases halt with
      | first hbuy =>
        intro p' hp'
        rw [pastOf_of_data hd'] at hp'
        cases hp'
        exact ⟨rfl, Participant.revealIncluded_new _ _ _ _ _⟩
      | change => simp [pastOf_of_data hd] at hp
  · refine hnone (pastOf_of_same (hs.environment (fun pre ix accounts he ↦ ?_) id _))
    exact hinst ⟨pre, ix, accounts, he⟩

/-- The votes cast and the plaintexts supplied for a participant so far are the one vote it attested
and the one plaintext its digest is of. -/
structure Participant.Bound (rt : Runtime K) (p : Participant K) (votes : List ℕ)
    (plaintexts : List Bytes) : Prop where
  votes : votes = if p.attestedUploaded then [p.votedWinners] else []
  hidden : p.revealIncluded = false → plaintexts = []
  revealed : p.revealIncluded = true →
    ∃ plaintext, plaintexts = [plaintext] ∧ p.RevealedBy rt plaintext

theorem Participant.Bound.step {vs vs' : List ℕ} {pts pts' : List Bytes} (h : p.Bound rt vs pts)
    (hs : p.Onward rt vs' pts' p') : p'.Bound rt (vs' ++ vs) (pts' ++ pts) := by
  refine ⟨?_, fun hni ↦ ?_, fun hinc ↦ ?_⟩
  · rcases hs.votes with ⟨rfl, ha⟩ | ⟨ha, ha', rfl⟩
    · rw [List.nil_append, h.votes, ha]
      cases hatt : p.attestedUploaded with
      | false => rfl
      | true => rw [hs.kept.votedWinners hatt]
    · rw [h.votes, ha, ha']
      rfl
  · rcases hs.plaintexts with ⟨rfl, hi⟩ | ⟨-, hi, -⟩
    · exact h.hidden (hi ▸ hni)
    · simp [hni] at hi
  · rcases hs.plaintexts with ⟨rfl, hi⟩ | ⟨hni, -, plaintext, rfl, hrev⟩
    · rw [hi] at hinc
      obtain ⟨plaintext, rfl, hrev⟩ := h.revealed hinc
      refine ⟨plaintext, rfl, hrev.length_le, ?_, ?_⟩
      · rw [hs.kept.proofOfChanceHash, hrev.hash]
      · rw [hs.kept.digest hinc, hs.kept.wallet, hrev.digest]
    · exact ⟨plaintext, by rw [h.hidden hni]; rfl, hrev⟩

/-- The marks of every participant stand for what its run supplied. -/
theorem bound_of_past (h : (system rt).History acts (w :: ws)) (wallet : K) :
    (∀ l, (w.view rt id .lottery).data = .lottery l →
      (∀ p, pastOf rt (w :: ws) id wallet = some p →
        p.Bound rt (votesOf rt id wallet acts) (plaintextsOf rt id wallet acts)) ∧
      (pastOf rt (w :: ws) id wallet = none →
        votesOf rt id wallet acts = [] ∧ plaintextsOf rt id wallet acts = [])) ∧
    ((w.view rt id .lottery).data = .empty →
      votesOf rt id wallet acts = [] ∧ plaintextsOf rt id wallet acts = []) := by
  have hall := h.invariant (P := fun acts ws ↦ ∀ w ∈ ws.head?,
    (∀ l, (w.view rt id .lottery).data = .lottery l →
      (∀ p, pastOf rt ws id wallet = some p →
        p.Bound rt (votesOf rt id wallet acts) (plaintextsOf rt id wallet acts)) ∧
      (pastOf rt ws id wallet = none →
        votesOf rt id wallet acts = [] ∧ plaintextsOf rt id wallet acts = [])) ∧
    ((w.view rt id .lottery).data = .empty →
      votesOf rt id wallet acts = [] ∧ plaintextsOf rt id wallet acts = [])) ?_ ?_
  · exact hall w rfl
  · rintro s hs t ht
    cases ht
    refine ⟨fun l hl ↦ ?_, fun _ ↦ ⟨rfl, rfl⟩⟩
    rw [World.view, Runtime.slotKey, hs.unused] at hl
    cases hl
  · rintro as ss s a t hh hP hs u hu
    cases hu
    obtain ⟨hold, hnone⟩ := hP s rfl
    have hc := consistent hh
    simp only [votesOf, plaintextsOf, List.flatMap_cons] at hold hnone ⊢
    have hunnamed (hn : ¬a.Names rt id wallet) (hno : as.flatMap (Action.votes rt id wallet) = [] ∧
        as.flatMap (Action.plaintexts rt id wallet) = []) :
        a.votes rt id wallet ++ as.flatMap (Action.votes rt id wallet) = [] ∧
          a.plaintexts rt id wallet ++ as.flatMap (Action.plaintexts rt id wallet) = [] := by
      rw [Action.votes_of_not_names hn, Action.plaintexts_of_not_names hn, hno.1, hno.2]
      exact ⟨rfl, rfl⟩
    by_cases he : (s.view rt id .lottery).data = .empty
    · have hn : ¬a.Names rt id wallet := fun hn ↦ by
        obtain ⟨l, _, _, hl, -⟩ := hs.named hh hn
        simp [hl] at he
      refine ⟨fun l' hl' ↦ ⟨fun p hp ↦ ?_, fun _ ↦ hunnamed hn (hnone he)⟩,
        fun _ ↦ hunnamed hn (hnone he)⟩
      rcases hc.follow_absent hs (hc.absent id he) with ha' | ⟨r, hcreated, hr⟩
      · simp [ha'.data] at hl'
      · have := ((hr.pastOf_eq _ _).mp hp).1
        simp [hcreated.participants] at this
    · obtain ⟨r, hreach, hr⟩ := hc.round id he
      obtain ⟨r', -, hr'⟩ := hc.follow hs hr (Round.invariant hreach)
      obtain ⟨hbound, hno⟩ := hold _ hr.lottery
      refine ⟨fun l' hl' ↦ ?_, fun he' ↦ by simp [hr'.lottery] at he'⟩
      cases hpast : pastOf rt (s :: ss) id wallet with
      | some p =>
        obtain ⟨p', hp', honward⟩ := hs.past hh hr.lottery hpast
        rw [hp']
        refine ⟨fun q hq ↦ ?_, fun hq ↦ by cases hq⟩
        cases hq
        exact (hbound p hpast).step honward
      | none =>
        obtain ⟨hn, hnew⟩ := hs.past_none hh hr.lottery hpast
        obtain ⟨hv, hp⟩ := hunnamed hn (hno hpast)
        refine ⟨fun q hq ↦ ?_, fun _ ↦ ⟨hv, hp⟩⟩
        obtain ⟨hatt, hni⟩ := hnew q hq
        rw [hv, hp]
        exact ⟨by rw [hatt]; rfl, fun _ ↦ rfl, fun hinc ↦ by simp [hni] at hinc⟩

/-- However a run goes on, it keeps what a participant is bound to. -/
theorem kept_of_path {as : List (Action K)} (h : (system rt).History acts (w :: ws))
    (hpath : (system rt).Path w as w') (hl : (w.view rt id .lottery).data = .lottery l)
    (hp : pastOf rt (w :: ws) id wallet = some p) :
    ∃ ws' p', pastOf rt (w' :: ws') id wallet = some p' ∧ p.Kept p' := by
  induction hpath generalizing acts ws l p with
  | nil s => exact ⟨ws, p, hp, .refl p⟩
  | @cons s t u a as hs _ ih =>
    obtain ⟨r, hreach, hi, hr, -, -⟩ := represented h hl
    obtain ⟨r', -, hr'⟩ := (consistent h).follow hs hr hi
    obtain ⟨p₁, hp₁, honward⟩ := hs.past h hl hp
    obtain ⟨ws', p', hp', hkept⟩ := ih (h.step hs) hr'.lottery hp₁
    exact ⟨ws', p', hp', honward.kept.trans hkept⟩

/-- What a run shows of the commitments of a lottery and their reveals. -/
structure Committed (rt : Runtime K) (id : ℕ) (acts : List (Action K)) (w : World K) (c : Config K)
    (l : Lottery K) (ps : List (Participant K)) : Prop where
  kept : ∀ p ∈ ps, ∀ as w' p', (system rt).Path w as w' →
    (w'.view rt id (.participant p.wallet)).data = .participant p' → p.Kept p'
  bound : ∀ p ∈ ps, p.Bound rt (votesOf rt id p.wallet acts) (plaintextsOf rt id p.wallet acts)
  vote : ∀ p ∈ ps, p.attestedUploaded = true →
    1 ≤ p.votedWinners ∧ p.votedWinners ≤ c.effectiveMaxWinners l.participantsCount
  once : ∀ wallet, (plaintextsOf rt id wallet acts).length ≤ 1

/-- Whatever the order of calls, every participant is held to its commitment and to the vote it
attested, and its reveal is included at most once. -/
theorem commitments_binding (h : (system rt).History acts (w :: ws))
    (hc : (w.accounts rt.configKey).data = .config c)
    (hl : (w.view rt id .lottery).data = .lottery l) :
    ∃ ps, Roll rt (w :: ws) id ps ∧ Committed rt id acts w c l ps := by
  obtain ⟨r, hreach, hi, hr, rfl, -⟩ := represented h hl
  obtain rfl := hr.eq_config hc
  have hbound {p : Participant K} (hp : p ∈ r.participants) :=
    ((bound_of_past h p.wallet).1 _ hl).1 p ((hr.pastOf_eq _ _).mpr ⟨hp, rfl⟩)
  refine ⟨r.participants, hr.roll hi.books, ?_, fun p hp ↦ hbound hp, fun p hp hatt ↦ ?_,
    fun wallet ↦ ?_⟩
  · intro p hp as w' p' hpath hp'
    obtain ⟨ws', q, hq, hkept⟩ := kept_of_path h hpath hl ((hr.pastOf_eq _ _).mpr ⟨hp, rfl⟩)
    rw [pastOf_of_data hp'] at hq
    cases hq
    exact hkept
  · have hvalid := hi.books.balanced.valid p.ballot (List.mem_map_of_mem hp)
    exact ⟨hvalid.vote_pos hatt, hvalid.vote_le hatt⟩
  · cases hpast : pastOf rt (w :: ws) id wallet with
    | none =>
      rw [(((bound_of_past h wallet).1 _ hl).2 hpast).2]
      exact Nat.zero_le 1
    | some p =>
      have hb := ((bound_of_past h wallet).1 _ hl).1 p hpast
      cases hinc : p.revealIncluded with
      | false =>
        rw [hb.hidden hinc]
        exact Nat.zero_le 1
      | true =>
        obtain ⟨plaintext, he, -⟩ := hb.revealed hinc
        rw [he]
        exact le_rfl

/-- Two participants, one reveals on chain, the other is left out. -/
theorem commitments_binding_sample :
    ∃ (acts : List (Action Sample.Key)) (w : World Sample.Key) (ws : List (World Sample.Key))
      (c : Config Sample.Key) (l : Lottery Sample.Key), (system Sample.rt).History acts (w :: ws) ∧
      (w.view Sample.rt 1 .lottery).data = .lottery l ∧ l.providerUploadedCount = 1 ∧
      plaintextsOf Sample.rt 1 (.wallet 20) acts = [Sample.reveal 20] ∧
      ∃ ps, Roll Sample.rt (w :: ws) 1 ps ∧ Committed Sample.rt 1 acts w c l ps := by
  obtain ⟨w, ws, l, h, hl, hp⟩ := Sample.run_lottery
    [Sample.configure 1000 500 10, Sample.create 1, Sample.buy 1 20 1, Sample.buy 1 21 2,
      .tick (1000 + 24 * 60 * 60), Sample.attest 1 20 1] 1
    (fun _ l ↦ l.providerUploadedCount == 1) (by decide +kernel)
  obtain ⟨c, hc, -⟩ := ((consistent h).exists_iff 1).mp (by simp [hl])
  exact ⟨_, w, ws, c, l, h, hl, beq_iff_eq.mp hp, by decide, commitments_binding h hc hl⟩

end DailyLottery
