import DailyLottery.Specs
import DailyLottery.Round.Ballot

set_option linter.unusedSectionVars false

namespace DailyLottery

open Lib Ballot

variable {K : Type} [DecidableEq K] [Inhabited K]

@[simp] theorem Participant.ballot_markRefundClaimed (p : Participant K) :
    p.markRefundClaimed.ballot = p.ballot := by
  simp only [ballot, votedWinners_markRefundClaimed, revealIncluded_markRefundClaimed]
  rfl

theorem Participant.ballot_new (lottery wallet : K) (hash : Bytes32) (tickets index : ℕ) :
    (Participant.new lottery wallet hash tickets index).ballot =
      ⟨wallet, index, tickets, false, 0, 0, false, Vector.replicate 32 0⟩ := by
  have hvote : (Participant.new lottery wallet hash tickets index).votedWinners = 0 :=
    congrArg BitVec.toNat BitVec.zero_and
  have hinc : (Participant.new lottery wallet hash tickets index).revealIncluded = false := by
    rw [revealIncluded_eq]
    exact BitVec.getLsbD_zero
  unfold ballot
  rw [hvote, hinc]
  rfl

theorem Participant.votedWinners_attest (p : Participant K) {vote : ℕ}
    (h : vote < 2 ^ 61) (now : ℤ) :
    (p.attest vote now).votedWinners = vote := voteWord_and_not_mask h

theorem Participant.ballot_attest (p : Participant K) {vote : ℕ} (h : vote < 2 ^ 61) (now : ℤ) :
    (p.attest vote now).ballot = { p.ballot with
      attested := true, attestedAt := now, vote := vote, included := false } := by
  have hinc : (p.attest vote now).revealIncluded = false := by
    rw [revealIncluded_eq]
    exact getLsbD_voteWord vote (by decide)
  unfold ballot
  rw [p.votedWinners_attest h, hinc]
  rfl

theorem Participant.ballot_includeVerifiedReveal (p : Participant K) (digest : Bytes32) :
    (p.includeVerifiedReveal digest).ballot =
      { p.ballot with included := true, digest := digest } := by
  simp only [ballot, includeVerifiedReveal, revealIncluded_markRevealIncluded,
    votedWinners_markRevealIncluded]
  rfl

/-- The lottery without the fields that say how far settlement got. -/
def Lottery.sales (l : Lottery K) : Lottery K :=
  { l with
    settlementStartUnix := 0
    status := 0
    settled := false
    selectedNumberOfWinners := 0
    winnersMerkleRoot := Vector.replicate 32 0
    winnersCount := 0
    totalPayout := 0
    paidWinnersBitmap := []
    settlementBatchesCompleted := 0
    settlementComplete := false
    remediationStartUnix := 0
    remediationDeadlineUnix := 0 }

structure Lottery.SameSales (l l' : Lottery K) : Prop where
  id : l'.id = l.id
  buyStartUnix : l'.buyStartUnix = l.buyStartUnix
  buyDeadlineUnix : l'.buyDeadlineUnix = l.buyDeadlineUnix
  uploadStartUnix : l'.uploadStartUnix = l.uploadStartUnix
  uploadDeadlineUnix : l'.uploadDeadlineUnix = l.uploadDeadlineUnix
  totalTickets : l'.totalTickets = l.totalTickets
  totalFunds : l'.totalFunds = l.totalFunds
  providerUploadedCount : l'.providerUploadedCount = l.providerUploadedCount
  pocAggregateHash : l'.pocAggregateHash = l.pocAggregateHash
  uploadsComplete : l'.uploadsComplete = l.uploadsComplete
  attestedCount : l'.attestedCount = l.attestedCount
  participantsCount : l'.participantsCount = l.participantsCount
  serviceChargeBps : l'.serviceChargeBps = l.serviceChargeBps
  ticketPriceLamports : l'.ticketPriceLamports = l.ticketPriceLamports

theorem Lottery.sameSales {l l' : Lottery K} (h : l'.sales = l.sales) : l.SameSales l' := by
  unfold Lottery.sales at h
  injection h
  constructor <;> assumption

/-- What `FinalizeWinners` may do to the start of the settlement. -/
def Lottery.Settling (l : Lottery K) (now : ℤ) (l' : Lottery K) : Prop :=
  l'.settlementStartUnix = l.settlementStartUnix ∨
    l.settlementStartUnix = 0 ∧ l'.settlementStartUnix = now ∧ l.attestedCount ≠ 0 ∧
      l.hasMissingAttestedReveals = false ∧ 1 < l.participantsCount ∧
      (l.uploadsComplete = true ∨ l.uploadElapsed now = true)

/-- The sales and the votes of a lottery. -/
structure Books (K : Type) where
  now : ℤ
  config : Config K
  lottery : Lottery K
  ballots : List (Ballot K)
  tally : Option (VoteTally K)

namespace Books

def maxWinners (b : Books K) : ℕ := b.config.effectiveMaxWinners b.lottery.participantsCount

def OpenTally (b : Books K) (t : VoteTally K) : Prop :=
  (b.tally = some t ∧ t.maxWinners = b.maxWinners) ∨
    b.tally = none ∧ ∃ key n, t = .new key b.maxWinners n

def IncludeVisit (maxWinners : ℕ) (s : VoteTally K × List Bytes32) (_ : Bytes) (x : Ballot K)
    (s' : VoteTally K × List Bytes32) (x' : Ballot K) : Prop :=
  x.included = false ∧ x.attested = true ∧ ∃ digest, s'.2 = s.2 ++ [digest] ∧
    x' = { x with included := true, digest := digest } ∧
    s'.1 = if 0 < x.vote ∧ x.vote ≤ maxWinners then
      s.1.addVote x.vote x.tickets x.attestedAt else s.1

/-- What a step can do to the books; `quiet` is every step on the money or on the winners. -/
inductive Step : Books K → Books K → Prop
  | quiet {b : Books K} {now : ℤ} {config : Config K} {l : Lottery K} :
      b.now ≤ now → (b.now < 2 ^ 63 → now < 2 ^ 63) →
      config.maxWinnersCap = b.config.maxWinnersCap → l.sales = b.lottery.sales →
      b.lottery.Settling b.now l →
      Step b { b with now := now, config := config, lottery := l }
  | buyFirst {b : Books K} {wallet : K} {count : ℕ} :
      b.lottery.CanBuy b.now count → wallet ∉ b.ballots.map Ballot.wallet →
      b.lottery.participantsCount < Sizes.maxParticipants →
      Step b { b with
        lottery := { b.lottery.sell count with
          participantsCount := b.lottery.participantsCount + 1 }
        ballots := b.ballots ++ [⟨wallet, b.lottery.participantsCount, count, false, 0, 0, false,
          Vector.replicate 32 0⟩] }
  | buyMore {b : Books K} {i : ℕ} {x : Ballot K} {count : ℕ} :
      b.lottery.CanBuy b.now count → b.ballots[i]? = some x →
      Step b { b with
        lottery := b.lottery.sell count
        ballots := b.ballots.set i { x with tickets := x.tickets + count } }
  | beginReveal {b : Books K} {att upl : ℤ} {start deadline : ℤ} {complete : Bool} {hash : Bytes32}
      {selected : ℕ} :
      ¬(0 < b.lottery.uploadStartUnix ∧ b.lottery.uploadStartUnix ≤ b.now) →
      ¬(0 < b.lottery.settlementStartUnix) → b.lottery.uploadsComplete = false →
      0 ≤ att → 0 ≤ upl →
      start = (if b.lottery.uploadStartUnix = 0 ∨ b.now < b.lottery.uploadStartUnix then b.now
        else b.lottery.uploadStartUnix) →
      deadline = max (max b.lottery.uploadDeadlineUnix (b.now + att))
        (max b.lottery.uploadDeadlineUnix (b.now + att) + upl) →
      ((b.lottery.participantsCount ≠ 1 ∧ complete = false ∧ hash = b.lottery.pocAggregateHash) ∨
        b.lottery.participantsCount = 1 ∧ complete = true) →
      Step b { b with lottery := { b.lottery with
        uploadStartUnix := start, uploadDeadlineUnix := deadline, uploadsComplete := complete
        pocAggregateHash := hash, selectedNumberOfWinners := selected } }
  | attest {b : Books K} {i : ℕ} {x : Ballot K} {vote : ℕ} :
      b.ballots[i]? = some x → b.lottery.phase b.now = .upload → 0 < vote → vote ≤ b.maxWinners →
      x.attested = false →
      Step b { b with
        lottery := b.lottery.countAttestation b.now
        ballots := b.ballots.set i { x with
          attested := true, attestedAt := b.now, vote := vote, included := false } }
  | reveal {b : Books K} {i : ℕ} {x : Ballot K} {vote selected : ℕ} {digest : Bytes32}
    {l : Lottery K}
      {t : VoteTally K} :
      b.ballots[i]? = some x → b.lottery.phase b.now = .upload → 0 < vote → vote ≤ b.maxWinners →
      x.attested = false → x.included = false → b.OpenTally t →
      l = { b.lottery with
        attestedCount := b.lottery.attestedCount + 1
        providerUploadedCount := saturatingAdd 64 b.lottery.providerUploadedCount 1
        pocAggregateHash := xorBytes b.lottery.pocAggregateHash digest
        selectedNumberOfWinners := selected } →
      Step b { b with
        lottery := AttestReveal.updatePhase l b.now
        ballots := b.ballots.set i { x with
          attested := true, attestedAt := b.now, vote := vote, included := true, digest := digest }
        tally := some { t.addVote vote x.tickets b.now with
          totalAttested := b.lottery.attestedCount + 1
          processedCount := t.processedCount + 1 } }
  | upload {b : Books K} {entries : List (ℕ × Bytes)} {n : ℕ} {start rstart rdeadline : ℤ}
      {selected : ℕ} {t t' : VoteTally K} {bs : List (Ballot K)} {digests : List Bytes32} :
      b.lottery.uploadsComplete = false → 1 < b.lottery.participantsCount →
      b.lottery.uploadElapsed b.now = true ∨ b.lottery.allAttested = true ∨
        b.lottery.settlementStartUnix ≠ 0 →
      b.lottery.attestedCount ≠ 0 →
      start = (if b.lottery.settlementStartUnix = 0 then b.now else b.lottery.settlementStartUnix) →
      b.OpenTally t →
      Sweep (IncludeVisit b.maxWinners) b.ballots ({ t with totalAttested := n }, []) entries bs
        (t', digests) →
      Step b { b with
        lottery := { b.lottery with
          settlementStartUnix := start
          remediationStartUnix := rstart
          remediationDeadlineUnix := rdeadline
          providerUploadedCount :=
            saturatingAdd 64 b.lottery.providerUploadedCount digests.length
          uploadsComplete := decide (b.lottery.attestedCount ≤
            saturatingAdd 64 b.lottery.providerUploadedCount digests.length)
          pocAggregateHash := xorRevealDigests b.lottery.pocAggregateHash digests
          selectedNumberOfWinners := selected }
        ballots := bs
        tally := some { t' with
          processedCount := saturatingAdd 64 t'.processedCount digests.length } }

end Books

namespace Round

def books (r : Round K) : Books K :=
  ⟨r.now, r.config, r.lottery, r.participants.map Participant.ballot, r.tally⟩

variable {rt : Runtime K} {r r' : Round K}

theorem ballots_wallet (ps : List (Participant K)) :
    (ps.map Participant.ballot).map Ballot.wallet = ps.map Participant.wallet := by
  simp [Participant.ballot]

theorem ballots_get {ps : List (Participant K)} {i : ℕ} {p : Participant K} (h : ps[i]? = some p) :
    (ps.map Participant.ballot)[i]? = some p.ballot := by
  rw [List.getElem?_map, h]
  rfl

theorem vote_lt {l : Lottery K} {c : Config K} {now : ℤ} {p : Participant K} {vote : ℕ}
    (h : l.CanAttest c now p vote) : vote < 2 ^ 61 := by
  have hle := h.vote_le.trans (c.effectiveMaxWinners_le_maxWinners _)
  have : Sizes.maxWinners < 2 ^ 61 := by decide
  omega

theorem openTally_books (r : Round K) (h : r.TallyFits) (n : ℕ) :
    r.books.OpenTally (r.openTally n) := by
  unfold openTally
  cases ht : r.tally with
  | none => exact .inr ⟨ht, _, _, rfl⟩
  | some t => exact .inl ⟨ht, h t ht⟩

theorem ballot_of_unmarked {p p' : Participant K} (h : p'.unmarked = p.unmarked) :
    p'.ballot = p.ballot := by
  have hb : p'.unmarked.ballot = p.unmarked.ballot := by rw [h]
  exact hb

theorem ballot_includeVisit {mw : ℕ} {s s' : VoteTally K × List Bytes32} {plaintext : Bytes}
    {p p' : Participant K} (h : IncludeVisit rt mw s plaintext p s' p') :
    Books.IncludeVisit mw s plaintext p.ballot s' p'.ballot := by
  obtain ⟨digest, h, hs⟩ := h
  obtain ⟨hinc, hatt, -, -, ht, rfl⟩ := UploadReveals.includeReveal_ok h
  exact ⟨hinc, hatt, digest, hs, Participant.ballot_includeVerifiedReveal _ _, ht⟩

theorem books_pass {body : FinalizationLedger K → Participant K →
      Result (FinalizationLedger K × Option (Participant K))} {chunk : List (ℕ × Unit)}
    {ps : List (Participant K)} {root root' : FinalizationLedger K}
    (hbody : ∀ root e p root' p', PassVisit body root e p root' p' → p'.ballot = p.ballot)
    (h : Sweep (PassVisit body) r.participants root chunk ps root') :
    ps.map Participant.ballot = r.books.ballots := h.map_eq hbody

theorem Step.books (h : r.Step rt r') : r.books.Step r'.books := by
  have hquiet {r' : Round K} (hl : r'.lottery.sales = r.lottery.sales)
      (hs : r.lottery.Settling r.now r'.lottery)
      (hb : r'.books.ballots = r.books.ballots)
      (hr : r'.now = r.now ∧ r'.config = r.config ∧ r'.tally = r.tally) :
      r.books.Step r'.books := by
    have h := Books.Step.quiet (b := r.books) le_rfl (fun h ↦ h) rfl hl hs
    simp only [Round.books] at hb h ⊢
    rw [hr.1, hr.2.1, hr.2.2, hb]
    exact h
  cases h with
  | refl => exact hquiet rfl (.inl rfl) rfl ⟨rfl, rfl, rfl⟩
  | tick hle hlt => exact .quiet hle (fun _ ↦ hlt) rfl rfl (.inl rfl)
  | reconfigure _ hcap _ _ => exact .quiet le_rfl (fun h ↦ h) hcap rfl (.inl rfl)
  | deposit _ => exact hquiet rfl (.inl rfl) rfl ⟨rfl, rfl, rfl⟩
  | buyFirst hbuy hnew hmax _ =>
    have h := Books.Step.buyFirst (b := r.books) hbuy (by rwa [Round.books, ballots_wallet]) hmax
    simp only [Round.books, List.map_append, List.map_singleton, Participant.ballot_new]
    exact h
  | buyMore hbuy hp _ =>
    have h := Books.Step.buyMore (b := r.books) hbuy (ballots_get hp)
    simp only [Round.books, List.map_set]
    exact h
  | @beginReveal att upl l _ hstart _ hset huc _ hatt hupl _ hopen =>
    obtain rfl := BeginRevealPhase.openWindow_ok hopen
    rw [BeginRevealPhase.autoComplete_eq]
    refine .beginReveal (b := r.books) hstart hset huc hatt hupl rfl rfl ?_
    by_cases hpc : r.lottery.participantsCount = 1
    · exact .inr ⟨hpc, if_pos hpc⟩
    · exact .inl ⟨hpc, by simpa [hpc] using huc, if_neg hpc⟩
  | @attestUploaded i p vote hp hcan =>
    have h := Books.Step.attest (b := r.books) (ballots_get hp) hcan.phase hcan.vote_pos
      hcan.vote_le hcan.fresh
    simp only [Round.books, List.map_set, p.ballot_attest (vote_lt hcan)]
    exact h
  | @attestReveal i p _ vote plaintext l l' t hp hcan hinc _ _ _ hp' hrec hfit htally hconc =>
    subst hp'
    obtain ⟨-, rfl⟩ := AttestReveal.recordReveal_ok hrec
    obtain rfl := AttestReveal.tallyParticipant_ok htally
    obtain rfl := AttestReveal.conclude_eq_updatePhase hconc
    have hvote : ((p.attest vote r.now).includeVerifiedReveal
        (computeRevealDigest rt p.wallet plaintext)).votedWinners = vote := by
      rw [Participant.includeVerifiedReveal, Participant.votedWinners_markRevealIncluded]
      exact p.votedWinners_attest (vote_lt hcan) r.now
    have h (selected : ℕ) := @Books.Step.reveal K r.books i p.ballot vote selected
      (computeRevealDigest rt p.wallet plaintext) _ _ (ballots_get hp) hcan.phase hcan.vote_pos
      hcan.vote_le hcan.fresh hinc (openTally_books r hfit (r.lottery.attestedCount + 1)) rfl
    simp only [Round.books, List.map_set, Participant.ballot_includeVerifiedReveal,
      p.ballot_attest (vote_lt hcan), hvote, VoteTally.addVote_totalAttested]
    exact h _
  | @uploadReveals isAuthority entries l l' t ps digests hadmit hfit hsweep hinc =>
    obtain ⟨-, -, -, -, huc, hopen, hatt, rfl⟩ := UploadReveals.checkPhase_ok hadmit
    obtain ⟨hpc, rfl⟩ := UploadReveals.includeUploads_ok hinc
    have h (rstart rdeadline : ℤ) (selected : ℕ) := @Books.Step.upload K r.books entries _ _ rstart
      rdeadline selected _ _ _ _ huc hpc hopen hatt rfl (openTally_books r hfit _)
      (hsweep.map fun _ _ _ _ _ ↦ ballot_includeVisit)
    simp only [huc, Bool.false_or]
    exact h _ _ _
  | beginRemediation _ _ _ _ _ _ hrem =>
    obtain ⟨-, rfl⟩ | ⟨-, rfl⟩ := Lottery.beginRemediation_ok hrem
    all_goals exact hquiet rfl (.inl rfl) rfl ⟨rfl, rfl, rfl⟩
  | aggregate _ _ _ hsweep _ hfin =>
    have hb := books_pass (fun _ _ _ _ _ h ↦
      ballot_of_unmarked (unmarked_aggregateParticipant h)) hsweep
    split at hfin
    · obtain ⟨_, _, _, _, _, _, _, rfl, -⟩ := FinalizeWinners.finishAggregation_ok hfin
      exact hquiet rfl (.inl rfl) hb ⟨rfl, rfl, rfl⟩
    · cases hfin
      exact hquiet rfl (.inl rfl) hb ⟨rfl, rfl, rfl⟩
  | select _ _ _ hsweep _ =>
    have hb := books_pass (fun _ _ _ _ _ h ↦
      ballot_of_unmarked (unmarked_selectParticipant h)) hsweep
    exact hquiet rfl (.inl rfl) hb ⟨rfl, rfl, rfl⟩
  | selectLast hfin _ _ hsweep _ _ _ _ hnext =>
    have hb := books_pass (fun _ _ _ _ _ h ↦
      ballot_of_unmarked (unmarked_selectParticipant h)) hsweep
    unfold FinalizeWinners.nextRound at hnext
    split at hnext
    · obtain ⟨_, _, -, -, -, -, -, rfl, -⟩ := FinalizeWinners.completeFinalization_ok hnext
      refine hquiet rfl ?_ hb ⟨rfl, rfl, rfl⟩
      by_cases hz : r.lottery.settlementStartUnix = 0
      · exact .inr ⟨hz, if_pos hz, hfin.attested, hfin.no_missing, hfin.two_le, hfin.elapsed⟩
      · exact .inl (if_neg hz)
    · simp only [bind_eq_ok, pure_eq_ok, Prod.mk.injEq] at hnext
      obtain ⟨_, -, _, -, _, -, rfl, -⟩ := hnext
      exact hquiet rfl (.inl rfl) hb ⟨rfl, rfl, rfl⟩
  | payBatch hpays _ =>
    obtain ⟨old, -, hrun⟩ := hpays.page_eq
    obtain ⟨bitmap, rfl⟩ := hrun.lottery
    exact hquiet rfl (.inl rfl) rfl ⟨rfl, rfl, rfl⟩
  | payLast hpays _ _ hcomp =>
    obtain ⟨old, -, hrun⟩ := hpays.page_eq
    obtain ⟨bitmap, rfl⟩ := hrun.lottery
    obtain rfl := Lottery.completeSettlement_ok hcomp
    exact hquiet rfl (.inl rfl) rfl ⟨rfl, rfl, rfl⟩
  | finalizeNoAttesters => exact hquiet rfl (.inl rfl) rfl ⟨rfl, rfl, rfl⟩
  | @claimRefund i p _ _ _ hp _ _ _ _ =>
    refine hquiet rfl (.inl rfl) ?_ ⟨rfl, rfl, rfl⟩
    exact map_set_same hp p.ballot_markRefundClaimed
  | closeRefundVault => exact hquiet rfl (.inl rfl) rfl ⟨rfl, rfl, rfl⟩

end Round

end DailyLottery
