import DailyLottery.Codec.Accounts
import DailyLottery.Round.Invariant

set_option linter.unusedSectionVars false

namespace DailyLottery

open Lib

variable {K : Type} [DecidableEq K] [Inhabited K] {rt : Runtime K} {now : ℤ}

section LotteryRanges

variable {l l' : Lottery K}

namespace Lottery.InRange

theorem setSelectedWinners {n : ℕ} (h : l.InRange) (hs : l.setSelectedWinners n = .ok l') :
    l'.InRange := by
  obtain ⟨rfl, -, -, hle⟩ := Lottery.setSelectedWinners_ok hs
  have hcount := h.participantsCount
  exact { h with selectedNumberOfWinners := by dsimp only; omega }

theorem beginRemediation (h : l.InRange) (hnow : -2 ^ 63 ≤ now ∧ now < 2 ^ 63)
    (hs : l.beginRemediation now = .ok l') : l'.InRange := by
  unfold Lottery.beginRemediation at hs
  split at hs
  · simp only [bind_eq_ok, okOr_eq_ok, addI64_eq_some, pure_eq_ok] at hs
    obtain ⟨_, ⟨hdeadline, rfl⟩, rfl⟩ := hs
    exact { h with remediationStartUnix := hnow, remediationDeadlineUnix := hdeadline }
  · exact pure_eq_ok.mp hs ▸ h

theorem startSettlement (h : l.InRange) (hnow : -2 ^ 63 ≤ now ∧ now < 2 ^ 63) (c : Prop)
    [Decidable c] :
    ({ l with settlementStartUnix := if c then now else l.settlementStartUnix } :
      Lottery K).InRange := by
  refine { h with settlementStartUnix := ?_ }
  dsimp only
  split
  · exact hnow
  · exact h.settlementStartUnix

theorem checkPhase {isAuthority : Bool} (h : l.InRange) (hnow : -2 ^ 63 ≤ now ∧ now < 2 ^ 63)
    (hs : UploadReveals.checkPhase l isAuthority now = .ok l') : l'.InRange := by
  simp only [UploadReveals.checkPhase, bind_eq_ok, rejectIf_eq_ok, exists_const, pure_eq_ok] at hs
  obtain ⟨-, -, l₁, h₁, -, -, -, rfl⟩ := hs
  have hl₁ : l₁.InRange := by
    split at h₁
    · exact h.beginRemediation hnow h₁
    · exact pure_eq_ok.mp h₁ ▸ h
  split
  · exact { hl₁ with settlementStartUnix := hnow }
  · exact hl₁

theorem includeUploads {t : VoteTally K} {ds : List Bytes32} (h : l.InRange)
    (hs : UploadReveals.includeUploads l t ds = .ok l') : l'.InRange := by
  obtain ⟨rfl, -, -, hle⟩ := Lottery.setSelectedWinners_ok hs
  have hle : t.selectedWinners l.participantsCount ≤ l.participantsCount - 1 := hle
  have hcount := h.participantsCount
  have hlt : t.selectedWinners l.participantsCount < 2 ^ 64 := by omega
  exact { h with
    providerUploadedCount := saturatingAdd_lt _ _ _, selectedNumberOfWinners := hlt }

theorem recordReveal {digest : Bytes32} (h : l.InRange)
    (hs : AttestReveal.recordReveal l digest = .ok l') : l'.InRange := by
  obtain ⟨hlt, rfl⟩ := AttestReveal.recordReveal_ok hs
  exact { h with attestedCount := hlt, providerUploadedCount := saturatingAdd_lt _ _ _ }

theorem conclude {t : VoteTally K} (h : l.InRange) (hnow : -2 ^ 63 ≤ now ∧ now < 2 ^ 63)
    (hs : AttestReveal.conclude l t now = .ok l') : l'.InRange := by
  simp only [AttestReveal.conclude, bind_eq_ok, pure_eq_ok] at hs
  obtain ⟨l₁, h₁, rfl⟩ := hs
  have hl₁ : l₁.InRange := by
    split at h₁
    · exact h.setSelectedWinners h₁
    · exact pure_eq_ok.mp h₁ ▸ h
  rw [AttestReveal.updatePhase_eq]
  exact { hl₁.startSettlement hnow _ with }

theorem countAttestation (h : l.InRange) (hnow : -2 ^ 63 ≤ now ∧ now < 2 ^ 63)
    (hlt : l.attestedCount + 1 < 2 ^ 64) : (l.countAttestation now).InRange := by
  unfold Lottery.countAttestation
  dsimp only
  split
  · exact { h with attestedCount := hlt, settlementStartUnix := hnow }
  · exact { h with attestedCount := hlt }

theorem openWindow {att upl : ℤ} (h : l.InRange) (hnow : -2 ^ 63 ≤ now ∧ now < 2 ^ 63)
    (hs : BeginRevealPhase.openWindow l now att upl = .ok l') : l'.InRange := by
  simp only [BeginRevealPhase.openWindow, bind_eq_ok, okOr_eq_ok, addI64_eq_some, pure_eq_ok] at hs
  obtain ⟨_, ⟨hatt, rfl⟩, _, ⟨hupl, rfl⟩, rfl⟩ := hs
  have hdeadline := h.uploadDeadlineUnix
  refine { h with uploadStartUnix := ?_, uploadDeadlineUnix := ?_ }
  · dsimp only
    split
    · exact hnow
    · exact h.uploadStartUnix
  · dsimp only
    omega

theorem autoComplete (h : l.InRange) : (BeginRevealPhase.autoComplete rt l).InRange := by
  unfold BeginRevealPhase.autoComplete
  split
  · exact { h with selectedNumberOfWinners := (by decide : 1 < 2 ^ 64) }
  · exact h

theorem finishAggregation {c : Config K} {root root' : FinalizationLedger K} (h : l.InRange)
    (hs : FinalizeWinners.finishAggregation rt c l root = .ok (l', root')) : l'.InRange := by
  simp only [FinalizeWinners.finishAggregation, bind_eq_ok, pure_eq_ok, Prod.mk.injEq] at hs
  obtain ⟨_, -, _, -, l₁, hl, _, -, _, -, rfl, -⟩ := hs
  exact h.setSelectedWinners hl

theorem completeFinalization {root root' : FinalizationLedger K} (h : l.InRange)
    (hnow : -2 ^ 63 ≤ now ∧ now < 2 ^ 63)
    (hs : FinalizeWinners.completeFinalization l root now = .ok (l', root')) : l'.InRange := by
  simp only [FinalizeWinners.completeFinalization, FinalizeWinners.settlementAmounts,
    Lottery.initializeSettlement, Lottery.clearBitmap, bind_eq_ok, rejectIf_eq_ok, exists_const,
    okOr_eq_ok, checkedMul_eq_some, pure_eq_ok, Prod.mk.injEq, Prod.exists, not_lt] at hs
  obtain ⟨_, _, ⟨fee, -, -, _, ⟨hpayout, rfl⟩, rfl, -⟩, _, ⟨-, hmax, _, ⟨hlen, rfl⟩, rfl⟩,
    rfl, -⟩ := hs
  have hbitmap : (List.replicate ((root.selectedCount + 7) / 8) (0 : UInt8) ++
      l.paidWinnersBitmap.drop ((root.selectedCount + 7) / 8)).length =
        (Sizes.maxWinners + 7) / 8 := by
    rw [List.length_append, List.length_replicate, List.length_drop, ← h.paidWinnersBitmap]
    omega
  split
  · exact { h with
      winnersCount := hmax, totalPayout := hpayout, paidWinnersBitmap := hbitmap
      settlementStartUnix := hnow }
  · exact { h with winnersCount := hmax, totalPayout := hpayout, paidWinnersBitmap := hbitmap }

/-- The `push` loop never runs: the bitmap has a byte for every winner there can be. -/
theorem markWinnerPaid {i : ℕ} (h : l.InRange) (hs : l.markWinnerPaid i = .ok l') :
    l'.InRange := by
  simp only [Lottery.markWinnerPaid, bind_eq_ok, rejectIf_eq_ok, exists_const, pure_eq_ok,
    not_le] at hs
  obtain ⟨hlt, rfl⟩ := hs
  refine { h with paidWinnersBitmap := ?_ }
  have hmax := h.winnersCount
  have hlen := h.paidWinnersBitmap
  rw [Sizes.maxWinners] at hmax hlen
  dsimp only
  rw [length_orAt, List.length_append, List.length_replicate, Sizes.maxWinners]
  omega

theorem payRun {page : WinnerPage K} {i amount : ℕ} {data data' : PageData K}
    {winners : List (WinnerProof K)} {fresh : List ℕ} (h : l.InRange)
    (hs : Round.PayRun page i amount l data winners l' data' fresh) : l'.InRange := by
  induction hs with
  | nil => exact h
  | skip _ _ ih => exact ih h
  | pay _ _ hpaid _ ih => exact ih (h.markWinnerPaid hpaid)

theorem incrementSettlementBatch (h : l.InRange) : l.incrementSettlementBatch.InRange :=
  { h with settlementBatchesCompleted := saturatingAdd_lt _ _ _ }

theorem settle (h : l.InRange) : l.settle.InRange := { h with }

end Lottery.InRange

end LotteryRanges

namespace Participant.InRange

variable {p p' : Participant K}

theorem new {lottery wallet : K} {hash : Bytes32} {count index : ℕ} (hcount : count < 2 ^ 64)
    (hindex : index < 2 ^ 64) : (Participant.new lottery wallet hash count index).InRange := by
  have hzero (bits : ℕ) : 0 < 2 ^ bits := Nat.two_pow_pos bits
  have htime : (-2 ^ 63 : ℤ) ≤ 0 ∧ (0 : ℤ) < 2 ^ 63 := by decide
  exact ⟨hcount, htime, hindex, hzero _, hzero _, hzero _⟩

theorem attest (h : p.InRange) (hnow : -2 ^ 63 ≤ now ∧ now < 2 ^ 63) (vote : ℕ) :
    (p.attest vote now).InRange := { h with attestedAtUnix := hnow }

theorem includeVerifiedReveal (h : p.InRange) (digest : Bytes32) :
    (p.includeVerifiedReveal digest).InRange := { h with }

theorem markRefundClaimed (h : p.InRange) : p.markRefundClaimed.InRange := { h with }

end Participant.InRange

namespace VoteTally.InRange

variable {t t' : VoteTally K}

theorem new {key : K} {maxWinners attested : ℕ} (hmax : maxWinners ≤ Sizes.maxWinners)
    (hatt : attested < 2 ^ 64) : (VoteTally.new key maxWinners attested).InRange := by
  refine ⟨hmax, hatt, Nat.two_pow_pos 64, ⟨List.length_replicate, ?_⟩, ⟨List.length_replicate, ?_⟩⟩
  · intro n hn
    rw [List.eq_of_mem_replicate hn]
    decide
  · intro time ht
    rw [List.eq_of_mem_replicate ht]
    decide

theorem addVote (h : t.InRange) (count weight : ℕ) {time : ℤ}
    (ht : -2 ^ 63 ≤ time ∧ time < 2 ^ 63) : (t.addVote count weight time).InRange := by
  unfold VoteTally.addVote
  split
  · exact h
  · split
    · exact h
    · refine { h with weights := ⟨?_, fun n hn ↦ ?_⟩, firstSeen := ⟨?_, fun s hs ↦ ?_⟩ }
      · exact List.length_set.trans h.weights.1
      · rcases List.mem_or_eq_of_mem_set hn with hn | rfl
        · exact h.weights.2 n hn
        · exact saturatingAdd_lt _ _ _
      · dsimp only
        split
        · exact List.length_set.trans h.firstSeen.1
        · exact h.firstSeen.1
      · dsimp only at hs
        split at hs
        · rcases List.mem_or_eq_of_mem_set hs with hs | rfl
          · exact h.firstSeen.2 s hs
          · exact ht
        · exact h.firstSeen.2 s hs

theorem tallyParticipant {l : Lottery K} {p : Participant K} (h : t.InRange) (hl : l.InRange)
    (hp : p.InRange) (hs : AttestReveal.tallyParticipant t l p = .ok t') : t'.InRange := by
  simp only [AttestReveal.tallyParticipant, bind_eq_ok, okOr_eq_ok, checkedAdd_eq_some,
    pure_eq_ok] at hs
  obtain ⟨_, ⟨hlt, rfl⟩, rfl⟩ := hs
  have hopen : ({ t with totalAttested := l.attestedCount } : VoteTally K).InRange :=
    { h with totalAttested := hl.attestedCount }
  exact { hopen.addVote p.votedWinners p.ticketsBought hp.attestedAtUnix with processedCount := hlt }

end VoteTally.InRange

namespace FinalizationLedger.InRange

open FinalizeWinners

variable {root root' : FinalizationLedger K}

theorem new {key : K} {required : ℕ} (hreq : required < 2 ^ 64)
    (hnow : -2 ^ 63 ≤ now ∧ now < 2 ^ 63) : (FinalizationLedger.new key required now).InRange := by
  have hzero (bits : ℕ) : 0 < 2 ^ bits := Nat.two_pow_pos bits
  have htime : (-2 ^ 63 : ℤ) ≤ 0 ∧ (0 : ℤ) < 2 ^ 63 := by decide
  have hphase : FinalizationPhase.aggregating ≠ .unknown := by decide
  exact ⟨(by decide : 2 < 2 ^ 16), hphase, (by decide : 1 < 2 ^ 32), hreq, hzero _,
    hzero _, hzero _,
    hzero _, hzero _, hzero _, hzero _, hzero _, hzero _, hzero _, hzero _, hnow, htime⟩

theorem beginSelectionRound (h : root.InRange) {draw : ℕ} (hdraw : draw < 2 ^ 64) :
    (root.beginSelectionRound draw).InRange :=
  { h with
    phase := (by decide : FinalizationPhase.selecting ≠ .unknown)
    roundProcessedCount := (by decide : 0 < 2 ^ 64)
    roundRemainingTicketsSeen := (by decide : 0 < 2 ^ 64)
    roundDrawIndex := hdraw
    pendingWinnerTickets := (by decide : 0 < 2 ^ 64) }

theorem complete (h : root.InRange) (hnow : -2 ^ 63 ≤ now ∧ now < 2 ^ 63) :
    (root.complete now).InRange := { h with
      phase := (by decide : FinalizationPhase.completed ≠ .unknown), completedAtUnix := hnow }

theorem aggregateParticipant {p : Participant K} {updated : Option (Participant K)}
    (h : root.InRange) (hp : p.InRange)
    (hs : FinalizeWinners.aggregateParticipant rt root p = .ok (root', updated)) :
    root'.InRange ∧ (updated.getD p).InRange := by
  simp only [FinalizeWinners.aggregateParticipant, requireParticipantIndex, bind_eq_ok,
    rejectIf_eq_ok, exists_const, okOr_eq_ok, checkedAdd_eq_some, pure_eq_ok, Prod.mk.injEq] at hs
  obtain ⟨-, -, _, ⟨hcount, rfl⟩, root₁, h₁, rfl, rfl⟩ := hs
  refine ⟨?_, { hp with finalizationGeneration := h.generation }⟩
  split at h₁
  · simp only [addEligible, bind_eq_ok, okOr_eq_ok, checkedAdd_eq_some, pure_eq_ok] at h₁
    obtain ⟨_, ⟨heligible, rfl⟩, _, ⟨htickets, rfl⟩, rfl⟩ := h₁
    exact { h with
      processedCount := hcount, eligibleCount := heligible, totalEligibleTickets := htickets }
  · obtain rfl := pure_eq_ok.mp h₁
    exact { h with processedCount := hcount }

theorem selectParticipant {p : Participant K} {updated : Option (Participant K)}
    (h : root.InRange) (hp : p.InRange)
    (hs : FinalizeWinners.selectParticipant root p = .ok (root', updated)) :
    root'.InRange ∧ (updated.getD p).InRange := by
  simp only [FinalizeWinners.selectParticipant, requireParticipantIndex, bind_eq_ok, rejectIf_eq_ok,
    exists_const, okOr_eq_ok, checkedAdd_eq_some] at hs
  obtain ⟨-, -, _, ⟨hcount, rfl⟩, hs⟩ := hs
  split at hs
  · simp only [bind_eq_ok, okOr_eq_ok, checkedAdd_eq_some] at hs
    obtain ⟨_, ⟨hseen, rfl⟩, hs⟩ := hs
    split at hs
    · simp only [pure_eq_ok, Prod.mk.injEq] at hs
      obtain ⟨rfl, rfl⟩ := hs
      exact ⟨{ h with
        roundProcessedCount := hcount, roundRemainingTicketsSeen := hseen
        pendingWinnerTickets := hp.ticketsBought },
        { hp with selectedGeneration := h.generation, selectedRound := h.currentRound }⟩
    · simp only [pure_eq_ok, Prod.mk.injEq] at hs
      obtain ⟨rfl, rfl⟩ := hs
      exact ⟨{ h with roundProcessedCount := hcount, roundRemainingTicketsSeen := hseen }, hp⟩
  · simp only [pure_eq_ok, Prod.mk.injEq] at hs
    obtain ⟨rfl, rfl⟩ := hs
    exact ⟨{ h with roundProcessedCount := hcount }, hp⟩

theorem finishAggregation {c : Config K} {l l' : Lottery K} (h : root.InRange)
    (hs : FinalizeWinners.finishAggregation rt c l root = .ok (l', root')) : root'.InRange := by
  simp only [FinalizeWinners.finishAggregation, FinalizationLedger.remainingTickets, bind_eq_ok,
    rejectIf_eq_ok, exists_const, pure_eq_ok, Prod.mk.injEq, not_le] at hs
  obtain ⟨-, htarget, l₁, -, _, ⟨-, rfl⟩, draw, hdraw, -, rfl⟩ := hs
  have hlt := drawIndex_lt rt hdraw
  have htotal := h.totalEligibleTickets
  apply beginSelectionRound
  · exact { h with targetWinners := htarget, currentRound := (by decide : 0 < 2 ^ 32) }
  · omega

theorem recordWinner {winner : SelectedWinner K} (h : root.InRange)
    (hs : root.recordWinner rt winner = .ok root') : root'.InRange := by
  simp only [FinalizationLedger.recordWinner, bind_eq_ok, rejectIf_eq_ok, exists_const, okOr_eq_ok,
    checkedAdd_eq_some, pure_eq_ok] at hs
  obtain ⟨-, _, ⟨hcount, rfl⟩, _, ⟨htickets, rfl⟩, rfl⟩ := hs
  exact { h with selectedCount := hcount, selectedTicketsTotal := htickets }

theorem nextRound {l l' : Lottery K} (h : root.InRange) (hl : l.InRange)
    (hnow : -2 ^ 63 ≤ now ∧ now < 2 ^ 63)
    (hs : FinalizeWinners.nextRound rt l root now = .ok (l', root')) :
    root'.InRange ∧ l'.InRange := by
  unfold FinalizeWinners.nextRound at hs
  split at hs
  · obtain ⟨-, -, -, -, -, -, -, -, rfl⟩ := completeFinalization_ok hs
    exact ⟨h.complete hnow, hl.completeFinalization hnow hs⟩
  · simp only [FinalizationLedger.remainingTickets, bind_eq_ok, rejectIf_eq_ok, exists_const,
      okOr_eq_ok, checkedAdd_eq_some, pure_eq_ok, Prod.mk.injEq] at hs
    obtain ⟨_, ⟨hround, rfl⟩, _, ⟨-, rfl⟩, draw, hdraw, rfl, rfl⟩ := hs
    have hlt := drawIndex_lt rt hdraw
    have htotal := h.totalEligibleTickets
    refine ⟨?_, hl⟩
    apply beginSelectionRound
    · exact { h with currentRound := hround }
    · omega

end FinalizationLedger.InRange

namespace Round

variable {r r' : Round K}

/-- Every number a lottery stores has the range of its type. -/
structure InRange (r : Round K) : Prop where
  now : -2 ^ 63 ≤ r.now ∧ r.now < 2 ^ 63
  lottery : r.lottery.InRange
  participants : ∀ p ∈ r.participants, p.InRange
  tally : ∀ t ∈ r.tally, t.InRange
  ledger : ∀ root ∈ r.ledger, root.InRange

namespace InRange

theorem participant {i : ℕ} {p : Participant K} (h : r.InRange) (hp : r.participants[i]? = some p) :
    p.InRange := h.participants p (List.mem_of_getElem? hp)

theorem setParticipant {i : ℕ} {p' : Participant K} {ps : List (Participant K)}
    (h : ∀ p ∈ ps, p.InRange) (hp' : p'.InRange) : ∀ p ∈ ps.set i p', p.InRange := by
  intro p hp
  rcases List.mem_or_eq_of_mem_set hp with hp | rfl
  · exact h p hp
  · exact hp'

theorem openTally (h : r.InRange) {n : ℕ} (hn : n < 2 ^ 64) : (r.openTally n).InRange := by
  unfold Round.openTally
  cases ht : r.tally with
  | none => exact .new (Config.effectiveMaxWinners_le_maxWinners _ _) hn
  | some t => exact h.tally t ht

theorem openLedger (h : r.InRange) : r.openLedger.InRange := by
  unfold Round.openLedger
  cases hroot : r.ledger with
  | none => exact .new h.lottery.participantsCount h.now
  | some root => exact h.ledger root hroot

theorem includeVisit {maxWinners : ℕ} {s s' : VoteTally K × List Bytes32} {plaintext : Bytes}
    {p p' : Participant K} (hs : s.1.InRange) (hp : p.InRange)
    (h : IncludeVisit rt maxWinners s plaintext p s' p') : s'.1.InRange ∧ p'.InRange := by
  obtain ⟨digest, hinc, -⟩ := h
  obtain ⟨-, -, -, -, ht, rfl⟩ := UploadReveals.includeReveal_ok hinc
  refine ⟨?_, { hp with }⟩
  rw [ht]
  split
  · exact hs.addVote _ _ hp.attestedAtUnix
  · exact hs

theorem passVisits {body : FinalizationLedger K → Participant K →
      Result (FinalizationLedger K × Option (Participant K))} {ps ps' : List (Participant K)}
    {root root' : FinalizationLedger K} {chunk : List (ℕ × Unit)}
    (hbody : ∀ (root : FinalizationLedger K) (p : Participant K) root' updated, root.InRange → p.InRange → body root p = .ok (root', updated) →
      root'.InRange ∧ (updated.getD p).InRange)
    (hps : ∀ p ∈ ps, p.InRange) (hroot : root.InRange)
    (h : Sweep (PassVisit body) ps root chunk ps' root') :
    (∀ p ∈ ps', p.InRange) ∧ root'.InRange := by
  refine h.invariant (P := fun qs root ↦ (∀ p ∈ qs, p.InRange) ∧ root.InRange) ⟨hps, hroot⟩ ?_
  rintro qs root i e p root' p' ⟨hqs, hroot⟩ hp ⟨updated, hok, rfl⟩
  obtain ⟨hroot', hp'⟩ := hbody _ _ _ _ hroot (hqs p (List.mem_of_getElem? hp)) hok
  exact ⟨setParticipant hqs hp', hroot'⟩

theorem step (h : r.InRange) (hs : r.Step rt r') : r'.InRange := by
  have hlottery {l : Lottery K} (hl : l.InRange) : { r with lottery := l }.InRange :=
    { h with lottery := hl }
  cases hs with
  | refl => exact h
  | tick hle hlt => exact { h with now := ⟨h.now.1.trans hle, hlt⟩ }
  | reconfigure => exact { h with }
  | deposit => exact { h with }
  | buyFirst hbuy _ hcount hlt =>
    have hmax : r.lottery.participantsCount + 1 < 2 ^ 64 := by
      rw [Sizes.maxParticipants] at hcount
      omega
    refine { h with
      lottery := { h.lottery with
        totalTickets := hbuy.tickets_lt, totalFunds := hbuy.funds_lt, participantsCount := hmax }
      participants := fun p hp ↦ ?_ }
    rcases List.mem_append.mp hp with hp | hp
    · exact h.participants p hp
    · rw [List.mem_singleton.mp hp]
      exact .new hlt h.lottery.participantsCount
  | buyMore hbuy hp hlt =>
    exact { h with
      lottery := { h.lottery with totalTickets := hbuy.tickets_lt, totalFunds := hbuy.funds_lt }
      participants := setParticipant h.participants { h.participant hp with ticketsBought := hlt } }
  | beginReveal _ _ _ _ _ _ _ _ _ hopen =>
      exact hlottery (h.lottery.openWindow h.now hopen).autoComplete
  | attestUploaded hp hcan =>
    exact { h with
      lottery := h.lottery.countAttestation h.now hcan.count_lt
      participants := setParticipant h.participants ((h.participant hp).attest h.now _) }
  | @attestReveal i p p' vote _ _ _ _ hp _ _ _ _ _ he hrec _ htally hconc =>
    have hl := h.lottery.recordReveal hrec
    have hp' : p'.InRange := by
      rw [he]
      exact ((h.participant hp).attest h.now vote).includeVerifiedReveal _
    refine { h with
      lottery := hl.conclude h.now hconc
      participants := setParticipant h.participants hp'
      tally := fun t ht ↦ ?_ }
    obtain rfl := Option.some.inj ht
    exact (h.openTally hl.attestedCount).tallyParticipant hl hp' htally
  | uploadReveals hphase _ hsweep hinc =>
    have hl := h.lottery.checkPhase h.now hphase
    obtain ⟨hps, ht⟩ := hsweep.invariant
      (P := fun (ps : List (Participant K)) (s : VoteTally K × List Bytes32) ↦
        (∀ p ∈ ps, p.InRange) ∧ s.1.InRange)
      ⟨h.participants, { h.openTally hl.attestedCount with totalAttested := hl.attestedCount }⟩ (by
        rintro ps s i e p s' p' ⟨hps, hs⟩ hp hv
        obtain ⟨hs', hp'⟩ := includeVisit hs (hps p (List.mem_of_getElem? hp)) hv
        exact ⟨setParticipant hps hp', hs'⟩)
    refine { h with lottery := hl.includeUploads hinc, participants := hps, tally := fun t ht' ↦ ?_ }
    obtain rfl := Option.some.inj ht'
    exact { ht with processedCount := saturatingAdd_lt _ _ _ }
  | beginRemediation _ _ _ _ _ _ hbegin => exact hlottery (h.lottery.beginRemediation h.now hbegin)
  | aggregate _ _ _ hsweep _ hend =>
    obtain ⟨hps, hroot⟩ :=
      passVisits (fun _ _ _ _ h hp ↦ h.aggregateParticipant hp) h.participants h.openLedger hsweep
    split at hend
    · exact { h with
        lottery := h.lottery.finishAggregation hend, participants := hps
        ledger := fun _ hmem ↦ Option.some.inj hmem ▸ hroot.finishAggregation hend }
    · cases hend
      exact { h with participants := hps, ledger := fun _ hmem ↦ Option.some.inj hmem ▸ hroot }
  | select _ _ _ hsweep =>
    obtain ⟨hps, hroot⟩ :=
      passVisits (fun _ _ _ _ h hp ↦ h.selectParticipant hp) h.participants h.openLedger hsweep
    exact { h with participants := hps, ledger := fun _ hmem ↦ Option.some.inj hmem ▸ hroot }
  | selectLast _ _ _ hsweep _ _ _ hrec hnext =>
    obtain ⟨hps, hroot⟩ :=
      passVisits (fun _ _ _ _ h hp ↦ h.selectParticipant hp) h.participants h.openLedger hsweep
    obtain ⟨hroot', hl⟩ := (hroot.recordWinner hrec).nextRound h.lottery h.now hnext
    exact { h with
      lottery := hl, participants := hps
      ledger := fun _ hmem ↦ Option.some.inj hmem ▸ hroot' }
  | payBatch hpays =>
    obtain ⟨old, -, hrun⟩ := hpays.page_eq
    exact { h with lottery := (h.lottery.payRun hrun).incrementSettlementBatch }
  | payLast hpays _ _ hcomp =>
    obtain ⟨old, -, hrun⟩ := hpays.page_eq
    obtain rfl := Lottery.completeSettlement_ok hcomp
    exact { h with lottery := { (h.lottery.payRun hrun).incrementSettlementBatch with } }
  | finalizeNoAttesters => exact hlottery h.lottery.settle
  | claimRefund _ _ _ hp _ _ _ hlt =>
    exact { h with
      lottery := { h.lottery with settlementBatchesCompleted := hlt }
      participants := setParticipant h.participants (h.participant hp).markRefundClaimed }
  | closeRefundVault => exact { h with }

end InRange

end Round

end DailyLottery
