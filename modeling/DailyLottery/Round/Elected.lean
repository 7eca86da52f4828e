import DailyLottery.Round.Invariant

set_option linter.unusedSectionVars false

namespace DailyLottery

open Lib

variable {K : Type} [DecidableEq K] [Inhabited K]

namespace Round

/-- Once the pool is known, the lottery asks for as many winners as its ledger. -/
def Elected (r : Round K) : Prop :=
  ∀ root, r.ledger = some root → root.phase ≠ .aggregating →
    r.lottery.selectedNumberOfWinners = root.targetWinners

variable {rt : Runtime K} {r r' : Round K}

theorem Elected.of_same (h : r.Elected) (hl : r'.ledger = r.ledger)
    (hsel : r.ledger ≠ none →
      r'.lottery.selectedNumberOfWinners = r.lottery.selectedNumberOfWinners) : r'.Elected := by
  intro root hroot hph
  rw [hl] at hroot
  rw [hsel (by simp [hroot])]
  exact h root hroot hph

theorem aggregate_phase {chunk : List (ℕ × Unit)} {ps ps' : List (Participant K)}
    {root root' : FinalizationLedger K}
    (h : Sweep (PassVisit (FinalizeWinners.aggregateParticipant rt)) ps root chunk ps' root') :
    root'.phase = root.phase := by
  refine h.invariant (P := fun _ s ↦ s.phase = root.phase) rfl ?_
  rintro qs s i e p s' p' hs - ⟨updated, hv, -⟩
  obtain ⟨-, -, -, -, rfl⟩ := FinalizeWinners.aggregateParticipant_ok hv
  rw [← hs]
  split <;> rfl

theorem select_target {chunk : List (ℕ × Unit)} {ps ps' : List (Participant K)}
    {root root' : FinalizationLedger K}
    (h : Sweep (PassVisit FinalizeWinners.selectParticipant) ps root chunk ps' root') :
    root'.targetWinners = root.targetWinners := by
  refine h.invariant (P := fun _ s ↦ s.targetWinners = root.targetWinners) rfl ?_
  rintro qs s i e p s' p' hs - ⟨updated, hv, -⟩
  rw [← hs]
  obtain ⟨-, -, -, ⟨-, rfl, -⟩ | ⟨-, ⟨-, -, -, rfl, -⟩ | ⟨-, rfl, -⟩⟩⟩ :=
    FinalizeWinners.selectParticipant_ok hv <;> rfl

theorem Elected.selecting (h : r.Elected) (hph : r.openLedger.phase = .selecting) :
    r.lottery.selectedNumberOfWinners = r.openLedger.targetWinners := by
  cases hl : r.ledger with
  | none => simp [openLedger, hl, FinalizationLedger.new] at hph
  | some root =>
    simp only [openLedger, hl, Option.getD_some] at hph ⊢
    exact h root hl (by simp [hph])

/-- Only a late upload of reveals can make the lottery ask for another number of winners. -/
theorem Elected.step (h : r.Elected) (hi : r.Invariant rt) (hs : r.Step rt r')
    (hup : r.ledger ≠ none → r'.lottery.uploadsComplete ≠ r.lottery.uploadsComplete →
      r'.lottery.selectedNumberOfWinners = r.lottery.selectedNumberOfWinners) : r'.Elected := by
  have hseal := hi.routed.sealed_of_ledger
  cases hs with
  | refl => exact h
  | tick => exact h
  | reconfigure => exact h
  | deposit => exact h
  | buyFirst => exact h
  | buyMore => exact h
  | beginReveal _ hns _ _ _ _ _ _ _ hopen =>
    exact h.of_same rfl fun hl ↦ absurd ((hseal hl).not_started hi.books) hns
  | attestUploaded =>
    rw [Lottery.countAttestation_eq]
    exact h.of_same rfl fun _ ↦ rfl
  | attestReveal _ ha =>
    exact h.of_same rfl fun hl ↦ absurd ha.phase ((hseal hl).not_upload hi.books)
  | uploadReveals hadmit hfits hsweep hinc =>
    obtain ⟨-, -, -, -, huc, -, hatt, rfl⟩ := UploadReveals.checkPhase_ok hadmit
    refine h.of_same rfl fun hl ↦ hup hl ?_
    -- with no reveal missing even an empty upload completes them
    obtain ⟨hpc, rfl⟩ := UploadReveals.includeUploads_ok hinc
    have hmiss := Lottery.hasMissing_eq_false.mp (hseal hl).no_missing
    have hle : r.lottery.attestedCount ≤ r.lottery.providerUploadedCount := hmiss.resolve_left hatt
    have hmax : Sizes.maxParticipants < 2 ^ 63 := by decide
    obtain ⟨-, hcount, hcap⟩ : r.lottery.providerUploadedCount ≤ r.lottery.attestedCount ∧
      r.lottery.attestedCount ≤ r.lottery.participantsCount ∧
      r.lottery.participantsCount ≤ Sizes.maxParticipants := hi.books.included_le
    dsimp only
    rw [huc, Bool.false_or, ne_eq, decide_eq_false_iff_not, not_not]
    unfold saturatingAdd
    omega
  | beginRemediation _ _ _ _ _ _ hrem =>
    obtain ⟨-, rfl⟩ | ⟨-, rfl⟩ := Lottery.beginRemediation_ok hrem
    all_goals exact h.of_same rfl fun _ ↦ rfl
  | aggregate _ hph _ hsweep _ hend =>
    intro root hroot hne
    cases hroot
    split at hend
    · obtain ⟨_, _, _, _, _, _, _, rfl, rfl⟩ := FinalizeWinners.finishAggregation_ok hend
      rfl
    · cases hend
      exact absurd ((aggregate_phase hsweep).trans hph) hne
  | select _ hph _ hsweep =>
    intro root hroot _
    cases hroot
    exact (h.selecting hph).trans (select_target hsweep).symm
  | selectLast _ hph _ hsweep _ _ _ hrec hnext =>
    intro root hroot _
    cases hroot
    have htarget := (h.selecting hph).trans (select_target hsweep).symm
    obtain ⟨-, rfl⟩ := FinalizeWinners.recordWinner_ok hrec
    rcases FinalizeWinners.nextRound_ok hnext with ⟨-, hcomp⟩ | ⟨-, rfl, -, draw, -, rfl⟩
    · obtain ⟨fee, bitmap, -, -, -, -, -, rfl, rfl⟩ := FinalizeWinners.completeFinalization_ok hcomp
      exact htarget
    · exact htarget
  | payBatch hpays _ =>
    obtain ⟨old, -, hrun⟩ := hpays.page_eq
    obtain ⟨bitmap, rfl⟩ := hrun.lottery
    exact h
  | payLast hpays _ _ hcomp =>
    obtain ⟨old, -, hrun⟩ := hpays.page_eq
    obtain ⟨bitmap, rfl⟩ := hrun.lottery
    obtain rfl := Lottery.completeSettlement_ok hcomp
    exact h
  | finalizeNoAttesters => exact h
  | claimRefund => exact h
  | closeRefundVault => exact h

end Round

end DailyLottery
