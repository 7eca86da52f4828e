import DailyLottery.Round.Funds

set_option linter.unusedSectionVars false

namespace DailyLottery

open Lib

variable {K : Type} [DecidableEq K] [Inhabited K]

namespace Round

/-- What a lottery keeps of the config it was created with. -/
structure Configured (r : Round K) : Prop where
  serviceCharge : r.lottery.serviceChargeBps < 10000
  cap_pos : 0 < r.config.maxWinnersCap
  cap_le : r.config.maxWinnersCap ≤ Sizes.maxWinners
  window : 0 < r.config.uploadWindowSecs

variable (rt : Runtime K) in
/-- All that holds of a lottery in every run. -/
structure Invariant (r : Round K) : Prop where
  books : r.books.Sound
  routed : r.Routed
  progress : Progress rt r
  paid : r.Paid
  funded : Funded rt r
  configured : r.Configured

variable {rt : Runtime K} {r r' : Round K}

namespace Configured

theorem init (h : r.Created rt) : r.Configured := by
  obtain ⟨id, config, authority, vault, bump, bps, price, hnew, hbps, -⟩ := h.lottery
  obtain ⟨-, -, -, -, -, -, -, -, -, -, -, -, -, -, -, -, -, -, -, -, -, -, -, -, hl, -⟩ :=
    Lottery.new_ok hnew
  obtain ⟨hcharge, hcap, hwin⟩ := h.config
  simp only [Config.validateServiceCharge, Config.validateMaxWinnersCap,
    decide_eq_true_iff] at hcharge hcap
  exact ⟨by rw [hl, ← hbps]; exact hcharge, hcap.1, hcap.2, hwin⟩

theorem step (h : r.Configured) (hs : r.Step rt r') : r'.Configured := by
  have hsame {r' : Round K} (hl : r'.lottery.serviceChargeBps = r.lottery.serviceChargeBps)
      (hc : r'.config = r.config) : r'.Configured := by
    refine ⟨by rw [hl]; exact h.serviceCharge, ?_, ?_, ?_⟩
    all_goals rw [hc]
    exacts [h.cap_pos, h.cap_le, h.window]
  cases hs with
  | refl => exact h
  | tick => exact hsame rfl rfl
  | reconfigure _ hcap _ hwin =>
    refine ⟨h.serviceCharge, ?_, ?_, ?_⟩
    · exact hcap.symm ▸ h.cap_pos
    · exact hcap.symm ▸ h.cap_le
    · exact hwin.symm ▸ h.window
  | deposit => exact hsame rfl rfl
  | buyFirst => exact hsame rfl rfl
  | buyMore => exact hsame rfl rfl
  | beginReveal _ _ _ _ _ _ _ _ _ hopen =>
    obtain rfl := BeginRevealPhase.openWindow_ok hopen
    rw [BeginRevealPhase.autoComplete_eq]
    exact hsame rfl rfl
  | attestUploaded =>
    rw [Lottery.countAttestation_eq]
    exact hsame rfl rfl
  | attestReveal _ _ _ _ _ _ _ hrec _ _ hconc =>
    obtain ⟨-, rfl⟩ := AttestReveal.recordReveal_ok hrec
    obtain rfl := AttestReveal.conclude_ok hconc
    exact hsame rfl rfl
  | uploadReveals hadmit _ _ hinc =>
    obtain ⟨-, -, -, -, -, -, -, rfl⟩ := UploadReveals.checkPhase_ok hadmit
    obtain ⟨-, rfl⟩ := UploadReveals.includeUploads_ok hinc
    exact hsame rfl rfl
  | beginRemediation _ _ _ _ _ _ hrem =>
    obtain ⟨-, rfl⟩ | ⟨-, rfl⟩ := Lottery.beginRemediation_ok hrem
    all_goals exact hsame rfl rfl
  | aggregate _ _ _ _ _ hend =>
    split at hend
    · obtain ⟨_, _, _, _, _, _, _, rfl, -⟩ := FinalizeWinners.finishAggregation_ok hend
      exact hsame rfl rfl
    · cases hend
      exact hsame rfl rfl
  | select => exact hsame rfl rfl
  | selectLast _ _ _ _ _ _ _ _ hnext =>
    rcases FinalizeWinners.nextRound_ok hnext with ⟨-, hcomp⟩ | ⟨-, rfl, -⟩
    · obtain ⟨fee, bitmap, -, -, -, -, -, rfl, -⟩ := FinalizeWinners.completeFinalization_ok hcomp
      exact hsame rfl rfl
    · exact hsame rfl rfl
  | payBatch hpays _ =>
    obtain ⟨old, -, hrun⟩ := hpays.page_eq
    obtain ⟨bitmap, rfl⟩ := hrun.lottery
    exact hsame rfl rfl
  | payLast hpays _ _ hcomp =>
    obtain ⟨old, -, hrun⟩ := hpays.page_eq
    obtain ⟨bitmap, rfl⟩ := hrun.lottery
    obtain rfl := Lottery.completeSettlement_ok hcomp
    exact hsame rfl rfl
  | finalizeNoAttesters => exact hsame rfl rfl
  | claimRefund => exact hsame rfl rfl
  | closeRefundVault => exact hsame rfl rfl

end Configured

theorem Invariant.init (h : r.Created rt) : Invariant rt r :=
  ⟨h.sound, .init h, .init h, .init h, .init h, .init h⟩

theorem Invariant.step (h : Invariant rt r) (hs : r.Step rt r') : Invariant rt r' :=
  ⟨h.books.step hs.books, h.routed.step h.books hs, h.progress.step h.books h.routed hs,
    h.paid.step h.progress hs, h.funded.step h.books h.routed h.progress hs, h.configured.step hs⟩

theorem Invariant.unclaimed (h : Invariant rt r) (hwc : r.lottery.winnersCount = 0)
    {p : Participant K} (hmem : p ∈ r.participants) (hcl : p.refundClaimed = false) :
    r.vaultClosed = false ∧ r.lottery.ticketPriceLamports * p.ticketsBought ≤ r.owed := by
  have hcount : r.participants.countP Participant.refundClaimed < r.participants.length :=
    List.countP_lt_length_iff.mpr ⟨p, hmem, by simp [hcl]⟩
  have hlen : r.participants.length = r.lottery.participantsCount := by
    have := h.books.enrolled.length
    rwa [Round.books, List.length_map] at this
  have hrefunds := h.funded.refunds hwc
  refine ⟨?_, ?_⟩
  · by_contra hc
    have := (h.funded.closed (by simpa using hc)).2.1 hwc
    omega
  · rw [owed, if_pos hwc]
    refine le_trans (le_of_eq ?_) (List.le_sum_of_mem (List.mem_map_of_mem hmem))
    simp [Participant.refundDue, hcl]

theorem invariant (h : (machine rt).Reachable r) : Invariant rt r :=
  reachable_invariant h (fun _ ↦ .init) fun _ _ _ hr hs ↦ hr.step hs

end Round

end DailyLottery
