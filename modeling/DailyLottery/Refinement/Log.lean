import DailyLottery.Specs
import DailyLottery.Accounts

set_option linter.unusedSectionVars false
set_option linter.unusedSimpArgs false

namespace DailyLottery

open Lib

/-- What a `WinnerSelected` event says of a winner. -/
structure Selection (K : Type) where
  index : ℕ
  wallet : K
  tickets : ℕ
  pageIndex : ℕ
  pageOffset : ℕ
  deriving DecidableEq

def SelectedWinner.announced {K : Type} (winner : SelectedWinner K) (i : ℕ) : Selection K :=
  ⟨i, winner.wallet, winner.tickets, i / winnersPerPage, i % winnersPerPage⟩

variable {K : Type} [DecidableEq K] [Inhabited K] {rt : Runtime K} {w w' w'' : World K}
  {accounts : List (AccountInfo K)}

/-- The winner of lottery `key` an event announces. -/
def LotteryEvent.selection (key : K) : LotteryEvent K → Option (Selection K)
  | .winnerSelected _ lottery _ winner winnerIndex tickets pageIndex pageOffset _ =>
    if lottery = key then some ⟨winnerIndex, winner, tickets, pageIndex, pageOffset⟩ else none
  | _ => none

/-- The log grew by events that announce the given winners of lottery `key`. -/
def Announces (key : K) (w w' : World K) (selections : List (Selection K)) : Prop :=
  ∃ es, w'.log = w.log ++ es ∧ es.filterMap (LotteryEvent.selection key) = selections

/-- The log grew by events that announce no winner of any lottery. -/
def Quiet (w w' : World K) : Prop := ∀ key, Announces key w w' []

namespace Announces

variable {key : K} {xs ys : List (Selection K)}

theorem of_log_eq (h : w'.log = w.log) : Announces key w w' [] := ⟨[], by simp [h], rfl⟩

theorem trans (h : Announces key w w' xs) (h' : Announces key w' w'' ys) :
    Announces key w w'' (xs ++ ys) := by
  obtain ⟨es, hl, rfl⟩ := h
  obtain ⟨es', hl', rfl⟩ := h'
  exact ⟨es ++ es', by rw [hl', hl, List.append_assoc], List.filterMap_append⟩

theorem emit (h : Announces key w w' xs) (e : LotteryEvent K) :
    Announces key w (w'.emit e) (xs ++ (e.selection key).toList) := by
  refine h.trans ⟨[e], rfl, ?_⟩
  cases he : e.selection key <;> simp [he]

theorem pad {w₁ w₂ : World K} (h : Announces key w₁ w₂ xs) (hw : Quiet w w₁) (hw' : Quiet w₂ w') :
    Announces key w w' xs := by
  simpa using ((hw key).trans h).trans (hw' key)

end Announces

namespace Quiet

theorem of_log_eq (h : w'.log = w.log) : Quiet w w' := fun _ ↦ .of_log_eq h

theorem refl (w : World K) : Quiet w w := of_log_eq rfl

theorem trans (h : Quiet w w') (h' : Quiet w' w'') : Quiet w w'' := fun key ↦ (h key).trans (h' key)

theorem emit (h : Quiet w w') (e : LotteryEvent K) (he : ∀ key, e.selection key = none) :
    Quiet w (w'.emit e) := by
  intro key
  have := (h key).emit e
  rwa [he] at this

theorem setData (h : Quiet w w') (k : K) (d : AccountData K) : Quiet w (w'.setData k d) := h

section Primitives

variable {ai target : AccountInfo K} {n : ℕ}

theorem write {T : Type} [AccountType K T] {t : T} (h : writeAccountData rt w ai t = .ok w') :
    Quiet w w' := by
  obtain ⟨-, -, -, rfl⟩ := writeAccountData_eq_ok.mp h
  exact .refl w

theorem create (h : createAccount rt w ai target n = .ok w') : Quiet w w' := by
  obtain ⟨-, -, -, -, -, rfl⟩ := createAccount_eq_ok.mp h
  exact .refl w

theorem move (h : moveLamports w ai target n = .ok w') : Quiet w w' := by
  obtain ⟨-, -, -, -, rfl⟩ := moveLamports_eq_ok.mp h
  exact .refl w

theorem movePositive (h : movePositive w ai target n = .ok w') : Quiet w w' := by
  unfold DailyLottery.movePositive at h
  split at h
  · exact .move h
  · cases h
    exact .refl w

theorem transfer (h : systemTransfer w ai target n = .ok w') : Quiet w w' := by
  simp only [systemTransfer, bind_eq_ok, rejectIf_eq_ok, exists_const, pure_eq_ok] at h
  obtain ⟨-, -, -, rfl⟩ := h
  exact .refl w

end Primitives

end Quiet

theorem Initialize.quiet {price bps cap : ℕ} (h : process rt w accounts price bps cap = .ok w') :
    Quiet w w' := by
  unfold process at h
  split at h
  · simp only [bind_eq_ok, assertPdaOwned_eq_ok, assertPdaKey_eq_ok, requireSigner_eq_ok,
      requireWritable_eq_ok, requireKeyMatch_eq_ok, validateTicketCount_eq_ok, rejectIf_eq_ok,
        exists_const] at h
    obtain ⟨-, -, -, -, -, h⟩ := h
    split at h
    · simp only [bind_eq_ok, pure_eq_ok] at h
      obtain ⟨w₁, h₁, w₂, h₂, rfl⟩ := h
      exact ((Quiet.create h₁).trans (.write h₂)).emit _ fun _ ↦ rfl
    · cases h
      exact .refl w
  · cases h

theorem UpdateServiceCharge.quiet {bps : ℕ} (h : process rt w accounts bps = .ok w') :
    Quiet w w' := by
  simp only [process, bind_eq_ok, rejectIf_eq_ok, exists_const] at h
  obtain ⟨-, h⟩ := h
  split at h
  · simp only [bind_eq_ok, assertPdaOwned_eq_ok, assertPdaKey_eq_ok, requireSigner_eq_ok,
      requireWritable_eq_ok, requireKeyMatch_eq_ok, validateTicketCount_eq_ok, rejectIf_eq_ok,
        pure_eq_ok, exists_const] at h
    obtain ⟨-, -, -, c, -, -, w₁, h₁, rfl⟩ := h
    exact (Quiet.write h₁).emit _ fun _ ↦ rfl
  · cases h

theorem CreateLottery.quiet_createIfForeign {payer new : AccountInfo K} {space : ℕ}
    (h : createIfForeign rt w payer new space = .ok w') : Quiet w w' := by
  unfold createIfForeign at h
  split at h
  · exact .create h
  · cases h
    exact .refl w

theorem CreateLottery.quiet (h : process rt w accounts = .ok w') : Quiet w w' := by
  unfold process at h
  split at h
  · simp only [bind_eq_ok, assertPdaOwned_eq_ok, assertPdaKey_eq_ok, requireSigner_eq_ok,
      requireWritable_eq_ok, requireKeyMatch_eq_ok, validateTicketCount_eq_ok, rejectIf_eq_ok,
        pure_eq_ok, exists_const] at h
    obtain ⟨-, -, -, -, -, -, c, -, -, _, -, -, -, w₁, h₁, w₂, h₂, l, -, w₃, h₃, w₄, h₄, w₅,
      h₅, rfl⟩ := h
    have hcreate := (quiet_createIfForeign h₁).trans (quiet_createIfForeign h₂)
    exact (((hcreate.trans (.write h₃)).trans (.write h₄)).trans (.write h₅)).emit _ fun _ ↦ rfl
  · cases h

theorem BeginRevealPhase.quiet {att upl : ℕ} (h : process rt w accounts att upl = .ok w') :
    Quiet w w' := by
  simp only [process, bind_eq_ok, rejectIf_eq_ok, exists_const] at h
  obtain ⟨-, h⟩ := h
  split at h
  · simp only [bind_eq_ok, assertPdaOwned_eq_ok, assertPdaKey_eq_ok, requireSigner_eq_ok,
      requireWritable_eq_ok, requireKeyMatch_eq_ok, validateTicketCount_eq_ok, rejectIf_eq_ok,
        pure_eq_ok, exists_const] at h
    obtain ⟨-, -, c, -, l, -, -, -, -, -, l', -, w₁, h₁, rfl⟩ := h
    refine Quiet.emit ?_ _ fun _ ↦ rfl
    split
    · exact (Quiet.write h₁).emit _ fun _ ↦ rfl
    · exact .write h₁
  · cases h

theorem BuyTickets.quiet {hash : Option Bytes32} {count : ℕ}
    (h : process rt w accounts hash count = .ok w') : Quiet w w' := by
  unfold process at h
  split at h
  · simp only [bind_eq_ok, assertPdaOwned_eq_ok, assertPdaKey_eq_ok, requireSigner_eq_ok,
      requireWritable_eq_ok, requireKeyMatch_eq_ok, validateTicketCount_eq_ok, rejectIf_eq_ok,
        pure_eq_ok, exists_const, Prod.exists] at h
    obtain ⟨-, -, -, -, -, -, -, -, _, -, l, -, _, -, -, -, -, -, -, -, -, _, -, w₁, p, l₁, h₁,
      _, -, w₂, h₂, _, -, w₃, h₃, w₄, h₄, rfl⟩ := h
    have hload : Quiet w w₁ := by
      unfold loadOrCreateParticipant at h₁
      split at h₁
      · simp only [bind_eq_ok, rejectIf_eq_ok, pure_eq_ok, exists_const, Prod.mk.injEq] at h₁
        obtain ⟨_, -, -, -, rfl, -⟩ := h₁
        exact .refl w
      · simp only [bind_eq_ok, rejectIf_eq_ok, pure_eq_ok, exists_const, Prod.mk.injEq] at h₁
        obtain ⟨-, w₀, h₀, _, -, _, -, rfl, -⟩ := h₁
        exact .create h₀
    exact (((hload.trans (.transfer h₂)).trans (.write h₃)).trans (.write h₄)).emit _ fun _ ↦ rfl
  · cases h

theorem AttestUploaded.quiet {preceding : List (K × Bytes)} {vote : ℕ}
    (h : process rt w preceding accounts vote = .ok w') : Quiet w w' := by
  unfold process at h
  split at h
  · simp only [bind_eq_ok, assertPdaOwned_eq_ok, assertPdaKey_eq_ok, requireSigner_eq_ok,
      requireWritable_eq_ok, requireKeyMatch_eq_ok, validateTicketCount_eq_ok, rejectIf_eq_ok,
        pure_eq_ok, exists_const] at h
    obtain ⟨-, -, -, -, -, c, -, l, -, p, -, -, -, -, -, -, -, -, -, -, _, -, _, -, _, -,
      w₁, h₁, w₂, h₂, rfl⟩ := h
    have hemit := ((Quiet.write h₁).trans (.write h₂)).emit
    split
    · exact (hemit _ fun _ ↦ rfl).emit _ fun _ ↦ rfl
    · exact hemit _ fun _ ↦ rfl
  · cases h

theorem AttestReveal.quiet {vote : ℕ} {plaintext : Bytes}
    (h : process rt w accounts vote plaintext = .ok w') : Quiet w w' := by
  unfold process at h
  split at h
  · simp only [bind_eq_ok, assertPdaOwned_eq_ok, assertPdaKey_eq_ok, requireSigner_eq_ok,
      requireWritable_eq_ok, requireKeyMatch_eq_ok, validateTicketCount_eq_ok, rejectIf_eq_ok,
        pure_eq_ok, exists_const, Prod.exists] at h
    obtain ⟨-, -, -, -, -, -, -, -, c, -, l, -, p, -, -, -, -, -, -, -, -, -, -, -, -, _, -, _, -,
      -, w₁, t, h₁, _, -, _, -, w₂, h₂, w₃, h₃, w₄, h₄, rfl⟩ := h
    have hload : Quiet w w₁ := by
      unfold loadOrCreateTally at h₁
      split at h₁
      · simp only [bind_eq_ok, pure_eq_ok, Prod.mk.injEq] at h₁
        obtain ⟨w₀, h₀, rfl, -⟩ := h₁
        exact .create h₀
      · simp only [bind_eq_ok, rejectIf_eq_ok, pure_eq_ok, exists_const, Prod.mk.injEq] at h₁
        obtain ⟨_, -, -, rfl, -⟩ := h₁
        exact .refl w
    have hwrites := ((hload.trans (.write h₂)).trans (.write h₃)).trans (.write h₄)
    exact (hwrites.emit _ fun _ ↦ rfl).emit _ fun _ ↦ rfl
  · cases h

theorem UploadReveals.quiet_processEntries {maxWinners : ℕ} {lotteryAi : AccountInfo K}
    {rest : List (AccountInfo K)} {entries : List (K × Bytes)} {t t' : VoteTally K}
    {ds ds' : List Bytes32}
    (h : processEntries rt maxWinners lotteryAi rest entries w t ds = .ok (w', t', ds')) :
    Quiet w w' := by
  induction entries generalizing w t ds with
  | nil =>
    simp only [processEntries, Except.ok.injEq, Prod.mk.injEq] at h
    rw [h.1]
    exact .refl w'
  | cons e entries ih =>
    simp only [processEntries, bind_eq_ok, requireWritable_eq_ok, assertPdaOwned_eq_ok,
      rejectIf_eq_ok, exists_const, Prod.exists] at h
    obtain ⟨ai, -, -, p, -, -, -, t₁, p₁, d, -, w₁, h₁, h⟩ := h
    exact (Quiet.write h₁).trans (ih h)

theorem UploadReveals.quiet_loadOrCreateTally {l : Lottery K} {maxWinners : ℕ}
    {uploaderAi tallyAi lotteryAi : AccountInfo K} {t : VoteTally K}
    (h : loadOrCreateTally rt w l maxWinners uploaderAi tallyAi lotteryAi = .ok (w', t)) :
    Quiet w w' := by
  unfold loadOrCreateTally at h
  split at h
  · simp only [bind_eq_ok, requireWritable_eq_ok, pure_eq_ok, exists_const, Prod.mk.injEq] at h
    obtain ⟨-, w₁, h₁, w₂, h₂, rfl, -⟩ := h
    exact (Quiet.create h₁).trans (.write h₂)
  · simp only [bind_eq_ok, rejectIf_eq_ok, pure_eq_ok, exists_const, Prod.mk.injEq] at h
    obtain ⟨_, -, -, -, rfl, -⟩ := h
    exact .refl w

theorem UploadReveals.quiet {entries : List (K × Bytes)}
    (h : process rt w accounts entries = .ok w') :
    Quiet w w' := by
  unfold process at h
  split at h
  · simp only [bind_eq_ok, assertPdaOwned_eq_ok, assertPdaKey_eq_ok, requireSigner_eq_ok,
      requireWritable_eq_ok, requireKeyMatch_eq_ok, validateTicketCount_eq_ok, rejectIf_eq_ok,
        exists_const, Prod.exists] at h
    obtain ⟨-, -, -, -, -, -, -, c, -, l, -, -, -, l₁, -, -, w₁, t, h₁, _, -, w₂, t₂, ds, h₂,
      l₂, -, w₃, h₃, h₄⟩ := h
    have hbegin : Quiet w w₁ := by
      refine Quiet.trans ?_ (quiet_loadOrCreateTally h₁)
      split
      · exact (Quiet.refl w).emit _ fun _ ↦ rfl
      · exact .refl w
    refine ((Quiet.trans ?_ (.write h₃)).emit _ fun _ ↦ rfl).trans (.write h₄)
    have hloop := hbegin.trans (quiet_processEntries h₂)
    split
    · exact hloop.emit _ fun _ ↦ rfl
    · exact hloop
  · cases h

section Settlement

variable {l l' : Lottery K} {lotteryAi vaultAi pageAi authorityAi : AccountInfo K}
  {page : WinnerPage K} {i amount batch : ℕ}

theorem SettlePayoutBatch.quiet_payLoop {xs : List (WinnerProof K × AccountInfo K)}
    (h : payLoop lotteryAi vaultAi pageAi page i amount batch xs w l = .ok (w', l')) :
    Quiet w w' := by
  induction xs generalizing w l with
  | nil =>
    simp only [payLoop, Except.ok.injEq, Prod.mk.injEq] at h
    rw [h.1]
    exact .refl w'
  | cons x xs ih =>
    simp only [payLoop, bind_eq_ok] at h
    obtain ⟨paid, -, h⟩ := h
    split at h
    · exact ih h
    · simp only [bind_eq_ok, Prod.exists] at h
      obtain ⟨w₁, l₁, hpay, h⟩ := h
      simp only [payEntry, bind_eq_ok, rejectIf_eq_ok, exists_const, pure_eq_ok,
        Prod.mk.injEq] at hpay
      obtain ⟨-, w₀, h₀, _, -, _, -, rfl, -⟩ := hpay
      exact (((Quiet.movePositive h₀).setData _ _).emit _ fun _ ↦ rfl).trans (ih h)

theorem SettlePayoutBatch.quiet_completeIfPaid
    (h : completeIfPaid w l lotteryAi vaultAi authorityAi = .ok (w', l')) : Quiet w w' := by
  unfold completeIfPaid at h
  split at h
  · simp only [closeVault, bind_eq_ok, pure_eq_ok, Prod.mk.injEq] at h
    obtain ⟨fee, -, w₁, h₁, w₂, h₂, w₃, h₃, l₁, -, rfl, -⟩ := h
    have hmoves := ((Quiet.movePositive h₁).trans (.movePositive h₂)).trans (.move h₃)
    split
    · exact (hmoves.emit _ fun _ ↦ rfl).emit _ fun _ ↦ rfl
    · exact hmoves.emit _ fun _ ↦ rfl
  · cases h
    exact .refl w

end Settlement

theorem SettlePayoutBatch.quiet {n batch : ℕ} {winners : List (WinnerProof K)}
    (h : process rt w accounts n batch winners = .ok w') : Quiet w w' := by
  unfold process at h
  split at h
  · simp only [bind_eq_ok, assertPdaOwned_eq_ok, requireWritable_eq_ok, requireKeyMatch_eq_ok,
      rejectIf_eq_ok, exists_const] at h
    obtain ⟨-, -, -, -, -, c, -, l, -, _, -, -, -, -, -, h⟩ := h
    split at h
    · cases h
      exact .refl w
    · simp only [processBatch, bind_eq_ok, assertPdaOwned_eq_ok, requireWritable_eq_ok,
        rejectIf_eq_ok, exists_const, Prod.exists] at h
      obtain ⟨-, first, -, -, -, -, page, -, -, -, w₁, l₁, h₁, w₂, l₂, h₂, h₃⟩ := h
      exact ((quiet_payLoop h₁).trans (quiet_completeIfPaid h₂)).trans (.write h₃)
  · cases h

theorem FinalizeNoAttesters.quiet (h : process rt w accounts = .ok w') : Quiet w w' := by
  unfold process at h
  split at h
  · simp only [bind_eq_ok, assertPdaOwned_eq_ok, requireWritable_eq_ok, requireKeyMatch_eq_ok,
      exists_const] at h
    obtain ⟨-, -, -, -, c, -, l, -, -, -, -, -, h⟩ := h
    split at h
    · cases h
      exact .refl w
    · simp only [bind_eq_ok, rejectIf_eq_ok, exists_const, pure_eq_ok] at h
      obtain ⟨-, -, w₁, h₁, rfl⟩ := h
      exact ((Quiet.write h₁).emit _ fun _ ↦ rfl).emit _ fun _ ↦ rfl
  · cases h

theorem ClaimRefund.quiet (h : process rt w accounts = .ok w') : Quiet w w' := by
  unfold process at h
  split at h
  · simp only [bind_eq_ok, assertPdaOwned_eq_ok, requireWritable_eq_ok, requireSigner_eq_ok,
      requireKeyMatch_eq_ok, rejectIf_eq_ok, exists_const, pure_eq_ok] at h
    obtain ⟨-, -, -, -, -, -, _, -, l, -, _, -, p, -, -, -, -, -, -, -, -, -, -, n, -, w₁, h₁, _, -,
      w₂, h₂, w₃, h₃, rfl⟩ := h
    exact (((Quiet.move h₁).trans (.write h₂)).trans (.write h₃)).emit _ fun _ ↦ rfl
  · cases h

theorem CloseParticipant.quiet (h : process rt w accounts = .ok w') : Quiet w w' := by
  unfold process at h
  split at h
  · simp only [bind_eq_ok, assertPdaOwned_eq_ok, requireWritable_eq_ok, requireSigner_eq_ok,
      rejectIf_eq_ok, exists_const, pure_eq_ok] at h
    obtain ⟨-, -, -, -, _, -, l, -, p, -, -, -, -, -, -, -, w₁, h₁, rfl⟩ := h
    exact (Quiet.move h₁).emit _ fun _ ↦ rfl
  · cases h

theorem CloseRefundVault.quiet (h : process rt w accounts = .ok w') : Quiet w w' := by
  unfold process at h
  split at h
  · simp only [bind_eq_ok, assertPdaOwned_eq_ok, requireWritable_eq_ok, requireKeyMatch_eq_ok,
      rejectIf_eq_ok, exists_const, pure_eq_ok] at h
    obtain ⟨-, -, -, c, -, l, -, _, -, -, -, -, -, -, -, -, -, w₁, h₁, rfl⟩ := h
    exact (Quiet.move h₁).emit _ fun _ ↦ rfl
  · cases h

theorem Step.quiet {a : Action K} (h : Step rt w a w')
    (ha : ∀ pre accounts, a ≠ .instruction pre .finalizeWinners accounts) : Quiet w w' := by
  cases h with
  | @instruction _ preceding ix accounts _ hok =>
    cases ix with
    | initializeConfig => exact Initialize.quiet hok
    | createLottery => exact CreateLottery.quiet hok
    | buyTickets => exact BuyTickets.quiet hok
    | attestUploaded => exact AttestUploaded.quiet hok
    | attestReveal => exact AttestReveal.quiet hok
    | uploadReveals => exact UploadReveals.quiet hok
    | finalizeWinners => exact absurd rfl (ha _ _)
    | settlePayoutBatch => exact SettlePayoutBatch.quiet hok
    | finalizeNoAttesters => exact FinalizeNoAttesters.quiet hok
    | claimRefund => exact ClaimRefund.quiet hok
    | closeParticipant => exact CloseParticipant.quiet hok
    | closeRefundVault => exact CloseRefundVault.quiet hok
    | updateServiceCharge => exact UpdateServiceCharge.quiet hok
    | beginRevealNow => exact BeginRevealPhase.quiet hok
  | tick => exact .of_log_eq rfl
  | deposit => exact .of_log_eq rfl
  | outside => exact .of_log_eq rfl
  | reap => exact .of_log_eq rfl

end DailyLottery
