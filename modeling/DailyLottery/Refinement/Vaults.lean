import DailyLottery.Refinement.Simulation

set_option linter.unusedSectionVars false

namespace DailyLottery

open Lib

variable {K : Type} [DecidableEq K] [Inhabited K] {rt : Runtime K} {w w' w'' : World K}
  {accounts : List (AccountInfo K)} {k : K}

/-- No vault is written: the vault an account holds it held before. -/
def NoVault (w w' : World K) : Prop :=
  ∀ k v, (w'.accounts k).data = .vault v → (w.accounts k).data = .vault v

namespace NoVault

theorem refl (w : World K) : NoVault w w := fun _ _ h ↦ h

theorem trans (h : NoVault w w') (h' : NoVault w' w'') : NoVault w w'' :=
  fun k v hv ↦ h k v (h' k v hv)

theorem setAccount (h : NoVault w w') (k : K) {a : Account K}
    (ha : ∀ v, a.data = .vault v → (w'.accounts k).data = .vault v) :
    NoVault w (w'.setAccount k a) := by
  refine h.trans fun k' v hv ↦ ?_
  by_cases hk : k' = k
  · subst hk
    rw [World.accounts_setAccount_self] at hv
    exact ha v hv
  · rwa [World.accounts_setAccount_of_ne _ _ hk] at hv

theorem setData (h : NoVault w w') (k : K) {d : AccountData K} (hd : ∀ v, d ≠ .vault v) :
    NoVault w (w'.setData k d) := h.setAccount k fun v hv ↦ absurd hv (hd v)

theorem setLamports (h : NoVault w w') (k : K) (n : ℕ) : NoVault w (w'.setLamports k n) :=
  h.setAccount k fun _ hv ↦ hv

theorem create {payer new : AccountInfo K} {space : ℕ}
    (h : createAccount rt w payer new space = .ok w') : NoVault w w' := by
  obtain ⟨-, -, -, -, -, rfl⟩ := createAccount_eq_ok.mp h
  exact ((refl w).setLamports _ _).setAccount _ fun v hv ↦ by cases hv

theorem participant {ai : AccountInfo K} {p : Participant K}
    (h : writeAccountData rt w ai p = .ok w') : NoVault w w' := by
  obtain ⟨-, -, -, rfl⟩ := writeAccountData_eq_ok.mp h
  exact (refl w).setData _ fun v hv ↦ by cases hv

end NoVault

namespace UploadReveals

theorem processEntries_noVault {maxWinners : ℕ} {lotteryAi : AccountInfo K}
    {rest : List (AccountInfo K)} {entries : List (K × Bytes)} {t t' : VoteTally K}
    {ds ds' : List Bytes32}
    (h : processEntries rt maxWinners lotteryAi rest entries w t ds = .ok (w', t', ds')) :
    NoVault w w' := by
  induction entries generalizing w t ds with
  | nil =>
    simp only [processEntries, Except.ok.injEq, Prod.mk.injEq] at h
    rw [h.1]
    exact .refl w'
  | cons e entries ih =>
    simp only [processEntries, bind_eq_ok, requireWritable_eq_ok, assertPdaOwned_eq_ok,
      rejectIf_eq_ok, exists_const, Prod.exists] at h
    obtain ⟨ai, -, -, p, -, -, -, t₁, p₁, d, -, w₁, hwrite, h⟩ := h
    exact (NoVault.participant hwrite).trans (ih h)

end UploadReveals

namespace FinalizeWinners

variable {lotteryAi payerAi pageAi : AccountInfo K} {root root' : FinalizationLedger K}
  {l l' : Lottery K} {now : ℤ}

theorem participantLoop_noVault {body : FinalizationLedger K → Participant K →
      Result (FinalizationLedger K × Option (Participant K))}
    (h : participantLoop rt body lotteryAi accounts w root = .ok (w', root')) : NoVault w w' := by
  induction accounts generalizing w root with
  | nil =>
    simp only [participantLoop, Except.ok.injEq, Prod.mk.injEq] at h
    rw [h.1]
    exact .refl w'
  | cons ai rest ih =>
    simp only [participantLoop, bind_eq_ok, Prod.exists] at h
    obtain ⟨-, -, p, -, root₁, updated, -, w₁, hwrite, h⟩ := h
    refine NoVault.trans ?_ (ih h)
    cases updated with
    | none =>
      cases hwrite
      exact .refl w
    | some p' => exact .participant hwrite

theorem loadOrCreateWinnerPage_noVault {g i : ℕ} {page : WinnerPage K}
    (h : loadOrCreateWinnerPage rt w lotteryAi payerAi pageAi g i = .ok (w', page)) :
    NoVault w w' := by
  simp only [loadOrCreateWinnerPage, bind_eq_ok] at h
  obtain ⟨-, -, h⟩ := h
  split at h
  · simp only [bind_eq_ok, pure_eq_ok, Prod.mk.injEq] at h
    obtain ⟨_, hcreate, rfl, -⟩ := h
    exact .create hcreate
  · simp only [bind_eq_ok, rejectIf_eq_ok, exists_const, pure_eq_ok, Prod.mk.injEq] at h
    obtain ⟨-, -, _, -, -, rfl, -⟩ := h
    exact .refl w

theorem finishRound_noVault
    (h : finishRound rt w lotteryAi payerAi pageAi l root now = .ok (w', l', root')) :
    NoVault w w' := by
  simp only [finishRound, appendWinner, bind_eq_ok, Prod.exists, pure_eq_ok, Prod.mk.injEq,
    writeAccountData_eq_ok] at h
  obtain ⟨winner, -, w₁, page, h₁, _, ⟨page', data', -, _, ⟨-, -, -, rfl⟩, rfl⟩, root₁, -,
    l₁, root₂, -, hw', -, -⟩ := h
  have happend := ((loadOrCreateWinnerPage_noVault h₁).setData pageAi.key
    (d := AccountType.wrap page' (w₁.accounts pageAi.key).data) fun v hv ↦ by cases hv).setData
    pageAi.key (d := .winnerPage page' data') fun v hv ↦ by cases hv
  rw [← hw']
  split <;> exact happend

theorem Chunk.noVault {c : Config K} {participantAccounts : List (AccountInfo K)} {w₁ w₂ : World K}
    (h : Chunk rt w w' c l root lotteryAi payerAi pageAi participantAccounts w₁ w₂ l' root') :
    NoVault w₁ w₂ := by
  rcases h.pass with ⟨-, hpass⟩ | ⟨-, hpass⟩
  · simp only [processAggregationChunk, bind_eq_ok, Prod.exists] at hpass
    obtain ⟨wm, root₁, hloop, -, -, hpass⟩ := hpass
    have hkept := participantLoop_noVault hloop
    split at hpass
    · simp only [bind_eq_ok, pure_eq_ok, Prod.mk.injEq, Prod.exists] at hpass
      obtain ⟨_, _, -, rfl, -, -⟩ := hpass
      exact hkept
    · simp only [pure_eq_ok, Prod.mk.injEq] at hpass
      exact hpass.1 ▸ hkept
  · simp only [processSelectionChunk, bind_eq_ok, Prod.exists] at hpass
    obtain ⟨wm, root₁, hloop, -, -, hpass⟩ := hpass
    have hkept := participantLoop_noVault hloop
    split at hpass
    · exact hkept.trans (finishRound_noVault hpass)
    · simp only [pure_eq_ok, Prod.mk.injEq] at hpass
      exact hpass.1 ▸ hkept

end FinalizeWinners

section Steps

variable {acts : List (Action K)} {ws : List (World K)} {pre : List (K × Bytes)}
  {ix : Instruction K} {id : ℕ} {v : Vault K}

theorem UploadReveals.vault {entries : List (K × Bytes)} (hw : WellTyped rt w)
    (hs : SignersAreKeys rt accounts) (h : process rt w accounts entries = .ok w')
    (hv : (w'.view rt id .vault).data = .vault v) : (w.view rt id .vault).data = .vault v := by
  obtain ⟨c, l, isAuthority, l₁, l', t, t', ds, lotteryAi, rest, w₁, w₂, u, -, -, -, -,
    -, -, -, ht₁, hopen, hv₁, -, hloop, -, ht₂, hv₂⟩ := effect hw hs h
  have hkept := processEntries_noVault hloop
  by_cases hid : id = l.id
  · subst hid
    rw [hv₂] at hv
    have hmid : (w₁.view rt l.id .vault).data = .vault v :=
      hkept _ v (by simpa [World.accounts_slotKey] using hv)
    rw [hv₁, View.setData_apply, if_neg (by simp), hopen.apply_of_ne (by simp)] at hmid
    exact hmid
  · rw [ht₂.view_of_ne hid] at hv
    rw [← ht₁.view_of_ne hid]
    exact hkept _ v hv

theorem FinalizeWinners.vault (hw : WellTyped rt w) (hs : SignersAreKeys rt accounts)
    (h : process rt w accounts = .ok w') (hv : (w'.view rt id .vault).data = .vault v) :
    (w.view rt id .vault).data = .vault v := by
  obtain ⟨c, l, -, -, -, heff⟩ := effect hw hs h
  cases heff with
  | done he => rwa [he] at hv
  | missing _ _ _ _ _ _ _ ht _ hview =>
    by_cases hid : id = l.id
    · subst hid
      simpa [hview] using hv
    · rwa [ht.view_of_ne hid] at hv
  | @chunk root lotteryAi payerAi pageAi _ w₁ w₂ l' root' _ _ _ _ _ _ hchunk =>
    by_cases hid : id = l.id
    · subst hid
      rw [hchunk.view] at hv
      have hmid : (w₁.view rt l.id .vault).data = .vault v := by
        refine hchunk.noVault _ v ?_
        simpa [World.accounts_slotKey] using hv
      rwa [hchunk.opened.apply_of_ne (by simp)] at hmid
    · rw [hchunk.after.view_of_ne hid] at hv
      rw [← hchunk.before.view_of_ne hid]
      exact hchunk.noVault _ v hv

theorem Step.vault {a : Action K} (hc : Consistent rt acts w ws) (hs : Step rt w a w')
    (ha : ∀ pre accounts, a ≠ .instruction pre .createLottery accounts)
    (hv : (w'.view rt id .vault).data = .vault v) : (w.view rt id .vault).data = .vault v := by
  have hw := hc.typed
  have hcall {i : ℕ} (ht : Touches rt i w w')
      (hsame : (w'.view rt i .vault).data = (w.view rt i .vault).data) :
      (w.view rt id .vault).data = .vault v := by
    by_cases hid : id = i
    · subst hid
      exact hsame ▸ hv
    · rwa [ht.view_of_ne hid] at hv
  cases hs with
  | @instruction _ pre ix accounts hsig hok =>
    cases ix with
    | initializeConfig price bps cap =>
      obtain rfl | ⟨-, c, -, -, hconf⟩ := Initialize.effect hsig hok
      · exact hv
      · rwa [hconf.view] at hv
    | createLottery => exact absurd rfl (ha _ _)
    | updateServiceCharge bps =>
      obtain ⟨c, -, -, hconf⟩ := UpdateServiceCharge.effect hw hok
      rwa [hconf.view] at hv
    | buyTickets hash count =>
      obtain ⟨l, -, -, -, -, ht, ⟨p, -, -, hview⟩ | ⟨wallet, proof, -, -, -, -, hview⟩⟩ :=
        BuyTickets.effect hw hsig hok
      · exact hcall ht (by simp [hview])
      · exact hcall ht (by simp [hview])
    | attestUploaded vote =>
      obtain ⟨c, l, p, -, -, -, -, -, -, -, ht, hview⟩ := AttestUploaded.effect hw hok
      exact hcall ht (by simp [hview])
    | attestReveal vote plaintext =>
      obtain ⟨c, l, p, p', l₁, l', t, t', u, -, -, -, -, -, -, -, -, -, -, -, -, -, -, -, ht,
        hopen, hview⟩ :=
        AttestReveal.effect hw hsig hok
      exact hcall ht (by simp [hview, hopen.apply_of_ne])
    | uploadReveals entries => exact UploadReveals.vault hw hsig hok hv
    | finalizeWinners => exact FinalizeWinners.vault hw hsig hok hv
    | settlePayoutBatch i batch winners =>
      obtain ⟨l, c, -, -, -, -, -, -, ⟨-, rfl⟩ | ⟨_, _, _, _, _, _, _, _, _, hb⟩⟩ :=
        SettlePayoutBatch.effect hw hok
      · exact hv
      · exact hcall hb.touches (by simp [hb.view])
    | finalizeNoAttesters =>
      obtain ⟨l, -, -, ⟨-, rfl⟩ | ⟨-, -, -, ht, hview⟩⟩ := FinalizeNoAttesters.effect hw hok
      · exact hv
      · exact hcall ht (by simp [hview])
    | claimRefund =>
      obtain ⟨l, p, -, -, -, -, -, -, -, -, -, -, -, -, -, ht, hview, -⟩ :=
        ClaimRefund.effect hw hsig hok
      exact hcall ht (by simp [hview])
    | closeParticipant =>
      obtain ⟨l, p, -, -, -, -, -, ht, hview⟩ := CloseParticipant.effect hw hsig hok
      exact hcall ht (by simp [hview])
    | closeRefundVault =>
      obtain ⟨l, -, -, -, -, -, -, -, ht, hview⟩ := CloseRefundVault.effect hw hok
      exact hcall ht (by simp [hview])
    | beginRevealNow a u =>
      obtain ⟨c, l, l', att, upl, -, -, -, -, -, -, -, -, -, -, -, -, -, ht, hview⟩ :=
        BeginRevealPhase.effect hw hok
      exact hcall ht (by simp [hview])
  | tick => exact hv
  | deposit key n => rwa [(Consistent.view_deposit rt w key n id .vault).1] at hv
  | outside account hk => rwa [World.view_setAccount_of_ne _ _ fun s ↦ hk _] at hv
  | @reap key hz =>
    by_cases hk : rt.slotKey id .vault = key
    · rw [← World.accounts_slotKey, hk, World.accounts_setAccount_self] at hv
      cases hv
    · rwa [← World.accounts_slotKey, World.accounts_setAccount_of_ne _ _ hk,
        World.accounts_slotKey] at hv

end Steps

end DailyLottery
