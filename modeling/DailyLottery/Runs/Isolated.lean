import DailyLottery.Execute
import DailyLottery.Refinement.Changes

set_option linter.unusedSectionVars false

namespace DailyLottery

open Lib

variable {K : Type} [DecidableEq K] [Inhabited K] {rt : Runtime K} {acts : List (Action K)}
  {w w' : World K} {ws : List (World K)} {ix : Instruction K} {accounts : List (AccountInfo K)}
  {pre : List (K × Bytes)} {id : ℕ}

theorem CreateLottery.callsOn (hw : WellTyped rt w)
    (h : CreateLottery.process rt w accounts = .ok w') :
    ∃ c, (w.accounts rt.configKey).data = .config c ∧ CallsOn rt accounts (c.lotteryCount + 1) := by
  unfold CreateLottery.process at h
  split at h
  · next configAi lotteryAi vaultAi authorityAi _ _ =>
    simp only [bind_eq_ok, assertPdaOwned_eq_ok, assertPdaKey_eq_ok, requireSigner_eq_ok,
      requireWritable_eq_ok, requireKeyMatch_eq_ok, rejectIf_eq_ok, exists_const, okOr_eq_ok,
      checkedAdd_eq_some] at h
    obtain ⟨⟨hck, -⟩, -, -, -, -, -, c, hc, -, _, ⟨-, rfl⟩, hlk, -⟩ := h
    refine ⟨c, (hw.readConfig hck hc).1, congrArg some ?_⟩
    rw [← hlk, ← hck]
    rfl
  · cases h

theorem UploadReveals.touches {entries : List (K × Bytes)} (hc : Consistent rt acts w ws)
    (hs : SignersAreKeys rt accounts) (h : UploadReveals.process rt w accounts entries = .ok w') :
    ∃ id, CallsOn rt accounts id ∧ Touches rt id w w' := by
  obtain ⟨id, hne, hon, -, hall⟩ := UploadReveals.follow hc.typed hs h [] (.uploadReveals entries)
  obtain ⟨r, -, hr⟩ := hc.round id hne
  exact ⟨id, hon, (hall acts ws r hr).1⟩

theorem FinalizeWinners.touches (hc : Consistent rt acts w ws) (hs : SignersAreKeys rt accounts)
    (h : FinalizeWinners.process rt w accounts = .ok w') :
    ∃ id, CallsOn rt accounts id ∧ Touches rt id w w' := by
  obtain ⟨c, l, hcd, hl, hon, heff⟩ := FinalizeWinners.effect hc.typed hs h
  refine ⟨l.id, hon, ?_⟩
  cases heff with
  | done he =>
    rw [he]
    exact .refl _ _
  | missing _ _ _ _ _ _ _ ht _ _ => exact ht
  | chunk hset hsc hpc hatt hmiss hel hchunk =>
    obtain ⟨r, -, hr⟩ := hc.round l.id (by simp [hl])
    obtain rfl := hr.eq_lottery hl
    obtain rfl := hr.eq_config hcd
    exact (hchunk.simulated hc.typed hr hset hsc hpc hatt hmiss hel [] .finalizeWinners accounts).1

theorem Step.touches (hc : Consistent rt acts w ws)
    (hs : Step rt w (.instruction pre ix accounts) w') :
    (∀ j, w'.view rt j = w.view rt j) ∨
      ∃ id, CallsOn rt accounts id ∧ ∀ j, j ≠ id → w'.view rt j = w.view rt j := by
  have hw := hc.typed
  have htouch (h : ∃ id, CallsOn rt accounts id ∧ Touches rt id w w') :
    (∀ j, w'.view rt j = w.view rt j) ∨
      ∃ id, CallsOn rt accounts id ∧ ∀ j, j ≠ id → w'.view rt j = w.view rt j := by
    obtain ⟨id, hon, ht⟩ := h
    exact .inr ⟨id, hon, fun j ↦ ht.view_of_ne⟩
  cases hs with
  | instruction hsig hok =>
    cases ix with
    | initializeConfig price bps cap =>
      left
      obtain rfl | ⟨-, c, -, -, hconf⟩ := Initialize.effect hsig hok
      · exact fun _ ↦ rfl
      · exact hconf.view
    | updateServiceCharge bps =>
      obtain ⟨c, -, -, hconf⟩ := UpdateServiceCharge.effect hw hok
      exact .inl hconf.view
    | createLottery =>
      obtain ⟨c, l, bump, w₁, hcd, -, -, ht, -, hconf⟩ :=
        CreateLottery.effect hw hsig (fun c ↦ hc.next_empty) hok
      obtain ⟨c', hcd', hon⟩ := CreateLottery.callsOn hw hok
      obtain rfl := AccountData.config.inj (hcd.symm.trans hcd')
      exact .inr ⟨_, hon, fun j hj ↦ (hconf.view j).trans (ht.view_of_ne hj)⟩
    | buyTickets hash count =>
      obtain ⟨l, -, hon, -, -, ht, -⟩ := BuyTickets.effect hw hsig hok
      exact htouch ⟨_, hon, ht⟩
    | attestUploaded vote =>
      obtain ⟨c, l, p, -, -, hon, -, -, -, -, ht, -⟩ := AttestUploaded.effect hw hok
      exact htouch ⟨_, hon, ht⟩
    | attestReveal vote plaintext =>
      obtain ⟨c, l, p, p', l₁, l', t, t', v, -, -, hon, -, -, -, -, -, -, -, -, -, -, -,
        -, ht, -⟩ :=
        AttestReveal.effect hw hsig hok
      exact htouch ⟨_, hon, ht⟩
    | uploadReveals entries => exact htouch (UploadReveals.touches hc hsig hok)
    | finalizeWinners => exact htouch (FinalizeWinners.touches hc hsig hok)
    | settlePayoutBatch i batch winners =>
      obtain ⟨l, c, -, hon, -, -, -, -, ⟨-, rfl⟩ | ⟨_, _, _, _, _, _, _, _, _, hb⟩⟩ :=
        SettlePayoutBatch.effect hw hok
      · exact .inl fun _ ↦ rfl
      · exact htouch ⟨_, hon, hb.touches⟩
    | finalizeNoAttesters =>
      obtain ⟨l, -, hon, ⟨-, rfl⟩ | ⟨-, -, -, ht, -⟩⟩ := FinalizeNoAttesters.effect hw hok
      · exact .inl fun _ ↦ rfl
      · exact htouch ⟨_, hon, ht⟩
    | claimRefund =>
      obtain ⟨l, p, -, hon, -, -, -, -, -, -, -, -, -, -, -, ht, -⟩ :=
        ClaimRefund.effect hw hsig hok
      exact htouch ⟨_, hon, ht⟩
    | closeParticipant =>
      obtain ⟨l, p, -, hon, -, -, -, ht, -⟩ := CloseParticipant.effect hw hsig hok
      exact htouch ⟨_, hon, ht⟩
    | closeRefundVault =>
      obtain ⟨l, -, hon, -, -, -, -, -, ht, -⟩ := CloseRefundVault.effect hw hok
      exact htouch ⟨_, hon, ht⟩
    | beginRevealNow a u =>
      obtain ⟨c, l, l', att, upl, -, -, hon, -, -, -, -, -, -, -, -, -, -, ht, -⟩ :=
        BeginRevealPhase.effect hw hok
      exact htouch ⟨_, hon, ht⟩

/-- An instruction called on one lottery leaves every account of any other as it was, lamports and
owner included. A lottery is created under an id above all others, where nothing was. -/
theorem lotteries_isolated (h : (system rt).History acts (w :: ws))
    (hs : Step rt w (.instruction pre ix accounts) w') :
    (∀ a b, CallsOn rt accounts a → b ≠ a → w'.view rt b = w.view rt b) ∧
      (ix = .createLottery → ∃ id, CallsOn rt accounts id ∧
        (∀ b, (w.view rt b .lottery).data ≠ .empty → b < id) ∧
        (w.view rt id .lottery).data = .empty ∧ (w.view rt id .vault).data = .empty ∧
        ∀ b, b ≠ id → w'.view rt b = w.view rt b) := by
  have hc := consistent h
  constructor
  · intro a b ha hb
    obtain hall | ⟨id, hon, hother⟩ := hs.touches hc
    · exact hall b
    · obtain rfl := ha.eq hon
      exact hother b hb
  · rintro rfl
    cases hs with
    | instruction hsig hok =>
      obtain ⟨c, hcd, hon⟩ := CreateLottery.callsOn hc.typed hok
      obtain ⟨hlottery, hvault⟩ := hc.next_empty hcd
      refine ⟨_, hon, fun b hb ↦ ?_, hlottery, hvault, fun b hb ↦ ?_⟩
      · obtain ⟨c', hcd', -, hle⟩ := (hc.exists_iff b).mp hb
        obtain rfl := AccountData.config.inj (hcd.symm.trans hcd')
        omega
      · have hstep : Step rt w (.instruction pre .createLottery accounts) w' :=
          .instruction hsig hok
        obtain hall | ⟨id, hon', hother⟩ := hstep.touches hc
        · exact hall b
        · obtain rfl := hon.eq hon'
          exact hother b hb

/-- Of two lotteries that both sold tickets, a purchase in the first leaves the second alone. -/
theorem lotteries_isolated_sample :
    ∃ w w' : World Sample.Key, (∃ acts ws, (system Sample.rt).History acts (w :: ws)) ∧
      Step Sample.rt w (Sample.buy 1 21 3) w' ∧ (Sample.lotteryOf w 2).isSome = true ∧
      w'.view Sample.rt 2 = w.view Sample.rt 2 := by
  obtain ⟨w, ws, h, -, hp⟩ := Sample.run_from
    [Sample.configure 1000 500 10, Sample.create 1, Sample.create 2, Sample.buy 1 20 1,
      Sample.buy 2 20 1]
    (fun w ↦ (Sample.lotteryOf w 2).isSome && (exec Sample.rt Sample.Key.isWallet w
      (Sample.buy 1 21 3)).isSome) (by decide +kernel)
  rw [Bool.and_eq_true] at hp
  obtain ⟨w', hs, -⟩ := Sample.step_ok (p := fun _ ↦ true) (w := w) (a := Sample.buy 1 21 3) (by
    rw [Option.any_eq_true]
    exact (Option.isSome_iff_exists.mp hp.2).imp fun _ h ↦ ⟨h, rfl⟩)
  exact ⟨w, w', ⟨_, ws, h⟩, hs, hp.1, (lotteries_isolated h hs).1 1 2 rfl (by decide)⟩

end DailyLottery
