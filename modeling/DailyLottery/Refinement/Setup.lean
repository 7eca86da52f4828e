import DailyLottery.Refinement.Represents

set_option linter.unusedSectionVars false

namespace DailyLottery

open Lib

variable {K : Type} [DecidableEq K] [Inhabited K] {rt : Runtime K} {w w' : World K}
  {accounts : List (AccountInfo K)}

/-- A step that touches, of the derived accounts, only the config. -/
structure Configures (rt : Runtime K) (w w' : World K) (c : Config K) : Prop where
  clock : w'.clock = w.clock
  owner : (w'.accounts rt.configKey).owner = rt.programId
  data : (w'.accounts rt.configKey).data = .config c
  authority : rt.Foreign c.authority
  derived : ∀ s, s ≠ .config → w'.accounts (rt.address s) = w.accounts (rt.address s)
  alive : 0 < (w.accounts rt.configKey).lamports ∨ (w.accounts rt.configKey).data = .empty →
    0 < (w'.accounts rt.configKey).lamports

namespace Configures

variable {c : Config K}

theorem view (h : Configures rt w w' c) (id : ℕ) : w'.view rt id = w.view rt id := by
  funext s
  refine h.derived _ fun he ↦ ?_
  cases s <;> simp [Slot.seeds] at he

theorem wellTyped (h : Configures rt w w' c) (hw : WellTyped rt w) : WellTyped rt w' := by
  intro s
  by_cases hs : s = .config
  · subst hs
    have hd : (w'.accounts (rt.address .config)).data = .config c := h.data
    refine .inr ⟨h.owner, ?_⟩
    rw [hd]
    exact h.authority
  · rw [h.derived s hs]
    exact hw s

theorem emit (h : Configures rt w w' c) (e : LotteryEvent K) : Configures rt w (w'.emit e) c :=
  ⟨h.clock, h.owner, h.data, h.authority, h.derived, h.alive⟩

theorem setData {w₁ : World K} (c : Config K) (hclock : w₁.clock = w.clock)
    (hderived : ∀ s, s ≠ .config → w₁.accounts (rt.address s) = w.accounts (rt.address s))
    (howner : (w₁.accounts rt.configKey).owner = rt.programId) (hf : rt.Foreign c.authority)
    (halive : 0 < (w.accounts rt.configKey).lamports ∨ (w.accounts rt.configKey).data = .empty →
      0 < (w₁.accounts rt.configKey).lamports) :
    Configures rt w (w₁.setData rt.configKey (.config c)) c := by
  refine ⟨hclock, by simpa [World.setData] using howner, by simp [World.setData], hf, fun s hs ↦ ?_,
    by simpa [World.setData] using halive⟩
  refine (World.accounts_setAccount_of_ne _ _ ?_).trans (hderived s hs)
  simpa [Runtime.configKey] using hs

end Configures

namespace Initialize

theorem effect {price bps cap : ℕ} (hs : SignersAreKeys rt accounts)
    (h : process rt w accounts price bps cap = .ok w') :
    w' = w ∨ (w.accounts rt.configKey).data = .empty ∧
      ∃ c, c.Valid ∧ c.lotteryCount = 0 ∧ Configures rt w w' c := by
  unfold process at h
  split at h
  · next authorityAi configAi _ _ =>
    simp only [bind_eq_ok, requireSigner_eq_ok, requireKeyMatch_eq_ok, assertPdaKey_eq_ok,
      exists_const, rejectIf_eq_ok, Bool.not_eq_false] at h
    obtain ⟨hsign, -, hbps, hcap, hck, h⟩ := h
    have hf : rt.Foreign authorityAi.key := hs authorityAi (by simp) hsign
    split at h
    · next howner =>
      simp only [bind_eq_ok, createAccount_eq_ok, writeAccountData_eq_ok, pure_eq_ok] at h
      obtain ⟨_, ⟨-, hu, -, -, -, rfl⟩, _, ⟨-, -, -, rfl⟩, rfl⟩ := h
      have hck : configAi.key = rt.configKey := hck.symm
      refine .inr ⟨by rw [← hck, hu]; rfl, ⟨authorityAi.key, price, bps, 0, 24 * 60 * 60,
        24 * 60 * 60, cap⟩, ⟨hbps, hcap, (by decide : 0 < 24 * 60 * 60)⟩, rfl, ?_⟩
      rw [hck]
      refine (Configures.setData _ ?_ (fun s hne ↦ ?_) ?_ hf ?_).emit _
      · rfl
      · have hne' : rt.address s ≠ rt.configKey := by simpa [Runtime.configKey] using hne
        rw [World.accounts_setAccount_of_ne _ _ hne', World.setLamports,
          World.accounts_setAccount_of_ne _ _ (hf s).symm]
      · rw [World.accounts_setAccount_self]
      · rw [World.accounts_setAccount_self]
        exact fun _ ↦ rt.minimumBalance_pos _
    · exact .inl (pure_eq_ok.mp h).symm
  · cases h

end Initialize

namespace UpdateServiceCharge

theorem effect {bps : ℕ} (hw : WellTyped rt w) (h : process rt w accounts bps = .ok w') :
    ∃ c, (w.accounts rt.configKey).data = .config c ∧ Config.validateServiceCharge bps = true ∧
      Configures rt w w' { c with serviceChargeBps := bps } := by
  simp only [process, bind_eq_ok, rejectIf_eq_ok, exists_const] at h
  obtain ⟨-, h⟩ := h
  split at h
  · next configAi authorityAi _ =>
    simp only [bind_eq_ok, assertPdaOwned_eq_ok, requireSigner_eq_ok, rejectIf_eq_ok, exists_const,
      writeAccountData_eq_ok, pure_eq_ok, Bool.not_eq_false] at h
    obtain ⟨⟨hck, howner⟩, -, hbps, c, hc, -, _, ⟨-, -, -, rfl⟩, rfl⟩ := h
    obtain ⟨hcd, hf⟩ := hw.readConfig hck hc
    have hck : configAi.key = rt.configKey := hck.symm
    rw [hck] at howner ⊢
    exact ⟨c, hcd, hbps, (Configures.setData { c with serviceChargeBps := bps } rfl (fun _ _ ↦ rfl)
      howner hf fun h ↦ h.resolve_right (by simp [hcd])).emit _⟩
  · cases h

end UpdateServiceCharge

namespace CreateLottery

theorem createIfForeign_ok {payer new : AccountInfo K} {space id : ℕ} {s : Slot K}
    (hf : rt.Foreign payer.key) (hk : new.key = rt.slotKey id s)
    (howner : (w.view rt id s).owner = default)
    (h : createIfForeign rt w payer new space = .ok w') :
    w.view rt id s = .unused ∧ Touches rt id w w' ∧
      w'.view rt id = (w.view rt id).setAccount s
        ⟨rt.minimumBalance space, rt.programId, .zeroed space⟩ := by
  unfold createIfForeign at h
  rw [hk, World.accounts_slotKey, howner, if_pos rt.programId_ne_default.symm] at h
  exact createAccount_ok hf hk h

theorem effect (hw : WellTyped rt w) (hs : SignersAreKeys rt accounts)
    (hfresh : ∀ c, (w.accounts rt.configKey).data = .config c →
      (w.view rt (c.lotteryCount + 1) .lottery).data = .empty ∧
        (w.view rt (c.lotteryCount + 1) .vault).data = .empty)
    (h : process rt w accounts = .ok w') :
    ∃ c l bump w₁, (w.accounts rt.configKey).data = .config c ∧
      Lottery.new (c.lotteryCount + 1) rt.configKey c.authority w.clock
        (rt.slotKey (c.lotteryCount + 1) .vault) bump c.serviceChargeBps c.ticketPriceLamports =
          .ok l ∧
      w.view rt (c.lotteryCount + 1) .vault = .unused ∧
      Touches rt (c.lotteryCount + 1) w w₁ ∧
      w₁.view rt (c.lotteryCount + 1) =
        ((w.view rt (c.lotteryCount + 1)).setAccount .lottery
          ⟨rt.minimumBalance Sizes.lotterySize, rt.programId, .lottery l⟩).setAccount .vault
          ⟨rt.minimumBalance Sizes.vaultSize, rt.programId,
            .vault ⟨rt.lotteryKey (c.lotteryCount + 1), bump⟩⟩ ∧
      Configures rt w₁ w' { c with lotteryCount := c.lotteryCount + 1 } := by
  unfold process at h
  split at h
  · next configAi lotteryAi vaultAi authorityAi _ _ =>
    simp only [bind_eq_ok, assertPdaOwned_eq_ok, assertPdaKey_eq_ok, requireSigner_eq_ok,
      requireWritable_eq_ok, requireKeyMatch_eq_ok, rejectIf_eq_ok, exists_const, okOr_eq_ok,
      checkedAdd_eq_some, writeAccountData_eq_ok, pure_eq_ok] at h
    obtain ⟨⟨hck, howner⟩, hsign, -, -, -, -, c, hc, -, _, ⟨-, rfl⟩, hlk, hvk, w₁, h₁,
      w₂, h₂, l, hl, _, ⟨-, -, -, rfl⟩, _, ⟨-, -, -, rfl⟩, _, ⟨-, -, -, rfl⟩, rfl⟩ := h
    have hf : rt.Foreign authorityAi.key := hs authorityAi (by simp) hsign
    obtain ⟨hcd, hcf⟩ := hw.readConfig hck hc
    have hck : configAi.key = rt.configKey := hck.symm
    have hlk : lotteryAi.key = rt.slotKey (c.lotteryCount + 1) .lottery := by rw [← hlk, hck]; rfl
    have hvk : vaultAi.key = rt.slotKey (c.lotteryCount + 1) .vault := by rw [← hvk, hlk]; rfl
    obtain ⟨hel, hev⟩ := hfresh c hcd
    obtain ⟨-, ht₁, hv₁⟩ := createIfForeign_ok hf hlk ((hw.fits _).owner_empty hel) h₁
    have hvault : w₁.view rt (c.lotteryCount + 1) .vault = w.view rt
      (c.lotteryCount + 1) .vault := by
      simp [hv₁]
    obtain ⟨hu, ht₂, hv₂⟩ := createIfForeign_ok hf hvk (by
      rw [hvault]
      exact (hw.fits _).owner_empty hev) h₂
    have ht := ht₁.trans ht₂
    generalize (rt.findProgramAddress (.vault lotteryAi.key)).2 = bump at hl ⊢
    have hconfig := (ht.setData .lottery (.lottery l)).setData .vault (.vault ⟨lotteryAi.key, bump⟩)
      |>.config
    refine ⟨c, l, bump, (w₂.setData lotteryAi.key (.lottery l)).setData vaultAi.key
      (.vault ⟨lotteryAi.key, bump⟩), hcd, ?_, hvault ▸ hu, ?_, ?_, ?_⟩
    · rw [← ht.clock, ← hck, ← hvk]
      exact hl
    · rw [hlk, hvk]
      exact (ht.setData _ _).setData _ _
    · rw [hlk, hvk, World.view_setData, World.view_setData, hv₂, hv₁]
      funext s
      by_cases hsl : s = .lottery
      · simp [hsl]
      · by_cases hsv : s = .vault
        · simp [hsv, Runtime.slotKey_lottery]
        · simp [hsl, hsv]
    · rw [hck] at howner ⊢
      rw [← hlk, ← hvk] at hconfig
      refine (Configures.setData { c with lotteryCount := c.lotteryCount + 1 } rfl (fun _ _ ↦ rfl)
        ?_ hcf fun h ↦ h.resolve_right ?_).emit _
      · exact (congrArg Account.owner hconfig).trans howner
      · simp [hconfig, hcd]
  · cases h

end CreateLottery

namespace BeginRevealPhase

theorem autoComplete_openWindow {l l' : Lottery K} {now att upl : ℤ}
    (h : openWindow l now att upl = .ok l') :
    (autoComplete rt l').id = l.id ∧ (autoComplete rt l').config = l.config ∧
      (autoComplete rt l').vault = l.vault ∧ (autoComplete rt l').settled = l.settled ∧
      (autoComplete rt l').settlementComplete = l.settlementComplete := by
  rw [autoComplete_eq, openWindow_ok h]
  exact ⟨rfl, rfl, rfl, rfl, rfl⟩

theorem effect {attestationSecs uploadSecs : ℕ} (hw : WellTyped rt w)
    (h : process rt w accounts attestationSecs uploadSecs = .ok w') :
    ∃ c l l' att upl, (w.accounts rt.configKey).data = .config c ∧
      (w.view rt l.id .lottery).data = .lottery l ∧ CallsOn rt accounts l.id ∧ l.settled = false ∧
      ¬(0 < l.uploadStartUnix ∧ l.uploadStartUnix ≤ w.clock) ∧
      ¬(0 < l.uploadDeadlineUnix ∧ l.uploadDeadlineUnix < w.clock) ∧
      ¬(0 < l.settlementStartUnix) ∧ l.uploadsComplete = false ∧ l.settlementComplete = false ∧
      0 ≤ att ∧ 0 ≤ upl ∧ (0 < c.uploadWindowSecs → 0 < att ∧ 0 < upl) ∧
      openWindow l w.clock att upl = .ok l' ∧ Touches rt l.id w w' ∧
      w'.view rt l.id = (w.view rt l.id).setData .lottery (.lottery (autoComplete rt l')) := by
  simp only [process, bind_eq_ok, rejectIf_eq_ok, exists_const] at h
  obtain ⟨-, h⟩ := h
  split at h
  · next configAi lotteryAi authorityAi _ =>
    simp only [bind_eq_ok, assertPdaOwned_eq_ok, requireSigner_eq_ok, requireKeyMatch_eq_ok,
      rejectIf_eq_ok, exists_const, writeAccountData_eq_ok, pure_eq_ok, not_or, Bool.or_eq_true,
      Bool.not_eq_true] at h
    obtain ⟨⟨hck, -⟩, -, c, hc, l, hl, hlk, -, hset, ⟨hstart, hend, hss, huc, hsc⟩, l', hopen, _,
      ⟨-, -, -, rfl⟩, rfl⟩ := h
    obtain ⟨hlk, hld, -, -⟩ := hw.readLottery hlk.symm hl
    obtain ⟨hcd, -⟩ := hw.readConfig hck hc
    refine ⟨c, l, l', _, _, hcd, hld, congrArg some hlk, hset, hstart, hend, hss, huc, hsc, ?_, ?_,
      ?_, hopen, ?_, ?_⟩
    · split <;> omega
    · split <;> omega
    · intro hpos
      constructor <;> split <;> omega
    · rw [hlk]
      split
      · exact ((((Touches.refl _ _).setData _ _).emit _).emit _)
      · exact ((Touches.refl _ _).setData _ _).emit _
    · rw [hlk]
      split <;> simp only [World.view_emit, World.view_setData, AccountType.wrap]
  · cases h

theorem simulated {attestationSecs uploadSecs : ℕ} (hw : WellTyped rt w)
    (h : process rt w accounts attestationSecs uploadSecs = .ok w') (pre : List (K × Bytes))
    (ix : Instruction K) : Simulated rt (.instruction pre ix accounts) w w' := by
  obtain ⟨c, l, l', att, upl, hc, hl, -, hset, hstart, hend, hss, huc, hsc, hatt, hupl,
    hpos, hopen, ht, hv⟩ := effect hw h
  obtain ⟨hid, hcfg, hvault, hset', hsc'⟩ := autoComplete_openWindow hopen
  refine .intro l.id (by simp [hl]) ht ?_ ?_
  · rw [hv]
    exact (hw.fits l.id).setLottery _ hl hid hcfg hvault
  · intro acts ws r _ hr
    obtain rfl := hr.eq_lottery hl
    obtain rfl := hr.eq_config hc
    rw [hr.now] at hstart hend hopen
    refine ⟨_, .beginReveal hset hstart hend hss huc hsc hatt hupl hpos hopen, ?_⟩
    refine hr.next ht hv (fun _ ↦ rfl) ⟨rfl, rfl, rfl, rfl⟩ (by simp) (by simpa using hr.vault)
      (by simp [hr.lamports]) .inl ?_ (by simp [hr.tally]) (by simp [hr.ledger])
      (by simp [hr.pages]) (hr.alive.setData (by simp [hl]) _)
    refine hr.roster.push.setLottery _ fun p _ hcl ↦ ?_
    simp [Lottery.Closable, hset, hsc] at hcl

end BeginRevealPhase

end DailyLottery
