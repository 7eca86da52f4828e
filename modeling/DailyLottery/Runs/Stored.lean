import DailyLottery.Execute
import DailyLottery.Refinement.Changes
import DailyLottery.Refinement.Vaults
import DailyLottery.Round.Ranges

set_option linter.unusedSectionVars false

namespace DailyLottery

open Lib

variable {K : Type} [DecidableEq K] [Inhabited K] {rt : Runtime K} {acts : List (Action K)}
  {a : Action K} {w w' : World K} {ws : List (World K)} {id : ℕ} {r : Round K}
  {accounts : List (AccountInfo K)}

variable (rt) in
/-- What the types of the source say of what comes from outside: a bump is a byte, a ticket price
a `u64`. -/
structure Typed (acts : List (Action K)) : Prop where
  bump : ∀ s, (rt.findProgramAddress s).2 < 2 ^ 8
  price : ∀ pre price bps cap accounts,
    Action.instruction pre (.initializeConfig price bps cap) accounts ∈ acts → price < 2 ^ 64

theorem Typed.tail (h : Typed rt (a :: acts)) : Typed rt acts :=
  ⟨h.bump, fun _ _ _ _ _ hmem ↦ h.price _ _ _ _ _ (List.mem_cons_of_mem _ hmem)⟩

namespace Initialize

theorem config_inRange {price bps cap : ℕ} {c : Config K}
    (h : process rt w accounts price bps cap = .ok w') (hprice : price < 2 ^ 64)
    (hc : (w'.accounts rt.configKey).data = .config c) : w' = w ∨ c.InRange := by
  unfold process at h
  split at h
  · next authorityAi configAi _ _ =>
    simp only [bind_eq_ok, requireSigner_eq_ok, requireKeyMatch_eq_ok, assertPdaKey_eq_ok,
      exists_const, rejectIf_eq_ok, Bool.not_eq_false] at h
    obtain ⟨-, -, hbps, hcap, hck, h⟩ := h
    split at h
    · simp only [bind_eq_ok, createAccount_eq_ok, writeAccountData_eq_ok, pure_eq_ok] at h
      obtain ⟨_, ⟨-, -, -, -, -, rfl⟩, _, ⟨-, -, -, rfl⟩, rfl⟩ := h
      have hck : configAi.key = rt.configKey := hck.symm
      rw [hck] at hc
      simp only [World.emit, World.setData, World.accounts_setAccount_self, AccountType.wrap,
        AccountData.config.injEq] at hc
      simp only [Config.validateServiceCharge, Config.validateMaxWinnersCap,
        decide_eq_true_iff] at hbps hcap
      rw [Sizes.maxWinners] at hcap
      have hbps' : bps < 2 ^ 16 := by omega
      have hcap' : cap < 2 ^ 32 := by omega
      have hday : 24 * 60 * 60 < 2 ^ 32 := by decide
      rw [← hc]
      exact .inr ⟨hprice, hbps', Nat.two_pow_pos 64, hday, hday, hcap'⟩
    · exact .inl (pure_eq_ok.mp h).symm
  · cases h

end Initialize

namespace CreateLottery

theorem clock_createIfForeign {payer new : AccountInfo K} {space : ℕ}
    (h : createIfForeign rt w payer new space = .ok w') : w'.clock = w.clock := by
  unfold createIfForeign at h
  split at h
  · obtain ⟨-, -, -, -, -, rfl⟩ := createAccount_eq_ok.mp h
    rfl
  · cases h
    rfl

theorem created (hw : WellTyped rt w) (h : process rt w accounts = .ok w') :
    ∃ c l, (w.accounts rt.configKey).data = .config c ∧ c.lotteryCount + 1 < 2 ^ 64 ∧
      Lottery.new (c.lotteryCount + 1) rt.configKey c.authority w.clock
        (rt.slotKey (c.lotteryCount + 1) .vault)
        (rt.findProgramAddress (.vault (rt.lotteryKey (c.lotteryCount + 1)))).2 c.serviceChargeBps
        c.ticketPriceLamports = .ok l ∧
      (w'.view rt (c.lotteryCount + 1) .lottery).data = .lottery l ∧
      (w'.view rt (c.lotteryCount + 1) .vault).data = .vault
        ⟨rt.lotteryKey (c.lotteryCount + 1),
          (rt.findProgramAddress (.vault (rt.lotteryKey (c.lotteryCount + 1)))).2⟩ ∧
      (w'.accounts rt.configKey).data = .config { c with lotteryCount := c.lotteryCount + 1 } := by
  unfold process at h
  split at h
  · next configAi lotteryAi vaultAi authorityAi _ _ =>
    simp only [bind_eq_ok, assertPdaOwned_eq_ok, assertPdaKey_eq_ok, requireSigner_eq_ok,
      requireWritable_eq_ok, requireKeyMatch_eq_ok, rejectIf_eq_ok, exists_const, okOr_eq_ok,
      checkedAdd_eq_some, writeAccountData_eq_ok, pure_eq_ok] at h
    obtain ⟨⟨hck, -⟩, -, -, -, -, -, c, hc, -, _, ⟨hlt, rfl⟩, hlk, hvk, w₁, h₁, w₂, h₂, l, hl,
      _, ⟨-, -, -, rfl⟩, _, ⟨-, -, -, rfl⟩, _, ⟨-, -, -, rfl⟩, rfl⟩ := h
    obtain ⟨hcd, -⟩ := hw.readConfig hck hc
    have hck : configAi.key = rt.configKey := hck.symm
    have hlk : lotteryAi.key = rt.slotKey (c.lotteryCount + 1) .lottery := by rw [← hlk, hck]; rfl
    have hvk : vaultAi.key = rt.slotKey (c.lotteryCount + 1) .vault := by rw [← hvk, hlk]; rfl
    have hconfig (s : Slot K) : rt.configKey ≠ rt.slotKey (c.lotteryCount + 1) s :=
      rt.configKey_ne_slotKey
    rw [hlk, hvk, hck, (clock_createIfForeign h₂).trans (clock_createIfForeign h₁)] at hl
    rw [hlk, hvk, hck]
    refine ⟨c, l, hcd, hlt, hl, ?_, ?_, ?_⟩
    · rw [World.view_emit, World.setData, World.view_setAccount_of_ne _ _ hconfig,
        World.view_setData, World.view_setData]
      simp [AccountType.wrap]
    · rw [World.view_emit, World.setData, World.view_setAccount_of_ne _ _ hconfig,
        World.view_setData, World.view_setData]
      simp [AccountType.wrap, rt.slotKey_lottery]
    · simp [World.emit, World.setData, AccountType.wrap]
  · cases h

end CreateLottery

theorem Lottery.InRange.new {lotteryId bump bps price : ℕ} {config authority vault : K} {now : ℤ}
    {l : Lottery K} (hid : lotteryId < 2 ^ 64) (hbump : bump < 2 ^ 8) (hbps : bps < 2 ^ 16)
    (hprice : price < 2 ^ 64) (hnow : -2 ^ 63 ≤ now ∧ now < 2 ^ 63)
    (h : Lottery.new lotteryId config authority now vault bump bps price = .ok l) : l.InRange := by
  simp only [Lottery.new, Lottery.calculateWindows, bind_eq_ok, okOr_eq_ok, addI64_eq_some,
    pure_eq_ok] at h
  obtain ⟨_, ⟨_, ⟨hbuy, rfl⟩, _, ⟨-, rfl⟩, _, ⟨hupload, rfl⟩, rfl⟩, rfl⟩ := h
  have hzero (bits : ℕ) : 0 < 2 ^ bits := Nat.two_pow_pos bits
  have htime : (-2 ^ 63 : ℤ) ≤ 0 ∧ (0 : ℤ) < 2 ^ 63 := by decide
  exact ⟨hid, hnow, hnow, hbuy, hbuy, hupload, htime, hzero _, hzero _, hzero _, hbump, hzero _,
    hzero _, (by decide : 1 < 2 ^ 64), Nat.zero_le _, hzero _, List.length_replicate,
      hzero _, htime,
    htime, hbps, hprice, (by decide : 1 < 2 ^ 16)⟩

variable (rt) in
/-- Every number the program stores has the range of its type. -/
structure Ranged (acts : List (Action K)) (w : World K) (ws : List (World K)) : Prop where
  config : ∀ c, (w.accounts rt.configKey).data = .config c → c.InRange
  vault : ∀ id v, (w.view rt id .vault).data = .vault v → v.InRange
  round : ∀ id, (w.view rt id .lottery).data ≠ .empty → ∃ r, (Round.machine rt).Reachable r ∧
    Represents rt acts w ws id r ∧ r.InRange
  score : ∀ id wallet p, (w.view rt id (.participant wallet)).data = .participant p →
    p.revealScore ≤ maxRevealPlaintextBytes

namespace Ranged

theorem init (h : Genesis rt w) : Ranged rt [] w [] := by
  have hempty (s : Seeds K) : (w.accounts (rt.address s)).data = .empty := by
    rw [h.unused]
    rfl
  refine ⟨fun c hc ↦ ?_, fun id v hv ↦ ?_, fun id hne ↦ absurd (hempty _) hne,
    fun id wallet p hp ↦ ?_⟩
  · cases (hempty .config).symm.trans hc
  · cases (hempty _).symm.trans hv
  · cases (hempty _).symm.trans hp

theorem config_step (h : Ranged rt acts w ws) (hc : Consistent rt acts w ws)
    (ht : Typed rt (a :: acts)) (hs : Step rt w a w') {c : Config K}
    (hc' : (w'.accounts rt.configKey).data = .config c) : c.InRange := by
  cases hs with
  | instruction hsig hok =>
    obtain ⟨price, bps, cap, rfl⟩ | rfl | ⟨bps, rfl⟩ | hcall := Consistent.call hc.typed hsig hok
    · have hprice := ht.price _ _ _ _ _ List.mem_cons_self
      obtain rfl | hrange := Initialize.config_inRange hok hprice hc'
      · exact h.config c hc'
      · exact hrange
    · obtain ⟨c₀, l, hc₀, hlt, -, -, -, hnew⟩ := CreateLottery.created hc.typed hok
      obtain rfl := AccountData.config.inj (hc'.symm.trans hnew)
      exact { h.config c₀ hc₀ with lotteryCount := hlt }
    · obtain ⟨c₀, hc₀, hbps, hconf⟩ := UpdateServiceCharge.effect hc.typed hok
      obtain rfl := AccountData.config.inj (hc'.symm.trans hconf.data)
      simp only [Config.validateServiceCharge, decide_eq_true_iff] at hbps
      exact { h.config c₀ hc₀ with serviceChargeBps := by dsimp only; omega }
    · obtain ⟨id, htouch, -⟩ := hc.simulated hcall
      rw [htouch.config] at hc'
      exact h.config c hc'
  | tick => exact h.config c hc'
  | deposit key n =>
    refine h.config c ?_
    by_cases hk : rt.configKey = key
    · rw [World.setLamports, ← hk, World.accounts_setAccount_self] at hc'
      exact hc'
    · rwa [World.setLamports, World.accounts_setAccount_of_ne _ _ hk] at hc'
  | @outside key account hk =>
    have hne : rt.configKey ≠ key := (hk .config).symm
    rw [World.accounts_setAccount_of_ne _ _ hne] at hc'
    exact h.config c hc'
  | @reap key =>
    by_cases hk : rt.configKey = key
    · rw [← hk, World.accounts_setAccount_self] at hc'
      cases hc'
    · rw [World.accounts_setAccount_of_ne _ _ hk] at hc'
      exact h.config c hc'

theorem of_created (h : Ranged rt acts w ws) (hc : Consistent rt acts w ws)
    (ht : Typed rt (a :: acts)) (hs : Step rt w a w') (he : (w.view rt id .lottery).data = .empty)
    {l : Lottery K} (hl : (w'.view rt id .lottery).data = .lottery l) : l.InRange := by
  have hsame (hview : w'.view rt id = w.view rt id) : l.InRange := by
    rw [hview, he] at hl
    cases hl
  by_cases ha : ∃ pre accounts, a = .instruction pre .createLottery accounts
  · obtain ⟨pre, accounts, rfl⟩ := ha
    cases hs with
    | instruction hsig hok =>
      obtain ⟨c, l₀, hc₀, hlt, hnew, hl₀, -, -⟩ := CreateLottery.created hc.typed hok
      obtain ⟨c', _, _, w₁, hc₁, -, -, htouch, -, hconf⟩ :=
        CreateLottery.effect hc.typed hsig (fun c ↦ hc.next_empty) hok
      obtain rfl := AccountData.config.inj (hc₀.symm.trans hc₁)
      by_cases hid : id = c.lotteryCount + 1
      · subst hid
        obtain rfl := AccountData.lottery.inj (hl.symm.trans hl₀)
        have hrange := h.config c hc₀
        exact .new hlt (ht.bump _) hrange.serviceChargeBps hrange.ticketPriceLamports
          ⟨hc.clock_ge, hc.clock_lt⟩ hnew
      · exact hsame ((hconf.view id).trans (htouch.view_of_ne hid))
  · cases hs with
    | @instruction _ pre ix accounts hsig hok =>
      obtain ⟨price, bps, cap, rfl⟩ | rfl | ⟨bps, rfl⟩ | hcall := Consistent.call hc.typed hsig hok
      · obtain rfl | ⟨-, c, -, -, hconf⟩ := Initialize.effect hsig hok
        · exact hsame rfl
        · exact hsame (hconf.view id)
      · exact absurd ⟨pre, accounts, rfl⟩ ha
      · obtain ⟨c, -, -, hconf⟩ := UpdateServiceCharge.effect hc.typed hok
        exact hsame (hconf.view id)
      · obtain ⟨i, htouch, -, hne, -⟩ := hc.simulated hcall
        refine hsame (htouch.view_of_ne ?_)
        rintro rfl
        exact hne he
    | tick => exact hsame rfl
    | deposit key n =>
      rw [(Consistent.view_deposit rt w key n id .lottery).1, he] at hl
      cases hl
    | outside account hk => exact hsame (World.view_setAccount_of_ne _ _ (fun s ↦ hk _) _)
    | @reap key =>
      by_cases hk : rt.slotKey id .lottery = key
      · rw [← World.accounts_slotKey, hk, World.accounts_setAccount_self] at hl
        cases hl
      · rw [← World.accounts_slotKey, World.accounts_setAccount_of_ne _ _ hk,
          World.accounts_slotKey, he] at hl
        cases hl

theorem vault_step (h : Ranged rt acts w ws) (hc : Consistent rt acts w ws)
    (ht : Typed rt (a :: acts)) (hs : Step rt w a w') {v : Vault K}
    (hv : (w'.view rt id .vault).data = .vault v) : v.InRange := by
  by_cases ha : ∃ pre accounts, a = .instruction pre .createLottery accounts
  · obtain ⟨pre, accounts, rfl⟩ := ha
    cases hs with
    | instruction hsig hok =>
      obtain ⟨c, l, hcd, -, -, -, hnew, -⟩ := CreateLottery.created hc.typed hok
      obtain ⟨c', _, _, w₁, hcd', -, -, htouch, -, hconf⟩ :=
        CreateLottery.effect hc.typed hsig (fun c ↦ hc.next_empty) hok
      obtain rfl := AccountData.config.inj (hcd.symm.trans hcd')
      by_cases hid : id = c.lotteryCount + 1
      · subst hid
        obtain rfl := AccountData.vault.inj (hv.symm.trans hnew)
        exact ⟨ht.bump _⟩
      · rw [hconf.view, htouch.view_of_ne hid] at hv
        exact h.vault id v hv
  · exact h.vault id v (hs.vault hc (fun pre accounts he ↦ ha ⟨pre, accounts, he⟩) hv)

theorem round_step (h : Ranged rt acts w ws) (hc : Consistent rt acts w ws)
    (hc' : Consistent rt (a :: acts) w' (w :: ws)) (ht : Typed rt (a :: acts))
    (hs : Step rt w a w') (hne : (w'.view rt id .lottery).data ≠ .empty) :
    ∃ r, (Round.machine rt).Reachable r ∧ Represents rt (a :: acts) w' (w :: ws) id r ∧
      r.InRange := by
  by_cases he : (w.view rt id .lottery).data = .empty
  · obtain ha | ⟨r, hr, hrep⟩ := hc.follow_absent hs (hc.absent id he)
    · exact absurd (ha.data _) hne
    · refine ⟨r, ⟨[], [], .init hr⟩, hrep, ?_, ?_, ?_, ?_, ?_⟩
      · rw [← hrep.now]
        exact ⟨hc'.clock_ge, hc'.clock_lt⟩
      · exact h.of_created hc ht hs he hrep.lottery
      · simp [hr.participants]
      · simp [hr.tally]
      · simp [hr.ledger]
  · obtain ⟨r, ⟨bs, rs, hreach⟩, hrep, hrange⟩ := h.round id he
    obtain ⟨r', hst, hrep'⟩ := hc.follow hs hrep (Round.invariant ⟨bs, rs, hreach⟩)
    exact ⟨r', ⟨() :: bs, r :: rs, hreach.step hst⟩, hrep', hrange.step hst⟩

end Ranged

theorem Participant.Change.revealScore_le {now : ℤ} {l : Lottery K} {p p' : Participant K}
    {ix : Instruction K} (h : p.Change rt now accounts l ix p')
    (hp : p.revealScore ≤ maxRevealPlaintextBytes) : p'.revealScore ≤ maxRevealPlaintextBytes := by
  cases h with
  | buyTickets => exact hp
  | attestUploaded => exact hp
  | attestReveal => exact hp
  | uploadReveals _ _ _ _ hlen => exact (DailyLottery.revealScore_le _).trans hlen
  | finalizeWinners _ hsame =>
    have hscore := congrArg Participant.revealScore hsame
    exact hscore.trans_le hp
  | claimRefund => exact hp

namespace Ranged

theorem score_step (h : Ranged rt acts w ws) (hc : Consistent rt acts w ws) (hs : Step rt w a w')
    {wallet : K} {p : Participant K}
    (hp : (w'.view rt id (.participant wallet)).data = .participant p) :
    p.revealScore ≤ maxRevealPlaintextBytes := by
  by_cases ha : ∃ pre ix accounts, a = .instruction pre ix accounts
  · obtain ⟨pre, ix, accounts, rfl⟩ := ha
    by_cases he : (w.view rt id .lottery).data = .empty
    · obtain habs | ⟨r, hr, hrep⟩ := hc.follow_absent hs (hc.absent id he)
      · cases (habs.data _).symm.trans hp
      · have hempty := (hrep.roster.absent wallet (by simp [hr.participants])).2
        cases hempty.symm.trans hp
    · obtain ⟨r, -, hr, -⟩ := h.round id he
      obtain hsame | ⟨-, halt⟩ := (hs.changes hc id).participant _ hr.lottery wallet
      · exact h.score id wallet p (hsame.symm.trans hp)
      · rw [hp] at halt
        generalize hd : (w.view rt id (.participant wallet)).data = d at halt
        cases halt with
        | first => exact Nat.zero_le _
        | change hch => exact hch.revealScore_le (h.score id wallet _ hd)
  · have henv := hs.environment (fun pre ix accounts he ↦ ha ⟨pre, ix, accounts, he⟩) id
      (.participant wallet)
    obtain hsame | hempty := henv
    · exact h.score id wallet p (hsame.symm.trans hp)
    · cases hempty.symm.trans hp

theorem step (h : Ranged rt acts w ws) (hc : Consistent rt acts w ws)
    (ht : Typed rt (a :: acts)) (hs : Step rt w a w') : Ranged rt (a :: acts) w' (w :: ws) :=
  ⟨fun _ ↦ h.config_step hc ht hs, fun _ _ ↦ h.vault_step hc ht hs,
    fun _ ↦ h.round_step hc (hc.step hs) ht hs, fun _ _ _ ↦ h.score_step hc hs⟩

end Ranged

theorem ranged (h : (system rt).History acts (w :: ws)) (ht : Typed rt acts) :
    Ranged rt acts w ws := by
  have := h.invariant (P := fun acts ws ↦ ∀ w ws', ws = w :: ws' → Typed rt acts →
    Ranged rt acts w ws') ?_ ?_
  · exact this w ws rfl ht
  · intro s hs w ws' he _
    cases he
    exact .init hs
  · intro as ss s a t hh hP hst w ws' he ht
    cases he
    exact (hP s ss rfl ht.tail).step (consistent hh) ht hst

variable (rt) in
/-- Every account of the program has room for what it holds and gives it back. -/
structure Stored (w : World K) : Prop where
  config : ∀ c, (w.accounts rt.configKey).data = .config c →
    Config.codec.Stores Sizes.configSize (c.withKeys rt.keyBytes)
  vault : ∀ id v, (w.view rt id .vault).data = .vault v →
    Vault.codec.Stores Sizes.vaultSize (v.withKeys rt.keyBytes)
  lottery : ∀ id l, (w.view rt id .lottery).data = .lottery l →
    Lottery.codec.Stores Sizes.lotterySize (l.withKeys rt.keyBytes) ∧
      l.paidWinnersBitmap.length = 32
  participant : ∀ id wallet p, (w.view rt id (.participant wallet)).data = .participant p →
    Participant.codec.Stores Sizes.participantSize (p.withKeys rt.keyBytes)
  tally : ∀ id t, (w.view rt id .voteTally).data = .voteTally t →
    VoteTally.codec.Stores (VoteTally.accountSizeFor t.maxWinners) (t.withKeys rt.keyBytes) ∧
      t.maxWinners ≤ Sizes.maxWinners ∧ t.weights.length = t.maxWinners + 1 ∧
      t.firstSeen.length = t.maxWinners + 1 ∧
      ∃ c l, (w.accounts rt.configKey).data = .config c ∧
        (w.view rt id .lottery).data = .lottery l ∧
        t.maxWinners = c.effectiveMaxWinners l.participantsCount
  ledger : ∀ id root, (w.view rt id .finalizationRoot).data = .finalizationLedger root →
    FinalizationLedger.codec.Stores FinalizationLedger.size (root.withKeys rt.keyBytes)
  page : ∀ id i page data, (w.view rt id (.winnerPage i)).data = .winnerPage page data →
    8 + (WinnerPage.codec.encode (page.withKeys rt.keyBytes)).length = WinnerPage.entriesOffset ∧
      ∀ (discriminator : Vector UInt8 8) (bytes : Bytes), bytes.length = WinnerPage.size →
        ∃ bytes', writeAccountBytes WinnerPage.codec discriminator (page.withKeys rt.keyBytes)
            bytes = .ok bytes' ∧ bytes'.length = WinnerPage.size ∧
          (∀ i, WinnerPage.entriesOffset ≤ i → bytes'[i]? = bytes[i]?) ∧
          PageData.ofBytes bytes' = PageData.ofBytes bytes

namespace Ranged

theorem at_slot (h : Ranged rt acts w ws) (hc : Consistent rt acts w ws) {s : Slot K}
    {d : AccountData K} (hd : (w.view rt id s).data = d) (hne : d ≠ .empty) :
    ∃ r, (Round.machine rt).Reachable r ∧ Represents rt acts w ws id r ∧ r.InRange := by
  by_cases he : (w.view rt id .lottery).data = .empty
  · exact absurd (hd.symm.trans ((hc.absent id he).data s)) hne
  · exact h.round id he

theorem participant (h : Ranged rt acts w ws) (hc : Consistent rt acts w ws) {wallet : K}
    {p : Participant K} (hp : (w.view rt id (.participant wallet)).data = .participant p) :
    p.InRange := by
  obtain ⟨r, -, hr, hrange⟩ := h.at_slot hc hp (by simp)
  by_cases hmem : wallet ∈ r.participants.map Participant.wallet
  · obtain ⟨p', hp', rfl⟩ := List.mem_map.mp hmem
    obtain ⟨hd, -⟩ | ⟨hd, -⟩ := hr.roster.stored p' hp'
    · obtain rfl := AccountData.participant.inj (hp.symm.trans hd)
      exact hrange.participants p hp'
    · cases hd.symm.trans hp
  · cases (hr.roster.absent wallet hmem).2.symm.trans hp

theorem stored (h : Ranged rt acts w ws) (hc : Consistent rt acts w ws) : Stored rt w := by
  have hscore : maxRevealPlaintextBytes < 2 ^ 64 := by decide
  constructor
  · intro c hcd
    exact (h.config c hcd).stores _
  · intro id v hv
    exact (h.vault id v hv).stores _
  · intro id l hl
    obtain ⟨r, -, hr, hrange⟩ := h.round id (by simp [hl])
    obtain rfl := hr.eq_lottery hl
    exact ⟨hrange.lottery.stores _, hrange.lottery.paidWinnersBitmap⟩
  · intro id wallet p hp
    exact (h.participant hc hp).stores ((h.score id wallet p hp).trans_lt hscore) _
  · intro id t ht
    obtain ⟨r, hreach, hr, hrange⟩ := h.at_slot hc ht (by simp)
    have hrt := hr.eq_tally ht
    have htally := hrange.tally t hrt
    obtain ⟨-, hmax, -⟩ := (Round.invariant hreach).books.balanced.tallied t hrt
    exact ⟨htally.stores _, htally.maxWinners, htally.weights.1, htally.firstSeen.1, r.config,
      r.lottery, hr.config, hr.lottery, hmax⟩
  · intro id root hroot
    obtain ⟨r, -, hr, hrange⟩ := h.at_slot hc hroot (by simp)
    exact (hrange.ledger root (hr.eq_ledger hroot)).stores _
  · intro id i page data _
    refine ⟨WinnerPage.length_encode _, fun discriminator bytes hlen ↦ ?_⟩
    obtain ⟨bytes', hwrite, hsame, hdata, hframe⟩ :=
      @WinnerPage.writeHeader_ok (page.withKeys rt.keyBytes) _ hlen.ge discriminator
    exact ⟨bytes', hwrite, hsame.trans hlen, hframe, hdata⟩

end Ranged

/-- In every run every value stored has the size of its account and is read back. -/
theorem accounts_stored (h : (system rt).History acts (w :: ws)) (ht : Typed rt acts) :
    Stored rt w := (ranged h ht).stored (consistent h)

/-- A lottery with a vote, a finalization under way and a page. -/
theorem accounts_stored_sample : ∃ w : World Sample.Key, Stored Sample.rt w ∧
    (Sample.ledgerOf w 1).isSome := by
  let acts := [Sample.configure 1000 500 10, Sample.create 1, Sample.buy 1 20 1,
    Sample.buy 1 21 1, Sample.buy 1 22 1, .tick (1000 + 24 * 60 * 60), Sample.attest 1 20 2,
    .tick (1000 + 72 * 60 * 60), Sample.finalize 1 0 [20, 21, 22],
    Sample.finalize 1 0 [20, 21], Sample.finalize 1 0 [22]]
  obtain ⟨w, ws, h, -, hp⟩ := Sample.run_from acts (fun w ↦ (Sample.ledgerOf w 1).isSome)
    (by decide +kernel)
  refine ⟨w, accounts_stored h ⟨fun _ ↦ (by decide : 255 < 2 ^ 8), ?_⟩, hp⟩
  intro pre price bps cap accounts hmem
  simp [acts, Sample.configure, Sample.create, Sample.buy, Sample.attest, Sample.finalize] at hmem
  omega

end DailyLottery
