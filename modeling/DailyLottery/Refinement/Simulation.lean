import DailyLottery.Round.Invariant
import DailyLottery.Refinement.Setup
import DailyLottery.Refinement.UploadReveals
import DailyLottery.Refinement.FinalizeWinners
import DailyLottery.Refinement.Settlement

set_option linter.unusedSectionVars false

namespace DailyLottery

open Lib

variable {K : Type} [DecidableEq K] [Inhabited K] {rt : Runtime K} {acts : List (Action K)}
  {a : Action K} {w w' : World K} {ws : List (World K)} {id : ℕ} {r : Round K}

theorem Roster.raise {v v' : View K} {past : K → Option (Participant K)} {l : Lottery K}
    {ps : List (Participant K)} (h : Roster rt v past l ps) (hd : ∀ s, (v' s).data = (v s).data)
    (hle : ∀ s, (v s).lamports ≤ (v' s).lamports) : Roster rt v' past l ps := by
  have hlast (wallet : K) : v'.lastIn past wallet = v.lastIn past wallet := by
    simp only [View.lastIn, hd]
  refine ⟨h.nodup, h.foreign, fun p hp ↦ ?_, fun wallet hw ↦ ?_, fun p hp ↦ ?_⟩
  · rw [hlast]
    exact h.last p hp
  · rw [hlast, hd]
    exact h.absent wallet hw
  · rw [hd]
    exact (h.stored p hp).imp_left fun hs ↦ ⟨hs.1, hs.2.imp_left fun hlt ↦ hlt.trans_le (hle _)⟩

theorem Roster.drop {v : View K} {past : K → Option (Participant K)} {l : Lottery K}
    {ps : List (Participant K)} {wallet : K} (h : Roster rt v past l ps)
    (hz : (v (.participant wallet)).lamports = 0) :
    Roster rt (v.setAccount (.participant wallet) .unused) (v.lastIn past) l ps := by
  have hdata (k : K) : (v.setAccount (.participant wallet) .unused (.participant k)).data =
      if k = wallet then .empty else (v (.participant k)).data := by
    by_cases hk : k = wallet <;> simp [hk, Account.unused]
  have hlast (k : K) : (v.setAccount (.participant wallet) .unused).lastIn (v.lastIn past) k =
      v.lastIn past k := by
    unfold View.lastIn
    rw [hdata]
    split_ifs with hk
    · rfl
    · cases (v (.participant k)).data <;> rfl
  refine ⟨h.nodup, h.foreign, fun p hp ↦ ?_, fun k hk ↦ ?_, fun p hp ↦ ?_⟩
  · rw [hlast]
    exact h.last p hp
  · rw [hlast, hdata]
    refine ⟨(h.absent k hk).1, ?_⟩
    split_ifs
    · rfl
    · exact (h.absent k hk).2
  · by_cases hk : p.wallet = wallet
    · refine .inr ⟨by rw [hdata, if_pos hk], ?_⟩
      rcases h.stored p hp with ⟨-, hpos | hcl⟩ | ⟨-, hcl⟩
      · rw [hk, hz] at hpos
        exact absurd hpos (lt_irrefl 0)
      · exact hcl
      · exact hcl
    · rw [hdata, if_neg hk]
      refine (h.stored p hp).imp_left fun hs ↦ ⟨hs.1, ?_⟩
      simpa [hk] using hs.2

theorem Represents.carry {c : Config K} (hr : Represents rt acts w ws id r) (a : Action K)
    (w' : World K)
    (hc : (w'.accounts rt.configKey).data = .config c)
    (hd : ∀ s, (w'.view rt id s).data = (w.view rt id s).data)
    (hle : ∀ s, (w.view rt id s).lamports ≤ (w'.view rt id s).lamports) :
    Represents rt (a :: acts) w' (w :: ws) id { r with
      now := w'.clock, config := c, vault := (w'.view rt id .vault).lamports
      donated := donatedTo (rt.slotKey id .vault) (a :: acts) } := by
  refine ⟨hr.key, rfl, hc, (hd _).trans hr.lottery, ?_, rfl, fun h ↦ (hr.closed h).cons _ _, rfl,
    hr.roster.push.raise hd hle, (hd _).trans hr.tally, (hd _).trans hr.ledger,
    fun i ↦ (hd _).trans (hr.pages i), fun s hs hv hne ↦ ?_⟩
  · rw [hd]
    exact hr.vault
  · rw [hd] at hne
    exact (hr.alive s hs hv hne).trans_le (hle s)

/-- Nothing of a lottery exists yet; its addresses may have been sent lamports. -/
structure Absent (rt : Runtime K) (acts : List (Action K)) (w : World K) (ws : List (World K))
    (id : ℕ) : Prop where
  data : ∀ s, (w.view rt id s).data = .empty
  lamports : (w.view rt id .vault).lamports = donatedTo (rt.slotKey id .vault) acts
  past : ∀ wallet, pastOf rt ws id wallet = none

theorem Absent.past_cons (h : Absent rt acts w ws id) (wallet : K) :
    pastOf rt (w :: ws) id wallet = none := by
  rw [pastOf_cons, View.lastIn, h.data]
  exact h.past wallet

theorem Absent.carry (h : Absent rt acts w ws id)
    (hd : ∀ s, (w'.view rt id s).data = (w.view rt id s).data)
    (hl : (w'.view rt id .vault).lamports = donatedTo (rt.slotKey id .vault) (a :: acts)) :
    Absent rt (a :: acts) w' (w :: ws) id :=
  ⟨fun s ↦ (hd s).trans (h.data s), hl, h.past_cons⟩

variable (rt) in
/-- What the accounts of the program look like in every run: each lottery there is runs as a
machine of its own. -/
structure Consistent (acts : List (Action K)) (w : World K) (ws : List (World K)) : Prop where
  typed : WellTyped rt w
  clock_ge : -2 ^ 63 ≤ w.clock
  clock_lt : w.clock < 2 ^ 63
  config : ∀ c, (w.accounts rt.configKey).data = .config c →
    c.Valid ∧ 0 < (w.accounts rt.configKey).lamports
  exists_iff : ∀ id, (w.view rt id .lottery).data ≠ .empty ↔
    ∃ c, (w.accounts rt.configKey).data = .config c ∧ 0 < id ∧ id ≤ c.lotteryCount
  absent : ∀ id, (w.view rt id .lottery).data = .empty → Absent rt acts w ws id
  round : ∀ id, (w.view rt id .lottery).data ≠ .empty →
    ∃ r, (Round.machine rt).Reachable r ∧ Represents rt acts w ws id r

namespace Consistent

theorem config_cases (h : WellTyped rt w) : (w.accounts rt.configKey).data = .empty ∨
    ∃ c, (w.accounts rt.configKey).data = .config c := by
  rcases h .config with ⟨he, -⟩ | ⟨-, hs⟩
  · exact .inl he
  · right
    change Holds rt .config (w.accounts rt.configKey).data at hs
    cases hd : (w.accounts rt.configKey).data <;> rw [hd] at hs <;> simp [Holds] at hs
    exact ⟨_, rfl⟩

theorem init (h : Genesis rt w) : Consistent rt [] w [] := by
  have hview (id : ℕ) (s : Slot K) : w.view rt id s = .unused := h.unused _
  have hconfig : (w.accounts rt.configKey).data = .empty := by
    rw [Runtime.configKey, h.unused]
    rfl
  refine ⟨fun s ↦ .inl ?_, h.clock_ge, h.clock_lt, ?_, fun id ↦ ?_, fun id _ ↦ ⟨fun s ↦ ?_, ?_, ?_⟩,
    fun id hne ↦ ?_⟩
  · rw [h.unused]
    exact ⟨rfl, rfl⟩
  · simp [hconfig]
  · simp [hconfig, hview, Account.unused]
  · rw [hview]
    rfl
  · rw [hview]
    rfl
  · exact fun _ ↦ rfl
  · simp [hview, Account.unused] at hne

end Consistent

/-- What an instruction that goes through does, seen from all lotteries at once. -/
inductive Effect (rt : Runtime K) (a : Action K) (w w' : World K) : Prop
  | unchanged : w' = w → Effect rt a w w'
  | configured {c : Config K} : Configures rt w w' c → c.Valid →
      ((w.accounts rt.configKey).data = .empty ∧ c.lotteryCount = 0 ∨
        ∃ old bps, (w.accounts rt.configKey).data = .config old ∧
          c = { old with serviceChargeBps := bps }) → Effect rt a w w'
  | created {c : Config K} {l : Lottery K} {bump : ℕ} {w₁ : World K} :
      (w.accounts rt.configKey).data = .config c →
      Lottery.new (c.lotteryCount + 1) rt.configKey c.authority w.clock
        (rt.slotKey (c.lotteryCount + 1) .vault) bump c.serviceChargeBps c.ticketPriceLamports =
          .ok l →
      w.view rt (c.lotteryCount + 1) .vault = .unused → Touches rt (c.lotteryCount + 1) w w₁ →
      w₁.view rt (c.lotteryCount + 1) =
        ((w.view rt (c.lotteryCount + 1)).setAccount .lottery
          ⟨rt.minimumBalance Sizes.lotterySize, rt.programId, .lottery l⟩).setAccount .vault
          ⟨rt.minimumBalance Sizes.vaultSize, rt.programId,
            .vault ⟨rt.lotteryKey (c.lotteryCount + 1), bump⟩⟩ →
      Configures rt w₁ w' { c with lotteryCount := c.lotteryCount + 1 } → Effect rt a w w'
  | simulated : Simulated rt a w w' → Effect rt a w w'

namespace Consistent

theorem next_empty (h : Consistent rt acts w ws) {c : Config K}
    (hc : (w.accounts rt.configKey).data = .config c) :
    (w.view rt (c.lotteryCount + 1) .lottery).data = .empty ∧
      (w.view rt (c.lotteryCount + 1) .vault).data = .empty := by
  have he : (w.view rt (c.lotteryCount + 1) .lottery).data = .empty := by
    by_contra hne
    obtain ⟨c', hc', -, hle⟩ := (h.exists_iff _).mp hne
    rw [hc] at hc'
    cases hc'
    omega
  exact ⟨he, (h.absent _ he).data .vault⟩

/-- All instructions but the three on the program as a whole are calls on one lottery. -/
theorem call (hw : WellTyped rt w) {pre : List (K × Bytes)} {ix : Instruction K}
    {accounts : List (AccountInfo K)} (hs : SignersAreKeys rt accounts)
    (hok : processInstruction rt w pre ix accounts = .ok w') :
    (∃ price bps cap, ix = .initializeConfig price bps cap) ∨ ix = .createLottery ∨
      (∃ bps, ix = .updateServiceCharge bps) ∨
        Simulated rt (.instruction pre ix accounts) w w' := by
  cases ix with
  | initializeConfig price bps cap => exact .inl ⟨price, bps, cap, rfl⟩
  | createLottery => exact .inr (.inl rfl)
  | updateServiceCharge bps => exact .inr (.inr (.inl ⟨bps, rfl⟩))
  | buyTickets hash count => exact .inr (.inr (.inr (BuyTickets.simulated hw hs hok pre _)))
  | attestUploaded vote => exact .inr (.inr (.inr (AttestUploaded.simulated hw hok _)))
  | attestReveal vote plaintext => exact .inr (.inr (.inr (AttestReveal.simulated hw hs hok pre _)))
  | uploadReveals entries => exact .inr (.inr (.inr (UploadReveals.simulated hw hs hok pre _)))
  | finalizeWinners => exact .inr (.inr (.inr (FinalizeWinners.simulated hw hs hok pre _)))
  | settlePayoutBatch id batch winners =>
    exact .inr (.inr (.inr (SettlePayoutBatch.simulated hw hok pre _)))
  | finalizeNoAttesters => exact .inr (.inr (.inr (FinalizeNoAttesters.simulated hw hok pre _)))
  | claimRefund => exact .inr (.inr (.inr (ClaimRefund.simulated hw hs hok pre _)))
  | closeParticipant => exact .inr (.inr (.inr (CloseParticipant.simulated hw hs hok pre _)))
  | closeRefundVault => exact .inr (.inr (.inr (CloseRefundVault.simulated hw hok pre)))
  | beginRevealNow att upl => exact .inr (.inr (.inr (BeginRevealPhase.simulated hw hok pre _)))

theorem effect (h : Consistent rt acts w ws) {pre : List (K × Bytes)} {ix : Instruction K}
    {accounts : List (AccountInfo K)} (hs : SignersAreKeys rt accounts)
    (hok : processInstruction rt w pre ix accounts = .ok w') :
    Effect rt (.instruction pre ix accounts) w w' := by
  have hw := h.typed
  obtain ⟨price, bps, cap, rfl⟩ | rfl | ⟨bps, rfl⟩ | hcall := call hw hs hok
  · obtain rfl | ⟨he, c, hv, hz, hc⟩ := Initialize.effect hs hok
    · exact .unchanged rfl
    · exact .configured hc hv (.inl ⟨he, hz⟩)
  · obtain ⟨c, l, bump, w₁, hc, hl, hu, ht, hv, hconf⟩ :=
      CreateLottery.effect hw hs (fun c ↦ h.next_empty) hok
    exact .created hc hl hu ht hv hconf
  · obtain ⟨c, hc, hb, hconf⟩ := UpdateServiceCharge.effect hw hok
    obtain ⟨hv, -⟩ := h.config c hc
    exact .configured hconf ⟨hb, hv.maxWinnersCap, hv.window⟩ (.inr ⟨c, bps, hc, rfl⟩)
  · exact .simulated hcall

theorem simulated (h : Consistent rt acts w ws) (hs : Simulated rt a w w') :
    ∃ id, Touches rt id w w' ∧ (w'.view rt id).Fits rt id ∧
      (w.view rt id .lottery).data ≠ .empty ∧ (w'.view rt id .lottery).data ≠ .empty := by
  obtain ⟨id, hne, hsim⟩ := hs
  obtain ⟨r, hreach, hr⟩ := h.round id hne
  obtain ⟨ht, hf, r', -, hr'⟩ := hsim acts ws r
    (fun hc ↦ ((Round.invariant hreach).routed.complete hc).1) hr
  exact ⟨id, ht, hf, hne, by simp [hr'.lottery]⟩

theorem clock_le (h : Consistent rt acts w ws) (hs : Step rt w a w') : w.clock ≤ w'.clock := by
  cases hs with
  | instruction hsig hok =>
    cases h.effect hsig hok with
    | unchanged he => rw [he]
    | configured hc => exact hc.clock.ge
    | created _ _ _ ht _ hconf => exact (hconf.clock.trans ht.clock).ge
    | simulated hsim =>
      obtain ⟨_, ht, -⟩ := h.simulated hsim
      exact ht.clock.ge
  | tick hle => exact hle
  | deposit => exact le_rfl
  | outside => exact le_rfl
  | reap => exact le_rfl

variable (rt) in
theorem view_deposit (w : World K) (key : K) (n id : ℕ) (s : Slot K) :
    (((w.setLamports key ((w.accounts key).lamports + n)).view rt id) s).data =
        (w.view rt id s).data ∧
      (((w.setLamports key ((w.accounts key).lamports + n)).view rt id) s).lamports =
        (w.view rt id s).lamports + if key = rt.slotKey id s then n else 0 := by
  unfold World.view World.setLamports
  by_cases hk : key = rt.slotKey id s
  · subst hk
    rw [World.accounts_setAccount_self, if_pos rfl]
    exact ⟨rfl, rfl⟩
  · rw [World.accounts_setAccount_of_ne _ _ (Ne.symm hk), if_neg hk]
    exact ⟨rfl, rfl⟩

theorem reap_cases (hr : Represents rt acts w ws id r) (hi : r.Invariant rt) {key : K}
    (hz : (w.accounts key).lamports = 0) :
    (∀ s, (((w.setAccount key .unused).view rt id) s).data = (w.view rt id s).data ∧
      (((w.setAccount key .unused).view rt id) s).lamports = (w.view rt id s).lamports) ∨
    (∃ wallet, key = rt.slotKey id (.participant wallet)) ∨
    key = rt.slotKey id .vault ∧ r.vaultClosed = true := by
  by_cases hk : ∃ s : Slot K, key = rt.slotKey id s
  · obtain ⟨s, rfl⟩ := hk
    rw [World.accounts_slotKey] at hz
    by_cases hp : ∃ wallet, s = .participant wallet
    · obtain ⟨wallet, rfl⟩ := hp
      exact .inr (.inl ⟨wallet, rfl⟩)
    by_cases hv : s = .vault
    · subst hv
      refine .inr (.inr ⟨rfl, ?_⟩)
      by_contra hc
      have := hi.funded.vault (by simpa using hc)
      have hpos := rt.minimumBalance_pos Sizes.vaultSize
      rw [← hr.lamports, hz] at this
      omega
    · left
      intro t
      rw [World.view_setAccount, View.setAccount_apply]
      split
      · next ht =>
        subst ht
        have he : (w.view rt id t).data = .empty := by
          by_contra hne
          have := hr.alive t (by simpa using hp) hv hne
          omega
        rw [he, hz]
        exact ⟨rfl, rfl⟩
      · exact ⟨rfl, rfl⟩
  · left
    rw [not_exists] at hk
    rw [World.view_setAccount_of_ne _ _ hk]
    exact fun _ ↦ ⟨rfl, rfl⟩

/-- Whatever happens, a lottery takes a step of its own machine. -/
theorem follow (h : Consistent rt acts w ws) (hs : Step rt w a w')
    (hr : Represents rt acts w ws id r) (hi : r.Invariant rt) :
    ∃ r', r.Step rt r' ∧ Represents rt (a :: acts) w' (w :: ws) id r' := by
  cases hs with
  | instruction hsig hok =>
    cases h.effect hsig hok with
    | unchanged he =>
      subst he
      exact ⟨r, .refl r, hr.stutter rfl rfl hr.config rfl⟩
    | configured hc _ hold =>
      refine ⟨_, ?_, hr.stutter hc.clock (hc.view id) hc.data rfl⟩
      rcases hold with ⟨he, -⟩ | ⟨old, bps, ho, rfl⟩
      · simp [hr.config] at he
      · obtain rfl := hr.eq_config ho
        exact .reconfigure rfl rfl rfl rfl
    | created hc _ _ ht _ hconf =>
      obtain rfl := hr.eq_config hc
      have hid : id ≠ r.config.lotteryCount + 1 := by
        obtain ⟨c, hc', -, hle⟩ := (h.exists_iff id).mp (by simp [hr.lottery])
        obtain rfl := hr.eq_config hc'
        omega
      refine ⟨_, ?_, hr.stutter (hconf.clock.trans ht.clock)
        ((hconf.view id).trans (ht.view_of_ne hid)) hconf.data rfl⟩
      exact .reconfigure rfl rfl rfl rfl
    | simulated hsim =>
      obtain ⟨id₀, hne, hall⟩ := hsim
      by_cases hid : id = id₀
      · subst hid
        exact (hall acts ws r (fun hc ↦ (hi.routed.complete hc).1) hr).2.2
      · obtain ⟨r₀, hreach, hr₀⟩ := h.round id₀ hne
        obtain ⟨ht, -⟩ := hall acts ws r₀
          (fun hc ↦ ((Round.invariant hreach).routed.complete hc).1) hr₀
        refine ⟨r, .refl r, hr.stutter ht.clock (ht.view_of_ne hid) ?_ rfl⟩
        rw [ht.config]
        exact hr.config
  | @tick time hle hlt =>
    refine ⟨_, .tick (hr.now ▸ hle) hlt, ?_⟩
    have hcarry := hr.carry (.tick time) { w with clock := time } hr.config
      (fun _ ↦ rfl) (fun _ ↦ le_rfl)
    have hdon : donatedTo (rt.slotKey id .vault) (.tick time :: acts) = r.donated := hr.donated.symm
    have hvault : (World.view rt { w with clock := time } id .vault).lamports =
      r.vault := hr.lamports
    rw [hdon, hvault] at hcarry
    exact hcarry
  | deposit key n =>
    have hview := view_deposit rt w key n id
    have hconf : ((w.setLamports key ((w.accounts key).lamports + n)).accounts rt.configKey).data =
        .config r.config := by
      rw [← hr.config, World.setLamports]
      by_cases hk : rt.configKey = key
      · rw [hk, World.accounts_setAccount_self]
      · rw [World.accounts_setAccount_of_ne _ _ hk]
    have hcarry := hr.carry (.deposit key n) _ hconf (fun s ↦ (hview s).1) fun s ↦ by
      rw [(hview s).2]
      exact Nat.le_add_right _ _
    refine ⟨_, .deposit (if key = rt.slotKey id .vault then n else 0), ?_⟩
    rw [(hview .vault).2, hr.lamports, show donatedTo (rt.slotKey id .vault)
      (.deposit key n :: acts) =
      r.donated + if key = rt.slotKey id .vault then n else 0 by
        rw [hr.donated, donatedTo, Nat.add_comm]] at hcarry
    rw [show (w.setLamports key ((w.accounts key).lamports + n)).clock =
      r.now from hr.now] at hcarry
    exact hcarry
  | outside account hk =>
    refine ⟨r, .refl r, hr.stutter rfl (World.view_setAccount_of_ne _ _ (fun s ↦ hk _) _) ?_ rfl⟩
    exact (congrArg Account.data (World.accounts_setAccount_of_ne w account
      (hk .config).symm)).trans
      hr.config
  | @reap key hz =>
    have hconf : ((w.setAccount key .unused).accounts rt.configKey).data = .config r.config := by
      rw [World.accounts_setAccount_of_ne]
      · exact hr.config
      · rintro rfl
        have := (h.config _ hr.config).2
        omega
    have hclock : (w.setAccount key .unused).clock = r.now := hr.now
    refine ⟨r, .refl r, ?_⟩
    rcases reap_cases hr hi hz with hsame | ⟨wallet, rfl⟩ | ⟨rfl, hclosed⟩
    · have hcarry := hr.carry (.reap key) _ hconf (fun s ↦ (hsame s).1) fun s ↦ (hsame s).2.ge
      rw [(hsame .vault).2, hr.lamports, hclock, show donatedTo (rt.slotKey id .vault)
        (.reap key :: acts) = r.donated from hr.donated.symm] at hcarry
      exact hcarry
    · have hroster := hr.roster.drop (by rwa [World.accounts_slotKey] at hz)
      refine hr.next ((Touches.refl _ _).setAccount _ _) (World.view_setAccount ..) (fun _ ↦ rfl)
        ⟨rfl, rfl, rfl, rfl⟩ (by simp [hr.lottery]) (by simpa using hr.vault)
          (by simp [hr.lamports])
        .inl hroster (by simp [hr.tally]) (by simp [hr.ledger]) (by simp [hr.pages])
        (hr.alive.setParticipant _ _)
    · have hlam : r.vault = 0 := by rw [← hr.lamports]; exact hz
      refine hr.next ((Touches.refl _ _).setAccount _ _) (World.view_setAccount ..) (fun _ ↦ rfl)
        ⟨rfl, rfl, rfl, rfl⟩ (by simp [hr.lottery]) (by simp [hclosed, Account.unused])
        (by simp [hlam, Account.unused]) .inl (hr.roster.push.setOther (by simp) _)
          (by simp [hr.tally])
        (by simp [hr.ledger]) (by simp [hr.pages]) (hr.alive.setVault _)

theorem follow_absent (h : Consistent rt acts w ws) (hs : Step rt w a w')
    (ha : Absent rt acts w ws id) :
    Absent rt (a :: acts) w' (w :: ws) id ∨
      ∃ r, r.Created rt ∧ Represents rt (a :: acts) w' (w :: ws) id r := by
  cases hs with
  | @instruction _ pre ix accounts hsig hok =>
    have hview (hv : w'.view rt id = w.view rt id) :
        Absent rt (.instruction pre ix accounts :: acts) w' (w :: ws) id :=
      ha.carry (fun s ↦ by rw [hv]) (by rw [hv]; exact ha.lamports)
    cases h.effect hsig hok with
    | unchanged he =>
      subst he
      exact .inl (hview rfl)
    | configured hc => exact .inl (hview (hc.view id))
    | @created c l bump w₁ hc hl hu ht hv hconf =>
      by_cases hid : id = c.lotteryCount + 1
      · subst hid
        right
        have hview := (hconf.view (c.lotteryCount + 1)).trans hv
        have hvault : donatedTo (rt.slotKey (c.lotteryCount + 1) .vault) acts = 0 := by
          rw [← ha.lamports, hu]
          rfl
        refine ⟨⟨rt.lotteryKey (c.lotteryCount + 1), w.clock, { c with
          lotteryCount := c.lotteryCount + 1 }, l, [], none, none, fun _ ↦ none,
          rt.minimumBalance Sizes.vaultSize, false, 0⟩, ?_, ?_⟩
        · obtain ⟨hv, -⟩ := h.config c hc
          exact ⟨⟨_, _, _, _, _, _, _, hl, rfl, rfl⟩, rfl, rfl, rfl, rfl, rfl, rfl, rfl,
            ⟨hv.serviceCharge, hv.maxWinnersCap, hv.window⟩⟩
        · have hdata {s : Slot K} (hs : s ≠ .lottery) (hs' : s ≠ .vault) :
              (w'.view rt (c.lotteryCount + 1) s).data = .empty := by
            rw [hview]
            simpa [hs, hs'] using ha.data s
          refine ⟨rfl, hconf.clock.trans ht.clock, hconf.data, by rw [hview]; simp,
            .inl ⟨⟨rt.lotteryKey (c.lotteryCount + 1), bump⟩, by rw [hview]; simp⟩,
              by rw [hview]; simp, by simp, hvault.symm,
            ⟨.nil, by simp, by simp, fun wallet _ ↦ ?_, by simp⟩, hdata (by simp) (by simp),
            hdata (by simp) (by simp), fun i ↦ hdata (by simp) (by simp), ?_⟩
          · have he := hdata (s := .participant wallet) (by simp) (by simp)
            refine ⟨?_, he⟩
            rw [View.lastIn, he]
            exact ha.past_cons wallet
          · intro s _ hs hne
            by_cases hsl : s = .lottery
            · rw [hview]
              simpa [hsl] using rt.minimumBalance_pos _
            · exact absurd (hdata hsl hs) hne
      · exact .inl (hview ((hconf.view id).trans (ht.view_of_ne hid)))
    | simulated hsim =>
      obtain ⟨id₀, ht, -, hne, -⟩ := h.simulated hsim
      refine .inl (hview (ht.view_of_ne ?_))
      rintro rfl
      exact hne (ha.data _)
  | tick => exact .inl (ha.carry (fun _ ↦ rfl) ha.lamports)
  | deposit key n =>
    have hview := view_deposit rt w key n id
    refine .inl (ha.carry (fun s ↦ (hview s).1) ?_)
    rw [(hview .vault).2, ha.lamports, donatedTo, Nat.add_comm]
  | outside account hk =>
    have hview := World.view_setAccount_of_ne rt w (fun s : Slot K ↦ hk (s.seeds rt id)) account
    exact .inl (ha.carry (fun s ↦ by rw [hview]) (by rw [hview]; exact ha.lamports))
  | @reap key hz =>
    have hview (s : Slot K) : ((w.setAccount key .unused).view rt id s).data =
      (w.view rt id s).data ∧
        ((w.setAccount key .unused).view rt id s).lamports = (w.view rt id s).lamports := by
      rw [← World.accounts_slotKey, ← World.accounts_slotKey]
      by_cases hk : rt.slotKey id s = key
      · have hd := ha.data s
        rw [← World.accounts_slotKey, hk] at hd
        rw [hk, World.accounts_setAccount_self, hd, hz]
        exact ⟨rfl, rfl⟩
      · rw [World.accounts_setAccount_of_ne _ _ hk]
        exact ⟨rfl, rfl⟩
    exact .inl (ha.carry (fun s ↦ (hview s).1) ((hview .vault).2.trans ha.lamports))

theorem exists_iff_of_same (h : Consistent rt acts w ws)
    (hc : (w'.accounts rt.configKey).data = (w.accounts rt.configKey).data)
    (hl : ∀ id, (w'.view rt id .lottery).data = .empty ↔ (w.view rt id .lottery).data = .empty)
    (id : ℕ) : (w'.view rt id .lottery).data ≠ .empty ↔
      ∃ c, (w'.accounts rt.configKey).data = .config c ∧ 0 < id ∧ id ≤ c.lotteryCount := by
  rw [ne_eq, hl, hc]
  exact h.exists_iff id

theorem typed_setAccount (hw : WellTyped rt w) {key : K} {account : Account K}
    (ha : ∀ s, rt.address s = key → account.Fits rt s) :
      WellTyped rt (w.setAccount key account) := by
  intro s
  by_cases hk : rt.address s = key
  · rw [hk, World.accounts_setAccount_self]
    exact ha s hk
  · rw [World.accounts_setAccount_of_ne _ _ hk]
    exact hw s

theorem frame (h : Consistent rt acts w ws) (hs : Step rt w a w') :
    WellTyped rt w' ∧ (-2 ^ 63 ≤ w'.clock ∧ w'.clock < 2 ^ 63) ∧
      (∀ c, (w'.accounts rt.configKey).data = .config c →
        c.Valid ∧ 0 < (w'.accounts rt.configKey).lamports) ∧
      ∀ id, (w'.view rt id .lottery).data ≠ .empty ↔
        ∃ c, (w'.accounts rt.configKey).data = .config c ∧ 0 < id ∧ id ≤ c.lotteryCount := by
  have hclock := And.intro h.clock_ge h.clock_lt
  cases hs with
  | instruction hsig hok =>
    cases h.effect hsig hok with
    | unchanged he =>
      subst he
      exact ⟨h.typed, hclock, h.config, h.exists_iff⟩
    | @configured c hc hv hold =>
      refine ⟨hc.wellTyped h.typed, by rw [hc.clock]; exact hclock, fun c' hc' ↦ ?_, fun id ↦ ?_⟩
      · rw [hc.data] at hc'
        cases hc'
        refine ⟨hv, hc.alive ?_⟩
        rcases hold with ⟨he, -⟩ | ⟨old, bps, ho, -⟩
        · exact .inr he
        · exact .inl (h.config _ ho).2
      · rw [hc.view, h.exists_iff, hc.data]
        rcases hold with ⟨he, hz⟩ | ⟨old, bps, ho, rfl⟩
        · refine iff_of_false (by simp [he]) ?_
          rintro ⟨_, hc', hpos, hle⟩
          cases hc'
          omega
        · rw [ho]
          constructor
          · rintro ⟨_, hc', hpos⟩
            cases hc'
            exact ⟨_, rfl, hpos⟩
          · rintro ⟨_, hc', hpos⟩
            cases hc'
            exact ⟨_, rfl, hpos⟩
    | @created c l bump w₁ hc hl hu ht hv hconf =>
      obtain ⟨hvalid, hpos⟩ := h.config c hc
      have hw₁ : WellTyped rt w₁ := by
        refine h.typed.of_touches ht ?_
        rw [hv]
        obtain ⟨hid, hcfg, hvk, -⟩ := Lottery.new_ok hl
        have hlottery : Holds rt (Slot.seeds rt (c.lotteryCount + 1) .lottery) (.lottery l) :=
          ⟨rfl, hid, hcfg, hvk⟩
        exact ((h.typed.fits _).setAccount (.inr ⟨rfl, hlottery⟩)).setAccount (.inr ⟨rfl, trivial⟩)
      refine ⟨hconf.wellTyped hw₁, by rw [hconf.clock, ht.clock]; exact hclock, fun c' hc' ↦ ?_,
        fun id ↦ ?_⟩
      · rw [hconf.data] at hc'
        cases hc'
        refine ⟨⟨hvalid.serviceCharge, hvalid.maxWinnersCap, hvalid.window⟩, hconf.alive (.inl ?_)⟩
        rw [ht.config]
        exact hpos
      · rw [hconf.view, hconf.data]
        by_cases hid : id = c.lotteryCount + 1
        · subst hid
          rw [hv]
          simp
        · rw [ht.view_of_ne hid, h.exists_iff, hc]
          constructor
          · rintro ⟨_, hc', hpos, hle⟩
            cases hc'
            exact ⟨_, rfl, hpos, Nat.le_succ_of_le hle⟩
          · rintro ⟨_, hc', hpos, hle⟩
            cases hc'
            exact ⟨_, rfl, hpos, by dsimp only at hle; omega⟩
    | simulated hsim =>
      obtain ⟨id₀, ht, hf, hne, hne'⟩ := h.simulated hsim
      refine ⟨h.typed.of_touches ht hf, by rw [ht.clock]; exact hclock,
        by rw [ht.config]; exact h.config, h.exists_iff_of_same (by rw [ht.config]) fun id ↦ ?_⟩
      by_cases hid : id = id₀
      · subst hid
        exact iff_of_false hne' hne
      · rw [ht.view_of_ne hid]
  | tick hle hlt =>
    exact ⟨h.typed, ⟨hclock.1.trans hle, hlt⟩, h.config, h.exists_iff⟩
  | deposit key n =>
    have hconf : ((w.setLamports key ((w.accounts key).lamports + n)).accounts rt.configKey).data =
        (w.accounts rt.configKey).data ∧ (w.accounts rt.configKey).lamports ≤
          ((w.setLamports key ((w.accounts key).lamports + n)).accounts rt.configKey).lamports := by
      unfold World.setLamports
      by_cases hk : rt.configKey = key
      · rw [hk, World.accounts_setAccount_self]
        exact ⟨rfl, Nat.le_add_right _ _⟩
      · rw [World.accounts_setAccount_of_ne _ _ hk]
        exact ⟨rfl, le_rfl⟩
    refine ⟨typed_setAccount h.typed ?_, hclock, fun c hc ↦ ?_,
      h.exists_iff_of_same hconf.1 fun id ↦ ?_⟩
    · rintro s rfl
      exact h.typed s
    · rw [hconf.1] at hc
      exact ⟨(h.config c hc).1, (h.config c hc).2.trans_le hconf.2⟩
    · rw [(view_deposit rt w key n id .lottery).1]
  | outside account hk =>
    have hconf := World.accounts_setAccount_of_ne w account (hk .config).symm
    refine ⟨typed_setAccount h.typed fun s hs ↦ absurd hs.symm (hk s), hclock, ?_,
      h.exists_iff_of_same (congrArg Account.data hconf) fun id ↦ ?_⟩
    · rw [Runtime.configKey, hconf]
      exact h.config
    · rw [World.view_setAccount_of_ne _ _ fun s ↦ hk _]
  | @reap key hz =>
    have hconf : (w.setAccount key .unused).accounts rt.configKey = w.accounts rt.configKey ∨
        (w.accounts rt.configKey).data = .empty ∧
          (w.setAccount key .unused).accounts rt.configKey = .unused := by
      by_cases hk : rt.configKey = key
      · subst hk
        rcases config_cases h.typed with he | ⟨c, hc⟩
        · exact .inr ⟨he, World.accounts_setAccount_self ..⟩
        · have := (h.config c hc).2
          omega
      · exact .inl (World.accounts_setAccount_of_ne _ _ hk)
    refine ⟨typed_setAccount h.typed fun s _ ↦ .inl ⟨rfl, rfl⟩, hclock, ?_,
      h.exists_iff_of_same ?_ fun id ↦ ?_⟩
    · rcases hconf with he | ⟨-, he⟩ <;> rw [he]
      · exact h.config
      · simp [Account.unused]
    · rcases hconf with he | ⟨hd, he⟩ <;> rw [he]
      exact hd.symm
    · by_cases hl : (w.view rt id .lottery).data = .empty
      · have := h.follow_absent (.reap hz) (h.absent id hl)
        refine iff_of_true ?_ hl
        by_cases hk : rt.slotKey id .lottery = key
        · rw [← World.accounts_slotKey, hk, World.accounts_setAccount_self]
          rfl
        · rw [← World.accounts_slotKey, World.accounts_setAccount_of_ne _ _ hk]
          exact hl
      · obtain ⟨r, hreach, hr⟩ := h.round id hl
        obtain ⟨r', -, hr'⟩ := h.follow (.reap hz) hr (Round.invariant hreach)
        exact iff_of_false (by simp [hr'.lottery]) hl

theorem step (h : Consistent rt acts w ws) (hs : Step rt w a w') :
    Consistent rt (a :: acts) w' (w :: ws) := by
  obtain ⟨htyped, ⟨hge, hlt⟩, hconfig, hiff⟩ := h.frame hs
  refine ⟨htyped, hge, hlt, hconfig, hiff, fun id he ↦ ?_, fun id hne ↦ ?_⟩
  · by_cases hl : (w.view rt id .lottery).data = .empty
    · rcases h.follow_absent hs (h.absent id hl) with ha | ⟨r, -, hr⟩
      · exact ha
      · rw [hr.lottery] at he
        cases he
    · obtain ⟨r, hreach, hr⟩ := h.round id hl
      obtain ⟨r', -, hr'⟩ := h.follow hs hr (Round.invariant hreach)
      rw [hr'.lottery] at he
      cases he
  · by_cases hl : (w.view rt id .lottery).data = .empty
    · rcases h.follow_absent hs (h.absent id hl) with ha | ⟨r, hcreated, hr⟩
      · exact absurd (ha.data _) hne
      · exact ⟨r, ⟨[], [], .init hcreated⟩, hr⟩
    · obtain ⟨r, ⟨as, ss, hh⟩, hr⟩ := h.round id hl
      obtain ⟨r', hst, hr'⟩ := h.follow hs hr (Round.invariant ⟨as, ss, hh⟩)
      exact ⟨r', ⟨() :: as, r :: ss, hh.step hst⟩, hr'⟩

end Consistent

/-- Every run of the program is consistent. -/
theorem consistent (h : (system rt).History acts (w :: ws)) : Consistent rt acts w ws := by
  have := h.invariant (P := fun acts ws ↦ ∀ w ws', ws = w :: ws' → Consistent rt acts w ws') ?_ ?_
  · exact this w ws rfl
  · intro s hs w ws' he
    cases he
    exact .init hs
  · intro as ss s a t _ hP hst w ws' he
    cases he
    exact (hP s ss rfl).step hst

/-- The lottery stored in a world that can be reached is that of a round that can be. -/
theorem represented (h : (system rt).History acts (w :: ws)) {l : Lottery K}
    (hl : (w.view rt id .lottery).data = .lottery l) :
    ∃ r, (Round.machine rt).Reachable r ∧ r.Invariant rt ∧ Represents rt acts w ws id r ∧
      r.lottery = l ∧ l.id = id := by
  have hc := consistent h
  obtain ⟨r, hreach, hr⟩ := hc.round id (by simp [hl])
  have hs := (hc.typed.fits id).holds (s := .lottery) (by simp [hl])
  rw [hl] at hs
  exact ⟨r, hreach, Round.invariant hreach, hr, (hr.eq_lottery hl).symm, hs.2.1⟩

/-- Along an execution of the program a lottery runs through an execution of its machine. -/
theorem represented_path (h : (system rt).History acts (w :: ws)) {as : List (Action K)}
    (hp : (system rt).Path w as w') (hr : Represents rt acts w ws id r)
    (hreach : (Round.machine rt).Reachable r) :
    ∃ ws' cs r', (system rt).History (as.reverse ++ acts) (w' :: ws') ∧ (w :: ws) <:+ (w' :: ws') ∧
      (Round.machine rt).Path r cs r' ∧ (Round.machine rt).Reachable r' ∧
      Represents rt (as.reverse ++ acts) w' ws' id r' := by
  let R (acts : List (Action K)) (ws : List (World K)) (r : Round K) :=
    (Round.machine rt).Reachable r ∧ ∃ w₀ ws₀, ws = w₀ :: ws₀ ∧ Represents rt acts w₀ ws₀ id r
  have hstep : ∀ as ss s a s' r, (system rt).History as (s :: ss) → R as (s :: ss) r →
      (system rt).step s a s' → ∃ b r', (Round.machine rt).step r b r' ∧
        R (a :: as) (s' :: s :: ss) r' := by
    rintro as ss s a s' r hh ⟨⟨bs, rs, hrs⟩, w₀, ws₀, he, hr⟩ hs
    cases he
    obtain ⟨r', hst, hr'⟩ := (consistent hh).follow hs hr (Round.invariant ⟨bs, rs, hrs⟩)
    exact ⟨(), r', hst, ⟨() :: bs, r :: rs, hrs.step hst⟩, s', s :: ss, rfl, hr'⟩
  obtain ⟨ws', cs, r', hh, hsuf, hpath, hreach', w₀, ws₀, he, hr'⟩ :=
    hp.follow (R := R) h hstep ⟨hreach, w, ws, rfl, hr⟩
  cases he
  exact ⟨ws', cs, r', hh, hsuf, hpath, hreach', hr'⟩

theorem clocks_pos (h : (system rt).History acts ws) {w₀ : World K} (hlast : [w₀] <:+ ws)
    (hpos : 0 < w₀.clock) : ∀ w ∈ ws, 0 < w.clock := by
  induction h with
  | init _ =>
    intro w hw
    obtain rfl := List.mem_singleton.mp hw
    obtain rfl := List.singleton_injective (hlast.eq_of_length rfl)
    exact hpos
  | @step _ ss s t _ hh hs ih =>
    have hall := ih (by simpa using (List.suffix_cons_iff.mp hlast).resolve_left (by simp))
    intro w hw
    rcases List.mem_cons.mp hw with rfl | hw
    · exact (hall s List.mem_cons_self).trans_le ((consistent hh).clock_le hs)
    · exact hall w hw

end DailyLottery
