import DailyLottery.Lib.Lockstep
import DailyLottery.Program

set_option linter.unusedSectionVars false

namespace DailyLottery

open Lib

variable {K : Type} [DecidableEq K] [Inhabited K] {rt : Runtime K} {N : K → Prop} {w w' : World K}
  {ai : AccountInfo K}

/-- Two configs that differ at most in the service charge and the number of lotteries. -/
def Config.Charged (c c' : Config K) : Prop :=
  ∃ bps count, c' = { c with serviceChargeBps := bps, lotteryCount := count }

namespace Config.Charged

variable {c c' : Config K} (h : c.Charged c')

include h

theorem authority : c'.authority = c.authority := by
  obtain ⟨_, _, rfl⟩ := h
  rfl

theorem uploadWindowSecs : c'.uploadWindowSecs = c.uploadWindowSecs := by
  obtain ⟨_, _, rfl⟩ := h
  rfl

theorem effectiveMaxWinners (n : ℕ) : c'.effectiveMaxWinners n = c.effectiveMaxWinners n := by
  obtain ⟨_, _, rfl⟩ := h
  rfl

theorem symm : c'.Charged c := by
  obtain ⟨_, _, rfl⟩ := h
  exact ⟨_, _, rfl⟩

theorem trans {c'' : Config K} (h' : c'.Charged c'') : c.Charged c'' := by
  obtain ⟨_, _, rfl⟩ := h
  obtain ⟨_, _, rfl⟩ := h'
  exact ⟨_, _, rfl⟩

end Config.Charged

/-- Data that differs at most in a config's service charge and number of lotteries. -/
inductive AccountData.Charged : AccountData K → AccountData K → Prop
  | refl (d : AccountData K) : Charged d d
  | config {c c' : Config K} : c.Charged c' → Charged (.config c) (.config c')

namespace AccountData.Charged

variable {d d' d'' : AccountData K}

theorem symm (h : d.Charged d') : d'.Charged d := by
  cases h with
  | refl => exact .refl d
  | config hc => exact .config hc.symm

theorem trans (h : d.Charged d') (h' : d'.Charged d'') : d.Charged d'' := by
  cases h with
  | refl => exact h'
  | config hc =>
    cases h' with
    | refl => exact .config hc
    | config hc' => exact .config (hc.trans hc')

end AccountData.Charged

variable (rt) (N) in
/-- Two worlds with the same time, the same accounts at the keys of `N`, and configs that differ at
most in the service charge and the number of lotteries. -/
structure Alike (w w' : World K) : Prop where
  clock : w'.clock = w.clock
  named : ∀ k, N k → w'.accounts k = w.accounts k
  owner : (w'.accounts rt.configKey).owner = (w.accounts rt.configKey).owner
  config : (w.accounts rt.configKey).data.Charged (w'.accounts rt.configKey).data

variable (rt) (N) in
/-- Alike worlds, each with the same value. -/
def AlikeWith {α : Type} (x x' : World K × α) : Prop := Alike rt N x.1 x'.1 ∧ x'.2 = x.2

namespace Alike

theorem refl (w : World K) : Alike rt N w w := ⟨rfl, fun _ _ ↦ rfl, rfl, .refl _⟩

theorem emit (h : Alike rt N w w') (e e' : LotteryEvent K) : Alike rt N (w.emit e) (w'.emit e') :=
  ⟨h.clock, h.named, h.owner, h.config⟩

theorem ite_emit (h : Alike rt N w w') (c : Prop) [Decidable c] (e e' : LotteryEvent K) :
    Alike rt N (if c then w.emit e else w) (if c then w'.emit e' else w') := by
  split
  · exact h.emit e e'
  · exact h

theorem setAccount (h : Alike rt N w w') (k : K) (a : Account K) :
    Alike rt N (w.setAccount k a) (w'.setAccount k a) := by
  have haccount (k' : K) (hk : k' ≠ k → (w'.accounts k') = w.accounts k') :
      (w'.setAccount k a).accounts k' = (w.setAccount k a).accounts k' := by
    by_cases he : k' = k
    · subst he
      simp
    · rw [World.accounts_setAccount_of_ne _ _ he, World.accounts_setAccount_of_ne _ _ he, hk he]
  by_cases he : rt.configKey = k
  · have hsame := haccount rt.configKey fun hne ↦ absurd he hne
    refine ⟨h.clock, fun k' hk ↦ haccount k' fun _ ↦ h.named k' hk, by rw [hsame], ?_⟩
    rw [hsame]
    exact .refl _
  · refine ⟨h.clock, fun k' hk ↦ haccount k' fun _ ↦ h.named k' hk, ?_, ?_⟩
    · rw [World.accounts_setAccount_of_ne _ _ he, World.accounts_setAccount_of_ne _ _ he]
      exact h.owner
    · rw [World.accounts_setAccount_of_ne _ _ he, World.accounts_setAccount_of_ne _ _ he]
      exact h.config

theorem setData (h : Alike rt N w w') {k : K} (hk : N k) (d : AccountData K) :
    Alike rt N (w.setData k d) (w'.setData k d) := by
  unfold World.setData
  rw [h.named k hk]
  exact h.setAccount k _

theorem setLamports (h : Alike rt N w w') {k : K} (hk : N k) (n : ℕ) :
    Alike rt N (w.setLamports k n) (w'.setLamports k n) := by
  unfold World.setLamports
  rw [h.named k hk]
  exact h.setAccount k _

theorem symm (h : Alike rt N w w') : Alike rt N w' w :=
  ⟨h.clock.symm, fun k hk ↦ (h.named k hk).symm, h.owner.symm, h.config.symm⟩

theorem trans {w'' : World K} (h : Alike rt N w w') (h' : Alike rt N w' w'') : Alike rt N w w'' :=
  ⟨h'.clock.trans h.clock, fun k hk ↦ (h'.named k hk).trans (h.named k hk),
    h'.owner.trans h.owner, h.config.trans h'.config⟩

theorem mono {N' : K → Prop} (h : Alike rt N w w') (hN : ∀ k, N' k → N k) : Alike rt N' w w' :=
  ⟨h.clock, fun k hk ↦ h.named k (hN k hk), h.owner, h.config⟩

theorem elsewhere {k : K} {x : Account K} (hk : ¬N k)
    (hx : rt.configKey = k → x.owner = (w.accounts k).owner ∧ x.data = (w.accounts k).data) :
    Alike rt N w (w.setAccount k x) := by
  have hconfig : ((w.setAccount k x).accounts rt.configKey).owner =
        (w.accounts rt.configKey).owner ∧
      ((w.setAccount k x).accounts rt.configKey).data = (w.accounts rt.configKey).data := by
    by_cases he : rt.configKey = k
    · obtain ⟨howner, hdata⟩ := hx he
      rw [he, World.accounts_setAccount_self]
      exact ⟨howner, hdata⟩
    · rw [World.accounts_setAccount_of_ne _ _ he]
      exact ⟨rfl, rfl⟩
  refine ⟨rfl, fun k' hk' ↦ World.accounts_setAccount_of_ne _ _ ?_, hconfig.1, ?_⟩
  · rintro rfl
    exact hk hk'
  · rw [hconfig.2]
    exact .refl _

section Reads

variable (h : Alike rt N w w')

include h

theorem assertPdaOwned (hk : N ai.key) (s : Seeds K) :
    DailyLottery.assertPdaOwned rt w' ai s = DailyLottery.assertPdaOwned rt w ai s := by
  simp only [DailyLottery.assertPdaOwned, h.named _ hk]

theorem assertConfigOwned :
    DailyLottery.assertPdaOwned rt w' ai .config = DailyLottery.assertPdaOwned rt w ai .config := by
  unfold DailyLottery.assertPdaOwned
  by_cases hk : rt.address .config = ai.key
  · have hk' : ai.key = rt.configKey := hk.symm
    rw [hk', h.owner]
  · simp [rejectIf, hk, bind, Except.bind]

theorem readAccountData (T : Type) [AccountType K T] (hk : N ai.key) :
    DailyLottery.readAccountData rt w' T ai = DailyLottery.readAccountData rt w T ai := by
  simp only [DailyLottery.readAccountData, h.named _ hk]

theorem readConfig (hk : ai.key = rt.configKey) :
    Lockstep Config.Charged (DailyLottery.readAccountData rt w (Config K) ai)
      (DailyLottery.readAccountData rt w' (Config K) ai) := by
  have hcharged := h.config
  unfold DailyLottery.readAccountData
  rw [hk]
  generalize (w.accounts rt.configKey).data = d at hcharged
  generalize (w'.accounts rt.configKey).data = d' at hcharged
  cases hcharged with
  | refl => exact .refl (fun c ↦ ⟨c.serviceChargeBps, c.lotteryCount, rfl⟩) _
  | config hc => exact .ok hc

theorem dataIsEmpty (hk : N ai.key) : DailyLottery.dataIsEmpty w' ai =
    DailyLottery.dataIsEmpty w ai := by
  simp only [DailyLottery.dataIsEmpty, h.named _ hk]

theorem validateAccountDiscriminator (T : Type) [AccountType K T] (hk : N ai.key) :
    DailyLottery.validateAccountDiscriminator w' T ai =
      DailyLottery.validateAccountDiscriminator w T ai := by
  simp only [DailyLottery.validateAccountDiscriminator, h.named _ hk]

theorem validateConfigDiscriminator (hk : ai.key = rt.configKey) :
    DailyLottery.validateAccountDiscriminator w' (Config K) ai =
      DailyLottery.validateAccountDiscriminator w (Config K) ai := by
  have hcharged := h.config
  unfold DailyLottery.validateAccountDiscriminator
  rw [hk]
  generalize (w.accounts rt.configKey).data = d at hcharged
  generalize (w'.accounts rt.configKey).data = d' at hcharged
  cases hcharged with
  | refl => rfl
  | config => rfl

end Reads

section Writes

variable (h : Alike rt N w w') {source target : AccountInfo K}

include h

theorem writeAccountData {T : Type} [AccountType K T] (hk : N ai.key) (t : T) :
    Lockstep (Alike rt N) (DailyLottery.writeAccountData rt w ai t)
      (DailyLottery.writeAccountData rt w' ai t) := by
  unfold DailyLottery.writeAccountData
  simp only [h.named _ hk]
  iterate 3 refine .same fun _ _ ↦ ?_
  exact .pure (h.setData hk _)

theorem createAccount (hs : N source.key) (ht : N target.key) (space : ℕ) :
    Lockstep (Alike rt N) (DailyLottery.createAccount rt w source target space)
      (DailyLottery.createAccount rt w' source target space) := by
  unfold DailyLottery.createAccount
  simp only [h.named _ hs, h.named _ ht]
  iterate 5 refine .same fun _ _ ↦ ?_
  exact .pure ((h.setLamports hs _).setAccount _ _)

theorem systemTransfer (hs : N source.key) (ht : N target.key) (n : ℕ) :
    Lockstep (Alike rt N) (DailyLottery.systemTransfer w source target n)
      (DailyLottery.systemTransfer w' source target n) := by
  unfold DailyLottery.systemTransfer
  simp only [h.named _ hs]
  iterate 3 refine .same fun _ _ ↦ ?_
  have hsource := h.setLamports hs ((w.accounts source.key).lamports - n)
  rw [hsource.named _ ht]
  exact .pure (hsource.setLamports ht _)

theorem moveLamports (hs : N source.key) (ht : N target.key) (n : ℕ) :
    Lockstep (Alike rt N) (DailyLottery.moveLamports w source target n)
      (DailyLottery.moveLamports w' source target n) := by
  unfold DailyLottery.moveLamports
  simp only [h.named _ hs]
  iterate 3 refine .same fun _ _ ↦ ?_
  have hsource := h.setLamports hs ((w.accounts source.key).lamports - n)
  rw [hsource.named _ ht]
  exact .pure (hsource.setLamports ht _)

theorem movePositive (hs : N source.key) (ht : N target.key) (n : ℕ) :
    Lockstep (Alike rt N) (DailyLottery.movePositive w source target n)
      (DailyLottery.movePositive w' source target n) := by
  unfold DailyLottery.movePositive
  exact .ite (fun _ ↦ h.moveLamports hs ht n) fun _ ↦ .ok h

end Writes

end Alike

end DailyLottery
