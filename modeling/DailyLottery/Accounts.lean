import DailyLottery.Program

set_option linter.unusedSectionVars false

namespace DailyLottery

open Lib

/-- The accounts that belong to one lottery. -/
inductive Slot (K : Type)
  | lottery
  | vault
  | participant (wallet : K)
  | voteTally
  | finalizationRoot
  | winnerPage (pageIndex : ℕ)
  deriving DecidableEq

variable {K : Type} [DecidableEq K] [Inhabited K] (rt : Runtime K)

def Slot.seeds (id : ℕ) : Slot K → Seeds K
  | .lottery => .lottery rt.configKey id
  | .vault => .vault (rt.lotteryKey id)
  | .participant wallet => .participant (rt.lotteryKey id) wallet
  | .voteTally => .voteTally (rt.lotteryKey id)
  | .finalizationRoot => .finalizationRoot (rt.lotteryKey id)
  | .winnerPage i => .winnerPage (rt.lotteryKey id) i

namespace Runtime

def slotKey (id : ℕ) (s : Slot K) : K := rt.address (s.seeds rt id)

@[simp] theorem slotKey_inj {i j : ℕ} {s t : Slot K} :
    rt.slotKey i s = rt.slotKey j t ↔ i = j ∧ s = t := by
  cases s <;> cases t <;> simp [slotKey, Slot.seeds]

@[simp] theorem slotKey_ne_configKey {i : ℕ} {s : Slot K} : rt.slotKey i s ≠ rt.configKey := by
  cases s <;> simp [slotKey, Slot.seeds, configKey]

@[simp] theorem configKey_ne_slotKey {i : ℕ} {s : Slot K} : rt.configKey ≠ rt.slotKey i s :=
  (rt.slotKey_ne_configKey).symm

theorem slotKey_lottery (id : ℕ) : rt.slotKey id .lottery = rt.lotteryKey id := rfl

/-- A key the program did not derive. -/
def Foreign (k : K) : Prop := ∀ s, k ≠ rt.address s

theorem Foreign.ne_slotKey {k : K} (h : rt.Foreign k) (id : ℕ) (s : Slot K) :
    k ≠ rt.slotKey id s := h _

end Runtime

/-- The call is on lottery `id`: every instruction on a lottery names its account second. -/
def CallsOn (accounts : List (AccountInfo K)) (id : ℕ) : Prop :=
  accounts[1]?.map AccountInfo.key = some (rt.lotteryKey id)

variable {rt} in
theorem CallsOn.eq {accounts : List (AccountInfo K)} {i j : ℕ} (h : CallsOn rt accounts i)
    (h' : CallsOn rt accounts j) : i = j :=
  rt.lotteryKey_inj.mp (Option.some.inj (h.symm.trans h'))

abbrev View (K : Type) := Slot K → Account K

namespace View

variable (v : View K) (s t : Slot K)

def setAccount (a : Account K) : View K := Function.update v s a
def setData (d : AccountData K) : View K := v.setAccount s { v s with data := d }
def setLamports (n : ℕ) : View K := v.setAccount s { v s with lamports := n }

@[simp] theorem setAccount_apply (a : Account K) :
    v.setAccount s a t = if t = s then a else v t := Function.update_apply v s a t

@[simp] theorem setData_apply (d : AccountData K) :
    v.setData s d t = if t = s then { v s with data := d } else v t := v.setAccount_apply s t _

@[simp] theorem setLamports_apply (n : ℕ) :
    v.setLamports s n t = if t = s then { v s with lamports := n } else v t :=
      v.setAccount_apply s t _

variable {v s t}

theorem setData_self {d : AccountData K} (h : (v s).data = d) : v.setData s d = v := by
  funext u
  rw [setData_apply]
  split
  · next hu => rw [hu, ← h]
  · rfl

theorem data_setLamports (n : ℕ) : (v.setLamports s n t).data = (v t).data := by
  rw [setLamports_apply]
  split
  · next h => rw [h]
  · rfl

theorem setLamports_self {n : ℕ} (h : (v s).lamports = n) : v.setLamports s n = v := by
  funext u
  rw [setLamports_apply]
  split
  · next hu => rw [hu, ← h]
  · rfl

@[simp] theorem setData_setData (d d' : AccountData K) :
    (v.setData s d).setData s d' = v.setData s d' := by
  funext u
  by_cases hu : u = s <;> simp [hu]

@[simp] theorem setLamports_setLamports (n n' : ℕ) :
    (v.setLamports s n).setLamports s n' = v.setLamports s n' := by
  funext u
  by_cases hu : u = s <;> simp [hu]

theorem setData_comm (hst : s ≠ t) (d d' : AccountData K) :
    (v.setData s d).setData t d' = (v.setData t d').setData s d := by
  funext u
  by_cases hu : u = s
  · subst hu
    simp [hst]
  · by_cases hu' : u = t <;> simp [hu, hu', hst.symm]

theorem setLamports_setData (hst : s ≠ t) (d : AccountData K) (n : ℕ) :
    (v.setData s d).setLamports t n = (v.setLamports t n).setData s d := by
  funext u
  by_cases hu : u = s
  · subst hu
    simp [hst]
  · by_cases hu' : u = t <;> simp [hu, hu', hst.symm]

end View

namespace World

def view (w : World K) (id : ℕ) : View K := fun s ↦ w.accounts (rt.slotKey id s)

variable (w : World K)

@[simp] theorem view_setAccount (id : ℕ) (s : Slot K) (a : Account K) :
    (w.setAccount (rt.slotKey id s) a).view rt id = (w.view rt id).setAccount s a := by
  funext t
  simp [view, setAccount, Function.update_apply]

@[simp] theorem view_setData (id : ℕ) (s : Slot K) (d : AccountData K) :
    (w.setData (rt.slotKey id s) d).view rt id = (w.view rt id).setData s d :=
  w.view_setAccount rt id s _

@[simp] theorem view_setLamports (id : ℕ) (s : Slot K) (n : ℕ) :
    (w.setLamports (rt.slotKey id s) n).view rt id = (w.view rt id).setLamports s n :=
  w.view_setAccount rt id s _

@[simp] theorem view_emit (e : LotteryEvent K) (id : ℕ) :
    (w.emit e).view rt id = w.view rt id := rfl

theorem accounts_ite_emit (c : Prop) [Decidable c] (e : LotteryEvent K) :
    (if c then w.emit e else w).accounts = w.accounts := by
  split <;> rfl

theorem view_ite_emit (c : Prop) [Decidable c] (e : LotteryEvent K) (id : ℕ) :
    (if c then w.emit e else w).view rt id = w.view rt id := by
  split <;> rfl

theorem view_setAccount_of_ne {id : ℕ} {k : K} (h : ∀ s, k ≠ rt.slotKey id s) (a : Account K) :
    (w.setAccount k a).view rt id = w.view rt id := by
  funext t
  simp [view, setAccount, (h t).symm]

theorem view_setLamports_foreign {k : K} (h : rt.Foreign k) (id n : ℕ) :
    (w.setLamports k n).view rt id = w.view rt id :=
  w.view_setAccount_of_ne rt (h.ne_slotKey rt id) _

theorem accounts_setAccount_foreign {k : K} (hk : rt.Foreign k) (id : ℕ) (s : Slot K)
    (a : Account K) : (w.setAccount (rt.slotKey id s) a).accounts k = w.accounts k :=
  w.accounts_setAccount_of_ne a (hk.ne_slotKey rt id s)

theorem accounts_slotKey (id : ℕ) (s : Slot K) :
    w.accounts (rt.slotKey id s) = w.view rt id s := rfl

end World

/-- A step that touches, of the derived accounts, only those of lottery `id`. -/
structure Touches (id : ℕ) (w w' : World K) : Prop where
  clock : w'.clock = w.clock
  derived : ∀ t, (∀ s, rt.address t ≠ rt.slotKey id s) →
    w'.accounts (rt.address t) = w.accounts (rt.address t)

namespace Touches

variable {rt} {id : ℕ} {w w' w'' : World K}

theorem refl (id : ℕ) (w : World K) : Touches rt id w w := ⟨rfl, fun _ _ ↦ rfl⟩

theorem trans (h : Touches rt id w w') (h' : Touches rt id w' w'') : Touches rt id w w'' :=
  ⟨h'.clock.trans h.clock, fun t ht ↦ (h'.derived t ht).trans (h.derived t ht)⟩

theorem setAccount (h : Touches rt id w w') (s : Slot K) (a : Account K) :
    Touches rt id w (w'.setAccount (rt.slotKey id s) a) := by
  refine h.trans ⟨rfl, fun t ht ↦ ?_⟩
  exact World.accounts_setAccount_of_ne _ _ (ht s)

theorem setData (h : Touches rt id w w') (s : Slot K) (d : AccountData K) :
    Touches rt id w (w'.setData (rt.slotKey id s) d) := h.setAccount s _

theorem setLamports (h : Touches rt id w w') (s : Slot K) (n : ℕ) :
    Touches rt id w (w'.setLamports (rt.slotKey id s) n) := h.setAccount s _

theorem setLamports_foreign (h : Touches rt id w w') {k : K} (hk : rt.Foreign k) (n : ℕ) :
    Touches rt id w (w'.setLamports k n) := by
  refine h.trans ⟨rfl, fun t _ ↦ ?_⟩
  exact World.accounts_setAccount_of_ne _ _ (hk t).symm

theorem emit (h : Touches rt id w w') (e : LotteryEvent K) : Touches rt id w (w'.emit e) :=
  h.trans ⟨rfl, fun _ _ ↦ rfl⟩

theorem ite_emit (h : Touches rt id w w') (c : Prop) [Decidable c] (e : LotteryEvent K) :
    Touches rt id w (if c then w'.emit e else w') := by
  split
  · exact h.emit e
  · exact h

theorem config (h : Touches rt id w w') : w'.accounts rt.configKey = w.accounts rt.configKey :=
  h.derived .config fun _ ↦ rt.configKey_ne_slotKey

theorem view_of_ne (h : Touches rt id w w') {j : ℕ} (hj : j ≠ id) : w'.view rt j = w.view rt j := by
  funext s
  exact h.derived _ fun t ↦ by
    have := rt.slotKey_inj (i := j) (j := id) (s := s) (t := t)
    exact fun he ↦ hj (this.mp he).1

end Touches

/-- What may be stored at a derived address. Keys that are paid are never derived ones. -/
def Holds : Seeds K → AccountData K → Prop
  | .config, .config c => rt.Foreign c.authority
  | .lottery config id, .lottery l =>
    config = rt.configKey ∧ l.id = id ∧ l.config = rt.configKey ∧ l.vault = rt.slotKey id .vault
  | .participant lottery wallet, .participant p =>
    p.lottery = lottery ∧ p.wallet = wallet ∧ rt.Foreign p.wallet
  | .vault _, .vault _ => True
  | .voteTally lottery, .voteTally t => t.lottery = lottery
  | .finalizationRoot lottery, .finalizationLedger root =>
    root.lottery = lottery ∧ (root.pendingWinnerFound = true → rt.Foreign root.pendingWinner)
  | .winnerPage lottery i, .winnerPage page data =>
    page.lottery = lottery ∧ page.pageIndex = i ∧
      ∀ offset winner, page.winner data offset = some winner → rt.Foreign winner.wallet
  | _, _ => False

/-- An account at a derived address is either untouched or of the type its seeds say. -/
def Account.Fits (s : Seeds K) (a : Account K) : Prop :=
  (a.data = .empty ∧ a.owner = default) ∨ (a.owner = rt.programId ∧ Holds rt s a.data)

def WellTyped (w : World K) : Prop := ∀ s, (w.accounts (rt.address s)).Fits rt s

section Reads

variable {rt} {w : World K}

@[simp] theorem unwrap_config {d : AccountData K} {c : Config K} :
    AccountType.unwrap d = some c ↔ d = .config c := by
  cases d <;> simp [AccountType.unwrap]

@[simp] theorem unwrap_lottery {d : AccountData K} {l : Lottery K} :
    AccountType.unwrap d = some l ↔ d = .lottery l := by
  cases d <;> simp [AccountType.unwrap]

@[simp] theorem unwrap_participant {d : AccountData K} {p : Participant K} :
    AccountType.unwrap d = some p ↔ d = .participant p := by
  cases d <;> simp [AccountType.unwrap]

@[simp] theorem unwrap_vault {d : AccountData K} {v : Vault K} :
    AccountType.unwrap d = some v ↔ d = .vault v := by
  cases d <;> simp [AccountType.unwrap]

@[simp] theorem unwrap_voteTally {d : AccountData K} {t : VoteTally K} :
    AccountType.unwrap d = some t ↔ d = .voteTally t := by
  cases d <;> simp [AccountType.unwrap]

@[simp] theorem unwrap_finalizationLedger {d : AccountData K} {root : FinalizationLedger K} :
    AccountType.unwrap d = some root ↔ d = .finalizationLedger root := by
  cases d <;> simp [AccountType.unwrap]

@[simp] theorem unwrap_winnerPage {d : AccountData K} {page : WinnerPage K} :
    AccountType.unwrap d = some page ↔ ∃ data, d = .winnerPage page data := by
  cases d <;> simp [AccountType.unwrap]

theorem readAccountData_ok {T : Type} [AccountType K T] {ai : AccountInfo K} {t : T}
    (hne : (w.accounts ai.key).data ≠ .empty)
    (hu : AccountType.unwrap (w.accounts ai.key).data = some t) :
    readAccountData rt w T ai = .ok t := by
  have he : (w.accounts ai.key).data.isEmpty = false := by
    cases hd : (w.accounts ai.key).data <;> simp_all [AccountData.isEmpty]
  simp only [readAccountData, he, Bool.false_eq_true, if_false, hu]

theorem readAccountData_ne_empty {T : Type} [AccountType K T] {ai : AccountInfo K} {t : T}
    (h : readAccountData rt w T ai = .ok t) : (w.accounts ai.key).data ≠ .empty := by
  intro he
  simp [readAccountData, he, AccountData.isEmpty] at h

theorem Account.Fits.read {T : Type} [AccountType K T] {s : Seeds K}
    (hw : (w.accounts (rt.address s)).Fits rt s)
    (hT : ∀ d, Holds rt s d → ∃ t : T, AccountType.unwrap d = some t) {ai : AccountInfo K} {t : T}
    (hk : rt.address s = ai.key) (h : readAccountData rt w T ai = .ok t) :
    AccountType.unwrap (w.accounts (rt.address s)).data = some t ∧
      Holds rt s (w.accounts (rt.address s)).data := by
  have hne := readAccountData_ne_empty h
  rw [← hk] at hne
  rcases hw with ⟨he, _⟩ | ⟨_, hs⟩
  · exact absurd he hne
  · refine ⟨?_, hs⟩
    obtain ⟨t', ht'⟩ := hT _ hs
    have hok : readAccountData rt w T ai = .ok t' := readAccountData_ok (hk ▸ hne) (hk ▸ ht')
    rw [h] at hok
    cases hok
    exact ht'

theorem WellTyped.readConfig (hw : WellTyped rt w) {ai : AccountInfo K} {c : Config K}
    (hk : rt.configKey = ai.key) (h : readAccountData rt w (Config K) ai = .ok c) :
    (w.accounts rt.configKey).data = .config c ∧ rt.Foreign c.authority := by
  obtain ⟨hu, hs⟩ := (hw .config).read (T := Config K) (by
    intro d hd
    cases d <;> simp_all [Holds]) hk h
  rw [unwrap_config] at hu
  rw [hu] at hs
  exact ⟨hu, hs⟩

theorem WellTyped.readLottery (hw : WellTyped rt w) {ai : AccountInfo K} {l : Lottery K}
    {config : K}
    (hk : rt.address (.lottery config l.id) = ai.key)
    (h : readAccountData rt w (Lottery K) ai = .ok l) :
    ai.key = rt.slotKey l.id .lottery ∧ (w.view rt l.id .lottery).data = .lottery l ∧
      l.config = rt.configKey ∧ l.vault = rt.slotKey l.id .vault := by
  obtain ⟨hu, hs⟩ := (hw _).read (T := Lottery K) (by
    intro d hd
    cases d <;> simp_all [Holds]) hk h
  rw [unwrap_lottery] at hu
  rw [hu] at hs
  obtain ⟨rfl, _, hc, hv⟩ := hs
  exact ⟨hk.symm, hu, hc, hv⟩

theorem WellTyped.readVault (hw : WellTyped rt w) {ai : AccountInfo K} {v : Vault K} {id : ℕ}
    (hk : rt.slotKey id .vault = ai.key) (h : readAccountData rt w (Vault K) ai = .ok v) :
    (w.view rt id .vault).data = .vault v := by
  refine unwrap_vault.mp ((hw (.vault (rt.lotteryKey id))).read ?_ hk h).1
  intro d hd
  cases d <;> simp_all [Holds]

theorem Account.Fits.readParticipant {ai : AccountInfo K} {p : Participant K} {id : ℕ} {wallet : K}
    (hw : (w.view rt id (.participant wallet)).Fits rt (.participant (rt.lotteryKey id) wallet))
    (hk : rt.slotKey id (.participant wallet) = ai.key)
    (h : readAccountData rt w (Participant K) ai = .ok p) :
    (w.view rt id (.participant wallet)).data = .participant p ∧ p.lottery = rt.lotteryKey id ∧
      p.wallet = wallet ∧ rt.Foreign p.wallet := by
  obtain ⟨hu, hs⟩ := Account.Fits.read hw (T := Participant K) (by
    intro d hd
    cases d <;> simp_all [Holds]) hk h
  rw [unwrap_participant] at hu
  rw [hu] at hs
  exact ⟨hu, hs⟩

theorem WellTyped.readParticipant (hw : WellTyped rt w) {ai : AccountInfo K} {p : Participant K}
    {id : ℕ} {wallet : K} (hk : rt.slotKey id (.participant wallet) = ai.key)
    (h : readAccountData rt w (Participant K) ai = .ok p) :
    (w.view rt id (.participant wallet)).data = .participant p ∧ p.lottery = rt.lotteryKey id ∧
      p.wallet = wallet ∧ rt.Foreign p.wallet :=
  (hw _).readParticipant hk h

theorem WellTyped.readTally (hw : WellTyped rt w) {ai : AccountInfo K} {t : VoteTally K} {id : ℕ}
    (hk : rt.slotKey id .voteTally = ai.key) (h : readAccountData rt w (VoteTally K) ai = .ok t) :
    (w.view rt id .voteTally).data = .voteTally t := by
  refine unwrap_voteTally.mp ((hw (.voteTally (rt.lotteryKey id))).read ?_ hk h).1
  intro d hd
  cases d <;> simp_all [Holds]

theorem WellTyped.readRoot (hw : WellTyped rt w) {ai : AccountInfo K} {root : FinalizationLedger K}
    {id : ℕ} (hk : rt.slotKey id .finalizationRoot = ai.key)
    (h : readAccountData rt w (FinalizationLedger K) ai = .ok root) :
    (w.view rt id .finalizationRoot).data = .finalizationLedger root ∧
      (root.pendingWinnerFound = true → rt.Foreign root.pendingWinner) := by
  obtain ⟨hu, hs⟩ := (hw (.finalizationRoot (rt.lotteryKey id))).read
    (T := FinalizationLedger K) (by
      intro d hd
      cases d <;> simp_all [Holds]) hk h
  rw [unwrap_finalizationLedger] at hu
  rw [hu] at hs
  exact ⟨hu, hs.2⟩

theorem WellTyped.readPage (hw : WellTyped rt w) {ai : AccountInfo K} {page : WinnerPage K}
    {id i : ℕ} (hk : rt.slotKey id (.winnerPage i) = ai.key)
    (h : readAccountData rt w (WinnerPage K) ai = .ok page) :
    ∃ data, (w.view rt id (.winnerPage i)).data = .winnerPage page data ∧
      ∀ offset winner, page.winner data offset = some winner → rt.Foreign winner.wallet := by
  obtain ⟨hu, hs⟩ := (hw (.winnerPage (rt.lotteryKey id) i)).read (T := WinnerPage K) (by
    intro d hd
    cases d <;> simp_all [Holds]) hk h
  obtain ⟨data, hd⟩ := unwrap_winnerPage.mp hu
  rw [hd] at hs
  exact ⟨data, hd, hs.2.2⟩

end Reads

end DailyLottery
