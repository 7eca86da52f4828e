import DailyLottery.Accounts
import DailyLottery.Specs

set_option linter.unusedSectionVars false

namespace DailyLottery

open Lib

variable {K : Type} [DecidableEq K] [Inhabited K] (rt : Runtime K)

namespace View

def Fits (id : ℕ) (v : View K) : Prop := ∀ s, (v s).Fits rt (s.seeds rt id)

variable {rt} {v v' : View K} {id : ℕ} {s : Slot K}

theorem Fits.setAccount (h : Fits rt id v) {a : Account K} (ha : a.Fits rt (s.seeds rt id)) :
    Fits rt id (v.setAccount s a) := by
  intro t
  rw [setAccount_apply]
  split
  · next ht =>
    subst ht
    exact ha
  · exact h t

theorem Fits.owner (h : Fits rt id v) (hne : (v s).data ≠ .empty) : (v s).owner = rt.programId := by
  rcases h s with ⟨he, _⟩ | ⟨ho, _⟩
  · exact absurd he hne
  · exact ho

theorem Fits.owner_empty (h : Fits rt id v) (he : (v s).data = .empty) : (v s).owner = default := by
  rcases h s with ⟨_, ho⟩ | ⟨_, hs⟩
  · exact ho
  · rw [he] at hs
    cases s <;> simp [Slot.seeds, Holds] at hs

theorem Fits.setLamports (h : Fits rt id v) (s : Slot K) (n : ℕ) :
    Fits rt id (v.setLamports s n) := h.setAccount (h s)

theorem Fits.setData (h : Fits rt id v) (hne : (v s).data ≠ .empty) {d : AccountData K}
    (hd : Holds rt (s.seeds rt id) d) : Fits rt id (v.setData s d) :=
  h.setAccount (.inr ⟨h.owner hne, hd⟩)

theorem Fits.holds (h : Fits rt id v) (hne : (v s).data ≠ .empty) :
    Holds rt (s.seeds rt id) (v s).data := by
  rcases h s with ⟨he, _⟩ | ⟨_, hs⟩
  · exact absurd he hne
  · exact hs

theorem Fits.setLottery (h : Fits rt id v) {l : Lottery K} (l' : Lottery K)
    (hl : (v .lottery).data = .lottery l)
    (hid : l'.id = l.id) (hc : l'.config = l.config) (hv : l'.vault = l.vault) :
    Fits rt id (v.setData .lottery (.lottery l')) := by
  have hne : (v .lottery).data ≠ .empty := by simp [hl]
  have hs := h.holds hne
  rw [hl] at hs
  refine h.setData hne ?_
  simpa only [Slot.seeds, Holds, hid, hc, hv] using hs

theorem Fits.setParticipant (h : Fits rt id v) {p : Participant K} (p' : Participant K) {wallet : K}
    (hp : (v (.participant wallet)).data = .participant p) (hl : p'.lottery = p.lottery)
    (hw : p'.wallet = p.wallet) : Fits rt id
      (v.setData (.participant wallet) (.participant p')) := by
  have hne : (v (.participant wallet)).data ≠ .empty := by simp [hp]
  have hs := h.holds hne
  rw [hp] at hs
  refine h.setData hne ?_
  simpa only [Slot.seeds, Holds, hl, hw] using hs

theorem Fits.newParticipant (h : Fits rt id v) {p : Participant K}
    (hl : p.lottery = rt.lotteryKey id)
    (hf : rt.Foreign p.wallet) (n : ℕ) :
    Fits rt id (v.setAccount (.participant p.wallet) ⟨n, rt.programId, .participant p⟩) :=
  h.setAccount (.inr ⟨rfl, hl, rfl, hf⟩)

/-- Accounts the program never empties hold lamports. -/
def Alive (v : View K) : Prop :=
  ∀ s, (∀ wallet, s ≠ .participant wallet) → s ≠ .vault → (v s).data ≠ .empty → 0 < (v s).lamports

theorem Alive.setAccount (h : Alive v) {a : Account K}
    (ha : (∃ wallet, s = .participant wallet) ∨ s = .vault ∨ 0 < a.lamports) :
    Alive (v.setAccount s a) := by
  intro t ht hv hne
  rw [setAccount_apply] at hne ⊢
  split at hne
  · next hts =>
    subst hts
    rcases ha with ⟨wallet, hw⟩ | hw | ha
    · exact absurd hw (ht wallet)
    · exact absurd hw hv
    · simpa using ha
  · next hts =>
    rw [if_neg hts]
    exact h t ht hv hne

theorem Alive.setParticipant (h : Alive v) (wallet : K) (a : Account K) :
    Alive (v.setAccount (.participant wallet) a) := h.setAccount (.inl ⟨wallet, rfl⟩)

theorem Alive.setVault (h : Alive v) (a : Account K) : Alive (v.setAccount .vault a) :=
  h.setAccount (.inr (.inl rfl))

theorem Alive.setData (h : Alive v) (hne : (v s).data ≠ .empty) (d : AccountData K) :
    Alive (v.setData s d) := by
  by_cases hs : (∃ wallet, s = .participant wallet) ∨ s = .vault
  · exact h.setAccount (hs.imp_right .inl)
  · rw [not_or, not_exists] at hs
    exact h.setAccount (.inr (.inr (h s hs.1 hs.2 hne)))

/-- The participant last seen at a wallet's address: now, or else before. -/
def lastIn (v : View K) (past : K → Option (Participant K)) (wallet : K) : Option (Participant K) :=
  match (v (.participant wallet)).data with
  | .participant p => some p
  | _ => past wallet

theorem lastIn_lastIn (v : View K) (past : K → Option (Participant K)) :
    lastIn v (lastIn v past) = lastIn v past := by
  funext wallet
  unfold lastIn
  split <;> simp_all

end View

namespace View

/-- The account at a slot as it is, or freshly created where there was none. -/
def Opened (rt : Runtime K) (v : View K) (s : Slot K) (v' : View K) : Prop :=
  (v' = v ∧ (v s).data ≠ .empty) ∨ (v s).data = .empty ∧
    ∃ n space, 0 < n ∧ v' = v.setAccount s ⟨n, rt.programId, .zeroed space⟩

namespace Opened

variable {rt} {v v' : View K} {id : ℕ} {s t : Slot K}

theorem apply_of_ne (h : Opened rt v s v') (ht : t ≠ s) : v' t = v t := by
  obtain ⟨rfl, -⟩ | ⟨-, n, space, -, rfl⟩ := h
  · rfl
  · simp [ht]

theorem data_ne_empty (h : Opened rt v s v') : (v' s).data ≠ .empty := by
  obtain ⟨rfl, hne⟩ | ⟨-, n, space, -, rfl⟩ := h
  · exact hne
  · simp

theorem fits_setData (h : Opened rt v s v') (hf : Fits rt id v) {d : AccountData K}
    (hd : Holds rt (s.seeds rt id) d) : Fits rt id (v'.setData s d) := by
  obtain ⟨rfl, hne⟩ | ⟨-, n, space, -, rfl⟩ := h
  · exact hf.setData hne hd
  · intro t
    by_cases ht : t = s
    · subst ht
      simpa using .inr ⟨rfl, hd⟩
    · simpa [ht] using hf t

theorem alive (h : Opened rt v s v') (ha : Alive v) : Alive v' := by
  obtain ⟨rfl, -⟩ | ⟨-, n, space, hn, rfl⟩ := h
  · exact ha
  · exact ha.setAccount (.inr (.inr hn))

end Opened

end View

theorem createAccount_ok {rt : Runtime K} {w w' : World K} {id space : ℕ} {s : Slot K}
    {payer new : AccountInfo K} (hf : rt.Foreign payer.key) (hk : new.key = rt.slotKey id s)
    (h : createAccount rt w payer new space = .ok w') :
    w.view rt id s = .unused ∧ Touches rt id w w' ∧
      w'.view rt id = (w.view rt id).setAccount s
        ⟨rt.minimumBalance space, rt.programId, .zeroed space⟩ := by
  simp only [createAccount_eq_ok, hk, World.accounts_slotKey] at h
  obtain ⟨-, hu, -, -, -, rfl⟩ := h
  refine ⟨hu, ((Touches.refl _ _).setLamports_foreign hf _).setAccount _ _, ?_⟩
  rw [World.view_setAccount, World.view_setLamports_foreign rt _ hf]

theorem createAccount_opened {rt : Runtime K} {w w' : World K} {id space : ℕ} {s : Slot K}
    {payer new : AccountInfo K} (hf : rt.Foreign payer.key) (hk : new.key = rt.slotKey id s)
    (h : createAccount rt w payer new space = .ok w') :
    Touches rt id w w' ∧ (w.view rt id).Opened rt s (w'.view rt id) := by
  obtain ⟨hu, ht, hv⟩ := createAccount_ok hf hk h
  exact ⟨ht, .inr ⟨by rw [hu]; rfl, _, _, rt.minimumBalance_pos space, hv⟩⟩

/-- The list holds every participant the lottery ever had, with its latest data; an account may
be gone once `CloseParticipant` allows it. -/
structure Roster (v : View K) (past : K → Option (Participant K)) (l : Lottery K)
    (ps : List (Participant K)) : Prop where
  nodup : (ps.map Participant.wallet).Nodup
  foreign : ∀ p ∈ ps, rt.Foreign p.wallet
  last : ∀ p ∈ ps, v.lastIn past p.wallet = some p
  absent : ∀ wallet ∉ ps.map Participant.wallet,
    v.lastIn past wallet = none ∧ (v (.participant wallet)).data = .empty
  stored : ∀ p ∈ ps,
    ((v (.participant p.wallet)).data = .participant p ∧
      (0 < (v (.participant p.wallet)).lamports ∨ l.Closable p)) ∨
    ((v (.participant p.wallet)).data = .empty ∧ l.Closable p)

namespace Roster

variable {rt} {v v' : View K} {past : K → Option (Participant K)} {l l' : Lottery K}
  {ps : List (Participant K)} {p p' : Participant K} {i : ℕ}

theorem push (h : Roster rt v past l ps) : Roster rt v (v.lastIn past) l ps := by
  have hl := View.lastIn_lastIn v past
  exact ⟨h.nodup, h.foreign, by rw [hl]; exact h.last, by rw [hl]; exact h.absent, h.stored⟩

theorem frame (h : Roster rt v past l ps)
    (hv : ∀ wallet, v' (.participant wallet) = v (.participant wallet))
    (hl : ∀ p ∈ ps, l.Closable p → l'.Closable p) : Roster rt v' past l' ps := by
  have hlast (wallet : K) : v'.lastIn past wallet = v.lastIn past wallet := by
    simp only [View.lastIn, hv]
  refine ⟨h.nodup, h.foreign, ?_, ?_, ?_⟩
  · intro p hp
    rw [hlast]
    exact h.last p hp
  · intro wallet hw
    rw [hlast, hv]
    exact h.absent wallet hw
  · intro p hp
    rw [hv]
    exact (h.stored p hp).imp (fun ⟨h, h'⟩ ↦ ⟨h, h'.imp_right (hl p hp)⟩) fun ⟨h, h'⟩ ↦
      ⟨h, hl p hp h'⟩

theorem setOther (h : Roster rt v past l ps) {s : Slot K} (hs : ∀ wallet, s ≠ .participant wallet)
    (a : Account K) : Roster rt (v.setAccount s a) past l ps :=
  h.frame (fun wallet ↦ by simp [(hs wallet).symm]) fun _ _ h ↦ h

theorem opened (h : Roster rt v past l ps) {s : Slot K} (ho : View.Opened rt v s v')
    (hs : ∀ wallet, s ≠ .participant wallet) : Roster rt v' past l ps :=
  h.frame (fun wallet ↦ ho.apply_of_ne (hs wallet).symm) fun _ _ h ↦ h

theorem setVault (h : Roster rt v past l ps) (n : ℕ) :
    Roster rt (v.setLamports .vault n) past l ps :=
  h.setOther (by simp) _

theorem setLottery (h : Roster rt v past l ps) (l' : Lottery K)
    (hl : ∀ p ∈ ps, l.Closable p → l'.Closable p) :
    Roster rt (v.setData .lottery (.lottery l')) past l' ps :=
  h.frame (by simp) hl

theorem mem_of_data (h : Roster rt v past l ps) {wallet : K}
    (hd : (v (.participant wallet)).data = .participant p) : p ∈ ps := by
  have hl : v.lastIn past wallet = some p := by simp [View.lastIn, hd]
  by_contra hp
  by_cases hw : wallet ∈ ps.map Participant.wallet
  · obtain ⟨q, hq, rfl⟩ := List.mem_map.mp hw
    have := h.last q hq
    rw [hl] at this
    cases this
    exact hp hq
  · rw [(h.absent wallet hw).1] at hl
    cases hl

theorem getElem_of_data (h : Roster rt v past l ps) {wallet : K}
    (hd : (v (.participant wallet)).data = .participant p) : ∃ i : ℕ, ps[i]? = some p :=
  List.mem_iff_getElem?.mp (h.mem_of_data hd)

theorem wallet_ne (h : Roster rt v past l ps) {j : ℕ} {q : Participant K} (hp : ps[i]? = some p)
    (hq : ps[j]? = some q) (hj : j ≠ i) : q.wallet ≠ p.wallet := by
  intro he
  apply hj
  have hn := h.nodup
  rw [List.nodup_iff_injective_getElem] at hn
  obtain ⟨hi, rfl⟩ := List.getElem?_eq_some_iff.mp hp
  obtain ⟨hj', rfl⟩ := List.getElem?_eq_some_iff.mp hq
  have := @hn ⟨j, by simpa using hj'⟩ ⟨i, by simpa using hi⟩ (by simpa using he)
  simpa using this

theorem set (h : Roster rt v past l ps) (p' : Participant K) (hp : ps[i]? = some p)
    (hw : p'.wallet = p.wallet) (hd : (v (.participant p.wallet)).data = .participant p)
    (hcl : l.Closable p → l.Closable p') :
    Roster rt (v.setData (.participant p.wallet) (.participant p')) past l (ps.set i p') := by
  have hmem := List.mem_of_getElem? hp
  have hother (wallet : K) (hne : wallet ≠ p.wallet) :
      v.setData (.participant p.wallet) (.participant p') (.participant wallet) =
      v (.participant wallet) := by simp [hne]
  refine ⟨?_, ?_, ?_, ?_, ?_⟩
  · rw [map_set_same hp hw]
    exact h.nodup
  · intro q hq
    rcases eq_or_of_mem_set hq with rfl | ⟨j, -, hj⟩
    · rw [hw]
      exact h.foreign p hmem
    · exact h.foreign q (List.mem_of_getElem? hj)
  · intro q hq
    rcases eq_or_of_mem_set hq with rfl | ⟨j, hj, hjq⟩
    · rw [hw]
      simp [View.lastIn]
    · have := hother _ (h.wallet_ne hp hjq hj)
      simp only [View.lastIn, this]
      exact h.last q (List.mem_of_getElem? hjq)
  · intro wallet hwallet
    rw [map_set_same hp hw] at hwallet
    have hne : wallet ≠ p.wallet := fun he ↦ hwallet (he ▸ List.mem_map_of_mem hmem)
    simp only [View.lastIn, hother _ hne]
    exact h.absent wallet hwallet
  · intro q hq
    rcases eq_or_of_mem_set hq with rfl | ⟨j, hj, hjq⟩
    · refine .inl ?_
      rw [hw]
      simp only [View.setData_apply, if_true, true_and]
      rcases h.stored p hmem with ⟨_, h'⟩ | ⟨he, _⟩
      · exact h'.imp_right hcl
      · rw [hd] at he
        cases he
    · have hmem' := List.mem_of_getElem? hjq
      rw [hother _ (h.wallet_ne hp hjq hj)]
      exact h.stored q hmem'

theorem setLamports (h : Roster rt v past l ps) (hp : p ∈ ps) {n : ℕ} (hn : 0 < n ∨ l.Closable p) :
    Roster rt (v.setLamports (.participant p.wallet) n) past l ps := by
  have hdata (wallet : K) : (v.setLamports (.participant p.wallet) n (.participant wallet)).data =
      (v (.participant wallet)).data := by
    rw [View.setLamports_apply]
    split
    · next h => rw [h]
    · rfl
  have hlast (wallet : K) :
      (v.setLamports (.participant p.wallet) n).lastIn past wallet = v.lastIn past wallet := by
    simp only [View.lastIn, hdata]
  refine ⟨h.nodup, h.foreign, ?_, ?_, ?_⟩
  · intro q hq
    rw [hlast]
    exact h.last q hq
  · intro wallet hw
    rw [hlast, hdata]
    exact h.absent wallet hw
  · intro q hq
    rw [hdata]
    refine (h.stored q hq).imp (fun ⟨hd, h'⟩ ↦ ⟨hd, ?_⟩) fun h' ↦ h'
    by_cases hw : q.wallet = p.wallet
    · have := h.last q hq
      rw [hw, h.last p hp] at this
      cases this
      simpa [hw] using hn
    · simpa [hw] using h'

theorem append (h : Roster rt v past l ps) (hw : p.wallet ∉ ps.map Participant.wallet)
    (hf : rt.Foreign p.wallet) {a : Account K} (ha : a.data = .participant p)
    (hlam : 0 < a.lamports) :
    Roster rt (v.setAccount (.participant p.wallet) a) past l (ps ++ [p]) := by
  have hne {q : Participant K} (hq : q ∈ ps) : q.wallet ≠ p.wallet :=
    fun he ↦ hw (he ▸ List.mem_map_of_mem hq)
  have hother (wallet : K) (hne : wallet ≠ p.wallet) :
      v.setAccount (.participant p.wallet) a (.participant wallet) = v (.participant wallet) := by
    simp [hne]
  refine ⟨?_, ?_, ?_, ?_, ?_⟩
  · rw [List.map_append, List.map_singleton, ← List.concat_eq_append]
    exact h.nodup.concat hw
  · intro q hq
    rcases List.mem_append.mp hq with hq | hq
    · exact h.foreign q hq
    · rw [List.mem_singleton.mp hq]
      exact hf
  · intro q hq
    rcases List.mem_append.mp hq with hq | hq
    · simp only [View.lastIn, hother _ (hne hq)]
      exact h.last q hq
    · rw [List.mem_singleton.mp hq]
      simp [View.lastIn, ha]
  · intro wallet hwallet
    simp only [List.map_append, List.map_singleton, List.mem_append, List.mem_singleton,
      not_or] at hwallet
    simp only [View.lastIn, hother _ hwallet.2]
    exact h.absent wallet hwallet.1
  · intro q hq
    rcases List.mem_append.mp hq with hq | hq
    · rw [hother _ (hne hq)]
      exact h.stored q hq
    · rw [List.mem_singleton.mp hq]
      simp [ha, hlam]

end Roster

/-- The participant stored at an address in the latest state, or in the latest one before in
which the account held any. -/
def lastParticipant : List (World K) → K → Option (Participant K)
  | [], _ => none
  | w :: ws, k =>
    match (w.accounts k).data with
    | .participant p => some p
    | _ => lastParticipant ws k

/-- Lamports sent to an address by plain transfers. -/
def donatedTo (k : K) : List (Action K) → ℕ
  | [] => 0
  | .deposit k' n :: acts => (if k' = k then n else 0) + donatedTo k acts
  | _ :: acts => donatedTo k acts

/-- The past data of a lottery's participants, by wallet. -/
def pastOf (ws : List (World K)) (id : ℕ) (wallet : K) : Option (Participant K) :=
  lastParticipant ws (rt.slotKey id (.participant wallet))

theorem pastOf_cons (w : World K) (ws : List (World K)) (id : ℕ) :
    pastOf rt (w :: ws) id = (w.view rt id).lastIn (pastOf rt ws id) := rfl

/-- Along a run the vault of lottery `id` was closed: by the batch that completed the payouts, or by
`CloseRefundVault`. -/
def VaultClosed (id : ℕ) (acts : List (Action K)) (ws : List (World K)) : Prop :=
  (∃ w ∈ ws, ∃ l, (w.view rt id .lottery).data = .lottery l ∧ l.settlementComplete = true) ∨
    ∃ pre accounts, .instruction pre .closeRefundVault accounts ∈ acts ∧ CallsOn rt accounts id

variable {rt} in
theorem VaultClosed.cons {id : ℕ} {acts : List (Action K)} {ws : List (World K)}
    (h : VaultClosed rt id acts ws) (a : Action K) (w : World K) :
    VaultClosed rt id (a :: acts) (w :: ws) := by
  rcases h with ⟨w₀, hw₀, h₀⟩ | ⟨pre, accounts, hmem, hon⟩
  · exact .inl ⟨w₀, List.mem_cons_of_mem _ hw₀, h₀⟩
  · exact .inr ⟨pre, accounts, List.mem_cons_of_mem _ hmem, hon⟩

/-- The accounts of lottery `id` in the current world, with the actions and worlds before, are
those of the round. -/
structure Represents (acts : List (Action K)) (w : World K) (ws : List (World K)) (id : ℕ)
    (r : Round K) : Prop where
  key : r.key = rt.lotteryKey id
  now : w.clock = r.now
  config : (w.accounts rt.configKey).data = .config r.config
  lottery : (w.view rt id .lottery).data = .lottery r.lottery
  vault : (∃ b, (w.view rt id .vault).data = .vault b) ∨
    ((w.view rt id .vault).data = .empty ∧ r.vaultClosed = true)
  lamports : (w.view rt id .vault).lamports = r.vault
  closed : r.vaultClosed = true → VaultClosed rt id acts (w :: ws)
  donated : r.donated = donatedTo (rt.slotKey id .vault) acts
  roster : Roster rt (w.view rt id) (pastOf rt ws id) r.lottery r.participants
  tally : (w.view rt id .voteTally).data = r.tally.elim .empty .voteTally
  ledger : (w.view rt id .finalizationRoot).data = r.ledger.elim .empty .finalizationLedger
  pages : ∀ i, (w.view rt id (.winnerPage i)).data =
    (r.pages i).elim .empty fun x ↦ .winnerPage x.1 x.2
  alive : (w.view rt id).Alive

variable {rt} {acts : List (Action K)} {w w' : World K} {ws : List (World K)} {id : ℕ}
    {r r' : Round K}

theorem WellTyped.fits (hw : WellTyped rt w) (id : ℕ) : (w.view rt id).Fits rt id := fun _ ↦ hw _

theorem WellTyped.of_touches (hw : WellTyped rt w) (ht : Touches rt id w w')
    (hf : (w'.view rt id).Fits rt id) : WellTyped rt w' := by
  intro t
  by_cases h : ∃ s : Slot K, rt.address t = rt.slotKey id s
  · obtain ⟨s, hs⟩ := h
    rw [Runtime.slotKey, Runtime.address_inj] at hs
    subst hs
    exact hf s
  · rw [ht.derived t fun s hs ↦ h ⟨s, hs⟩]
    exact hw t

namespace Represents

theorem eq_lottery (hr : Represents rt acts w ws id r) {l : Lottery K}
    (hl : (w.view rt id .lottery).data = .lottery l) : l = r.lottery :=
  AccountData.lottery.inj (hl.symm.trans hr.lottery)

theorem eq_config (hr : Represents rt acts w ws id r) {c : Config K}
    (hc : (w.accounts rt.configKey).data = .config c) : c = r.config :=
  AccountData.config.inj (hc.symm.trans hr.config)

theorem eq_tally (hr : Represents rt acts w ws id r) {t : VoteTally K}
    (ht : (w.view rt id .voteTally).data = .voteTally t) : r.tally = some t := by
  have h := hr.tally
  rw [ht] at h
  cases hrt : r.tally <;> rw [hrt] at h <;> cases h
  rfl

theorem eq_ledger (hr : Represents rt acts w ws id r) {root : FinalizationLedger K}
    (ht : (w.view rt id .finalizationRoot).data = .finalizationLedger root) :
    r.ledger = some root := by
  have h := hr.ledger
  rw [ht] at h
  cases hrt : r.ledger <;> rw [hrt] at h <;> cases h
  rfl

theorem eq_page (hr : Represents rt acts w ws id r) {i : ℕ} {page : WinnerPage K}
    {data : PageData K} (ht : (w.view rt id (.winnerPage i)).data = .winnerPage page data) :
    r.pages i = some (page, data) := by
  have h := hr.pages i
  rw [ht] at h
  cases hrt : r.pages i <;> rw [hrt] at h <;> cases h
  rfl

theorem next {a : Action K} {v' : View K} (hr : Represents rt acts w ws id r)
    (ht : Touches rt id w w') (hv : w'.view rt id = v')
    (hd : ∀ k, donatedTo k (a :: acts) = donatedTo k acts)
    (hsame : r'.key = r.key ∧ r'.now = r.now ∧ r'.config = r.config ∧ r'.donated = r.donated)
    (lottery : (v' .lottery).data = .lottery r'.lottery)
    (vault : (∃ b, (v' .vault).data = .vault b) ∨
      ((v' .vault).data = .empty ∧ r'.vaultClosed = true))
    (lamports : (v' .vault).lamports = r'.vault)
    (closed : r'.vaultClosed = true → r.vaultClosed = true ∨ r'.lottery.settlementComplete = true ∨
      ∃ pre accounts, a = .instruction pre .closeRefundVault accounts ∧ CallsOn rt accounts id)
    (roster : Roster rt v' ((w.view rt id).lastIn (pastOf rt ws id)) r'.lottery r'.participants)
    (tally : (v' .voteTally).data = r'.tally.elim .empty .voteTally)
    (ledger : (v' .finalizationRoot).data = r'.ledger.elim .empty .finalizationLedger)
    (pages : ∀ i, (v' (.winnerPage i)).data =
      (r'.pages i).elim .empty fun x ↦ .winnerPage x.1 x.2)
    (alive : v'.Alive) : Represents rt (a :: acts) w' (w :: ws) id r' := by
  obtain ⟨hkey, hnow, hconfig, hdonated⟩ := hsame
  subst hv
  refine ⟨hkey.trans hr.key, (ht.clock.trans hr.now).trans hnow.symm, ?_, lottery, vault,
    lamports, ?_, ?_, roster, tally, ledger, pages, alive⟩
  · rw [ht.config, hconfig]
    exact hr.config
  · intro hc
    rcases closed hc with hc | hc | ⟨pre, accounts, rfl, hon⟩
    · exact (hr.closed hc).cons _ _
    · exact .inl ⟨w', List.mem_cons_self, _, lottery, hc⟩
    · exact .inr ⟨pre, accounts, List.mem_cons_self, hon⟩
  · rw [hdonated, hd]
    exact hr.donated

theorem stutter {a : Action K} {c : Config K} (hr : Represents rt acts w ws id r)
    (hclock : w'.clock = w.clock) (hv : w'.view rt id = w.view rt id)
    (hc : (w'.accounts rt.configKey).data = .config c)
    (hd : donatedTo (rt.slotKey id .vault) (a :: acts) = donatedTo (rt.slotKey id .vault) acts) :
    Represents rt (a :: acts) w' (w :: ws) id { r with config := c } := by
  refine ⟨hr.key, hclock.trans hr.now, hc, by rw [hv]; exact hr.lottery, by rw [hv]; exact hr.vault,
    by rw [hv]; exact hr.lamports, fun h ↦ (hr.closed h).cons _ _, ?_, ?_,
      by rw [hv]; exact hr.tally,
    by rw [hv]; exact hr.ledger, by rw [hv]; exact hr.pages, by rw [hv]; exact hr.alive⟩
  · rw [hd]
    exact hr.donated
  · rw [pastOf_cons, hv]
    exact hr.roster.push

theorem stored_of_open (hr : Represents rt acts w ws id r)
    (hopen : r.lottery.settled = false ∧ r.lottery.settlementComplete = false) {p : Participant K}
    (hp : p ∈ r.participants) : (w.view rt id (.participant p.wallet)).data = .participant p :=
  ((hr.roster.stored p hp).resolve_right fun he ↦ by simp [Lottery.Closable, hopen] at he).1

end Represents

/-- The step is one of lottery `id` alone, and any round it stands for takes a step with it. -/
def Simulated (rt : Runtime K) (a : Action K) (w w' : World K) : Prop :=
  ∃ id, (w.view rt id .lottery).data ≠ .empty ∧ ∀ acts ws r,
    (r.lottery.settlementComplete = true → r.lottery.settled = true) →
    Represents rt acts w ws id r →
      Touches rt id w w' ∧ (w'.view rt id).Fits rt id ∧
        ∃ r', r.Step rt r' ∧ Represents rt (a :: acts) w' (w :: ws) id r'

theorem Simulated.intro {a : Action K} (id : ℕ) (hne : (w.view rt id .lottery).data ≠ .empty)
    (ht : Touches rt id w w') (hf : (w'.view rt id).Fits rt id)
    (h : ∀ acts ws r, (r.lottery.settlementComplete = true → r.lottery.settled = true) →
      Represents rt acts w ws id r →
      ∃ r', r.Step rt r' ∧ Represents rt (a :: acts) w' (w :: ws) id r') :
    Simulated rt a w w' :=
  ⟨id, hne, fun acts ws r hl hr ↦ ⟨ht, hf, h acts ws r hl hr⟩⟩

/-- A call that returns early changes nothing. -/
theorem Simulated.refl (hw : WellTyped rt w) {a : Action K} (id : ℕ)
    (hne : (w.view rt id .lottery).data ≠ .empty)
    (hd : ∀ k acts, donatedTo k (a :: acts) = donatedTo k acts) : Simulated rt a w w :=
  .intro id hne (.refl _ _) (hw.fits id) fun _ _ r _ hr ↦
    ⟨_, .refl r, hr.stutter rfl rfl hr.config (hd _ _)⟩

/-- A stretch of a call that rewrites participant accounts of one lottery and nothing else of it. -/
structure Passes (rt : Runtime K) (id : ℕ) (past : K → Option (Participant K)) (l : Lottery K)
    (w w' : World K) (ps' : List (Participant K)) : Prop where
  touches : Touches rt id w w'
  others : ∀ s, (∀ wallet, s ≠ .participant wallet) → w'.view rt id s = w.view rt id s
  fits : ∀ wallet,
    (w'.view rt id (.participant wallet)).Fits rt (.participant (rt.lotteryKey id) wallet)
  roster : Roster rt (w'.view rt id) past l ps'

namespace Passes

variable {past : K → Option (Participant K)} {l : Lottery K} {ps ps' ps'' : List (Participant K)}

theorem refl (hf : ∀ wallet,
      (w.view rt id (.participant wallet)).Fits rt (.participant (rt.lotteryKey id) wallet))
    (hr : Roster rt (w.view rt id) past l ps) : Passes rt id past l w w ps :=
  ⟨.refl _ _, fun _ _ ↦ rfl, hf, hr⟩

theorem trans {w'' : World K} (h : Passes rt id past l w w' ps')
    (h' : Passes rt id past l w' w'' ps'') : Passes rt id past l w w'' ps'' :=
  ⟨h.touches.trans h'.touches, fun s hs ↦ (h'.others s hs).trans (h.others s hs),
    h'.fits, h'.roster⟩

theorem write {p : Participant K} {i : ℕ} (h : Passes rt id past l w w ps) (p' : Participant K)
    (hi : ps[i]? = some p) (hd : (w.view rt id (.participant p.wallet)).data = .participant p)
    (hl : p'.lottery = p.lottery) (hw : p'.wallet = p.wallet) (hcl : l.Closable p → l.Closable p') :
    Passes rt id past l w (w.setData (rt.slotKey id (.participant p.wallet)) (.participant p'))
      (ps.set i p') := by
  refine ⟨(Touches.refl _ _).setData _ _, fun s hs ↦ ?_, fun wallet ↦ ?_, ?_⟩
  · rw [World.view_setData, View.setData_apply, if_neg (hs _)]
  · rw [World.view_setData, View.setData_apply]
    split
    · next he =>
      obtain rfl : wallet = p.wallet := by simpa using he
      rcases h.fits p.wallet with ⟨he, -⟩ | ⟨ho, hs⟩
      · rw [hd] at he
        cases he
      · rw [hd] at hs
        refine .inr ⟨ho, ?_⟩
        simpa only [Holds, hl, hw] using hs
    · exact h.fits wallet
  · rw [World.view_setData]
    exact h.roster.set p' hi hw hd hcl

theorem alive (h : Passes rt id past l w w' ps') (ha : (w.view rt id).Alive) :
    (w'.view rt id).Alive := by
  intro s hs hv hne
  rw [h.others s hs] at hne ⊢
  exact ha s hs hv hne

theorem view_fits (h : Passes rt id past l w w' ps') (hf : (w.view rt id).Fits rt id) :
    (w'.view rt id).Fits rt id := by
  intro s
  by_cases hs : ∃ wallet, s = .participant wallet
  · obtain ⟨wallet, rfl⟩ := hs
    exact h.fits wallet
  · rw [not_exists] at hs
    rw [h.others s hs]
    exact hf s

end Passes

theorem AccountData.isEmpty_eq_false {d : AccountData K} : d.isEmpty = false ↔ d ≠ .empty := by
  cases d <;> simp [AccountData.isEmpty]

theorem AccountData.isEmpty_eq_true {d : AccountData K} : d.isEmpty = true ↔ d = .empty := by
  cases d <;> simp [AccountData.isEmpty]

end DailyLottery
