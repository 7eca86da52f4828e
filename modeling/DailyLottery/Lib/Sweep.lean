import Mathlib.Data.List.Basic
import Mathlib.Algebra.BigOperators.Group.List.Basic
import Mathlib.Tactic

namespace DailyLottery.Lib

variable {ρ σ ε β : Type}

theorem map_set_same {ps : List ρ} {i : ℕ} {p p' : ρ} {g : ρ → β} (hp : ps[i]? = some p)
    (h : g p' = g p) : (ps.set i p').map g = ps.map g := by
  obtain ⟨hi, rfl⟩ := List.getElem?_eq_some_iff.mp hp
  rw [List.map_set, h, ← List.map_set, List.set_getElem_self]

/-- A pass over rows of a table, given as positions with an argument each: every visited row
and the state threaded along are updated together. -/
inductive Sweep (f : σ → ε → ρ → σ → ρ → Prop) : List ρ → σ → List (ℕ × ε) → List ρ → σ → Prop
  | nil (ps : List ρ) (s : σ) : Sweep f ps s [] ps s
  | cons {ps ps' : List ρ} {s s' s'' : σ} {i : ℕ} {e : ε} {p p' : ρ} {es : List (ℕ × ε)} :
      ps[i]? = some p → f s e p s' p' → Sweep f (ps.set i p') s' es ps' s'' →
      Sweep f ps s ((i, e) :: es) ps' s''

namespace Sweep

variable {f : σ → ε → ρ → σ → ρ → Prop} {ps ps' : List ρ} {s s' : σ} {es : List (ℕ × ε)}

/-- What one visit preserves, the whole pass preserves. -/
theorem invariant {P : List ρ → σ → Prop} (h : Sweep f ps s es ps' s') (h0 : P ps s)
    (hstep : ∀ ps s i e p s' p', P ps s → ps[i]? = some p → f s e p s' p' → P (ps.set i p') s') :
    P ps' s' := by
  induction h with
  | nil => exact h0
  | cons hp hf _ ih => exact ih (hstep _ _ _ _ _ _ _ h0 hp hf)

@[simp] theorem nil_iff : Sweep f ps s [] ps' s' ↔ ps = ps' ∧ s = s' := by
  constructor
  · intro h
    cases h
    exact ⟨rfl, rfl⟩
  · rintro ⟨rfl, rfl⟩
    exact .nil _ _

theorem length_eq (h : Sweep f ps s es ps' s') : ps'.length = ps.length := by
  refine h.invariant (P := fun qs _ ↦ qs.length = ps.length) rfl ?_
  intro qs s i e p s' p' hq _ _
  rw [List.length_set, hq]

theorem map_eq {g : ρ → β} (h : Sweep f ps s es ps' s')
    (hg : ∀ s e p s' p', f s e p s' p' → g p' = g p) : ps'.map g = ps.map g := by
  refine h.invariant (P := fun qs _ ↦ qs.map g = ps.map g) rfl ?_
  intro qs s i e p s' p' hq hp hf
  rw [map_set_same hp (hg _ _ _ _ _ hf), hq]

/-- A pass seen through a column that determines what its visits do. -/
theorem map {γ : Type} {g : σ → ε → γ → σ → γ → Prop} {m : ρ → γ} (h : Sweep f ps s es ps' s')
    (hm : ∀ s e p s' p', f s e p s' p' → g s e (m p) s' (m p')) :
    Sweep g (ps.map m) s es (ps'.map m) s' := by
  induction h with
  | nil => exact .nil _ _
  | cons hp hf _ ih =>
    rw [List.map_set] at ih
    exact .cons (by rw [List.getElem?_map, hp]; rfl) (hm _ _ _ _ _ hf) ih

/-- A pass that visits no row twice: each row is as before, or as its one visit left it. -/
theorem once {P : ρ → Prop} (h : Sweep f ps s es ps' s')
    (hf : ∀ s e p s' p', f s e p s' p' → ¬P p ∧ P p') :
    (es.map Prod.fst).Nodup ∧ ∀ (i : ℕ) (p : ρ), ps[i]? = some p →
      (i ∉ es.map Prod.fst ∧ ps'[i]? = some p) ∨
        ∃ e s s' p', (i, e) ∈ es ∧ f s e p s' p' ∧ ps'[i]? = some p' := by
  induction h with
  | nil ps s => exact ⟨.nil, fun i p hp ↦ .inl ⟨by simp, hp⟩⟩
  | @cons ps ps' s s' s'' j e q q' es hq hv hs ih =>
    obtain ⟨hnd, hrows⟩ := ih
    obtain ⟨hj, -⟩ := List.getElem?_eq_some_iff.mp hq
    -- the row just visited is not visited again
    have hrow : j ∉ es.map Prod.fst ∧ ps'[j]? = some q' := by
      apply (hrows j q' (by simp [hj])).resolve_right
      rintro ⟨e', t, t', p', -, hv', -⟩
      exact (hf _ _ _ _ _ hv').1 (hf _ _ _ _ _ hv).2
    refine ⟨by simpa using ⟨by simpa using hrow.1, hnd⟩, fun i p hp ↦ ?_⟩
    by_cases hij : j = i
    · subst hij
      obtain rfl : q = p := Option.some.inj (hq.symm.trans hp)
      exact .inr ⟨e, s, s', q', List.mem_cons_self, hv, hrow.2⟩
    · rcases hrows i p (by rwa [List.getElem?_set_ne hij]) with ⟨hni, hp'⟩ | ⟨e', t, t', p',
        hmem, hv', hp'⟩
      · exact .inl ⟨by simpa [Ne.symm hij] using hni, hp'⟩
      · exact .inr ⟨e', t, t', p', List.mem_cons_of_mem _ hmem, hv', hp'⟩

/-- A pass whose visits can only go to the row after the last one. -/
theorem consecutive {P : List ρ → σ → ℕ → Prop} {k : ℕ} (h : Sweep f ps s es ps' s') (h0 : P ps s k)
    (hstep : ∀ ps s i e p s' p' k, P ps s k → ps[i]? = some p → f s e p s' p' →
      i = k ∧ P (ps.set i p') s' (k + 1)) :
    es.map Prod.fst = List.range' k es.length ∧ P ps' s' (k + es.length) := by
  induction h generalizing k with
  | nil => exact ⟨rfl, h0⟩
  | cons hp hf _ ih =>
    obtain ⟨rfl, h1⟩ := hstep _ _ _ _ _ _ _ _ h0 hp hf
    obtain ⟨hes, h2⟩ := ih h1
    refine ⟨by rw [List.map_cons, hes]; rfl, ?_⟩
    rw [List.length_cons, Nat.add_comm _ 1, ← Nat.add_assoc]
    exact h2

end Sweep

theorem sum_map_set {ps : List ρ} {i : ℕ} {p y : ρ} (g : ρ → ℕ) (hp : ps[i]? = some p) :
    ((ps.set i y).map g).sum + g p = (ps.map g).sum + g y := by
  induction ps generalizing i with
  | nil => simp at hp
  | cons q qs ih =>
    cases i with
    | zero =>
      simp only [List.getElem?_cons_zero, Option.some.injEq] at hp
      subst hp
      simp only [List.set_cons_zero, List.map_cons, List.sum_cons]
      omega
    | succ i =>
      simp only [List.getElem?_cons_succ] at hp
      have h := ih hp
      simp only [List.set_cons_succ, List.map_cons, List.sum_cons]
      omega

theorem countP_set {ps : List ρ} {i : ℕ} {p y : ρ} (g : ρ → Bool) (hp : ps[i]? = some p) :
    (ps.set i y).countP g + (g p).toNat = ps.countP g + (g y).toNat := by
  have h (qs : List ρ) : qs.countP g = (qs.map fun q ↦ (g q).toNat).sum := by
    induction qs with
    | nil => rfl
    | cons q qs ih =>
      rw [List.countP_cons, List.map_cons, List.sum_cons, ih]
      cases g q
      · simp
      · simp only [if_true, Bool.toNat_true]
        omega
  rw [h, h]
  exact sum_map_set (fun q ↦ (g q).toNat) hp

theorem filter_set_of_not {ps : List ρ} {i : ℕ} {p p' : ρ} {g : ρ → Bool} (hp : ps[i]? = some p)
    (h : g p = false) (h' : g p' = false) : (ps.set i p').filter g = ps.filter g := by
  induction ps generalizing i with
  | nil => simp at hp
  | cons q qs ih =>
    cases i with
    | zero =>
      obtain rfl : q = p := by simpa using hp
      rw [List.set_cons_zero, List.filter_cons, List.filter_cons, h, h', if_neg (by decide),
        if_neg (by decide)]
    | succ i =>
      rw [List.set_cons_succ, List.filter_cons, List.filter_cons, ih (by simpa using hp)]

theorem foldr_set {f : ρ → σ → σ} (hcomm : ∀ p q s, f p (f q s) = f q (f p s)) {ps : List ρ} {i : ℕ}
    {p : ρ} (p' : ρ) (hp : ps[i]? = some p) (hid : ∀ s, f p s = s) (e : σ) :
    (ps.set i p').foldr f e = f p' (ps.foldr f e) := by
  induction ps generalizing i with
  | nil => simp at hp
  | cons q qs ih =>
    cases i with
    | zero =>
      obtain rfl : q = p := by simpa using hp
      rw [List.set_cons_zero, List.foldr_cons, List.foldr_cons, hid]
    | succ i =>
      rw [List.set_cons_succ, List.foldr_cons, List.foldr_cons, ih (by simpa using hp), hcomm]

/-- Of two predicates, one implying the other, with the same count, both hold of the same rows. -/
theorem of_countP_eq {ps : List ρ} {g g' : ρ → Bool} (himp : ∀ p ∈ ps, g p = true → g' p = true)
    (h : ps.countP g = ps.countP g') : ∀ p ∈ ps, g' p = true → g p = true := by
  induction ps with
  | nil => simp
  | cons q qs ih =>
    have hle : qs.countP g ≤ qs.countP g' :=
      List.countP_mono_left fun p hp ↦ himp p (List.mem_cons_of_mem _ hp)
    have hq := himp q List.mem_cons_self
    rw [List.countP_cons, List.countP_cons] at h
    have heq : qs.countP g = qs.countP g' ∧ (g' q = true → g q = true) := by
      cases hg : g q <;> cases hg' : g' q <;> simp [hg, hg'] at h hq ⊢ <;> omega
    rintro p (_ | ⟨_, hp⟩)
    · exact heq.2
    · exact ih (fun p hp ↦ himp p (List.mem_cons_of_mem _ hp)) heq.1 p hp

theorem eq_or_of_mem_set {ps : List ρ} {i : ℕ} {p' q : ρ} (hq : q ∈ ps.set i p') :
    q = p' ∨ ∃ j, j ≠ i ∧ ps[j]? = some q := by
  obtain ⟨j, hj, hjq⟩ := List.getElem_of_mem hq
  rw [List.getElem_set] at hjq
  split at hjq
  · exact .inl hjq.symm
  · next hne =>
    refine .inr ⟨j, Ne.symm hne, ?_⟩
    rw [List.getElem?_eq_getElem (by simpa using hj), hjq]

end DailyLottery.Lib
