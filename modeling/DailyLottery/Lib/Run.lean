import Mathlib.Data.List.Basic
import Mathlib.Algebra.BigOperators.Group.List.Basic
import Mathlib.Tactic

namespace DailyLottery.Lib

/-- A labelled transition system with its initial states. -/
structure System (S A : Type) where
  init : S → Prop
  step : S → A → S → Prop

namespace System

variable {S A T : Type} {M : System S A}

/-- A finite execution, its labels in the order they occur. -/
inductive Path (M : System S A) : S → List A → S → Prop
  | nil (s : S) : Path M s [] s
  | cons {s t u : S} {a : A} {as : List A} :
      M.step s a t → Path M t as u → Path M s (a :: as) u

theorem Path.one {s t : S} {a : A} (h : M.step s a t) : M.Path s [a] t := .cons h (.nil t)

theorem Path.trans {s t u : S} {as bs : List A} (h : M.Path s as t) (h' : M.Path t bs u) :
    M.Path s (as ++ bs) u := by
  induction h with
  | nil => exact h'
  | cons hs _ ih => exact .cons hs (ih h')

theorem Path.invariant {P : S → Prop} {s t : S} {as : List A} (h : M.Path s as t)
    (hstep : ∀ s a t, a ∈ as → P s → M.step s a t → P t) (hs : P s) : P t := by
  induction h with
  | nil => exact hs
  | cons hst _ ih =>
    exact ih (fun s a t ha ↦ hstep s a t (List.mem_cons_of_mem _ ha))
      (hstep _ _ _ List.mem_cons_self hs hst)

/-- A run from an initial state: labels and states, both newest first. -/
inductive History (M : System S A) : List A → List S → Prop
  | init {s : S} : M.init s → History M [] [s]
  | step {as : List A} {ss : List S} {s t : S} {a : A} :
      History M as (s :: ss) → M.step s a t → History M (a :: as) (t :: s :: ss)

/-- The rule for invariants of whole runs. -/
theorem History.invariant {P : List A → List S → Prop} {as : List A} {ss : List S}
    (h : M.History as ss) (hinit : ∀ s, M.init s → P [] [s])
    (hstep : ∀ as ss s a t, M.History as (s :: ss) → P as (s :: ss) → M.step s a t →
      P (a :: as) (t :: s :: ss)) : P as ss := by
  induction h with
  | init hs => exact hinit _ hs
  | step h hs ih => exact hstep _ _ _ _ _ h ih hs

theorem History.extend {as bs : List A} {ss : List S} {s t : S} (h : M.History as (s :: ss))
    (hp : M.Path s bs t) : ∃ ts, M.History (bs.reverse ++ as) (t :: ts) ∧
    (s :: ss) <:+ (t :: ts) := by
  induction hp generalizing as ss with
  | nil s => exact ⟨ss, by simpa using h, List.suffix_rfl⟩
  | cons hs _ ih =>
    obtain ⟨ts, ht, hsuf⟩ := ih (h.step hs)
    exact ⟨ts, by simpa using ht, (List.suffix_cons _ _).trans hsuf⟩

theorem History.split {as : List A} {ss ts : List S} {s t : S} (h : M.History as (s :: ss))
    (hsuf : (t :: ts) <:+ (s :: ss)) : ∃ bs cs, M.History bs (t :: ts) ∧ M.Path t cs s := by
  have hall := h.invariant (P := fun as us ↦ (t :: ts) <:+ us → ∀ u ∈ us.head?,
    ∃ bs cs, M.History bs (t :: ts) ∧ M.Path t cs u) ?_ ?_
  · exact hall hsuf s rfl
  · intro u hu hsuf v hv
    cases hv
    have heq := hsuf.eq_of_length (Nat.le_antisymm hsuf.length_le (by simp))
    cases heq
    exact ⟨[], [], .init hu, .nil _⟩
  · intro as us u a v h ih hs hsuf x hx
    cases hx
    rcases List.suffix_cons_iff.mp hsuf with he | hsuf
    · cases he
      exact ⟨_, [], h.step hs, .nil _⟩
    · obtain ⟨bs, cs, hb, hp⟩ := ih hsuf u rfl
      exact ⟨bs, cs ++ [a], hb, hp.trans (.one hs)⟩

theorem History.of_mem {as : List A} {ss : List S} {s : S} {a : A} (h : M.History as (s :: ss))
    (ha : a ∈ as) : ∃ bs ts t u cs, M.History bs (t :: ts) ∧ M.step t a u ∧ M.Path u cs s := by
  have hall := h.invariant (P := fun as ss ↦ a ∈ as → ∀ s ∈ ss.head?,
    ∃ bs ts t u cs, M.History bs (t :: ts) ∧ M.step t a u ∧ M.Path u cs s) ?_ ?_
  · exact hall ha s rfl
  · rintro s - ha
    simp at ha
  · intro as ss s b t h ih hs ha u hu
    cases hu
    rcases List.mem_cons.mp ha with rfl | ha
    · exact ⟨as, ss, s, t, [], h, hs, .nil _⟩
    · obtain ⟨bs, ts, t₀, u₀, cs, hb, hs₀, hp⟩ := ih ha s rfl
      exact ⟨bs, ts, t₀, u₀, cs ++ [b], hb, hs₀, hp.trans (.one hs)⟩

/-- A relation between the runs of one system and the states of another that every step keeps,
followed along a whole execution. -/
theorem Path.follow {B : Type} {N : System T B} {R : List A → List S → T → Prop} {as bs : List A}
    {ss : List S} {s s' : S} {t : T} (hp : M.Path s bs s') (h : M.History as (s :: ss))
    (hstep : ∀ as ss s a s' t, M.History as (s :: ss) → R as (s :: ss) t → M.step s a s' →
      ∃ b t', N.step t b t' ∧ R (a :: as) (s' :: s :: ss) t')
    (hr : R as (s :: ss) t) :
    ∃ ss' cs t', M.History (bs.reverse ++ as) (s' :: ss') ∧ (s :: ss) <:+ (s' :: ss') ∧
      N.Path t cs t' ∧ R (bs.reverse ++ as) (s' :: ss') t' := by
  induction hp generalizing as ss t with
  | nil s => exact ⟨ss, [], t, by simpa using h, List.suffix_rfl, .nil t, by simpa using hr⟩
  | cons hs _ ih =>
    obtain ⟨b, t₁, hst, hr₁⟩ := hstep _ _ _ _ _ _ h hr hs
    obtain ⟨ss', cs, t', hh, hsuf, hpath, hr'⟩ := ih (h.step hs) hr₁
    exact ⟨ss', b :: cs, t', by simpa using hh, (List.suffix_cons _ _).trans hsuf, .cons hst hpath,
      by simpa using hr'⟩

/-- What each step takes its weight from, down to zero at least, a whole execution takes the sum of
the weights from. -/
theorem Path.drain {R : List A → List S → T → Prop} {size : T → ℕ} {weight : A → ℕ} {as bs : List A}
    {ss : List S} {s s' : S} {t : T} (hp : M.Path s bs s') (h : M.History as (s :: ss))
    (hstep : ∀ as ss s a s' t, M.History as (s :: ss) → R as (s :: ss) t → M.step s a s' →
      ∃ t', size t' = size t - weight a ∧ R (a :: as) (s' :: s :: ss) t')
    (hr : R as (s :: ss) t) :
    ∃ ss' t', M.History (bs.reverse ++ as) (s' :: ss') ∧ R (bs.reverse ++ as) (s' :: ss') t' ∧
      size t' = size t - (bs.map weight).sum := by
  induction hp generalizing as ss t with
  | nil s => exact ⟨ss, t, by simpa using h, by simpa using hr, by simp⟩
  | @cons s u s' a bs hs _ ih =>
    obtain ⟨t₁, hsize, hr₁⟩ := hstep _ _ _ _ _ _ h hr hs
    obtain ⟨ss', t', hh, hr', hsize'⟩ := ih (h.step hs) hr₁
    refine ⟨ss', t', by simpa using hh, by simpa using hr', ?_⟩
    rw [hsize', hsize, List.map_cons, List.sum_cons]
    omega

/-- A system with some of its steps ruled out. -/
def restrict (M : System S A) (P : S → A → Prop) : System S A :=
  ⟨M.init, fun s a t ↦ P s a ∧ M.step s a t⟩

theorem History.of_restrict {P : S → A → Prop} {as : List A} {ss : List S}
    (h : (M.restrict P).History as ss) : M.History as ss := by
  induction h with
  | init hs => exact .init hs
  | step _ hs ih => exact ih.step hs.2

theorem History.restrict {P : S → A → Prop} {as : List A} {ss : List S} (h : M.History as ss)
    (hp : ∀ a ∈ as, ∀ s, P s a) : (M.restrict P).History as ss := by
  induction h with
  | init hs => exact .init hs
  | step _ hs ih =>
    exact (ih fun a ha ↦ hp a (List.mem_cons_of_mem _ ha)).step ⟨hp _ List.mem_cons_self _, hs⟩

def Reachable (M : System S A) (s : S) : Prop := ∃ as ss, M.History as (s :: ss)

theorem Reachable.step {s t : S} {a : A} (h : M.Reachable s) (hs : M.step s a t) :
    M.Reachable t := by
  obtain ⟨as, ss, h⟩ := h
  exact ⟨a :: as, s :: ss, h.step hs⟩

end System

end DailyLottery.Lib
