import DailyLottery.Lib.Checked

namespace DailyLottery.Lib

variable {ε α α' β β' : Type}

/-- Two computations fail with the same error, or both go through with related results. -/
inductive Lockstep (R : α → α' → Prop) : Except ε α → Except ε α' → Prop
  | ok {a : α} {a' : α'} : R a a' → Lockstep R (.ok a) (.ok a')
  | error (e : ε) : Lockstep R (.error e) (.error e)

namespace Lockstep

variable {R : α → α' → Prop} {S : β → β' → Prop} {x : Except ε α} {x' : Except ε α'}

theorem refl {R : α → α → Prop} (h : ∀ a, R a a) (x : Except ε α) : Lockstep R x x := by
  cases x with
  | error e => exact .error e
  | ok a => exact .ok (h a)

theorem pure {a : α} {a' : α'} (h : R a a') :
    Lockstep R (Pure.pure a : Except ε α) (Pure.pure a' : Except ε α') := .ok h

theorem bind {f : α → Except ε β} {f' : α' → Except ε β'} (h : Lockstep R x x')
    (hf : ∀ a a', x = .ok a → R a a' → Lockstep S (f a) (f' a')) : Lockstep S (x >>= f)
    (x' >>= f') := by
  cases h with
  | error e => exact .error e
  | ok hr => exact hf _ _ rfl hr

theorem same {f : α → Except ε β} {f' : α → Except ε β'}
    (hf : ∀ a, x = .ok a → Lockstep S (f a) (f' a)) : Lockstep S (x >>= f) (x >>= f') := by
  cases x with
  | error e => exact .error e
  | ok a => exact hf a rfl

theorem ite {c : Prop} [Decidable c] {y : Except ε α} {y' : Except ε α'} (h : c → Lockstep R x x')
    (h' : ¬c → Lockstep R y y') : Lockstep R (if c then x else y) (if c then x' else y') := by
  split
  · next hc => exact h hc
  · next hc => exact h' hc

theorem ok_right (h : Lockstep R x x') {a : α} (hx : x = .ok a) : ∃ a', x' = .ok a' ∧ R a a' := by
  subst hx
  cases h with
  | ok hr => exact ⟨_, rfl, hr⟩

end Lockstep

end DailyLottery.Lib
