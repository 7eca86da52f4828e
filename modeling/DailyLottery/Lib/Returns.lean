import DailyLottery.Lib.Checked

namespace DailyLottery.Lib

variable {ε α β : Type} {P : α → Prop} {Q : β → Prop} {x : Except ε α}

/-- Whatever the computation returns satisfies `P`; it may fail. -/
def Returns (P : α → Prop) (x : Except ε α) : Prop := ∀ a, x = .ok a → P a

namespace Returns

theorem ok {a : α} (h : P a) : Returns P (.ok a : Except ε α) := by
  intro b hb
  cases hb
  exact h

theorem pure {a : α} (h : P a) : Returns P (Pure.pure a : Except ε α) := .ok h

theorem error (e : ε) : Returns P (.error e : Except ε α) := by
  intro b hb
  cases hb

theorem bind {f : α → Except ε β} (h : Returns P x)
    (hf : ∀ a, x = .ok a → P a → Returns Q (f a)) : Returns Q (x >>= f) := by
  intro b hb
  obtain ⟨a, ha, hfa⟩ := bind_eq_ok.mp hb
  exact hf a ha (h a ha) b hfa

theorem step {f : α → Except ε β} (hf : ∀ a, x = .ok a → Returns Q (f a)) : Returns Q (x >>= f) :=
  Returns.bind (P := fun _ ↦ True) (fun _ _ ↦ trivial) fun a ha _ ↦ hf a ha

theorem ite {c : Prop} [Decidable c] {y : Except ε α} (h : c → Returns P x)
    (h' : ¬c → Returns P y) : Returns P (if c then x else y) := by
  split
  · next hc => exact h hc
  · next hc => exact h' hc

end Returns

end DailyLottery.Lib
