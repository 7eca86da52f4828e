import Mathlib.Data.Int.CardIntervalMod

namespace DailyLottery.Lib

theorem card_residue {m n r : ℕ} (hr : r < m) :
    ((Finset.range n).filter fun s ↦ n % m ≤ s ∧ s % m = r).card = n / m := by
  have hm : 0 < m := Nat.zero_lt_of_lt hr
  have hcount (b : ℕ) :
      ((Finset.range b).filter fun s ↦ s % m = r).card = b / m + if r < b % m then 1 else 0 := by
    have h := Nat.count_modEq_card b hm r
    rw [Nat.count_eq_card_filter_range] at h
    simpa only [Nat.ModEq, Nat.mod_eq_of_lt hr] using h
  have hsplit : (Finset.range n).filter (fun s ↦ s % m = r) =
      ((Finset.range n).filter fun s ↦ n % m ≤ s ∧ s % m = r) ∪
        (Finset.range (n % m)).filter fun s ↦ s % m = r := by
    ext s
    have := Nat.mod_le n m
    simp only [Finset.mem_union, Finset.mem_filter, Finset.mem_range]
    omega
  have hdisj : Disjoint ((Finset.range n).filter fun s ↦ n % m ≤ s ∧ s % m = r)
      ((Finset.range (n % m)).filter fun s ↦ s % m = r) := by
    rw [Finset.disjoint_left]
    intro s hs hs'
    simp only [Finset.mem_filter, Finset.mem_range] at hs hs'
    omega
  have hcard := congrArg Finset.card hsplit
  rw [Finset.card_union_of_disjoint hdisj, hcount, hcount, Nat.mod_mod,
    Nat.div_eq_of_lt (Nat.mod_lt n hm)] at hcard
  omega

theorem sub_mod_div (n m : ℕ) : (n - n % m) / m = n / m := by
  rcases Nat.eq_zero_or_pos m with rfl | hm
  · simp
  · have h : n - n % m = m * (n / m) := by
      have := Nat.div_add_mod n m
      omega
    rw [h, Nat.mul_div_cancel_left _ hm]

end DailyLottery.Lib
