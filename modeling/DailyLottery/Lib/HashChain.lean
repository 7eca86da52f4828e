import Mathlib.Data.List.Induction

namespace DailyLottery.Lib

variable {H M α β : Type} (hash : M → H) (message : H → α → M)

/-- A hash chain from `h` on: each link hashes the last value together with an entry. -/
def chain (h : H) (xs : List α) : H := xs.foldl (fun h x ↦ hash (message h x)) h

/-- What a chain hashes on its way. -/
def chainMessages (h : H) : List α → List M
  | [] => []
  | x :: xs => message h x :: chainMessages (hash (message h x)) xs

variable {hash message} {h : H} {xs ys : List α}

theorem chain_concat (xs : List α) (x : α) :
    chain hash message h (xs ++ [x]) = hash (message (chain hash message h xs) x) := by
  rw [chain, List.foldl_append]
  rfl

theorem chainMessages_concat (xs : List α) (x : α) :
    chainMessages hash message h (xs ++ [x]) =
      chainMessages hash message h xs ++ [message (chain hash message h xs) x] := by
  induction xs generalizing h with
  | nil => rfl
  | cons y xs ih =>
    rw [List.cons_append, chainMessages, ih, chainMessages, List.cons_append]
    rfl

/-- Chains of one value have the same entries, of any lengths, where what they hash has no
collision and none hashes to the start. -/
theorem map_eq_of_chain_eq {e : α → β}
    (hmessage : ∀ h h' x y, x ∈ xs → y ∈ ys → message h x = message h' y → h = h' ∧ e x = e y)
    (hinj : ∀ m ∈ chainMessages hash message h xs, ∀ m' ∈ chainMessages hash message h ys,
      hash m = hash m' → m = m')
    (hxs : ∀ m ∈ chainMessages hash message h xs, hash m ≠ h)
    (hys : ∀ m ∈ chainMessages hash message h ys, hash m ≠ h)
    (heq : chain hash message h xs = chain hash message h ys) : xs.map e = ys.map e := by
  induction xs using List.reverseRecOn generalizing ys with
  | nil =>
    induction ys using List.reverseRecOn with
    | nil => rfl
    | append_singleton ys y =>
      rw [chain_concat] at heq
      rw [chainMessages_concat] at hys
      exact absurd heq.symm (hys _ (by simp))
  | append_singleton xs x ih =>
    rw [chainMessages_concat] at hinj hxs
    induction ys using List.reverseRecOn with
    | nil =>
      rw [chain_concat] at heq
      exact absurd heq (hxs _ (by simp))
    | append_singleton ys y =>
      rw [chainMessages_concat] at hinj hys
      rw [chain_concat, chain_concat] at heq
      have hlast := hinj _ (by simp) _ (by simp) heq
      obtain ⟨hprev, hxy⟩ := hmessage _ _ x y (by simp) (by simp) hlast
      have hrest : xs.map e = ys.map e := by
        refine ih (fun h h' x y hx hy ↦ hmessage h h' x y ?_ ?_) (fun m hm m' hm' ↦ hinj m ?_ m' ?_)
          (fun m hm ↦ hxs m ?_) (fun m hm ↦ hys m ?_) hprev
        all_goals simp [*]
      rw [List.map_append, List.map_append, hrest, List.map_singleton, List.map_singleton, hxy]

end DailyLottery.Lib
