import DailyLottery.Lib.Checked
import Mathlib.Data.List.Basic
import Mathlib.Data.List.Perm.Basic
import Mathlib.Algebra.BigOperators.Group.List.Basic
import Mathlib.Order.Interval.Finset.Nat
import Mathlib.Data.Set.Card

namespace DailyLottery.Lib

variable {α ε : Type}

def total (weight : α → ℕ) (as : List α) : ℕ := (as.map weight).sum

@[simp] theorem total_nil (weight : α → ℕ) : total weight [] = 0 := rfl

@[simp] theorem total_cons (weight : α → ℕ) (a : α) (as : List α) :
    total weight (a :: as) = weight a + total weight as := by simp [total]

@[simp] theorem total_append (weight : α → ℕ) (as bs : List α) :
    total weight (as ++ bs) = total weight as + total weight bs := by simp [total]

theorem total_perm {weight : α → ℕ} {as bs : List α} (h : as.Perm bs) :
    total weight as = total weight bs := (h.map weight).sum_eq

theorem total_filter (weight : α → ℕ) (p q : α → Bool) (as : List α) :
    total weight (as.filter p) = total weight (as.filter fun a ↦ p a && q a) +
      total weight (as.filter fun a ↦ p a && !q a) := by
  induction as with
  | nil => rfl
  | cons a as ih =>
    simp only [List.filter_cons]
    cases p a <;> cases q a <;> simp [ih] <;> omega

theorem length_le_total {weight : α → ℕ} {as : List α} (h : ∀ a ∈ as, 0 < weight a) :
    as.length ≤ total weight as := by
  induction as with
  | nil => exact le_rfl
  | cons a as ih =>
    have ha := h a List.mem_cons_self
    have := ih fun b hb ↦ h b (List.mem_cons_of_mem _ hb)
    simp only [List.length_cons, total_cons]
    omega

/-- The element whose interval of cumulative weights contains `d`. -/
def pick (weight : α → ℕ) : List α → ℕ → Option α
  | [], _ => none
  | a :: as, d => if d < weight a then some a else pick weight as (d - weight a)

theorem pick_append (weight : α → ℕ) (as bs : List α) (d : ℕ) :
    pick weight (as ++ bs) d = (pick weight as d).or (pick weight bs (d - total weight as)) := by
  induction as generalizing d with
  | nil => simp [pick]
  | cons a as ih =>
    simp only [List.cons_append, pick]
    split
    · rfl
    · rw [ih, total_cons, Nat.sub_sub]

@[simp] theorem pick_eq_none_iff {weight : α → ℕ} {as : List α} {d : ℕ} :
    pick weight as d = none ↔ total weight as ≤ d := by
  induction as generalizing d with
  | nil => simp [pick]
  | cons a as ih =>
    simp only [pick, total_cons]
    split
    · simp only [reduceCtorEq, false_iff]
      omega
    · rw [ih]
      omega

theorem pick_eq_some_iff {weight : α → ℕ} {as : List α} {d : ℕ} {a : α} :
    pick weight as d = some a ↔ ∃ pre post, as = pre ++ a :: post ∧ total weight pre ≤ d ∧
      d < total weight pre + weight a := by
  constructor
  · intro h
    induction as generalizing d with
    | nil => cases h
    | cons b bs ih =>
      unfold pick at h
      split at h
      · next hd =>
        cases h
        exact ⟨[], bs, rfl, by simp, by simpa using hd⟩
      · obtain ⟨pre, post, rfl, hle, hlt⟩ := ih h
        refine ⟨b :: pre, post, rfl, ?_, ?_⟩ <;> rw [total_cons] <;> omega
  · rintro ⟨pre, post, rfl, hle, hlt⟩
    have hpre : pick weight pre d = none := pick_eq_none_iff.mpr hle
    rw [pick_append, hpre, Option.none_or, pick, if_pos (by omega)]

theorem mem_of_pick {weight : α → ℕ} {as : List α} {d : ℕ} {a : α} (h : pick weight as d = some a) :
    a ∈ as := by
  obtain ⟨pre, post, rfl, -, -⟩ := pick_eq_some_iff.mp h
  simp

theorem pick_concat (weight : α → ℕ) (as : List α) (a : α) (d : ℕ) :
    pick weight (as ++ [a]) d = (pick weight as d).or
      (if total weight as ≤ d ∧ d < total weight as + weight a then some a else none) := by
  rw [pick_append]
  by_cases hle : total weight as ≤ d
  · have : pick weight as d = none := pick_eq_none_iff.mpr hle
    rw [this, Option.none_or, Option.none_or, pick, pick]
    by_cases hlt : d < total weight as + weight a
    · rw [if_pos (by omega), if_pos ⟨hle, hlt⟩]
    · rw [if_neg (by omega), if_neg (by omega)]
  · rcases hp : pick weight as d with _ | b
    · exact absurd (pick_eq_none_iff.mp hp) hle
    · simp

theorem pick_eq_some_iff_of_nodup {weight : α → ℕ} {pre post : List α} {a : α}
    (hnd : (pre ++ a :: post).Nodup) {d : ℕ} : pick weight (pre ++ a :: post) d = some a ↔
      total weight pre ≤ d ∧ d < total weight pre + weight a := by
  obtain ⟨-, hpost, hdisj⟩ := List.nodup_append.mp hnd
  rw [pick_append]
  by_cases hle : total weight pre ≤ d
  · have hpre : pick weight pre d = none := pick_eq_none_iff.mpr hle
    rw [hpre, Option.none_or, pick]
    split
    · next hlt =>
      simp only [true_iff]
      omega
    · next hlt =>
      have hne : pick weight post (d - total weight pre - weight a) ≠ some a := fun h ↦
        (List.nodup_cons.mp hpost).1 (mem_of_pick h)
      simp only [hne, false_iff]
      omega
  · obtain ⟨b, hb⟩ := Option.ne_none_iff_exists'.mp fun h ↦ hle (pick_eq_none_iff.mp h)
    have hne : b ≠ a := hdisj b (mem_of_pick hb) a List.mem_cons_self
    simp [hb, hne, hle]

theorem ncard_pick {weight : α → ℕ} {as : List α} (hnd : as.Nodup) {a : α} (ha : a ∈ as) :
    Set.ncard {d | d < total weight as ∧ pick weight as d = some a} = weight a := by
  obtain ⟨pre, post, rfl⟩ := List.append_of_mem ha
  have hset : {d | d < total weight (pre ++ a :: post) ∧
      pick weight (pre ++ a :: post) d = some a} =
        ↑(Finset.Ico (total weight pre) (total weight pre + weight a)) := by
    ext d
    rw [Finset.mem_coe, Finset.mem_Ico, Set.mem_ofPred_eq, pick_eq_some_iff_of_nodup hnd,
      total_append, total_cons]
    omega
  rw [hset, Set.ncard_coe_finset, Nat.card_Ico, Nat.add_sub_cancel_left]

section Rounds

variable [DecidableEq α] (weight : α → ℕ) (draw : ℕ → ℕ → Except ε ℕ) (e : ε)

/-- Rounds of weighted draws without replacement: the winners in order and who is left. Round
`n` draws below the total weight left. -/
def drawRounds (pool : List α) : ℕ → Except ε (List α × List α)
  | 0 => .ok ([], pool)
  | n + 1 => do
    let (winners, rest) ← drawRounds pool n
    let d ← draw n (total weight rest)
    let winner ← okOr (pick weight rest d) e
    return (winners ++ [winner], rest.erase winner)

variable {weight draw e} {pool winners rest : List α} {n : ℕ}

theorem drawRounds_succ {d : ℕ} {winner : α}
    (h : drawRounds weight draw e pool n = .ok (winners, rest))
    (hd : draw n (total weight rest) = .ok d) (hp : pick weight rest d = some winner) :
    drawRounds weight draw e pool (n + 1) = .ok (winners ++ [winner], rest.erase winner) := by
  rw [drawRounds, h]
  simp only [bind_eq_ok, okOr_eq_ok, pure_eq_ok]
  exact ⟨_, rfl, d, hd, winner, hp, rfl⟩

theorem drawRounds_succ_error {e' : ε}
    (h : drawRounds weight draw e pool n = .ok (winners, rest))
    (hd : draw n (total weight rest) = .error e') :
      drawRounds weight draw e pool (n + 1) = .error e' := by
  rw [drawRounds, h]
  simp only [bind_eq_error]
  exact .inr ⟨_, rfl, .inl hd⟩

theorem drawRounds_error {e' : ε} (h : drawRounds weight draw e pool n = .error e') {m : ℕ}
    (hm : n ≤ m) : drawRounds weight draw e pool m = .error e' := by
  induction m, hm using Nat.le_induction with
  | base => exact h
  | succ m _ ih =>
    rw [drawRounds, ih]
    rfl

theorem drawRounds_perm (h : drawRounds weight draw e pool n = .ok (winners, rest)) :
    winners.length = n ∧ (winners ++ rest).Perm pool ∧ rest.Sublist pool := by
  induction n generalizing winners rest with
  | zero =>
    cases h
    exact ⟨rfl, .refl _, .refl _⟩
  | succ n ih =>
    simp only [drawRounds, bind_eq_ok, okOr_eq_ok, pure_eq_ok, Prod.mk.injEq, Prod.exists] at h
    obtain ⟨ws, rs, hprev, d, -, winner, hp, rfl, rfl⟩ := h
    obtain ⟨hlen, hperm, hsub⟩ := ih hprev
    refine ⟨by simp [hlen], ?_, List.erase_sublist.trans hsub⟩
    rw [List.append_assoc, List.singleton_append]
    exact ((List.perm_cons_erase (mem_of_pick hp)).symm.append_left ws).trans hperm

theorem drawRounds_rest (hpool : pool.Nodup)
    (h : drawRounds weight draw e pool n = .ok (winners, rest)) :
    rest = pool.filter fun a ↦ a ∉ winners := by
  induction n generalizing winners rest with
  | zero =>
    cases h
    simp
  | succ n ih =>
    simp only [drawRounds, bind_eq_ok, okOr_eq_ok, pure_eq_ok, Prod.mk.injEq, Prod.exists] at h
    obtain ⟨ws, rs, hprev, d, -, winner, hp, rfl, rfl⟩ := h
    obtain rfl := ih hprev
    rw [(hpool.filter _).erase_eq_filter, List.filter_filter]
    refine List.filter_congr fun a _ ↦ ?_
    by_cases ha : a = winner <;> simp [ha]

theorem drawRounds_total (h : drawRounds weight draw e pool n = .ok (winners, rest)) :
    total weight winners + total weight rest = total weight pool := by
  rw [← total_append]
  exact total_perm (drawRounds_perm h).2.1

end Rounds

end DailyLottery.Lib
