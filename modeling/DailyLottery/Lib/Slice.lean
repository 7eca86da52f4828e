import Mathlib.Tactic

namespace DailyLottery.Lib

variable {α : Type} {data src : List α} {start stop n i : ℕ}

def slice (data : List α) (start n : ℕ) : List α := (data.drop start).take n

/-- `copy_from_slice` into the slice at `start`. -/
def copyAt (data : List α) (start : ℕ) (src : List α) : List α :=
  data.take start ++ src ++ data.drop (start + src.length)

theorem length_copyAt (h : start + src.length ≤ data.length) :
    (copyAt data start src).length = data.length := by
  simp only [copyAt, List.length_append, List.length_take, List.length_drop]
  omega

theorem getElem?_slice (h : i < n) : (slice data start n)[i]? = data[start + i]? := by
  rw [slice, List.getElem?_take_of_lt h, List.getElem?_drop]

theorem drop_copyAt (h : start + src.length ≤ data.length) :
    (copyAt data start src).drop start = src ++ data.drop (start + src.length) := by
  have htake : (data.take start).length = start := by
    rw [List.length_take]
    omega
  rw [copyAt, List.append_assoc, List.drop_append_of_le_length htake.ge,
    List.drop_eq_nil_of_le htake.le, List.nil_append]

theorem slice_copyAt_self (h : start + src.length ≤ data.length) :
    slice (copyAt data start src) start src.length = src := by
  rw [slice, drop_copyAt h, List.take_left]

theorem getElem?_copyAt_of_outside (h : start + src.length ≤ data.length)
    (hi : i < start ∨ start + src.length ≤ i) : (copyAt data start src)[i]? = data[i]? := by
  have htake : (data.take start).length = start := by
    rw [List.length_take]
    omega
  rcases hi with hi | hi
  · rw [copyAt, List.append_assoc, List.getElem?_append_left (by omega),
      List.getElem?_take_of_lt hi]
  · rw [copyAt, List.getElem?_append_right (by rw [List.length_append]; omega), List.length_append,
      htake, List.getElem?_drop]
    congr 1
    omega

theorem slice_congr {data' : List α}
    (h : ∀ i, start ≤ i → i < start + n → data'[i]? = data[i]?) :
    slice data' start n = slice data start n := by
  refine List.ext_getElem? fun i ↦ ?_
  by_cases hi : i < n
  · rw [getElem?_slice hi, getElem?_slice hi, h _ (by omega) (by omega)]
  · rw [slice, slice, List.getElem?_eq_none, List.getElem?_eq_none] <;>
      · rw [List.length_take]
        omega

theorem slice_copyAt_of_disjoint (h : start + src.length ≤ data.length)
    (hd : stop + n ≤ start ∨ start + src.length ≤ stop) :
    slice (copyAt data start src) stop n = slice data stop n := by
  refine slice_congr fun i hi hi' ↦ getElem?_copyAt_of_outside h ?_
  omega

theorem drop_congr {data' : List α} (h : ∀ i, n ≤ i → data'[i]? = data[i]?) :
    data'.drop n = data.drop n := by
  refine List.ext_getElem? fun i ↦ ?_
  rw [List.getElem?_drop, List.getElem?_drop, h _ (Nat.le_add_right n i)]

end DailyLottery.Lib
