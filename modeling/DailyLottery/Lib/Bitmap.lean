import Mathlib.Tactic
import Mathlib.Data.List.GetD
import Mathlib.Data.Nat.Bitwise

namespace DailyLottery.Lib

/-- The test `(b >> k) & 1 == 1`. -/
def testBit (b : UInt8) (k : ℕ) : Bool := (b >>> UInt8.ofNat k) &&& 1 == 1

/-- The test `b & (1 << k) != 0`. -/
def maskBit (b : UInt8) (k : ℕ) : Bool := b &&& (1 <<< UInt8.ofNat k) != 0

/-- The update `b |= 1 << k`. -/
def orBit (b : UInt8) (k : ℕ) : UInt8 := b ||| (1 <<< UInt8.ofNat k)

theorem toNat_one_shiftLeft {k : ℕ} (hk : k < 8) : (1 <<< UInt8.ofNat k : UInt8).toNat = 2 ^ k := by
  interval_cases k <;> rfl

theorem testBit_eq (b : UInt8) {k : ℕ} (hk : k < 8) : testBit b k = b.toNat.testBit k := by
  have h : ((b >>> UInt8.ofNat k) &&& 1).toNat = (b.toNat.testBit k).toNat := by
    have hk' : k % 2 ^ 8 % 8 = k := by omega
    rw [UInt8.toNat_and, UInt8.toNat_shiftRight, UInt8.toNat_ofNat', hk', Nat.toNat_testBit,
      Nat.shiftRight_eq_div_pow]
    exact Nat.and_one_is_mod _
  unfold testBit
  rw [Bool.eq_iff_iff, beq_iff_eq, ← UInt8.toNat_inj, h]
  cases b.toNat.testBit k <;> simp

theorem maskBit_eq (b : UInt8) {k : ℕ} (hk : k < 8) : maskBit b k = b.toNat.testBit k := by
  unfold maskBit
  rw [Bool.eq_iff_iff, bne_iff_ne, ne_eq, ← UInt8.toNat_inj, UInt8.toNat_and,
    toNat_one_shiftLeft hk, Nat.and_two_pow]
  cases b.toNat.testBit k <;> simp

theorem testBit_orBit (b : UInt8) {j k : ℕ} (hk : k < 8) :
    (orBit b k).toNat.testBit j = (b.toNat.testBit j || decide (j = k)) := by
  rw [orBit, UInt8.toNat_or, toNat_one_shiftLeft hk, Nat.testBit_or, Nat.testBit_two_pow]
  simp only [eq_comm]

/-- Bit `i` of a packed bitmap, least significant bit of each byte first. -/
def bitAt (bitmap : List UInt8) (i : ℕ) : Bool := (bitmap.getD (i / 8) 0).toNat.testBit (i % 8)

def orAt (bitmap : List UInt8) (i : ℕ) : List UInt8 :=
  bitmap.set (i / 8) (orBit (bitmap.getD (i / 8) 0) (i % 8))

@[simp] theorem length_orAt (bitmap : List UInt8) (i : ℕ) :
    (orAt bitmap i).length = bitmap.length := by
  simp [orAt]

theorem bitAt_orAt {bitmap : List UInt8} {i : ℕ} (hi : i / 8 < bitmap.length) (j : ℕ) :
    bitAt (orAt bitmap i) j = (bitAt bitmap j || decide (j = i)) := by
  have hk : i % 8 < 8 := Nat.mod_lt _ (by omega)
  unfold bitAt orAt
  by_cases hb : j / 8 = i / 8
  · rw [hb, List.getD_eq_getElem _ _ (by simpa using hi), List.getElem_set_self,
      testBit_orBit _ hk, List.getD_eq_getElem _ _ hi]
    congr 1
    simp only [decide_eq_decide]
    omega
  · have hne : j ≠ i := fun h ↦ hb (by rw [h])
    simp [List.getD_eq_getElem?_getD, List.getElem?_set_ne (Ne.symm hb), hne]

theorem bitAt_append_zeros (bitmap : List UInt8) (n i : ℕ) :
    bitAt (bitmap ++ List.replicate n 0) i = bitAt bitmap i := by
  unfold bitAt
  rw [List.getD_eq_getElem?_getD, List.getD_eq_getElem?_getD, List.getElem?_append]
  split
  · rfl
  · next hlt =>
    have hnone : bitmap[i / 8]? = none := List.getElem?_eq_none (by omega)
    rw [hnone, List.getElem?_replicate]
    split <;> simp

theorem bitAt_zeros_append {n i : ℕ} (hi : i / 8 < n) (rest : List UInt8) :
    bitAt (List.replicate n 0 ++ rest) i = false := by
  unfold bitAt
  rw [List.getD_eq_getElem?_getD, List.getElem?_append_left (by simpa using hi),
    List.getElem?_replicate_of_lt hi]
  simp

theorem bitAt_zeros {n i : ℕ} : bitAt (List.replicate n 0) i = false := by
  unfold bitAt
  rw [List.getD_eq_getElem?_getD, List.getElem?_replicate]
  split <;> simp

end DailyLottery.Lib
