import Mathlib.Data.List.Basic

namespace DailyLottery.Lib

variable {data : List UInt8} {off len : ℕ}

/-- The `len` bytes from `off` on, where there are that many. -/
def bytesAt (data : List UInt8) (off len : ℕ) : Option (List UInt8) :=
  if off + len ≤ data.length then some ((data.drop off).take len) else none

/-- The little-endian 16-bit number at `off`, where both its bytes are there. -/
def u16At (data : List UInt8) (off : ℕ) : Option ℕ :=
  (data[off]?).bind fun lo ↦ (data[off + 1]?).map fun hi ↦ lo.toNat + 256 * hi.toNat

theorem bytesAt_eq (h : off + len ≤ data.length) :
    bytesAt data off len = some ((data.drop off).take len) := if_pos h

theorem drop_take_two {lo hi : UInt8} (hlo : data[off]? = some lo)
    (hhi : data[off + 1]? = some hi) :
    (data.drop off).take 2 = [lo, hi] := by
  obtain ⟨hlt, rfl⟩ := List.getElem?_eq_some_iff.mp hlo
  obtain ⟨hlt', rfl⟩ := List.getElem?_eq_some_iff.mp hhi
  rw [List.drop_eq_getElem_cons hlt, List.drop_eq_getElem_cons hlt']
  rfl

/-! The instruction data of the ed25519 program: a count, a padding byte, and for each signature
seven 16-bit numbers that say where its parts are. -/

namespace Ed25519

structure Check where
  signature : List UInt8
  publicKey : List UInt8
  message : List UInt8

/-- The index that stands for the instruction's own data. -/
def own : ℕ := 0xFFFF

def dataSlice (instructions : List (List UInt8)) (data : List UInt8) (index off len : ℕ) :
    Option (List UInt8) :=
  if index = own then bytesAt data off len
  else (instructions[index]?).bind fun other ↦ bytesAt other off len

def checkAt (instructions : List (List UInt8)) (data : List UInt8) (start : ℕ) : Option Check := do
  let signatureOffset ← u16At data start
  let signatureIndex ← u16At data (start + 2)
  let publicKeyOffset ← u16At data (start + 4)
  let publicKeyIndex ← u16At data (start + 6)
  let messageOffset ← u16At data (start + 8)
  let messageSize ← u16At data (start + 10)
  let messageIndex ← u16At data (start + 12)
  let signature ← dataSlice instructions data signatureIndex signatureOffset 64
  let publicKey ← dataSlice instructions data publicKeyIndex publicKeyOffset 32
  let message ← dataSlice instructions data messageIndex messageOffset messageSize
  return ⟨signature, publicKey, message⟩

/-- All signatures the program verifies, given its data and that of the instructions in its
transaction. -/
def checks (instructions : List (List UInt8)) (data : List UInt8) : Option (List Check) :=
  if data.length < 2 then none
  else do
    let count ← data[0]?
    if count = 0 ∧ 2 < data.length then none
    else (List.range count.toNat).mapM fun i ↦ checkAt instructions data (2 + 14 * i)

theorem dataSlice_own (instructions : List (List UInt8)) (h : off + len ≤ data.length) :
    dataSlice instructions data own off len = some ((data.drop off).take len) := by
  rw [dataSlice, if_pos rfl, bytesAt_eq h]

theorem checks_one {instructions : List (List UInt8)} {c : Check} (hlen : 2 ≤ data.length)
    (hcount : data[0]? = some 1) (h : checkAt instructions data 2 = some c) :
    checks instructions data = some [c] := by
  rw [checks, if_neg (Nat.not_lt.mpr hlen)]
  simp [hcount, h, List.range_succ]

end Ed25519

end DailyLottery.Lib
