import DailyLottery.Utils.Crypto

namespace DailyLottery

variable {n width : ℕ}

@[simp] theorem length_leBytes (width n : ℕ) : (leBytes width n).length = width := by
  simp [leBytes]

@[simp] theorem vector_append_inj {a b : Vector UInt8 n} {xs ys : Bytes} :
    a.toList ++ xs = b.toList ++ ys ↔ a = b ∧ xs = ys := by
  constructor
  · intro h
    obtain ⟨hab, hrest⟩ := List.append_inj h (by rw [Vector.length_toList, Vector.length_toList])
    exact ⟨Vector.toList_inj.mp hab, hrest⟩
  · rintro ⟨rfl, rfl⟩
    rfl

theorem leBytes_append_inj {i j : ℕ} {xs ys : Bytes} (hi : i < 256 ^ width) (hj : j < 256 ^ width) :
    leBytes width i ++ xs = leBytes width j ++ ys ↔ i = j ∧ xs = ys := by
  constructor
  · intro h
    obtain ⟨hbytes, hrest⟩ := List.append_inj h (by simp)
    exact ⟨leBytes_inj hi hj hbytes, hrest⟩
  · rintro ⟨rfl, rfl⟩
    rfl

theorem leBytes_ofLeBytes (bytes : Bytes) : leBytes bytes.length (ofLeBytes bytes) = bytes := by
  induction bytes with
  | nil => rfl
  | cons b bytes ih =>
    have hb := b.toNat_lt
    have hlow : UInt8.ofNat (b.toNat + 256 * ofLeBytes bytes) = b := by
      rw [← UInt8.toNat_inj, UInt8.toNat_ofNat']
      omega
    have hhigh : (b.toNat + 256 * ofLeBytes bytes) / 256 = ofLeBytes bytes := by omega
    rw [List.length_cons, leBytes_succ, ofLeBytes, hlow, hhigh, ih]

theorem ofLeBytes_lt (bytes : Bytes) : ofLeBytes bytes < 256 ^ bytes.length := by
  induction bytes with
  | nil => decide
  | cons b bytes ih =>
    have hb := b.toNat_lt
    rw [ofLeBytes, List.length_cons, pow_succ]
    omega

end DailyLottery
