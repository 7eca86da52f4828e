import DailyLottery.State.Config
import Mathlib.Data.List.DropRight

namespace DailyLottery

/-- One UTF-8 scalar value from the front of a byte string, in the strict sense of
`core::str::from_utf8`: no overlong form, no surrogate, nothing above `U+10FFFF`. -/
def decodeScalar : Bytes → Option (ℕ × Bytes)
  | [] => none
  | b₀ :: rest =>
    let tail (b : UInt8) : Bool := 0x80 ≤ b ∧ b < 0xC0
    let low (b : UInt8) : ℕ := b.toNat % 64
    if b₀ < 0x80 then some (b₀.toNat, rest)
    else if b₀ < 0xE0 then
      match rest with
      | b₁ :: rest =>
        let c := b₀.toNat % 32 * 64 + low b₁
        if 0xC2 ≤ b₀ ∧ tail b₁ then some (c, rest) else none
      | _ => none
    else if b₀ < 0xF0 then
      match rest with
      | b₁ :: b₂ :: rest =>
        let c := b₀.toNat % 16 * 4096 + low b₁ * 64 + low b₂
        if tail b₁ ∧ tail b₂ ∧ 0x800 ≤ c ∧ ¬(0xD800 ≤ c ∧ c < 0xE000) then some (c, rest) else none
      | _ => none
    else
      match rest with
      | b₁ :: b₂ :: b₃ :: rest =>
        let c := b₀.toNat % 8 * 262144 + low b₁ * 4096 + low b₂ * 64 + low b₃
        if b₀ < 0xF8 ∧ tail b₁ ∧ tail b₂ ∧ tail b₃ ∧ 0x10000 ≤ c ∧ c < 0x110000 then some (c, rest)
        else none
      | _ => none

/-- `from_utf8`, with `fuel` bounding the number of scalars. -/
def decodeUtf8 : ℕ → Bytes → Option (List ℕ)
  | _, [] => some []
  | 0, _ => none
  | fuel + 1, bytes => do
    let (c, rest) ← decodeScalar bytes
    let cs ← decodeUtf8 fuel rest
    return c :: cs

/-- `char::is_whitespace`. -/
def isWhitespace (c : ℕ) : Bool :=
  (0x09 ≤ c ∧ c ≤ 0x0D) ∨ c = 0x20 ∨ c = 0x85 ∨ c = 0xA0 ∨ c = 0x1680 ∨
    (0x2000 ≤ c ∧ c ≤ 0x200A) ∨ c = 0x2028 ∨ c = 0x2029 ∨ c = 0x202F ∨ c = 0x205F ∨ c = 0x3000

/-- Length after dropping the elements at both ends that satisfy `p`. -/
def trimmedLength {α : Type} (p : α → Bool) (l : List α) : ℕ :=
  (l.dropWhile p).rdropWhile p |>.length

/-- The lucky phrase before the `0x1f` separator, scored by its trimmed length in characters,
or in bytes where it is not valid UTF-8. -/
def revealScore (plaintext : Bytes) : ℕ :=
  let lwBytes := plaintext.takeWhile (· != 0x1f)
  match decodeUtf8 lwBytes.length lwBytes with
  | some s => trimmedLength isWhitespace s
  | none => trimmedLength (fun b ↦ b == 0x20 || b == 0x09 || b == 0x0A || b == 0x0D) lwBytes

theorem length_of_decodeUtf8 {fuel : ℕ} {bytes : Bytes} {cs : List ℕ}
    (h : decodeUtf8 fuel bytes = some cs) : cs.length ≤ fuel := by
  induction fuel generalizing bytes cs with
  | zero =>
    cases bytes <;> simp_all [decodeUtf8]
  | succ fuel ih =>
    cases bytes with
    | nil => simp_all [decodeUtf8]
    | cons b bytes =>
      simp only [decodeUtf8, Option.bind_eq_bind, Option.bind_eq_some_iff, Option.pure_def,
        Option.some.injEq] at h
      obtain ⟨⟨c, rest⟩, -, cs', hcs', rfl⟩ := h
      exact Nat.succ_le_succ (ih hcs')

theorem trimmedLength_le {α : Type} (p : α → Bool) (l : List α) : trimmedLength p l ≤ l.length :=
  (List.rdropWhile_prefix p _).length_le.trans (List.dropWhile_suffix p).length_le

theorem revealScore_le (plaintext : Bytes) : revealScore plaintext ≤ plaintext.length := by
  have htake : (plaintext.takeWhile (· != 0x1f)).length ≤ plaintext.length :=
    (List.takeWhile_prefix _).length_le
  unfold revealScore
  dsimp only
  split
  · next hdecode => exact (trimmedLength_le _ _).trans ((length_of_decodeUtf8 hdecode).trans htake)
  · exact (trimmedLength_le _ _).trans htake

example : revealScore [0x20, 0x68, 0xC3, 0xA9, 0x1f, 0x30] = 2 := by decide

end DailyLottery
