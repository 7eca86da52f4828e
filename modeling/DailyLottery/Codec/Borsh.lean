import DailyLottery.Codec.Bytes
import DailyLottery.Lib.Slice

namespace DailyLottery

open Lib

/-- The Borsh encoding of a type. `Fits` says which values of the model the source's type
holds; what is behind the encoding is left over. -/
structure Borsh (α : Type) where
  Fits : α → Prop
  encode : α → Bytes
  decode : Bytes → Option (α × Bytes)
  decode_encode : ∀ a rest, Fits a → decode (encode a ++ rest) = some (a, rest)

namespace Borsh

variable {α β : Type}

def uint (width : ℕ) : Borsh ℕ where
  Fits n := n < 256 ^ width
  encode := leBytes width
  decode data :=
    if data.length < width then none else some (ofLeBytes (data.take width), data.drop width)
  decode_encode n rest hn := by
    have hlen : ¬(leBytes width n ++ rest).length < width := by
      rw [List.length_append, length_leBytes]
      omega
    have htake : (leBytes width n ++ rest).take width = leBytes width n :=
      List.take_left' (length_leBytes width n)
    have hdrop : (leBytes width n ++ rest).drop width = rest :=
      List.drop_left' (length_leBytes width n)
    rw [if_neg hlen, htake, hdrop, ofLeBytes_leBytes, Nat.mod_eq_of_lt hn]

/-- The array a list of `n` bytes is. -/
def toVector (n : ℕ) (data : Bytes) : Vector UInt8 n := Vector.ofFn fun i ↦ data.getD i 0

theorem toVector_toList {n : ℕ} (a : Vector UInt8 n) : toVector n a.toList = a := by
  ext i hi
  simp [toVector, List.getD]

/-- `[u8; n]`, and a key, which is thirty-two bytes. -/
def array (n : ℕ) : Borsh (Vector UInt8 n) where
  Fits _ := True
  encode a := a.toList
  decode data :=
    if data.length < n then none else some (toVector n (data.take n), data.drop n)
  decode_encode a rest _ := by
    have hlen : ¬(a.toList ++ rest).length < n := by
      rw [List.length_append, Vector.length_toList]
      omega
    have htake : (a.toList ++ rest).take n = a.toList := List.take_left' a.length_toList
    have hdrop : (a.toList ++ rest).drop n = rest := List.drop_left' a.length_toList
    rw [if_neg hlen, htake, hdrop, toVector_toList]

def prod (a : Borsh α) (b : Borsh β) : Borsh (α × β) where
  Fits x := a.Fits x.1 ∧ b.Fits x.2
  encode x := a.encode x.1 ++ b.encode x.2
  decode data := (a.decode data).bind fun x ↦ (b.decode x.2).map fun y ↦ ((x.1, y.1), y.2)
  decode_encode x rest h := by
    rw [List.append_assoc, a.decode_encode _ _ h.1, Option.bind_some, b.decode_encode _ _ h.2]
    rfl

/-- A type encoded as another that determines it. -/
def imap (a : Borsh α) (f : α → β) (g : β → α) (h : ∀ b, f (g b) = b) : Borsh β where
  Fits b := a.Fits (g b)
  encode b := a.encode (g b)
  decode data := (a.decode data).map fun x ↦ (f x.1, x.2)
  decode_encode b rest hb := by
    rw [a.decode_encode _ _ hb, Option.map_some, h]

/-- The same where only some values of the model are those of the source's type. -/
def partly (a : Borsh α) (p : β → Prop) (f : α → Option β) (g : β → α)
    (h : ∀ b, p b → f (g b) = some b) : Borsh β where
  Fits b := p b ∧ a.Fits (g b)
  encode b := a.encode (g b)
  decode data := (a.decode data).bind fun x ↦ (f x.1).map fun b ↦ (b, x.2)
  decode_encode b rest hb := by
    rw [a.decode_encode _ _ hb.2, Option.bind_some, h b hb.1]
    rfl

/-- A `bool` is a byte that is zero or one. -/
def bool : Borsh Bool :=
  (uint 1).partly (fun _ ↦ True)
    (fun n ↦ if n = 0 then some false else if n = 1 then some true else none)
    Bool.toNat (fun b _ ↦ by cases b <;> rfl)

/-- An `i64`, in two's complement. -/
def i64 : Borsh ℤ :=
  (uint 8).partly (fun t ↦ -2 ^ 63 ≤ t ∧ t < 2 ^ 63)
    (fun n ↦ some (if n < 2 ^ 63 then n else n - 2 ^ 64)) (fun t ↦ (t % 2 ^ 64).toNat) (by
      intro t ht
      split <;> · simp only [Option.some.injEq]; omega)

def decodeElements (a : Borsh α) : ℕ → Bytes → Option (List α × Bytes)
  | 0, data => some ([], data)
  | n + 1, data => (a.decode data).bind fun x ↦
      (decodeElements a n x.2).map fun y ↦ (x.1 :: y.1, y.2)

theorem decodeElements_encode (a : Borsh α) (as : List α) (rest : Bytes) (h : ∀ x ∈ as, a.Fits x) :
    a.decodeElements as.length (as.flatMap a.encode ++ rest) = some (as, rest) := by
  induction as with
  | nil => rfl
  | cons x as ih =>
    rw [List.flatMap_cons, List.append_assoc, List.length_cons, decodeElements,
      a.decode_encode _ _ (h x List.mem_cons_self), Option.bind_some,
      ih fun y hy ↦ h y (List.mem_cons_of_mem _ hy)]
    rfl

/-- A `Vec`: the number of elements as `u32`, then the elements. -/
def vec (a : Borsh α) : Borsh (List α) where
  Fits as := as.length < 2 ^ 32 ∧ ∀ x ∈ as, a.Fits x
  encode as := leBytes 4 as.length ++ as.flatMap a.encode
  decode data := ((uint 4).decode data).bind fun x ↦ a.decodeElements x.1 x.2
  decode_encode as rest h := by
    have hlen : (uint 4).decode (leBytes 4 as.length ++ (as.flatMap a.encode ++ rest)) =
        some (as.length, as.flatMap a.encode ++ rest) := (uint 4).decode_encode _ _ h.1
    rw [List.append_assoc, hlen, Option.bind_some, a.decodeElements_encode as rest h.2]

/-- A Borsh `Option`: a byte that is zero, or one before the value. -/
def option (a : Borsh α) : Borsh (Option α) where
  Fits x := ∀ y ∈ x, a.Fits y
  encode
    | none => [0]
    | some y => 1 :: a.encode y
  decode
    | 0 :: data => some (none, data)
    | 1 :: data => (a.decode data).map fun x ↦ (some x.1, x.2)
    | _ => none
  decode_encode x rest h := by
    cases x with
    | none => rfl
    | some y =>
      have hy : a.decode (a.encode y ++ rest) = some (y, rest) := a.decode_encode _ _ (h y rfl)
      simp only [List.cons_append, hy, Option.map_some]

def byte : Borsh UInt8 where
  Fits _ := True
  encode b := [b]
  decode
    | b :: rest => some (b, rest)
    | [] => none
  decode_encode _ _ _ := rfl

/-- `try_from_slice`: nothing may be left over. -/
def tryFromSlice (a : Borsh α) (data : Bytes) : Option α :=
  (a.decode data).bind fun x ↦ if x.2 = [] then some x.1 else none

/-- What is decoded was encoded at the front of the bytes. -/
def Exact (a : Borsh α) : Prop :=
  ∀ data x rest, a.decode data = some (x, rest) → a.Fits x ∧ data = a.encode x ++ rest

theorem exact_uint (width : ℕ) : (uint width).Exact := by
  intro data n rest h
  simp only [uint, Option.ite_none_left_eq_some, Option.some.injEq, Prod.mk.injEq] at h
  obtain ⟨hlen, rfl, rfl⟩ := h
  have htake : (data.take width).length = width := by
    rw [List.length_take]
    omega
  have hlt := ofLeBytes_lt (data.take width)
  have hbytes := leBytes_ofLeBytes (data.take width)
  rw [htake] at hlt hbytes
  refine ⟨hlt, ?_⟩
  simp only [uint, hbytes, List.take_append_drop]

theorem toList_toVector {n : ℕ} {data : Bytes} (h : data.length = n) :
    (toVector n data).toList = data := by
  subst h
  refine List.ext_getElem (by rw [Vector.length_toList]) fun i hi hi' ↦ ?_
  simp [toVector, List.getD]

theorem exact_array (n : ℕ) : (array n).Exact := by
  intro data a rest h
  simp only [array, Option.ite_none_left_eq_some, Option.some.injEq, Prod.mk.injEq] at h
  obtain ⟨hlen, rfl, rfl⟩ := h
  have htake : (data.take n).length = n := by
    rw [List.length_take]
    omega
  refine ⟨trivial, ?_⟩
  simp only [array, toList_toVector htake, List.take_append_drop]

theorem exact_byte : byte.Exact := by
  intro data b rest h
  cases data with
  | nil => exact absurd h (by simp [byte])
  | cons b' data =>
    simp only [byte, Option.some.injEq, Prod.mk.injEq] at h
    obtain ⟨rfl, rfl⟩ := h
    exact ⟨trivial, rfl⟩

variable {a : Borsh α} {b : Borsh β}

theorem Exact.decode_eq_none (ha : a.Exact) {n : ℕ} {data : Bytes}
    (hn : ∀ x, n ≤ (a.encode x).length) (hlen : data.length < n) : a.decode data = none := by
  rw [Option.eq_none_iff_forall_ne_some]
  intro x hx
  obtain ⟨-, hdata⟩ := ha _ _ _ hx
  have hle := hn x.1
  rw [hdata, List.length_append] at hlen
  omega

theorem decode_uint {width : ℕ} {data : Bytes} (h : width ≤ data.length) :
    (uint width).decode data = some (ofLeBytes (data.take width), data.drop width) :=
  if_neg (by omega)

theorem decode_array {n : ℕ} {data : Bytes} (h : n ≤ data.length) :
    (array n).decode data = some (toVector n (data.take n), data.drop n) :=
  if_neg (by omega)

theorem decode_prod {x : α} {y : β} {data middle rest : Bytes}
    (ha : a.decode data = some (x, middle))
    (hb : b.decode middle = some (y, rest)) : (a.prod b).decode data = some ((x, y), rest) := by
  simp only [Borsh.prod, ha, Option.bind_some, hb, Option.map_some]

theorem exact_option (ha : a.Exact) : a.option.Exact := by
  intro data x rest h
  simp only [option] at h
  split at h
  · simp only [Option.some.injEq, Prod.mk.injEq] at h
    obtain ⟨rfl, rfl⟩ := h
    exact ⟨by simp [option], rfl⟩
  · simp only [Option.map_eq_some_iff, Prod.mk.injEq] at h
    obtain ⟨⟨y, rest'⟩, hy, rfl, rfl⟩ := h
    obtain ⟨hfit, rfl⟩ := ha _ _ _ hy
    exact ⟨by simpa [option] using hfit, rfl⟩
  · exact absurd h (by simp)

theorem Exact.prod (ha : a.Exact) (hb : b.Exact) : (a.prod b).Exact := by
  intro data x rest h
  simp only [Borsh.prod, Option.bind_eq_some_iff, Option.map_eq_some_iff, Prod.mk.injEq] at h
  obtain ⟨⟨y, middle⟩, hy, ⟨z, rest'⟩, hz, rfl, rfl⟩ := h
  obtain ⟨hfit, rfl⟩ := ha _ _ _ hy
  obtain ⟨hfit', rfl⟩ := hb _ _ _ hz
  exact ⟨⟨hfit, hfit'⟩, (List.append_assoc _ _ _).symm⟩

theorem Exact.imap (ha : a.Exact) {f : α → β} {g : β → α} {h : ∀ b, f (g b) = b}
    (hg : ∀ x, g (f x) = x) : (a.imap f g h).Exact := by
  intro data y rest hy
  simp only [Borsh.imap, Option.map_eq_some_iff, Prod.mk.injEq] at hy
  obtain ⟨⟨x, rest'⟩, hx, rfl, rfl⟩ := hy
  obtain ⟨hfit, rfl⟩ := ha _ _ _ hx
  simp only [Borsh.imap, hg]
  exact ⟨hfit, trivial⟩

theorem Exact.decodeElements (ha : a.Exact) {n : ℕ} {data rest : Bytes} {as : List α}
    (h : a.decodeElements n data = some (as, rest)) :
    as.length = n ∧ (∀ x ∈ as, a.Fits x) ∧ data = as.flatMap a.encode ++ rest := by
  induction n generalizing data as with
  | zero =>
    simp only [Borsh.decodeElements, Option.some.injEq, Prod.mk.injEq] at h
    obtain ⟨rfl, rfl⟩ := h
    simp
  | succ n ih =>
    simp only [Borsh.decodeElements, Option.bind_eq_some_iff, Option.map_eq_some_iff,
      Prod.mk.injEq] at h
    obtain ⟨⟨x, middle⟩, hx, ⟨as', rest'⟩, has, rfl, rfl⟩ := h
    obtain ⟨hfit, rfl⟩ := ha _ _ _ hx
    obtain ⟨hlen, hfits, rfl⟩ := ih has
    refine ⟨by rw [List.length_cons, hlen], ?_, ?_⟩
    · exact List.forall_mem_cons.mpr ⟨hfit, hfits⟩
    · rw [List.flatMap_cons, List.append_assoc]

theorem Exact.vec (ha : a.Exact) : a.vec.Exact := by
  intro data as rest h
  simp only [Borsh.vec, Option.bind_eq_some_iff] at h
  obtain ⟨⟨n, middle⟩, hn, has⟩ := h
  obtain ⟨hfit, rfl⟩ := exact_uint 4 _ _ _ hn
  obtain ⟨rfl, hfits, rfl⟩ := ha.decodeElements has
  exact ⟨⟨hfit, hfits⟩, (List.append_assoc _ _ _).symm⟩

theorem decodeElements_byte (n : ℕ) (data : Bytes) :
    byte.decodeElements n data = if data.length < n then none else some (data.take n,
      data.drop n) := by
  induction n generalizing data with
  | zero => rfl
  | succ n ih =>
    cases data with
    | nil => rfl
    | cons b data =>
      have hstep : byte.decodeElements (n + 1) (b :: data) =
          (byte.decodeElements n data).map fun y ↦ (b :: y.1, y.2) := rfl
      rw [hstep, ih]
      simp only [List.length_cons, Nat.add_lt_add_iff_right, List.take_succ_cons,
        List.drop_succ_cons]
      split <;> rfl

theorem decode_encode_self {x : α} (h : a.Fits x) : a.decode (a.encode x) = some (x, []) := by
  have hdecode := a.decode_encode x [] h
  rwa [List.append_nil] at hdecode

theorem tryFromSlice_encode {x : α} (h : a.Fits x) : a.tryFromSlice (a.encode x) = some x := by
  rw [tryFromSlice, decode_encode_self h]
  rfl

theorem Exact.tryFromSlice (ha : a.Exact) {data : Bytes} {x : α}
    (h : a.tryFromSlice data = some x) :
    a.Fits x ∧ data = a.encode x := by
  simp only [Borsh.tryFromSlice, Option.bind_eq_some_iff, Option.ite_none_right_eq_some,
    Option.some.injEq] at h
  obtain ⟨⟨y, rest⟩, hy, rfl, rfl⟩ := h
  have hexact := ha _ _ _ hy
  rwa [List.append_nil] at hexact

end Borsh

section Accounts

variable {α : Type} (codec : Borsh α)

/-- `write_account_data` on the bytes of an account: the discriminator, then the encoding. What
stands behind the encoding stays. -/
def writeAccountBytes (discriminator : Vector UInt8 8) (a : α) (data : Bytes) : Result Bytes := do
  rejectIf (data.length < 8) .accountDataTooSmall
  let data := copyAt data 0 discriminator.toList
  rejectIf (data.length < 8 + (codec.encode a).length) .accountDataTooSmall
  return copyAt data 8 (codec.encode a)

/-- `read_account_data`: whatever follows the eight discriminator bytes, of which none is
looked at. -/
def readAccountBytes (data : Bytes) : Result α := do
  rejectIf (data.length < 8) .invalidAccountData
  let x ← okOr (codec.decode (data.drop 8)) .invalidAccountData
  return x.1

variable {codec}

theorem writeAccountBytes_ok {discriminator : Vector UInt8 8} {a : α} {data : Bytes}
    (hlen : 8 + (codec.encode a).length ≤ data.length) :
    ∃ data', writeAccountBytes codec discriminator a data = .ok data' ∧
      data'.length = data.length ∧
      data'.drop 8 = codec.encode a ++ data.drop (8 + (codec.encode a).length) ∧
      ∀ i, 8 + (codec.encode a).length ≤ i → data'[i]? = data[i]? := by
  have hdisc : 0 + discriminator.toList.length ≤ data.length := by
    rw [Vector.length_toList]
    omega
  have hlen₁ := length_copyAt hdisc
  have henc : 8 + (codec.encode a).length ≤ (copyAt data 0 discriminator.toList).length := by
    rwa [hlen₁]
  have hframe (i : ℕ) (hi : 8 ≤ i) : (copyAt data 0 discriminator.toList)[i]? = data[i]? := by
    refine getElem?_copyAt_of_outside hdisc (Or.inr ?_)
    rw [Vector.length_toList]
    omega
  refine ⟨copyAt (copyAt data 0 discriminator.toList) 8 (codec.encode a), ?_, ?_, ?_, fun i hi ↦ ?_⟩
  · simp only [writeAccountBytes, bind_eq_ok, rejectIf_eq_ok, exists_const, pure_eq_ok, not_lt]
    exact ⟨by omega, henc, trivial⟩
  · rw [length_copyAt henc, hlen₁]
  · rw [drop_copyAt henc]
    congr 1
    exact drop_congr fun i hi ↦ hframe i (by omega)
  · rw [getElem?_copyAt_of_outside henc (Or.inr hi), hframe i (by omega)]

theorem readAccountBytes_write {discriminator : Vector UInt8 8} {a : α} {data data' : Bytes}
    (ha : codec.Fits a) (hlen : 8 + (codec.encode a).length ≤ data.length)
    (h : writeAccountBytes codec discriminator a data = .ok data') :
    readAccountBytes codec data' = .ok a := by
  obtain ⟨written, hwrite : writeAccountBytes codec discriminator a data = _, hsame, hdrop, -⟩ :=
    writeAccountBytes_ok hlen
  rw [h, Except.ok.injEq] at hwrite
  subst hwrite
  simp only [readAccountBytes, bind_eq_ok, rejectIf_eq_ok, exists_const, okOr_eq_ok, pure_eq_ok,
    hdrop, not_lt]
  exact ⟨by omega, (a, _), codec.decode_encode _ _ ha, rfl⟩

end Accounts

end DailyLottery
