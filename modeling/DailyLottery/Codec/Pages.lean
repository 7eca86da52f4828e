import DailyLottery.Codec.Borsh

namespace DailyLottery

open Lib

namespace WinnerPage

def selectedWinnerSize : ℕ := 32 + 8
def headerSize : ℕ := 8 + 32 + 4 + 4 + 2 + 64
def entriesOffset : ℕ := headerSize
def bitmapOffset : ℕ := entriesOffset + winnersPerPage * selectedWinnerSize
def bitmapSize : ℕ := (winnersPerPage + 7) / 8

def entryOffset (offset : ℕ) : ℕ := entriesOffset + offset * selectedWinnerSize

def codec : Borsh (WinnerPage Bytes32) :=
  ((Borsh.array 32).prod <| (Borsh.uint 4).prod <| (Borsh.uint 4).prod <|
    (Borsh.uint 2).prod (Borsh.array 64)).imap
    (fun x ↦ ⟨x.1, x.2.1, x.2.2.1, x.2.2.2.1, x.2.2.2.2⟩)
    (fun page ↦ (page.lottery, page.generation, page.pageIndex, page.count, page.reserved))
    fun _ ↦ rfl

def readEntry (data : Bytes) (offset : ℕ) : SelectedWinner Bytes32 :=
  ⟨Borsh.toVector 32 (slice data (entryOffset offset) 32),
    ofLeBytes (slice data (entryOffset offset + 32) 8)⟩

/-- `append` on the bytes of the account. -/
def appendBytes (page : WinnerPage Bytes32) (data : Bytes) (winner : SelectedWinner Bytes32) :
    Result (WinnerPage Bytes32 × Bytes × ℕ) := do
  let offset := page.count
  rejectIf (winnersPerPage ≤ offset ∨ data.length < size) Error.invalidInstruction
  let start := entryOffset offset
  let data := copyAt data start winner.wallet.toList
  let data := copyAt data (start + 32) (leBytes 8 winner.tickets)
  let count ← okOr (checkedAdd 16 page.count 1) Error.mathOverflow
  return ({ page with count }, data, offset)

def winnerBytes (page : WinnerPage Bytes32) (data : Bytes) (offset : ℕ) :
    Option (SelectedWinner Bytes32) :=
  if page.count ≤ offset ∨ data.length < size then none else some (readEntry data offset)

def isPaidBytes (page : WinnerPage Bytes32) (data : Bytes) (offset : ℕ) : Bool :=
  offset < page.count && size ≤ data.length &&
    maskBit (data.getD (bitmapOffset + offset / 8) 0) (offset % 8)

def markPaidBytes (page : WinnerPage Bytes32) (data : Bytes) (offset : ℕ) : Result Bytes := do
  rejectIf (page.count ≤ offset ∨ data.length < size ∨ page.isPaidBytes data offset = true)
    Error.winnerAlreadyPaid
  return data.set (bitmapOffset + offset / 8)
    (orBit (data.getD (bitmapOffset + offset / 8) 0) (offset % 8))

theorem size_eq : size = bitmapOffset + bitmapSize := rfl

theorem entriesOffset_le_size : entriesOffset ≤ size := by decide

theorem length_encode (page : WinnerPage Bytes32) :
    8 + (codec.encode page).length = entriesOffset := by
  simp [codec, Borsh.imap, Borsh.prod, Borsh.array, Borsh.uint, entriesOffset, headerSize]

theorem entryOffset_le {offset : ℕ} (h : offset < winnersPerPage) :
    entryOffset offset + selectedWinnerSize ≤ bitmapOffset := by
  simp only [entryOffset, bitmapOffset, selectedWinnerSize, winnersPerPage] at *
  omega

end WinnerPage

/-- The entries and the bitmap the bytes of an account hold. -/
def PageData.ofBytes (data : Bytes) : PageData Bytes32 :=
  ⟨Vector.ofFn fun i ↦ WinnerPage.readEntry data i,
    Vector.ofFn fun i ↦ data.getD (WinnerPage.bitmapOffset + i) 0⟩

namespace WinnerPage

variable {page : WinnerPage Bytes32} {data : Bytes} {winner : SelectedWinner Bytes32} {offset : ℕ}

theorem ofBytes_congr {data' : Bytes} (h : ∀ i, entriesOffset ≤ i → data'[i]? = data[i]?) :
    PageData.ofBytes data' = PageData.ofBytes data := by
  have hread (offset : ℕ) : readEntry data' offset = readEntry data offset := by
    have hwallet : slice data' (entryOffset offset) 32 = slice data (entryOffset offset) 32 :=
      slice_congr fun i hi _ ↦ h i (le_trans (Nat.le_add_right _ _) hi)
    have htickets : slice data' (entryOffset offset + 32) 8 =
        slice data (entryOffset offset + 32) 8 := by
      refine slice_congr fun i hi _ ↦ h i (le_trans ?_ hi)
      rw [entryOffset, Nat.add_assoc]
      exact Nat.le_add_right _ _
    rw [readEntry, readEntry, hwallet, htickets]
  have hpaid (i : ℕ) : data'.getD (bitmapOffset + i) 0 = data.getD (bitmapOffset + i) 0 := by
    rw [List.getD_eq_getElem?_getD, List.getD_eq_getElem?_getD, h]
    rw [bitmapOffset, Nat.add_assoc]
    exact Nat.le_add_right _ _
  simp only [PageData.ofBytes, hread, hpaid]

def writeEntry (data : Bytes) (offset : ℕ) (winner : SelectedWinner Bytes32) : Bytes :=
  copyAt (copyAt data (entryOffset offset) winner.wallet.toList) (entryOffset offset + 32)
    (leBytes 8 winner.tickets)

section Entry

variable (hoff : offset < winnersPerPage) (hlen : size ≤ data.length)

include hoff hlen

theorem entry_fits : entryOffset offset + winner.wallet.toList.length ≤ data.length ∧
    entryOffset offset + 32 + (leBytes 8 winner.tickets).length ≤
      (copyAt data (entryOffset offset) winner.wallet.toList).length := by
  have hle := entryOffset_le hoff
  rw [size_eq] at hlen
  have hwallet : entryOffset offset + winner.wallet.toList.length ≤ data.length := by
    rw [Vector.length_toList]
    simp only [selectedWinnerSize] at hle
    omega
  refine ⟨hwallet, ?_⟩
  rw [length_copyAt hwallet, length_leBytes]
  simp only [selectedWinnerSize] at hle
  omega

theorem length_writeEntry : (writeEntry data offset winner).length = data.length := by
  obtain ⟨hwallet, htickets⟩ := @entry_fits _ winner _ hoff hlen
  rw [writeEntry, length_copyAt htickets, length_copyAt hwallet]

theorem getElem?_writeEntry {i : ℕ} (hi : i < entryOffset offset ∨ entryOffset (offset + 1) ≤ i) :
    (writeEntry data offset winner)[i]? = data[i]? := by
  obtain ⟨hwallet, htickets⟩ := @entry_fits _ winner _ hoff hlen
  have hnext : entryOffset (offset + 1) = entryOffset offset + 40 := by
    simp only [entryOffset, selectedWinnerSize]
    omega
  rw [writeEntry, getElem?_copyAt_of_outside htickets, getElem?_copyAt_of_outside hwallet]
  · rw [Vector.length_toList]
    omega
  · rw [length_leBytes]
    omega

theorem readEntry_writeEntry (ht : winner.tickets < 2 ^ 64) {i : ℕ} :
    readEntry (writeEntry data offset winner) i =
      if i = offset then winner else readEntry data i := by
  split
  · next hi =>
    subst hi
    obtain ⟨hwallet, htickets⟩ := @entry_fits _ winner _ hoff hlen
    have hself := slice_copyAt_self hwallet
    have hself' := slice_copyAt_self htickets
    rw [Vector.length_toList] at hself
    rw [length_leBytes] at hself'
    have hfront : slice (writeEntry data i winner) (entryOffset i) 32 = winner.wallet.toList := by
      rw [writeEntry, slice_copyAt_of_disjoint htickets (Or.inl le_rfl), hself]
    have hfit : winner.tickets % 256 ^ 8 = winner.tickets := Nat.mod_eq_of_lt ht
    rw [readEntry, hfront, Borsh.toVector_toList, writeEntry, hself', ofLeBytes_leBytes, hfit]
  · next hi =>
    have hout (j : ℕ) (hj : entryOffset i ≤ j) (hj' : j < entryOffset i + 40) :
        (writeEntry data offset winner)[j]? = data[j]? := by
      refine getElem?_writeEntry hoff hlen ?_
      simp only [entryOffset, selectedWinnerSize] at *
      omega
    have hwallet : slice (writeEntry data offset winner) (entryOffset i) 32 =
        slice data (entryOffset i) 32 := slice_congr fun j hj hj' ↦ hout j hj (by omega)
    have htickets : slice (writeEntry data offset winner) (entryOffset i + 32) 8 =
        slice data (entryOffset i + 32) 8 :=
      slice_congr fun j hj hj' ↦ hout j (by omega) (by omega)
    rw [readEntry, readEntry, hwallet, htickets]

theorem ofBytes_writeEntry (ht : winner.tickets < 2 ^ 64) :
    PageData.ofBytes (writeEntry data offset winner) = { PageData.ofBytes data with
      entries := (PageData.ofBytes data).entries.setIfInBounds offset winner } := by
  have hle := entryOffset_le hoff
  have hpaid (i : ℕ) : (writeEntry data offset winner).getD (bitmapOffset + i) 0 =
      data.getD (bitmapOffset + i) 0 := by
    rw [List.getD_eq_getElem?_getD, List.getD_eq_getElem?_getD, getElem?_writeEntry hoff hlen]
    refine Or.inr ?_
    simp only [entryOffset, selectedWinnerSize] at *
    omega
  have hentries : (Vector.ofFn fun i : Fin winnersPerPage ↦
      readEntry (writeEntry data offset winner) i) =
        (Vector.ofFn fun i : Fin winnersPerPage ↦
          readEntry data i).setIfInBounds offset winner := by
    ext1 i hi
    rw [Vector.getElem_ofFn, readEntry_writeEntry hoff hlen ht, Vector.getElem_setIfInBounds]
    simp only [eq_comm, Vector.getElem_ofFn]
  simp only [PageData.ofBytes, hpaid, hentries]

theorem ofBytes_setPaid {b : UInt8} : PageData.ofBytes (data.set (bitmapOffset + offset / 8) b) =
    { PageData.ofBytes data with
      paid := (PageData.ofBytes data).paid.setIfInBounds (offset / 8) b } := by
  have hbyte : offset / 8 < bitmapSize := by
    simp only [bitmapSize, winnersPerPage] at *
    omega
  rw [size_eq] at hlen
  have hentries : (Vector.ofFn fun i : Fin winnersPerPage ↦
      readEntry (data.set (bitmapOffset + offset / 8) b) i) =
        Vector.ofFn fun i : Fin winnersPerPage ↦ readEntry data i := by
    ext1 i hi
    have hle := entryOffset_le hi
    simp only [selectedWinnerSize] at hle
    have hout (j : ℕ) (hj : j < entryOffset i + 40) :
        (data.set (bitmapOffset + offset / 8) b)[j]? = data[j]? :=
      List.getElem?_set_ne (by omega)
    have hwallet : slice (data.set (bitmapOffset + offset / 8) b) (entryOffset i) 32 =
        slice data (entryOffset i) 32 := slice_congr fun j _ hj ↦ hout j (by omega)
    have htickets : slice (data.set (bitmapOffset + offset / 8) b) (entryOffset i + 32) 8 =
        slice data (entryOffset i + 32) 8 := slice_congr fun j _ hj ↦ hout j (by omega)
    rw [Vector.getElem_ofFn, Vector.getElem_ofFn, readEntry, readEntry, hwallet, htickets]
  have hpaid : (Vector.ofFn fun i : Fin ((winnersPerPage + 7) / 8) ↦
      (data.set (bitmapOffset + offset / 8) b).getD (bitmapOffset + i) 0) =
        (Vector.ofFn fun i : Fin ((winnersPerPage + 7) / 8) ↦
          data.getD (bitmapOffset + i) 0).setIfInBounds (offset / 8) b := by
    ext1 i hi
    rw [Vector.getElem_ofFn, Vector.getElem_setIfInBounds, List.getD_eq_getElem?_getD,
      List.getElem?_set, Vector.getElem_ofFn]
    dsimp only
    by_cases h : offset / 8 = i
    · rw [if_pos h, if_pos (by omega), if_pos (by omega)]
      rfl
    · rw [if_neg h, if_neg (by omega), List.getD_eq_getElem?_getD]
  simp only [PageData.ofBytes, hentries, hpaid]

end Entry

section Operations

theorem appendBytes_full {winner : SelectedWinner Bytes32} (h : page.count = winnersPerPage) :
    page.appendBytes data winner = .error Error.invalidInstruction ∧
      page.append (PageData.ofBytes data) winner = .error Error.invalidInstruction := by
  simp [appendBytes, append, rejectIf, h]

variable (hcount : page.count ≤ winnersPerPage) (hlen : size ≤ data.length)

include hcount hlen

theorem winnerBytes_eq : page.winnerBytes data offset = page.winner
    (PageData.ofBytes data) offset := by
  unfold winnerBytes winner
  by_cases h : page.count ≤ offset
  · rw [if_pos (Or.inl h), if_pos h]
  · have hoff : offset < winnersPerPage := by omega
    rw [if_neg (by omega), if_neg h, PageData.ofBytes, Vector.getElem?_eq_getElem hoff,
      Vector.getElem_ofFn]

theorem isPaidBytes_eq : page.isPaidBytes data offset = page.isPaid
    (PageData.ofBytes data) offset := by
  unfold isPaidBytes isPaid
  by_cases h : offset < page.count
  · have hbyte : offset / 8 < (winnersPerPage + 7) / 8 := by
      simp only [winnersPerPage] at *
      omega
    have hget : (PageData.ofBytes data).paid.toList.getD (offset / 8) 0 =
        data.getD (bitmapOffset + offset / 8) 0 := by
      simp [PageData.ofBytes, List.getD, hbyte]
    rw [hget]
    simp [h, hlen]
  · simp [h]

omit hcount in
theorem appendBytes_ok {winner : SelectedWinner Bytes32} (ht : winner.tickets < 2 ^ 64)
    (h : page.count < winnersPerPage) :
    page.appendBytes data winner =
        .ok ({ page with count := page.count + 1 }, writeEntry data page.count winner, page.count) ∧
      page.append (PageData.ofBytes data) winner = .ok ({ page with count := page.count + 1 },
        PageData.ofBytes (writeEntry data page.count winner)) := by
  have hchecked : checkedAdd 16 page.count 1 = some (page.count + 1) := by
    rw [checkedAdd_eq_some]
    simp only [winnersPerPage] at h
    exact ⟨by omega, rfl⟩
  have hroom : ¬(winnersPerPage ≤ page.count ∨ data.length < size) := by omega
  constructor
  · simp only [appendBytes, bind_eq_ok, rejectIf_eq_ok, okOr_eq_ok, exists_const, pure_eq_ok,
      hchecked]
    exact ⟨hroom, _, rfl, rfl⟩
  · simp only [append, bind_eq_ok, rejectIf_eq_ok, okOr_eq_ok, exists_const, pure_eq_ok, hchecked]
    exact ⟨by omega, _, rfl, by rw [ofBytes_writeEntry h hlen ht]⟩

theorem markPaidBytes_ok (h : offset < page.count)
    (hpaid : page.isPaid (PageData.ofBytes data) offset = false) : ∃ data',
    page.markPaidBytes data offset = .ok data' ∧
      page.markPaid (PageData.ofBytes data) offset = .ok (PageData.ofBytes data') ∧
      (PageData.ofBytes data').entries = (PageData.ofBytes data).entries ∧
      (PageData.ofBytes data').paid.toList = orAt (PageData.ofBytes data).paid.toList offset ∧
      data'.length = data.length ∧ ∀ i, size ≤ i → data'[i]? = data[i]? := by
  have hoff : offset < winnersPerPage := by omega
  have hbyte : offset / 8 < (winnersPerPage + 7) / 8 := by
    simp only [winnersPerPage] at *
    omega
  have hget : (PageData.ofBytes data).paid.toList.getD (offset / 8) 0 =
      data.getD (bitmapOffset + offset / 8) 0 := by
    simp [PageData.ofBytes, List.getD, hbyte]
  refine ⟨data.set (bitmapOffset + offset / 8)
    (orBit (data.getD (bitmapOffset + offset / 8) 0) (offset % 8)), ?_, ?_, ?_, ?_,
    List.length_set, fun i hi ↦ List.getElem?_set_ne ?_⟩
  · simp only [markPaidBytes, bind_eq_ok, rejectIf_eq_ok, exists_const, pure_eq_ok,
      isPaidBytes_eq hcount hlen, hpaid]
    exact ⟨by simp; omega, trivial⟩
  · simp only [markPaid, bind_eq_ok, rejectIf_eq_ok, exists_const, pure_eq_ok, hpaid, hget]
    exact ⟨by simp; omega, by rw [ofBytes_setPaid hoff hlen]⟩
  · rw [ofBytes_setPaid hoff hlen]
  · rw [ofBytes_setPaid hoff hlen, orAt, hget, Vector.toList_setIfInBounds]
  · rw [size_eq, bitmapSize] at hi
    omega

theorem markPaidBytes_error
    (h : page.count ≤ offset ∨ page.isPaid (PageData.ofBytes data) offset = true) :
    page.markPaidBytes data offset = .error Error.winnerAlreadyPaid ∧
      page.markPaid (PageData.ofBytes data) offset = .error Error.winnerAlreadyPaid := by
  have hbytes : page.count ≤ offset ∨ data.length < size ∨ page.isPaidBytes data offset = true := by
    rw [isPaidBytes_eq hcount hlen]
    exact h.imp_right Or.inr
  simp [markPaidBytes, markPaid, rejectIf, h, hbytes]

omit hcount in
theorem writeHeader_ok (discriminator : Vector UInt8 8) : ∃ data',
    writeAccountBytes codec discriminator page data = .ok data' ∧ data'.length = data.length ∧
      PageData.ofBytes data' = PageData.ofBytes data ∧
      ∀ i, entriesOffset ≤ i → data'[i]? = data[i]? := by
  have hheader := length_encode page
  obtain ⟨data', hwrite, hsame, -, hframe⟩ :=
    writeAccountBytes_ok (hheader.trans_le (entriesOffset_le_size.trans hlen))
  rw [hheader] at hframe
  exact ⟨data', hwrite, hsame, ofBytes_congr hframe, hframe⟩

end Operations

end WinnerPage

inductive PageOp
  | append (winner : SelectedWinner Bytes32)
  | markPaid (offset : ℕ)
  | writeHeader

/-- A page in memory with the bytes of its account. -/
structure PageState where
  page : WinnerPage Bytes32
  data : Bytes

namespace PageState

variable (discriminator : Vector UInt8 8)

def perform (s : PageState) : PageOp → Result PageState
  | .append winner => do
    let (page, data, _) ← s.page.appendBytes s.data winner
    return ⟨page, data⟩
  | .markPaid offset => do
    let data ← s.page.markPaidBytes s.data offset
    return { s with data }
  | .writeHeader => do
    let data ← writeAccountBytes WinnerPage.codec discriminator s.page s.data
    return { s with data }

/-- One operation after another; one that fails changes nothing. -/
def run (s : PageState) : List PageOp → PageState × List Bool
  | [] => (s, [])
  | op :: ops =>
    match s.perform discriminator op with
    | .ok s' => ((s'.run ops).1, true :: (s'.run ops).2)
    | .error _ => ((s.run ops).1, false :: (s.run ops).2)

end PageState

/-- The winners of a page in the order they were appended, each with its paid mark. -/
abbrev PageEntries := List (SelectedWinner Bytes32 × Bool)

namespace PageEntries

/-- There is room for a hundred entries, and each is marked once. -/
def perform (entries : PageEntries) : PageOp → Option PageEntries
  | .append winner => if entries.length < 100 then some (entries ++ [(winner, false)]) else none
  | .markPaid offset =>
    match entries[offset]? with
    | some (winner, false) => some (entries.set offset (winner, true))
    | _ => none
  | .writeHeader => some entries

def run (entries : PageEntries) : List PageOp → PageEntries × List Bool
  | [] => (entries, [])
  | op :: ops =>
    match entries.perform op with
    | some entries' => ((run entries' ops).1, true :: (run entries' ops).2)
    | none => ((run entries ops).1, false :: (run entries ops).2)

end PageEntries

namespace PageState

/-- The page and its bytes stand for the list of entries. -/
structure Represents (s : PageState) (entries : PageEntries) : Prop where
  size : WinnerPage.size ≤ s.data.length
  count : s.page.count = entries.length
  le : entries.length ≤ winnersPerPage
  winner : ∀ i, s.page.winner (.ofBytes s.data) i = entries[i]?.map Prod.fst
  paid : ∀ i < winnersPerPage, bitAt (PageData.ofBytes s.data).paid.toList i =
    (entries[i]?.map Prod.snd).getD false

variable {s : PageState} {entries : PageEntries} {discriminator : Vector UInt8 8} {op : PageOp}

theorem Represents.isPaid (h : s.Represents entries) (i : ℕ) :
    s.page.isPaid (.ofBytes s.data) i = (entries[i]?.map Prod.snd).getD false := by
  unfold WinnerPage.isPaid
  have hcount := h.count
  have hle := h.le
  by_cases hi : i < s.page.count
  · have hpaid := h.paid i (by omega)
    rw [maskBit_eq _ (Nat.mod_lt i (by decide)), ← hpaid]
    simp [hi, bitAt]
  · rw [List.getElem?_eq_none (by omega)]
    simp [hi]

theorem Represents.append (h : s.Represents entries) (hlt : entries.length < winnersPerPage)
    {winner : SelectedWinner Bytes32} (ht : winner.tickets < 2 ^ 64) :
    Represents ⟨{ s.page with count := s.page.count + 1 },
      WinnerPage.writeEntry s.data s.page.count winner⟩ (entries ++ [(winner, false)]) := by
  have hcount := h.count
  have hroom : s.page.count < winnersPerPage := by omega
  have hbytes := WinnerPage.ofBytes_writeEntry hroom h.size ht
  refine ⟨?_, ?_, ?_, fun i ↦ ?_, fun i hi ↦ ?_⟩
  · rw [WinnerPage.length_writeEntry hroom h.size]
    exact h.size
  · simp only [List.length_append, List.length_singleton, hcount]
  · rw [List.length_append, List.length_singleton]
    omega
  · have hold := h.winner i
    simp only [WinnerPage.winner] at hold ⊢
    rw [hbytes]
    by_cases hi : i = s.page.count
    · have hlast : (entries ++ [(winner, false)])[i]? = some (winner, false) := by
        rw [hi, hcount, List.getElem?_concat_length]
      rw [if_neg (by omega), hlast, hi, Vector.getElem?_setIfInBounds_self_of_lt hroom]
      rfl
    · rw [Vector.getElem?_setIfInBounds_ne (Ne.symm hi)]
      by_cases hlti : i < s.page.count
      · rw [if_neg (by omega)] at hold
        rw [if_neg (by omega), hold, List.getElem?_append_left (by omega)]
      · rw [if_pos (by omega), List.getElem?_eq_none]
        · rfl
        · rw [List.length_append, List.length_singleton]
          omega
  · have hold := h.paid i hi
    rw [hbytes, hold]
    by_cases hi' : i = entries.length
    · rw [hi', List.getElem?_concat_length, List.getElem?_eq_none le_rfl]
      rfl
    · by_cases hlti : i < entries.length
      · rw [List.getElem?_append_left hlti]
      · rw [List.getElem?_eq_none (by omega), List.getElem?_eq_none]
        rw [List.length_append, List.length_singleton]
        omega

theorem Represents.markPaid (h : s.Represents entries) {offset : ℕ}
    {winner : SelectedWinner Bytes32} (hget : entries[offset]? = some (winner, false))
    {data' : Bytes}
    (hentries : (PageData.ofBytes data').entries = (PageData.ofBytes s.data).entries)
    (hpaid : (PageData.ofBytes data').paid.toList = orAt
      (PageData.ofBytes s.data).paid.toList offset)
    (hlen : data'.length = s.data.length) :
    Represents ⟨s.page, data'⟩ (entries.set offset (winner, true)) := by
  have hle := h.le
  have hoff := (List.getElem?_eq_some_iff.mp hget).1
  refine ⟨hlen ▸ h.size, by rw [List.length_set, h.count], by rwa [List.length_set],
    fun i ↦ ?_, fun i hi ↦ ?_⟩
  · have hold := h.winner i
    simp only [WinnerPage.winner] at hold ⊢
    rw [hentries, hold, List.getElem?_set]
    split
    · next hi =>
      rw [← hi, hget]
      rfl
    · rfl
  · have hbyte : offset / 8 < (PageData.ofBytes s.data).paid.toList.length := by
      rw [Vector.length_toList]
      simp only [winnersPerPage] at *
      omega
    rw [hpaid, bitAt_orAt hbyte, h.paid i hi, List.getElem?_set]
    by_cases hi' : offset = i
    · rw [if_pos hi', if_pos hoff]
      simp [hi']
    · rw [if_neg hi']
      simp [Ne.symm hi']

theorem Represents.perform (h : s.Represents entries)
    (hop : ∀ winner, op = .append winner → winner.tickets < 2 ^ 64) :
    (∃ s' entries', s.perform discriminator op = .ok s' ∧ entries.perform op = some entries' ∧
      s'.Represents entries' ∧ s'.data.length = s.data.length ∧
      ∀ i, WinnerPage.size ≤ i → s'.data[i]? = s.data[i]?) ∨
    ∃ e, s.perform discriminator op = .error e ∧ entries.perform op = none := by
  have hcount : s.page.count ≤ winnersPerPage := h.count.trans_le h.le
  cases op with
  | append winner =>
    have ht := hop winner rfl
    by_cases hlt : entries.length < winnersPerPage
    · have hroom : s.page.count < winnersPerPage := h.count.trans_lt hlt
      obtain ⟨happend, -⟩ := WinnerPage.appendBytes_ok h.size ht hroom
      refine Or.inl ⟨_, _, ?_, if_pos hlt, h.append hlt ht, ?_, fun i hi ↦ ?_⟩
      · rw [PageState.perform, happend]
        rfl
      · exact WinnerPage.length_writeEntry hroom h.size
      · refine WinnerPage.getElem?_writeEntry hroom h.size (Or.inr ?_)
        have hle := WinnerPage.entryOffset_le hroom
        rw [WinnerPage.size_eq] at hi
        simp only [WinnerPage.entryOffset, WinnerPage.selectedWinnerSize] at *
        omega
    · have hfull : s.page.count = winnersPerPage := by
        have := h.count
        omega
      refine Or.inr ⟨(Error.invalidInstruction : ProgramError), ?_, if_neg hlt⟩
      rw [PageState.perform, (WinnerPage.appendBytes_full hfull).1]
      rfl
  | markPaid offset =>
    cases hget : entries[offset]? with
    | none =>
      have hout : s.page.count ≤ offset := h.count.trans_le (List.getElem?_eq_none_iff.mp hget)
      refine Or.inr ⟨(Error.winnerAlreadyPaid : ProgramError), ?_, ?_⟩
      · rw [PageState.perform, (WinnerPage.markPaidBytes_error hcount h.size (Or.inl hout)).1]
        rfl
      · simp only [PageEntries.perform, hget]
    | some x =>
      obtain ⟨winner, paid⟩ := x
      have hoff : offset < s.page.count := h.count ▸ (List.getElem?_eq_some_iff.mp hget).1
      have hpaid : s.page.isPaid (.ofBytes s.data) offset = paid := by
        rw [h.isPaid, hget]
        rfl
      cases paid with
      | true =>
        refine Or.inr ⟨(Error.winnerAlreadyPaid : ProgramError), ?_, ?_⟩
        · rw [PageState.perform, (WinnerPage.markPaidBytes_error hcount h.size (Or.inr hpaid)).1]
          rfl
        · simp only [PageEntries.perform, hget]
      | false =>
        obtain ⟨data', hmark, -, hentries, hbits, hlen, hframe⟩ :=
          WinnerPage.markPaidBytes_ok hcount h.size hoff hpaid
        refine Or.inl ⟨⟨s.page, data'⟩, _, ?_, ?_, h.markPaid hget hentries hbits hlen,
          hlen, hframe⟩
        · rw [PageState.perform, hmark]
          rfl
        · simp only [PageEntries.perform, hget]
  | writeHeader =>
    obtain ⟨data', hwrite, hlen, hbytes, hframe⟩ :=
      @WinnerPage.writeHeader_ok s.page s.data h.size discriminator
    refine Or.inl ⟨⟨s.page, data'⟩, entries, ?_, rfl, ?_, hlen, fun i hi ↦
      hframe i (WinnerPage.entriesOffset_le_size.trans hi)⟩
    · simp only [PageState.perform, hwrite, bind_eq_ok, pure_eq_ok, Except.ok.injEq,
        exists_eq_left']
    · have hsize : WinnerPage.size ≤ data'.length := h.size.trans_eq hlen.symm
      refine ⟨hsize, h.count, h.le, fun i ↦ ?_, fun i hi ↦ ?_⟩
      · rw [hbytes]
        exact h.winner i
      · rw [hbytes]
        exact h.paid i hi

theorem Represents.run {ops : List PageOp} (h : s.Represents entries)
    (hops : ∀ winner, .append winner ∈ ops → winner.tickets < 2 ^ 64) :
    (s.run discriminator ops).1.Represents (entries.run ops).1 ∧
      (s.run discriminator ops).2 = (entries.run ops).2 ∧
      (s.run discriminator ops).1.data.length = s.data.length ∧
      ∀ i, WinnerPage.size ≤ i → (s.run discriminator ops).1.data[i]? = s.data[i]? := by
  induction ops generalizing s entries with
  | nil => exact ⟨h, rfl, rfl, fun _ _ ↦ rfl⟩
  | cons op ops ih =>
    have hop (winner : SelectedWinner Bytes32) (he : op = .append winner) :
        winner.tickets < 2 ^ 64 := by
      apply hops
      rw [he]
      exact List.mem_cons_self
    have hrest (winner : SelectedWinner Bytes32) (hmem : .append winner ∈ ops) :
        winner.tickets < 2 ^ 64 := hops winner (List.mem_cons_of_mem _ hmem)
    obtain ⟨s', entries', hbytes, hlist, h', hlen, hframe⟩ | ⟨e, hbytes, hlist⟩ :=
      @Represents.perform s entries discriminator op h hop
    · obtain ⟨hrun, hresults, hlen', hframe'⟩ := ih h' hrest
      simp only [PageState.run, PageEntries.run, hbytes, hlist]
      exact ⟨hrun, by rw [hresults], hlen'.trans hlen,
        fun i hi ↦ (hframe' i hi).trans (hframe i hi)⟩
    · obtain ⟨hrun, hresults, hlen', hframe'⟩ := ih h hrest
      simp only [PageState.run, PageEntries.run, hbytes, hlist]
      exact ⟨hrun, by rw [hresults], hlen', hframe'⟩

theorem represents_new {data : Bytes} {lottery : Bytes32} {generation pageIndex : ℕ}
    (hlen : WinnerPage.size ≤ data.length)
    (hzero : ∀ i, WinnerPage.entriesOffset ≤ i → i < WinnerPage.size → data[i]? = some 0) :
    Represents ⟨.new lottery generation pageIndex, data⟩ [] := by
  refine ⟨hlen, rfl, Nat.zero_le _, fun i ↦ ?_, fun i hi ↦ ?_⟩
  · simp [WinnerPage.winner, WinnerPage.new]
  · have hbyte : i / 8 < WinnerPage.bitmapSize := by
      simp only [WinnerPage.bitmapSize, winnersPerPage] at *
      omega
    have hread : (PageData.ofBytes data).paid.toList.getD (i / 8) 0 = 0 := by
      have hz := hzero (WinnerPage.bitmapOffset + i / 8)
        (by rw [WinnerPage.bitmapOffset]; omega) (by rw [WinnerPage.size_eq]; omega)
      simp only [WinnerPage.bitmapSize] at hbyte
      simp [PageData.ofBytes, List.getD, hbyte, hz]
    rw [bitAt, hread]
    simp

end PageState

/-- Whatever is done to a page over zeroed bytes, it reads as the list of at most a hundred
entries on which the same was done, with the same failures, and nothing behind it changes. -/
theorem WinnerPage.refines_entries (discriminator : Vector UInt8 8) (lottery : Bytes32)
    (generation pageIndex : ℕ) {data : Bytes} {ops : List PageOp} (hlen : size ≤ data.length)
    (hzero : ∀ i, entriesOffset ≤ i → i < size → data[i]? = some 0)
    (hops : ∀ winner, .append winner ∈ ops → winner.tickets < 2 ^ 64) :
    let s := (PageState.mk (.new lottery generation pageIndex) data).run discriminator ops
    let entries := PageEntries.run [] ops
    s.2 = entries.2 ∧ s.1.page.count = entries.1.length ∧ entries.1.length ≤ 100 ∧
      (∀ i, s.1.page.winnerBytes s.1.data i = entries.1[i]?.map Prod.fst) ∧
      (∀ i, s.1.page.isPaidBytes s.1.data i = (entries.1[i]?.map Prod.snd).getD false) ∧
      s.1.data.length = data.length ∧ ∀ i, size ≤ i → s.1.data[i]? = data[i]? := by
  have hnew : PageState.Represents ⟨.new lottery generation pageIndex, data⟩ [] :=
    PageState.represents_new hlen hzero
  obtain ⟨hrun, hresults, hlen', hframe⟩ :=
    @PageState.Represents.run _ _ discriminator ops hnew hops
  have hcount := hrun.count.trans_le hrun.le
  refine ⟨hresults, hrun.count, hrun.le, fun i ↦ ?_, fun i ↦ ?_, hlen', hframe⟩
  · rw [winnerBytes_eq hcount hrun.size, hrun.winner]
  · rw [isPaidBytes_eq hcount hrun.size, hrun.isPaid]

/-- A winner is appended and marked, the header written, and a second mark refused. -/
theorem WinnerPage.refines_entries_sample :
    let s := (PageState.mk (.new (Vector.replicate 32 1) 1 0) (List.replicate size 0)).run
      (Vector.replicate 8 7) [.append ⟨Vector.replicate 32 2, 5⟩, .markPaid 0, .writeHeader,
        .markPaid 0]
    s.2 = [true, true, true, false] ∧
      s.1.page.winnerBytes s.1.data 0 = some ⟨Vector.replicate 32 2, 5⟩ ∧
      s.1.page.isPaidBytes s.1.data 0 = true := by
  have hops (winner : SelectedWinner Bytes32) (hmem : PageOp.append winner ∈
      [.append ⟨Vector.replicate 32 2, 5⟩, .markPaid 0, .writeHeader, .markPaid 0]) :
      winner.tickets < 2 ^ 64 := by
    simp only [List.mem_cons, PageOp.append.injEq, reduceCtorEq, List.not_mem_nil, or_false] at hmem
    rw [hmem]
    decide
  have hlen : size ≤ (List.replicate size (0 : UInt8)).length := List.length_replicate.ge
  have hzero (i : ℕ) (_ : entriesOffset ≤ i) (hi : i < size) :
      (List.replicate size (0 : UInt8))[i]? = some 0 := by
    rw [List.getElem?_replicate, if_pos hi]
  obtain ⟨hresults, -, -, hwinner, hpaid, -⟩ := refines_entries (Vector.replicate 8 7)
    (Vector.replicate 32 1) 1 0 hlen hzero hops
  exact ⟨hresults.trans rfl, (hwinner 0).trans rfl, (hpaid 0).trans rfl⟩

end DailyLottery
