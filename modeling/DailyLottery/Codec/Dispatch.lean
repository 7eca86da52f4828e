import DailyLottery.Codec.Borsh
import DailyLottery.Program

namespace DailyLottery

open Lib

namespace Dispatch

/-- Indexing out of range panics. -/
def byteAt (data : Bytes) (i : ℕ) : Result UInt8 := okOr data[i]? .panicked

def bytesAt (data : Bytes) (start : ℕ) : ℕ → Result Bytes
  | 0 => .ok []
  | n + 1 => do
    let b ← byteAt data start
    let bs ← bytesAt data (start + 1) n
    return b :: bs

/-- `from_le_bytes` of `width` bytes indexed one by one. -/
def uintAt (data : Bytes) (start width : ℕ) : Result ℕ := do
  let bytes ← bytesAt data start width
  return ofLeBytes bytes

/-- The slice `&data[start..stop]`, which panics out of range. -/
def sliceAt (data : Bytes) (start stop : ℕ) : Result Bytes := do
  rejectIf (stop < start ∨ data.length < stop) .panicked
  return slice data start (stop - start)

end Dispatch

def tagInitialize : UInt8 := 0
def tagUpdateServiceCharge : UInt8 := 1
def tagCreateLottery : UInt8 := 2
def tagBuyTickets : UInt8 := 3
def tagAttestUploaded : UInt8 := 4
def tagUploadReveals : UInt8 := 5
def tagBeginRevealNow : UInt8 := 6
def tagFinalizeWinners : UInt8 := 7
def tagBeginRevealPhase : UInt8 := 8
def tagFinalizeNoAttesters : UInt8 := 9
def tagSettlePayoutBatch : UInt8 := 10
def tagClaimRefund : UInt8 := 14
def tagAttestReveal : UInt8 := 15
def tagCloseRefundVault : UInt8 := 16
def tagCloseParticipant : UInt8 := 17

def WinnerProof.codec : Borsh (WinnerProof Bytes32) :=
  ((Borsh.uint 8).prod <| (Borsh.array 32).prod <| (Borsh.uint 8).prod (Borsh.array 32).vec).imap
    (fun x ↦ ⟨x.1, x.2.1, x.2.2.1, x.2.2.2⟩)
    (fun winner ↦ (winner.index, winner.recipient, winner.amount, winner.merkleProof))
    fun _ ↦ rfl

namespace Dispatch

/-- The calls whose data is read at fixed offsets. -/
def initializeConfig (data : Bytes) : Result (Instruction Bytes32) := do
  rejectIf (data.length < 1 + 8 + 2 + 4) Error.invalidInstruction
  let ticketPriceLamports ← uintAt data 1 8
  let serviceChargeBps ← uintAt data 9 2
  let maxWinnersCap ← uintAt data 11 4
  return .initializeConfig ticketPriceLamports serviceChargeBps maxWinnersCap

def updateServiceCharge (data : Bytes) : Result (Instruction Bytes32) := do
  rejectIf (data.length < 1 + 2) Error.invalidInstruction
  let newBps ← uintAt data 1 2
  return .updateServiceCharge newBps

def attestUploaded (data : Bytes) : Result (Instruction Bytes32) := do
  rejectIf (data.length < 1 + 8) Error.invalidInstruction
  let votedNumberOfWinners ← uintAt data 1 8
  return .attestUploaded votedNumberOfWinners

def beginRevealNow (data : Bytes) : Result (Instruction Bytes32) := do
  rejectIf (data.length < 1 + 4 + 4) Error.invalidInstruction
  let attestationSecs ← uintAt data 1 4
  let uploadSecs ← uintAt data 5 4
  return .beginRevealNow attestationSecs uploadSecs

/-- An optional hash shifts the number of tickets. -/
def buyTickets (data : Bytes) : Result (Instruction Bytes32) := do
  rejectIf (data.length < 1 + 1 + 8) Error.invalidInstruction
  let flag ← byteAt data 1
  if flag ≠ 0 then
    rejectIf (data.length < 1 + 1 + 32 + 8) Error.invalidInstruction
    let hash ← sliceAt data 2 34
    let numberOfTickets ← uintAt data 34 8
    return .buyTickets (some (Borsh.toVector 32 hash)) numberOfTickets
  else
    rejectIf (data.length < 1 + 1 + 8) Error.invalidInstruction
    let numberOfTickets ← uintAt data 2 8
    return .buyTickets none numberOfTickets

def uploadReveals (data : Bytes) : Result (Instruction Bytes32) := do
  rejectIf (data.length < 1 + 4) Error.invalidInstruction
  let data ← sliceAt data 1 data.length
  let entries ← okOr (((Borsh.array 32).prod Borsh.byte.vec).vec.tryFromSlice data)
    Error.invalidInstruction
  return .uploadReveals entries

def settlePayoutBatch (data : Bytes) : Result (Instruction Bytes32) := do
  rejectIf (data.length < 1 + 8 + 4) Error.invalidInstruction
  let lotteryId ← uintAt data 1 8
  let batchIndex ← uintAt data 9 4
  let winnersData ← sliceAt data 13 data.length
  let winners ← okOr (WinnerProof.codec.vec.tryFromSlice winnersData) Error.invalidInstruction
  return .settlePayoutBatch lotteryId batchIndex winners

/-- A length before the plaintext; `usize` has sixty-four bits. -/
def attestReveal (data : Bytes) : Result (Instruction Bytes32) := do
  rejectIf (data.length < 1 + 8 + 4) Error.invalidInstruction
  let votedNumberOfWinners ← uintAt data 1 8
  let revealLen ← uintAt data 9 4
  let revealEnd ← okOr (checkedAdd 64 13 revealLen) Error.mathOverflow
  rejectIf (data.length < revealEnd) Error.invalidInstruction
  let revealPlaintext ← sliceAt data 13 revealEnd
  return .attestReveal votedNumberOfWinners revealPlaintext

end Dispatch

/-- The arm of `process_instruction` a tag selects. -/
def arm (tag : UInt8) (data : Bytes) : Result (Instruction Bytes32) :=
  if tag = tagInitialize then Dispatch.initializeConfig data
  else if tag = tagUpdateServiceCharge then Dispatch.updateServiceCharge data
  else if tag = tagCreateLottery then .ok .createLottery
  else if tag = tagBuyTickets then Dispatch.buyTickets data
  else if tag = tagAttestUploaded then Dispatch.attestUploaded data
  else if tag = tagUploadReveals then Dispatch.uploadReveals data
  else if tag = tagBeginRevealNow then Dispatch.beginRevealNow data
  else if tag = tagFinalizeWinners then .ok .finalizeWinners
  else if tag = tagSettlePayoutBatch then Dispatch.settlePayoutBatch data
  else if tag = tagBeginRevealPhase then .ok (.beginRevealNow 0 0)
  else if tag = tagFinalizeNoAttesters then .ok .finalizeNoAttesters
  else if tag = tagClaimRefund then .ok .claimRefund
  else if tag = tagAttestReveal then Dispatch.attestReveal data
  else if tag = tagCloseRefundVault then .ok .closeRefundVault
  else if tag = tagCloseParticipant then .ok .closeParticipant
  else .error Error.invalidInstruction

/-- The handler `process_instruction` selects, with the arguments it passes. -/
def dispatch (data : Bytes) : Result (Instruction Bytes32) := do
  rejectIf (data.length = 0) Error.invalidInstruction
  let tag ← Dispatch.byteAt data 0
  arm tag data

section Process

variable {K : Type} [DecidableEq K] [Inhabited K]

def WinnerProof.withKeys (key : Bytes32 → K) (winner : WinnerProof Bytes32) : WinnerProof K :=
  ⟨winner.index, key winner.recipient, winner.amount, winner.merkleProof⟩

/-- The call with the keys its thirty-two bytes stand for. -/
def Instruction.withKeys (key : Bytes32 → K) : Instruction Bytes32 → Instruction K
  | .initializeConfig price bps cap => .initializeConfig price bps cap
  | .createLottery => .createLottery
  | .buyTickets hash tickets => .buyTickets hash tickets
  | .attestUploaded vote => .attestUploaded vote
  | .attestReveal vote plaintext => .attestReveal vote plaintext
  | .uploadReveals entries => .uploadReveals (entries.map fun e ↦ (key e.1, e.2))
  | .finalizeWinners => .finalizeWinners
  | .settlePayoutBatch id batch winners =>
    .settlePayoutBatch id batch (winners.map (WinnerProof.withKeys key))
  | .finalizeNoAttesters => .finalizeNoAttesters
  | .claimRefund => .claimRefund
  | .closeParticipant => .closeParticipant
  | .closeRefundVault => .closeRefundVault
  | .updateServiceCharge bps => .updateServiceCharge bps
  | .beginRevealNow att upl => .beginRevealNow att upl

def processBytes (rt : Runtime K) (key : Bytes32 → K) (w : World K) (preceding : List (K × Bytes))
    (data : Bytes) (accounts : List (AccountInfo K)) : Result (World K) := do
  let ix ← dispatch data
  processInstruction rt w preceding (ix.withKeys key) accounts

end Process

/-- The Borsh enum `Instruction`, its legacy placeholders included. -/
inductive InstructionEnum
  | initializeConfig (ticketPriceLamports serviceChargeBps maxWinnersCap : ℕ)
  | updateServiceCharge (newBps : ℕ)
  | createLottery
  | buyTickets (proofOfChanceHash : Option Bytes32) (numberOfTickets : ℕ)
  | attestUploaded (votedNumberOfWinners : ℕ)
  | uploadReveals (entries : List (Bytes32 × Bytes))
  | beginRevealNow (attestationSecs uploadSecs : ℕ)
  | finalizeWinners
  | beginRevealPhase
  | finalizeNoAttesters
  | settlePayoutBatch (lotteryId batchIndex : ℕ) (winners : List (WinnerProof Bytes32))
  | settlementBegin
  | settlementChunk
  | settlementFinalize
  | claimRefund
  | attestReveal (votedNumberOfWinners : ℕ) (revealPlaintext : Bytes)
  | closeRefundVault
  | closeParticipant

namespace InstructionEnum

def configCodec : Borsh (ℕ × ℕ × ℕ) := (Borsh.uint 8).prod <| (Borsh.uint 2).prod (Borsh.uint 4)
def ticketsCodec : Borsh (Option Bytes32 × ℕ) := (Borsh.array 32).option.prod (Borsh.uint 8)
def entriesCodec : Borsh (List (Bytes32 × Bytes)) := ((Borsh.array 32).prod Borsh.byte.vec).vec
def windowsCodec : Borsh (ℕ × ℕ) := (Borsh.uint 4).prod (Borsh.uint 4)
def batchCodec : Borsh (ℕ × ℕ × List (WinnerProof Bytes32)) :=
  (Borsh.uint 8).prod <| (Borsh.uint 4).prod WinnerProof.codec.vec
def revealCodec : Borsh (ℕ × Bytes) := (Borsh.uint 8).prod Borsh.byte.vec

/-- Borsh numbers the variants in the order they are declared. -/
def discriminant : InstructionEnum → UInt8
  | initializeConfig .. => 0
  | updateServiceCharge .. => 1
  | createLottery => 2
  | buyTickets .. => 3
  | attestUploaded .. => 4
  | uploadReveals .. => 5
  | beginRevealNow .. => 6
  | finalizeWinners => 7
  | beginRevealPhase => 8
  | finalizeNoAttesters => 9
  | settlePayoutBatch .. => 10
  | settlementBegin => 11
  | settlementChunk => 12
  | settlementFinalize => 13
  | claimRefund => 14
  | attestReveal .. => 15
  | closeRefundVault => 16
  | closeParticipant => 17

/-- The handler a variant is for, with its arguments. -/
def call : InstructionEnum → Option (Instruction Bytes32)
  | initializeConfig price bps cap => some (.initializeConfig price bps cap)
  | updateServiceCharge bps => some (.updateServiceCharge bps)
  | createLottery => some .createLottery
  | buyTickets hash tickets => some (.buyTickets hash tickets)
  | attestUploaded vote => some (.attestUploaded vote)
  | uploadReveals entries => some (.uploadReveals entries)
  | beginRevealNow att upl => some (.beginRevealNow att upl)
  | finalizeWinners => some .finalizeWinners
  | beginRevealPhase => some (.beginRevealNow 0 0)
  | finalizeNoAttesters => some .finalizeNoAttesters
  | settlePayoutBatch id batch winners => some (.settlePayoutBatch id batch winners)
  | settlementBegin | settlementChunk | settlementFinalize => none
  | claimRefund => some .claimRefund
  | attestReveal vote plaintext => some (.attestReveal vote plaintext)
  | closeRefundVault => some .closeRefundVault
  | closeParticipant => some .closeParticipant

def payload : InstructionEnum → Bytes
  | initializeConfig price bps cap => configCodec.encode (price, bps, cap)
  | updateServiceCharge bps => (Borsh.uint 2).encode bps
  | buyTickets hash tickets => ticketsCodec.encode (hash, tickets)
  | attestUploaded vote => (Borsh.uint 8).encode vote
  | uploadReveals entries => entriesCodec.encode entries
  | beginRevealNow att upl => windowsCodec.encode (att, upl)
  | settlePayoutBatch id batch winners => batchCodec.encode (id, batch, winners)
  | attestReveal vote plaintext => revealCodec.encode (vote, plaintext)
  | _ => []

def encode (ix : InstructionEnum) : Bytes := ix.discriminant :: ix.payload

/-- The fields are values of their types: integers within their widths, vectors of `u32` length. -/
def Fits : InstructionEnum → Prop
  | initializeConfig price bps cap => configCodec.Fits (price, bps, cap)
  | updateServiceCharge bps => (Borsh.uint 2).Fits bps
  | buyTickets hash tickets => ticketsCodec.Fits (hash, tickets)
  | attestUploaded vote => (Borsh.uint 8).Fits vote
  | uploadReveals entries => entriesCodec.Fits entries
  | beginRevealNow att upl => windowsCodec.Fits (att, upl)
  | settlePayoutBatch id batch winners => batchCodec.Fits (id, batch, winners)
  | attestReveal vote plaintext => revealCodec.Fits (vote, plaintext)
  | _ => True

end InstructionEnum

namespace Dispatch

section Reading

variable {tag : UInt8} {data : Bytes} {start n : ℕ}

theorem bytesAt_eq (h : start + n ≤ data.length) :
    bytesAt data start n = .ok (slice data start n) := by
  induction n generalizing start with
  | zero => rw [bytesAt, slice, List.take_zero]
  | succ n ih =>
    have hlt : start < data.length := by omega
    have hbyte : data[start]? = some data[start] := List.getElem?_eq_getElem hlt
    simp only [bytesAt, bind_eq_ok, byteAt, okOr_eq_ok, hbyte, pure_eq_ok]
    refine ⟨_, rfl, _, ih (by omega), ?_⟩
    rw [slice, slice, List.drop_eq_getElem_cons hlt, List.take_succ_cons]

theorem uint_field (tag : UInt8) (start n : ℕ) (h : start + n ≤ data.length) : ∃ v,
    uintAt (tag :: data) (start + 1) n = .ok v ∧
      (Borsh.uint n).decode (data.drop start) = some (v, data.drop (start + n)) := by
  have hlen : start + 1 + n ≤ (tag :: data).length := by
    rw [List.length_cons]
    omega
  have hrest : n ≤ (data.drop start).length := by
    rw [List.length_drop]
    omega
  refine ⟨ofLeBytes ((data.drop start).take n), ?_, ?_⟩
  · rw [uintAt, bytesAt_eq hlen]
    rfl
  · rw [Borsh.decode_uint hrest, List.drop_drop]

theorem sliceAt_cons (h : start + n ≤ data.length) :
    sliceAt (tag :: data) (start + 1) (start + 1 + n) = .ok ((data.drop start).take n) := by
  have hin : ¬(start + 1 + n < start + 1 ∨ (tag :: data).length < start + 1 + n) := by
    rw [List.length_cons]
    omega
  simp only [sliceAt, bind_eq_ok, rejectIf_eq_ok, exists_const, pure_eq_ok]
  exact ⟨hin, by rw [slice, Nat.add_sub_cancel_left, List.drop_succ_cons]⟩

end Reading

open InstructionEnum

variable {tag : UInt8} {data : Bytes}

/-- What a handler is called with, where the fields are decoded, and the error where not. -/
def called {α : Type} (x : Option α) (f : α → Instruction Bytes32) : Result (Instruction Bytes32) :=
  okOr (x.map f) Error.invalidInstruction

@[simp] theorem called_some {α : Type} (x : α) (f : α → Instruction Bytes32) :
    called (some x) f = .ok (f x) := rfl

@[simp] theorem called_none {α : Type} (f : α → Instruction Bytes32) :
    called none f = .error Error.invalidInstruction := rfl

theorem initializeConfig_eq : initializeConfig (tag :: data) =
    called (configCodec.decode data) fun x ↦ .initializeConfig x.1.1 x.1.2.1 x.1.2.2 := by
  by_cases hlen : data.length < 14
  · have hexact : configCodec.Exact :=
      (Borsh.exact_uint 8).prod ((Borsh.exact_uint 2).prod (Borsh.exact_uint 4))
    have hnone : configCodec.decode data = none :=
      hexact.decode_eq_none (fun x ↦ by simp [configCodec, Borsh.prod, Borsh.uint]) hlen
    have hshort : (tag :: data).length < 1 + 8 + 2 + 4 := by
      rw [List.length_cons]
      omega
    rw [hnone, called_none]
    simp only [initializeConfig, bind_eq_error, rejectIf_eq_error]
    exact Or.inl ⟨hshort, trivial⟩
  · have hlong : ¬(tag :: data).length < 1 + 8 + 2 + 4 := by
      rw [List.length_cons]
      omega
    obtain ⟨price, hprice, hdecPrice⟩ := uint_field tag 0 8 (show 0 + 8 ≤ data.length by omega)
    obtain ⟨bps, hbps, hdecBps⟩ := uint_field tag 8 2 (show 8 + 2 ≤ data.length by omega)
    obtain ⟨cap, hcap, hdecCap⟩ := uint_field tag 10 4 (show 10 + 4 ≤ data.length by omega)
    have hdecode : configCodec.decode data = some ((price, bps, cap), data.drop 14) :=
      Borsh.decode_prod hdecPrice (Borsh.decode_prod hdecBps hdecCap)
    rw [hdecode, called_some]
    simp only [initializeConfig, bind_eq_ok, rejectIf_eq_ok, exists_const, pure_eq_ok, hprice, hbps,
      hcap, Except.ok.injEq, exists_eq_left']
    exact ⟨hlong, trivial⟩

theorem updateServiceCharge_eq : updateServiceCharge (tag :: data) =
    called ((Borsh.uint 2).decode data) fun x ↦ .updateServiceCharge x.1 := by
  by_cases hlen : data.length < 2
  · have hnone : (Borsh.uint 2).decode data = none := if_pos hlen
    have hshort : (tag :: data).length < 1 + 2 := by
      rw [List.length_cons]
      omega
    rw [hnone, called_none]
    simp only [updateServiceCharge, bind_eq_error, rejectIf_eq_error]
    exact Or.inl ⟨hshort, trivial⟩
  · have hlong : ¬(tag :: data).length < 1 + 2 := by
      rw [List.length_cons]
      omega
    obtain ⟨bps, hbps, hdecode : (Borsh.uint 2).decode data = _⟩ :=
      uint_field tag 0 2 (show 0 + 2 ≤ data.length by omega)
    rw [hdecode, called_some]
    simp only [updateServiceCharge, bind_eq_ok, rejectIf_eq_ok, exists_const, pure_eq_ok, hbps,
      Except.ok.injEq, exists_eq_left']
    exact ⟨hlong, trivial⟩

theorem attestUploaded_eq : attestUploaded (tag :: data) =
    called ((Borsh.uint 8).decode data) fun x ↦ .attestUploaded x.1 := by
  by_cases hlen : data.length < 8
  · have hnone : (Borsh.uint 8).decode data = none := if_pos hlen
    have hshort : (tag :: data).length < 1 + 8 := by
      rw [List.length_cons]
      omega
    rw [hnone, called_none]
    simp only [attestUploaded, bind_eq_error, rejectIf_eq_error]
    exact Or.inl ⟨hshort, trivial⟩
  · have hlong : ¬(tag :: data).length < 1 + 8 := by
      rw [List.length_cons]
      omega
    obtain ⟨vote, hvote, hdecode : (Borsh.uint 8).decode data = _⟩ :=
      uint_field tag 0 8 (show 0 + 8 ≤ data.length by omega)
    rw [hdecode, called_some]
    simp only [attestUploaded, bind_eq_ok, rejectIf_eq_ok, exists_const, pure_eq_ok, hvote,
      Except.ok.injEq, exists_eq_left']
    exact ⟨hlong, trivial⟩

theorem beginRevealNow_eq : beginRevealNow (tag :: data) =
    called (windowsCodec.decode data) fun x ↦ .beginRevealNow x.1.1 x.1.2 := by
  by_cases hlen : data.length < 8
  · have hexact : windowsCodec.Exact := (Borsh.exact_uint 4).prod (Borsh.exact_uint 4)
    have hnone : windowsCodec.decode data = none :=
      hexact.decode_eq_none (fun x ↦ by simp [windowsCodec, Borsh.prod, Borsh.uint]) hlen
    have hshort : (tag :: data).length < 1 + 4 + 4 := by
      rw [List.length_cons]
      omega
    rw [hnone, called_none]
    simp only [beginRevealNow, bind_eq_error, rejectIf_eq_error]
    exact Or.inl ⟨hshort, trivial⟩
  · have hlong : ¬(tag :: data).length < 1 + 4 + 4 := by
      rw [List.length_cons]
      omega
    obtain ⟨att, hatt, hdecAtt⟩ := uint_field tag 0 4 (show 0 + 4 ≤ data.length by omega)
    obtain ⟨upl, hupl, hdecUpl⟩ := uint_field tag 4 4 (show 4 + 4 ≤ data.length by omega)
    have hdecode : windowsCodec.decode data = some ((att, upl), data.drop 8) :=
      Borsh.decode_prod hdecAtt hdecUpl
    rw [hdecode, called_some]
    simp only [beginRevealNow, bind_eq_ok, rejectIf_eq_ok, exists_const, pure_eq_ok, hatt, hupl,
      Except.ok.injEq, exists_eq_left']
    exact ⟨hlong, trivial⟩

/-- The flag of an option counts as set when it is not zero. -/
def normalFlag : Bytes → Bytes
  | [] => []
  | flag :: rest => (if flag = 0 then 0 else 1) :: rest

/-- A hash and the number of tickets, behind the flag. -/
def hashCodec : Borsh (Bytes32 × ℕ) := (Borsh.array 32).prod (Borsh.uint 8)

theorem decode_one_cons : ticketsCodec.decode (1 :: data) =
    (hashCodec.decode data).map fun x ↦ ((some x.1.1, x.1.2), x.2) := by
  simp only [ticketsCodec, hashCodec, Borsh.prod, Borsh.option]
  cases (Borsh.array 32).decode data with
  | none => rfl
  | some x =>
    simp only [Option.map_some, Option.bind_some, Option.map_map]
    rfl

theorem buyTickets_eq : buyTickets (tag :: data) =
    called (ticketsCodec.decode (normalFlag data)) fun x ↦ .buyTickets x.1.1 x.1.2 := by
  cases data with
  | nil => rfl
  | cons flag rest =>
    have hflag : byteAt (tag :: flag :: rest) 1 = .ok flag := rfl
    by_cases hzero : flag = 0
    · have hfirst : normalFlag (flag :: rest) = 0 :: rest := by rw [normalFlag, if_pos hzero]
      have hnot : ¬flag ≠ 0 := not_not.mpr hzero
      by_cases hlen : rest.length < 8
      · have htickets : (Borsh.uint 8).decode rest = none := if_pos hlen
        have hnone : ticketsCodec.decode (0 :: rest) = none := by
          simp only [ticketsCodec, Borsh.prod, Borsh.option, Option.bind_some, htickets,
            Option.map_none]
        have hshort : (tag :: flag :: rest).length < 1 + 1 + 8 := by
          simp only [List.length_cons]
          omega
        rw [hfirst, hnone, called_none]
        simp only [buyTickets, bind_eq_error, rejectIf_eq_error]
        exact Or.inl ⟨hshort, trivial⟩
      · have hlong : ¬(tag :: flag :: rest).length < 1 + 1 + 8 := by
          simp only [List.length_cons]
          omega
        have hle : 1 + 8 ≤ (flag :: rest).length := by
          rw [List.length_cons]
          omega
        obtain ⟨tickets, htickets, hdecTickets⟩ := uint_field tag 1 8 hle
        have hnone : (Borsh.array 32).option.decode (0 :: rest) = some (none, rest) := rfl
        have hdecode : ticketsCodec.decode (0 :: rest) =
            some ((none, tickets), (flag :: rest).drop 9) := Borsh.decode_prod hnone hdecTickets
        rw [hfirst, hdecode, called_some]
        simp only [buyTickets, bind_eq_ok, rejectIf_eq_ok, exists_const, pure_eq_ok, hflag,
          if_neg hnot, htickets, Except.ok.injEq, exists_eq_left']
        exact ⟨hlong, hlong, trivial⟩
    · have hfirst : normalFlag (flag :: rest) = 1 :: rest := by rw [normalFlag, if_neg hzero]
      by_cases hlen : rest.length < 40
      · have hexact : hashCodec.Exact := (Borsh.exact_array 32).prod (Borsh.exact_uint 8)
        have hnone : hashCodec.decode rest = none :=
          hexact.decode_eq_none (fun x ↦ by simp [hashCodec, Borsh.prod, Borsh.array,
            Borsh.uint]) hlen
        have hshort : (tag :: flag :: rest).length < 1 + 1 + 32 + 8 := by
          simp only [List.length_cons]
          omega
        rw [hfirst, decode_one_cons, hnone, Option.map_none, called_none]
        simp only [buyTickets, bind_eq_error, rejectIf_eq_error, rejectIf_eq_ok,
          exists_const, hflag,
          ne_eq, hzero, not_false_eq_true, if_true, Except.ok.injEq, exists_eq_left']
        by_cases hten : (tag :: flag :: rest).length < 1 + 1 + 8
        · exact Or.inl ⟨hten, trivial⟩
        · exact Or.inr ⟨hten, Or.inr (Or.inl ⟨hshort, trivial⟩)⟩
      · have hlong : ¬(tag :: flag :: rest).length < 1 + 1 + 32 + 8 := by
          simp only [List.length_cons]
          omega
        have hten : ¬(tag :: flag :: rest).length < 1 + 1 + 8 := by
          simp only [List.length_cons]
          omega
        have hle : 1 + 32 ≤ (flag :: rest).length := by
          rw [List.length_cons]
          omega
        have hle' : 33 + 8 ≤ (flag :: rest).length := by
          rw [List.length_cons]
          omega
        have hhash : sliceAt (tag :: flag :: rest) 2 34 = .ok (rest.take 32) := sliceAt_cons hle
        have hdecHash : (Borsh.array 32).decode rest =
            some (Borsh.toVector 32 (rest.take 32), rest.drop 32) := Borsh.decode_array (by omega)
        obtain ⟨tickets, htickets, hdecTickets⟩ := uint_field tag 33 8 hle'
        have hdecode : hashCodec.decode rest = some ((Borsh.toVector 32 (rest.take 32), tickets),
            (flag :: rest).drop 41) := Borsh.decode_prod hdecHash hdecTickets
        rw [hfirst, decode_one_cons, hdecode, Option.map_some, called_some]
        simp only [buyTickets, bind_eq_ok, rejectIf_eq_ok, exists_const, pure_eq_ok, hflag,
          ne_eq, hzero,
          not_false_eq_true, if_true, hhash, htickets, Except.ok.injEq, exists_eq_left']
        exact ⟨hten, hlong, trivial⟩

theorem exact_entriesCodec : entriesCodec.Exact :=
  ((Borsh.exact_array 32).prod Borsh.exact_byte.vec).vec

theorem exact_winnersCodec : WinnerProof.codec.vec.Exact := by
  have hfields := (Borsh.exact_uint 8).prod ((Borsh.exact_array 32).prod
    ((Borsh.exact_uint 8).prod (Borsh.exact_array 32).vec))
  exact (hfields.imap fun _ ↦ rfl).vec

theorem tryFromSlice_eq_none {α : Type} {a : Borsh α} (h : a.decode data = none) :
    a.tryFromSlice data = none := by
  rw [Borsh.tryFromSlice, h, Option.bind_none]

theorem uploadReveals_eq : uploadReveals (tag :: data) =
    called (entriesCodec.tryFromSlice data) .uploadReveals := by
  by_cases hlen : data.length < 4
  · have hnone : entriesCodec.decode data = none :=
      exact_entriesCodec.decode_eq_none (fun x ↦ by simp [entriesCodec, Borsh.vec]) hlen
    have hshort : (tag :: data).length < 1 + 4 := by
      rw [List.length_cons]
      omega
    rw [tryFromSlice_eq_none hnone, called_none]
    simp only [uploadReveals, bind_eq_error, rejectIf_eq_error]
    exact Or.inl ⟨hshort, trivial⟩
  · have hlong : ¬(tag :: data).length < 1 + 4 := by
      rw [List.length_cons]
      omega
    have hslice : sliceAt (tag :: data) 1 (tag :: data).length = .ok data := by
      have hall := @sliceAt_cons tag data 0 data.length (Nat.zero_add _).le
      rwa [List.drop_zero, List.take_length, Nat.zero_add, Nat.add_comm] at hall
    cases hentries : entriesCodec.tryFromSlice data with
    | none =>
      rw [called_none]
      simp only [uploadReveals, bind_eq_error, rejectIf_eq_ok, hslice, exists_const, okOr_eq_error,
        Except.ok.injEq, exists_eq_left']
      exact Or.inr ⟨hlong, Or.inr (Or.inl ⟨hentries, trivial⟩)⟩
    | some entries =>
      rw [called_some]
      simp only [uploadReveals, bind_eq_ok, rejectIf_eq_ok, hslice, exists_const,
        okOr_eq_ok, pure_eq_ok, Except.ok.injEq, exists_eq_left']
      exact ⟨hlong, entries, hentries, rfl⟩

theorem settlePayoutBatch_eq : settlePayoutBatch (tag :: data) =
    called (batchCodec.tryFromSlice data) fun x ↦ .settlePayoutBatch x.1 x.2.1 x.2.2 := by
  by_cases hlen : data.length < 12
  · have hexact : batchCodec.Exact :=
      (Borsh.exact_uint 8).prod ((Borsh.exact_uint 4).prod exact_winnersCodec)
    have hnone : batchCodec.decode data = none :=
      hexact.decode_eq_none (fun x ↦ by simp [batchCodec, Borsh.prod, Borsh.uint]; omega) hlen
    have hshort : (tag :: data).length < 1 + 8 + 4 := by
      rw [List.length_cons]
      omega
    rw [tryFromSlice_eq_none hnone, called_none]
    simp only [settlePayoutBatch, bind_eq_error, rejectIf_eq_error]
    exact Or.inl ⟨hshort, trivial⟩
  · have hlong : ¬(tag :: data).length < 1 + 8 + 4 := by
      rw [List.length_cons]
      omega
    obtain ⟨id, hid, hdecId⟩ := uint_field tag 0 8 (show 0 + 8 ≤ data.length by omega)
    obtain ⟨batch, hbatch, hdecBatch⟩ := uint_field tag 8 4 (show 8 + 4 ≤ data.length by omega)
    have hslice : sliceAt (tag :: data) 13 (tag :: data).length = .ok (data.drop 12) := by
      have hall := @sliceAt_cons tag data 12 (data.length - 12) (by omega)
      rw [List.take_of_length_le (by rw [List.length_drop])] at hall
      have hstop : 12 + 1 + (data.length - 12) = (tag :: data).length := by
        rw [List.length_cons]
        omega
      rwa [hstop] at hall
    have hwinners : batchCodec.tryFromSlice data =
        (WinnerProof.codec.vec.tryFromSlice (data.drop 12)).map fun winners ↦
          (id, batch, winners) := by
      simp only [Borsh.tryFromSlice]
      cases hvec : WinnerProof.codec.vec.decode (data.drop 12) with
      | none =>
        have hnone : batchCodec.decode data = none := by
          have hid' : (Borsh.uint 8).decode data = some (id, data.drop 8) := hdecId
          simp only [batchCodec, Borsh.prod, hid', Option.bind_some, hdecBatch, hvec,
            Option.map_none]
        rw [hnone]
        rfl
      | some x =>
        have hdecode : batchCodec.decode data = some ((id, batch, x.1), x.2) :=
          Borsh.decode_prod hdecId (Borsh.decode_prod hdecBatch hvec)
        rw [hdecode, Option.bind_some, Option.bind_some]
        split <;> rfl
    cases hentries : WinnerProof.codec.vec.tryFromSlice (data.drop 12) with
    | none =>
      rw [hwinners, hentries, Option.map_none, called_none]
      simp only [settlePayoutBatch, bind_eq_error, rejectIf_eq_ok, hid, hbatch, hslice,
        exists_const, okOr_eq_error, Except.ok.injEq, exists_eq_left']
      exact Or.inr ⟨hlong, Or.inr (Or.inr (Or.inr (Or.inl ⟨hentries, trivial⟩)))⟩
    | some winners =>
      rw [hwinners, hentries, Option.map_some, called_some]
      simp only [settlePayoutBatch, bind_eq_ok, rejectIf_eq_ok, hid, hbatch, hslice, exists_const,
        okOr_eq_ok, pure_eq_ok, Except.ok.injEq, exists_eq_left']
      exact ⟨hlong, winners, hentries, rfl⟩

theorem attestReveal_eq : attestReveal (tag :: data) =
    called (revealCodec.decode data) fun x ↦ .attestReveal x.1.1 x.1.2 := by
  by_cases hlen : data.length < 12
  · have hexact : revealCodec.Exact := (Borsh.exact_uint 8).prod Borsh.exact_byte.vec
    have hnone : revealCodec.decode data = none :=
      hexact.decode_eq_none (fun x ↦ by simp [revealCodec, Borsh.prod, Borsh.uint, Borsh.vec]; omega) hlen
    have hshort : (tag :: data).length < 1 + 8 + 4 := by
      rw [List.length_cons]
      omega
    rw [hnone, called_none]
    simp only [attestReveal, bind_eq_error, rejectIf_eq_error]
    exact Or.inl ⟨hshort, trivial⟩
  · have hlong : ¬(tag :: data).length < 1 + 8 + 4 := by
      rw [List.length_cons]
      omega
    obtain ⟨vote, hvote, hdecVote⟩ := uint_field tag 0 8 (show 0 + 8 ≤ data.length by omega)
    obtain ⟨len, hreveal, hdecLen⟩ := uint_field tag 8 4 (show 8 + 4 ≤ data.length by omega)
    have hfits := (Borsh.exact_uint 4 _ _ _ hdecLen).1
    have hend : checkedAdd 64 13 len = some (13 + len) := by
      rw [checkedAdd_eq_some]
      simp only [Borsh.uint] at hfits
      exact ⟨by omega, rfl⟩
    have hvec : Borsh.byte.vec.decode (data.drop 8) =
        if (data.drop 12).length < len then none
        else some ((data.drop 12).take len, (data.drop 12).drop len) := by
      simp only [Borsh.vec, hdecLen, Option.bind_some, Borsh.decodeElements_byte]
    by_cases hreach : (data.drop 12).length < len
    · have hnone : revealCodec.decode data = none := by
        have hvote' : (Borsh.uint 8).decode data = some (vote, data.drop 8) := hdecVote
        have hvec' : Borsh.byte.vec.decode (data.drop 8) = none := hvec.trans (if_pos hreach)
        simp only [revealCodec, Borsh.prod, hvote', Option.bind_some, hvec', Option.map_none]
      have hover : (tag :: data).length < 13 + len := by
        rw [List.length_drop] at hreach
        rw [List.length_cons]
        omega
      rw [hnone, called_none]
      simp only [attestReveal, bind_eq_error, rejectIf_eq_error, rejectIf_eq_ok, hvote,
        hreveal, hend,
        okOr_eq_ok, exists_const, Except.ok.injEq, exists_eq_left', Option.some.injEq]
      exact Or.inr ⟨hlong, Or.inr (Or.inr (Or.inr (Or.inl ⟨hover, trivial⟩)))⟩
    · have hunder : ¬(tag :: data).length < 13 + len := by
        rw [List.length_drop] at hreach
        rw [List.length_cons]
        omega
      have hle : 12 + len ≤ data.length := by
        rw [List.length_drop] at hreach
        omega
      have hslice : sliceAt (tag :: data) 13 (13 + len) = .ok ((data.drop 12).take len) :=
        sliceAt_cons hle
      have hdecode : revealCodec.decode data =
          some ((vote, (data.drop 12).take len), (data.drop 12).drop len) :=
        Borsh.decode_prod hdecVote (hvec.trans (if_neg hreach))
      rw [hdecode, called_some]
      simp only [attestReveal, bind_eq_ok, rejectIf_eq_ok, hvote, hreveal, hend, hslice, okOr_eq_ok,
        exists_const, pure_eq_ok, Except.ok.injEq, exists_eq_left', Option.some.injEq]
      exact ⟨hlong, hunder, trivial⟩

end Dispatch

section Agreement

open Dispatch InstructionEnum

variable {tag : UInt8} {data : Bytes}

theorem dispatch_cons : dispatch (tag :: data) = arm tag (tag :: data) := rfl

theorem Dispatch.called_decode {α : Type} {a : Borsh α} {x : α} (h : a.Fits x)
    (f : α → Instruction Bytes32) : called (a.decode (a.encode x)) (fun y ↦ f y.1) = .ok (f x) := by
  rw [Borsh.decode_encode_self h, called_some]

theorem Dispatch.called_slice {α : Type} {a : Borsh α} {x : α} (h : a.Fits x)
    (f : α → Instruction Bytes32) : called (a.tryFromSlice (a.encode x)) f = .ok (f x) := by
  rw [Borsh.tryFromSlice_encode h, called_some]

theorem dispatch_encode {ix : InstructionEnum} {call : Instruction Bytes32} (hfits : ix.Fits)
    (hcall : ix.call = some call) : dispatch ix.encode = .ok call := by
  rw [InstructionEnum.encode, dispatch_cons]
  cases ix with
  | initializeConfig price bps cap =>
    obtain rfl := Option.some.inj hcall
    exact initializeConfig_eq.trans (called_decode hfits fun x ↦ .initializeConfig x.1 x.2.1 x.2.2)
  | updateServiceCharge bps =>
    obtain rfl := Option.some.inj hcall
    exact updateServiceCharge_eq.trans (called_decode hfits .updateServiceCharge)
  | buyTickets hash tickets =>
    obtain rfl := Option.some.inj hcall
    have hflag : normalFlag (ticketsCodec.encode (hash, tickets)) =
        ticketsCodec.encode (hash, tickets) := by
      cases hash <;> rfl
    refine buyTickets_eq.trans ?_
    rw [payload, hflag]
    exact called_decode hfits fun x ↦ .buyTickets x.1 x.2
  | attestUploaded vote =>
    obtain rfl := Option.some.inj hcall
    exact attestUploaded_eq.trans (called_decode hfits .attestUploaded)
  | uploadReveals entries =>
    obtain rfl := Option.some.inj hcall
    exact uploadReveals_eq.trans (called_slice hfits .uploadReveals)
  | beginRevealNow att upl =>
    obtain rfl := Option.some.inj hcall
    exact beginRevealNow_eq.trans (called_decode hfits fun x ↦ .beginRevealNow x.1 x.2)
  | settlePayoutBatch id batch winners =>
    obtain rfl := Option.some.inj hcall
    exact settlePayoutBatch_eq.trans
      (called_slice hfits fun x ↦ .settlePayoutBatch x.1 x.2.1 x.2.2)
  | attestReveal vote plaintext =>
    obtain rfl := Option.some.inj hcall
    exact attestReveal_eq.trans (called_decode hfits fun x ↦ .attestReveal x.1 x.2)
  | settlementBegin => cases hcall
  | settlementChunk => cases hcall
  | settlementFinalize => cases hcall
  | createLottery => exact congrArg _ (Option.some.inj hcall)
  | finalizeWinners => exact congrArg _ (Option.some.inj hcall)
  | beginRevealPhase => exact congrArg _ (Option.some.inj hcall)
  | finalizeNoAttesters => exact congrArg _ (Option.some.inj hcall)
  | claimRefund => exact congrArg _ (Option.some.inj hcall)
  | closeRefundVault => exact congrArg _ (Option.some.inj hcall)
  | closeParticipant => exact congrArg _ (Option.some.inj hcall)

/-- Bytes whose option flag, if they carry one, is zero or one. -/
def oneFlag : Bytes → Bytes
  | [] => []
  | tag :: data => tag :: if tag = tagBuyTickets then normalFlag data else data

/-- A result that is an error other than a panic, or a call with the arguments whose encoding the
bytes begin with. -/
def Reads (data : Bytes) (r : Result (Instruction Bytes32)) : Prop :=
  (∃ e, r = .error e ∧ e ≠ .panicked) ∨
    ∃ (ix : InstructionEnum) (call : Instruction Bytes32) (rest : Bytes),
      ix.Fits ∧ ix.call = some call ∧ r = .ok call ∧ data = ix.encode ++ rest

theorem Reads.of_decode {α : Type} {a : Borsh α} (ha : a.Exact) {f : α → Instruction Bytes32}
    (ix : α → InstructionEnum) (hcall : ∀ x, (ix x).call = some (f x))
    (hfits : ∀ x, a.Fits x → (ix x).Fits) (hencode : ∀ x, (ix x).encode = tag :: a.encode x) :
    Reads (tag :: data) (called (a.decode data) fun x ↦ f x.1) := by
  cases hdecode : a.decode data with
  | none => exact Or.inl ⟨_, rfl, by simp⟩
  | some x =>
    obtain ⟨hx, hdata⟩ := ha _ _ _ hdecode
    refine Or.inr ⟨ix x.1, f x.1, x.2, hfits _ hx, hcall _, rfl, ?_⟩
    rw [hencode, List.cons_append, hdata]

theorem Reads.of_slice {α : Type} {a : Borsh α} (ha : a.Exact) {f : α → Instruction Bytes32}
    (ix : α → InstructionEnum) (hcall : ∀ x, (ix x).call = some (f x))
    (hfits : ∀ x, a.Fits x → (ix x).Fits) (hencode : ∀ x, (ix x).encode = tag :: a.encode x) :
    Reads (tag :: data) (called (a.tryFromSlice data) f) := by
  cases hdecode : a.tryFromSlice data with
  | none => exact Or.inl ⟨_, rfl, by simp⟩
  | some x =>
    obtain ⟨hx, hdata⟩ := ha.tryFromSlice hdecode
    refine Or.inr ⟨ix x, f x, [], hfits _ hx, hcall _, rfl, ?_⟩
    rw [hencode, List.append_nil, hdata]

theorem Reads.of_tag (ix : InstructionEnum) {call : Instruction Bytes32}
    (hcall : ix.call = some call)
    (hfits : ix.Fits) (hencode : ix.encode = [tag]) : Reads (tag :: data) (.ok call) :=
  Or.inr ⟨ix, call, data, hfits, hcall, rfl, by rw [hencode, List.singleton_append]⟩

theorem arm_reads (tag : UInt8) (data : Bytes) :
    Reads (oneFlag (tag :: data)) (arm tag (tag :: data)) := by
  by_cases h₀ : tag = tagInitialize
  · subst h₀
    have harm : arm tagInitialize (tagInitialize :: data) = _ := initializeConfig_eq
    rw [harm]
    exact Reads.of_decode ((Borsh.exact_uint 8).prod
      ((Borsh.exact_uint 2).prod (Borsh.exact_uint 4)))
      (fun x ↦ .initializeConfig x.1 x.2.1 x.2.2) (fun _ ↦ rfl) (fun _ h ↦ h) fun _ ↦ rfl
  by_cases h₁ : tag = tagUpdateServiceCharge
  · subst h₁
    have harm : arm tagUpdateServiceCharge (tagUpdateServiceCharge :: data) = _ :=
      updateServiceCharge_eq
    rw [harm]
    exact Reads.of_decode (Borsh.exact_uint 2) .updateServiceCharge (fun _ ↦ rfl) (fun _ h ↦ h)
      fun _ ↦ rfl
  by_cases h₂ : tag = tagCreateLottery
  · subst h₂
    exact Reads.of_tag .createLottery rfl trivial rfl
  by_cases h₃ : tag = tagBuyTickets
  · subst h₃
    have harm : arm tagBuyTickets (tagBuyTickets :: data) = _ := buyTickets_eq
    rw [harm]
    exact Reads.of_decode ((Borsh.exact_option (Borsh.exact_array 32)).prod (Borsh.exact_uint 8))
      (fun x ↦ .buyTickets x.1 x.2) (fun _ ↦ rfl) (fun _ h ↦ h) fun _ ↦ rfl
  by_cases h₄ : tag = tagAttestUploaded
  · subst h₄
    have harm : arm tagAttestUploaded (tagAttestUploaded :: data) = _ := attestUploaded_eq
    rw [harm]
    exact Reads.of_decode (Borsh.exact_uint 8) .attestUploaded (fun _ ↦ rfl) (fun _ h ↦ h)
      fun _ ↦ rfl
  by_cases h₅ : tag = tagUploadReveals
  · subst h₅
    have harm : arm tagUploadReveals (tagUploadReveals :: data) = _ := uploadReveals_eq
    rw [harm]
    exact Reads.of_slice exact_entriesCodec .uploadReveals (fun _ ↦ rfl) (fun _ h ↦ h) fun _ ↦ rfl
  by_cases h₆ : tag = tagBeginRevealNow
  · subst h₆
    have harm : arm tagBeginRevealNow (tagBeginRevealNow :: data) = _ := beginRevealNow_eq
    rw [harm]
    exact Reads.of_decode ((Borsh.exact_uint 4).prod (Borsh.exact_uint 4))
      (fun x ↦ .beginRevealNow x.1 x.2) (fun _ ↦ rfl) (fun _ h ↦ h) fun _ ↦ rfl
  by_cases h₇ : tag = tagFinalizeWinners
  · subst h₇
    exact Reads.of_tag .finalizeWinners rfl trivial rfl
  by_cases h₈ : tag = tagSettlePayoutBatch
  · subst h₈
    have harm : arm tagSettlePayoutBatch (tagSettlePayoutBatch :: data) = _ := settlePayoutBatch_eq
    rw [harm]
    exact Reads.of_slice ((Borsh.exact_uint 8).prod ((Borsh.exact_uint 4).prod exact_winnersCodec))
      (fun x ↦ .settlePayoutBatch x.1 x.2.1 x.2.2) (fun _ ↦ rfl) (fun _ h ↦ h) fun _ ↦ rfl
  by_cases h₉ : tag = tagBeginRevealPhase
  · subst h₉
    exact Reads.of_tag .beginRevealPhase rfl trivial rfl
  by_cases h₁₀ : tag = tagFinalizeNoAttesters
  · subst h₁₀
    exact Reads.of_tag .finalizeNoAttesters rfl trivial rfl
  by_cases h₁₁ : tag = tagClaimRefund
  · subst h₁₁
    exact Reads.of_tag .claimRefund rfl trivial rfl
  by_cases h₁₂ : tag = tagAttestReveal
  · subst h₁₂
    have harm : arm tagAttestReveal (tagAttestReveal :: data) = _ := attestReveal_eq
    rw [harm]
    exact Reads.of_decode ((Borsh.exact_uint 8).prod Borsh.exact_byte.vec)
      (fun x ↦ .attestReveal x.1 x.2) (fun _ ↦ rfl) (fun _ h ↦ h) fun _ ↦ rfl
  by_cases h₁₃ : tag = tagCloseRefundVault
  · subst h₁₃
    exact Reads.of_tag .closeRefundVault rfl trivial rfl
  by_cases h₁₄ : tag = tagCloseParticipant
  · subst h₁₄
    exact Reads.of_tag .closeParticipant rfl trivial rfl
  rw [arm, if_neg h₀, if_neg h₁, if_neg h₂, if_neg h₃, if_neg h₄, if_neg h₅, if_neg h₆, if_neg h₇,
    if_neg h₈, if_neg h₉, if_neg h₁₀, if_neg h₁₁, if_neg h₁₂, if_neg h₁₃, if_neg h₁₄]
  exact Or.inl ⟨_, rfl, by simp⟩

theorem arm_unsupported (h : 11 ≤ tag ∧ tag ≤ 13 ∨ 17 < tag) :
    arm tag data = .error Error.invalidInstruction := by
  have hne (t : UInt8) (ht : t < 11 ∨ 13 < t ∧ t ≤ 17) : tag ≠ t := by
    rintro rfl
    have hlits : (11 : UInt8).toNat = 11 ∧ (13 : UInt8).toNat = 13 ∧ (17 : UInt8).toNat = 17 :=
      ⟨rfl, rfl, rfl⟩
    simp only [UInt8.lt_iff_toNat_lt, UInt8.le_iff_toNat_le] at h ht
    omega
  simp only [arm, hne tagInitialize (by decide), hne tagUpdateServiceCharge (by decide),
    hne tagCreateLottery (by decide), hne tagBuyTickets (by decide),
    hne tagAttestUploaded (by decide), hne tagUploadReveals (by decide),
    hne tagBeginRevealNow (by decide), hne tagFinalizeWinners (by decide),
    hne tagSettlePayoutBatch (by decide), hne tagBeginRevealPhase (by decide),
    hne tagFinalizeNoAttesters (by decide), hne tagClaimRefund (by decide),
    hne tagAttestReveal (by decide), hne tagCloseRefundVault (by decide),
    hne tagCloseParticipant (by decide), if_false]

/-- The dispatcher passes every encoding of a supported variant to that variant's handler with
the variant's own fields. Of any bytes at all it makes an error, never a panic, or one call whose
arguments the bytes encode; the tags without a handler are refused. -/
theorem dispatch_agrees {K : Type} [DecidableEq K] [Inhabited K] (rt : Runtime K)
    (key : Bytes32 → K) (w : World K) (preceding : List (K × Bytes))
    (accounts : List (AccountInfo K)) :
    (∀ (ix : InstructionEnum) (call : Instruction Bytes32), ix.Fits → ix.call = some call →
      dispatch ix.encode = .ok call ∧ processBytes rt key w preceding ix.encode accounts =
        processInstruction rt w preceding (call.withKeys key) accounts) ∧
    (∀ ix : InstructionEnum, ix.call = none ↔ 11 ≤ ix.discriminant ∧ ix.discriminant ≤ 13) ∧
    (∀ data, Reads (oneFlag data) (dispatch data)) ∧
    ∀ (tag : UInt8) (data : Bytes), 11 ≤ tag ∧ tag ≤ 13 ∨ 17 < tag →
      dispatch (tag :: data) = .error Error.invalidInstruction := by
  refine ⟨fun ix call hfits hcall ↦ ?_, fun ix ↦ ?_, fun data ↦ ?_, fun tag data h ↦ ?_⟩
  · have hread := dispatch_encode hfits hcall
    refine ⟨hread, ?_⟩
    rw [processBytes, hread]
    rfl
  · cases ix <;> simp [call, discriminant]
  · cases data with
    | nil => exact Or.inl ⟨_, rfl, by simp⟩
    | cons tag data =>
      rw [dispatch_cons]
      exact arm_reads tag data
  · rw [dispatch_cons]
    exact arm_unsupported h

end Agreement

end DailyLottery
