import DailyLottery.State.Config
import DailyLottery.Lib.Bitmap

namespace DailyLottery

open Lib

def finalizationProtocolVersion : ℕ := 2

/-- The ledger's phase byte; `unknown` stands for every value but 0, 1 and 2. -/
inductive FinalizationPhase
  | aggregating | selecting | completed | unknown
  deriving DecidableEq, Repr

def winnersPerPage : ℕ := 100

structure SelectedWinner (K : Type) where
  wallet : K
  tickets : ℕ
  deriving DecidableEq

structure FinalizationLedger (K : Type) where
  lottery : K
  protocolVersion : ℕ
  phase : FinalizationPhase
  generation : ℕ
  requiredCount : ℕ
  processedCount : ℕ
  eligibleCount : ℕ
  totalEligibleTickets : ℕ
  seed : Bytes32
  participantsCommitment : Bytes32
  targetWinners : ℕ
  currentRound : ℕ
  selectedCount : ℕ
  selectedTicketsTotal : ℕ
  roundProcessedCount : ℕ
  roundRemainingTicketsSeen : ℕ
  roundDrawIndex : ℕ
  pendingWinner : K
  pendingWinnerTickets : ℕ
  pendingWinnerFound : Bool
  hasLastWallet : Bool
  lastProcessedWallet : K
  winnersCommitment : Bytes32
  completed : Bool
  startedAtUnix : ℤ
  completedAtUnix : ℤ
  reserved : Vector UInt8 64

namespace FinalizationLedger

variable {K : Type} [Inhabited K]

def size : ℕ :=
  8 + 32 + 2 + 1 + 4 + 8 + 8 + 8 + 8 + 32 + 32 + 4 + 4 + 4 + 8 + 8 + 8 + 8 + 32 + 8 + 1 + 1 + 32 +
    32 + 1 + 8 + 8 + 64

def new (lottery : K) (requiredCount : ℕ) (startedAtUnix : ℤ) : FinalizationLedger K :=
  { lottery
    protocolVersion := finalizationProtocolVersion
    phase := .aggregating
    generation := 1
    requiredCount
    processedCount := 0
    eligibleCount := 0
    totalEligibleTickets := 0
    seed := Vector.replicate 32 0
    participantsCommitment := Vector.replicate 32 0
    targetWinners := 0
    currentRound := 0
    selectedCount := 0
    selectedTicketsTotal := 0
    roundProcessedCount := 0
    roundRemainingTicketsSeen := 0
    roundDrawIndex := 0
    pendingWinner := default
    pendingWinnerTickets := 0
    pendingWinnerFound := false
    hasLastWallet := false
    lastProcessedWallet := default
    winnersCommitment := Vector.replicate 32 0
    completed := false
    startedAtUnix
    completedAtUnix := 0
    reserved := Vector.replicate 64 0 }

def resetPassCursor (root : FinalizationLedger K) : FinalizationLedger K :=
  { root with hasLastWallet := false, lastProcessedWallet := default }

def beginSelectionRound (root : FinalizationLedger K) (drawIndex : ℕ) : FinalizationLedger K :=
  { root with
    phase := .selecting
    roundProcessedCount := 0
    roundRemainingTicketsSeen := 0
    roundDrawIndex := drawIndex
    pendingWinner := default
    pendingWinnerTickets := 0
    pendingWinnerFound := false }.resetPassCursor

def remainingTickets (root : FinalizationLedger K) : Result ℕ := do
  rejectIf (root.totalEligibleTickets < root.selectedTicketsTotal) Error.mathOverflow
  return root.totalEligibleTickets - root.selectedTicketsTotal

def complete (root : FinalizationLedger K) (timestamp : ℤ) : FinalizationLedger K :=
  { root with phase := .completed, completed := true, completedAtUnix := timestamp }.resetPassCursor

end FinalizationLedger

/-- The serialized header of a winner page. -/
structure WinnerPage (K : Type) where
  lottery : K
  generation : ℕ
  pageIndex : ℕ
  count : ℕ
  reserved : Vector UInt8 64

/-- The bytes of a page account from `ENTRIES_OFFSET` on: a hundred entry slots, then the
paid bitmap. -/
structure PageData (K : Type) where
  entries : Vector (SelectedWinner K) winnersPerPage
  paid : Vector UInt8 ((winnersPerPage + 7) / 8)

def PageData.zeroed {K : Type} [Inhabited K] : PageData K :=
  ⟨Vector.replicate _ ⟨default, 0⟩, Vector.replicate _ 0⟩

namespace WinnerPage

variable {K : Type}

def size : ℕ := 8 + 32 + 4 + 4 + 2 + 64 + winnersPerPage * (32 + 8) + (winnersPerPage + 7) / 8

def new (lottery : K) (generation pageIndex : ℕ) : WinnerPage K :=
  { lottery, generation, pageIndex, count := 0, reserved := Vector.replicate 64 0 }

def append (page : WinnerPage K) (data : PageData K) (winner : SelectedWinner K) :
    Result (WinnerPage K × PageData K) := do
  rejectIf (winnersPerPage ≤ page.count) Error.invalidInstruction
  let count ← okOr (checkedAdd 16 page.count 1) Error.mathOverflow
  return ({ page with count },
    { data with entries := data.entries.setIfInBounds page.count winner })

def winner (page : WinnerPage K) (data : PageData K) (offset : ℕ) : Option (SelectedWinner K) :=
  if page.count ≤ offset then none else data.entries[offset]?

def isPaid (page : WinnerPage K) (data : PageData K) (offset : ℕ) : Bool :=
  offset < page.count && maskBit (data.paid.toList.getD (offset / 8) 0) (offset % 8)

def markPaid (page : WinnerPage K) (data : PageData K) (offset : ℕ) : Result (PageData K) := do
  rejectIf (page.count ≤ offset ∨ page.isPaid data offset = true) Error.winnerAlreadyPaid
  return { data with
    paid := data.paid.setIfInBounds (offset / 8)
      (orBit (data.paid.toList.getD (offset / 8) 0) (offset % 8)) }

end WinnerPage

end DailyLottery
