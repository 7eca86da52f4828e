import DailyLottery.State.Config
import DailyLottery.Lib.Bitmap

namespace DailyLottery

open Lib

inductive LotteryStatus
  | active | settled
  deriving DecidableEq, Repr

def LotteryStatus.ofU8 (value : UInt8) : LotteryStatus :=
  if value = 1 then .settled else .active

def LotteryStatus.toU8 : LotteryStatus → UInt8
  | .active => 0
  | .settled => 1

inductive Phase
  | buy | upload | remediation | settlement | settled
  deriving DecidableEq, Repr

def lotteryAccountVersion : ℕ := 1

structure Lottery (K : Type) where
  id : ℕ
  config : K
  authority : K
  createdAtUnix : ℤ
  buyStartUnix : ℤ
  buyDeadlineUnix : ℤ
  uploadStartUnix : ℤ
  uploadDeadlineUnix : ℤ
  settlementStartUnix : ℤ
  status : UInt8
  totalTickets : ℕ
  totalFunds : ℕ
  providerUploadedCount : ℕ
  pocAggregateHash : Bytes32
  uploadsComplete : Bool
  settled : Bool
  vault : K
  vaultBump : ℕ
  attestedCount : ℕ
  participantsCount : ℕ
  selectedNumberOfWinners : ℕ
  winnersMerkleRoot : Bytes32
  winnersCount : ℕ
  totalPayout : ℕ
  paidWinnersBitmap : List UInt8
  settlementBatchesCompleted : ℕ
  settlementComplete : Bool
  remediationStartUnix : ℤ
  remediationDeadlineUnix : ℤ
  serviceChargeBps : ℕ
  ticketPriceLamports : ℕ
  accountVersion : ℕ
  reserved : Vector UInt8 126

namespace Lottery

variable {K : Type}

/-- Buy window, then upload window; the sums abort on overflow. -/
def calculateWindows (createdAtUnix : ℤ) : Result (ℤ × ℤ × ℤ × ℤ) := do
  let buyDeadline ← okOr (addI64 createdAtUnix (24 * 60 * 60)) .panicked
  let uploadStart ← okOr (addI64 createdAtUnix (24 * 60 * 60)) .panicked
  let uploadDeadline ← okOr (addI64 createdAtUnix (48 * 60 * 60)) .panicked
  return (createdAtUnix, buyDeadline, uploadStart, uploadDeadline)

def new (id : ℕ) (config authority : K) (createdAtUnix : ℤ) (vault : K) (vaultBump : ℕ)
    (serviceChargeBps ticketPriceLamports : ℕ) : Result (Lottery K) := do
  let (buyStartUnix, buyDeadlineUnix, uploadStartUnix, uploadDeadlineUnix) ←
    calculateWindows createdAtUnix
  return {
    id, config, authority, createdAtUnix
    buyStartUnix, buyDeadlineUnix, uploadStartUnix, uploadDeadlineUnix
    settlementStartUnix := 0
    status := LotteryStatus.active.toU8
    totalTickets := 0
    totalFunds := 0
    providerUploadedCount := 0
    pocAggregateHash := Vector.replicate 32 0
    uploadsComplete := false
    settled := false
    vault, vaultBump
    attestedCount := 0
    participantsCount := 0
    selectedNumberOfWinners := 1
    winnersMerkleRoot := Vector.replicate 32 0
    winnersCount := 0
    totalPayout := 0
    paidWinnersBitmap := List.replicate ((Sizes.maxWinners + 7) / 8) 0
    settlementBatchesCompleted := 0
    settlementComplete := false
    remediationStartUnix := 0
    remediationDeadlineUnix := 0
    serviceChargeBps, ticketPriceLamports
    accountVersion := lotteryAccountVersion
    reserved := Vector.replicate 126 0 }

def getStatus (l : Lottery K) : LotteryStatus := .ofU8 l.status

def isActive (l : Lottery K) : Bool := l.getStatus = .active && !l.settled

def isInBuyWindow (l : Lottery K) (currentTime : ℤ) : Bool :=
  if 0 < l.uploadStartUnix ∧ l.uploadStartUnix ≤ currentTime then false
  else 0 < l.buyStartUnix ∧ l.buyStartUnix ≤ currentTime ∧ currentTime < l.buyDeadlineUnix

def isInUploadWindow (l : Lottery K) (currentTime : ℤ) : Bool :=
  0 < l.uploadStartUnix ∧ l.uploadStartUnix ≤ currentTime ∧ currentTime ≤ l.uploadDeadlineUnix

def hasMissingAttestedReveals (l : Lottery K) : Bool :=
  0 < l.attestedCount ∧ l.providerUploadedCount < l.attestedCount

def attestedRevealsComplete (l : Lottery K) : Bool :=
  0 < l.attestedCount ∧ l.attestedCount ≤ l.providerUploadedCount

def remediationActive (l : Lottery K) (currentTime : ℤ) : Bool :=
  (0 < l.remediationStartUnix ∧ 0 < l.remediationDeadlineUnix ∧
    currentTime ≤ l.remediationDeadlineUnix) && l.hasMissingAttestedReveals

def remediationExpired (l : Lottery K) (currentTime : ℤ) : Bool :=
  (0 < l.remediationDeadlineUnix ∧ l.remediationDeadlineUnix < currentTime) &&
    l.hasMissingAttestedReveals

def phase (l : Lottery K) (currentTime : ℤ) : Phase :=
  if l.settled then .settled
  else if l.participantsCount = 1 ∧ 0 < l.uploadDeadlineUnix ∧
      l.uploadDeadlineUnix < currentTime then .settled
  else if l.remediationActive currentTime then .remediation
  else if 0 < l.settlementStartUnix then .settlement
  else if 0 < l.uploadStartUnix ∧ l.uploadStartUnix ≤ currentTime ∧
      currentTime ≤ l.uploadDeadlineUnix then .upload
  else if currentTime ≤ l.buyDeadlineUnix then .buy
  else .settlement

def beginRemediation (l : Lottery K) (currentTime : ℤ) : Result (Lottery K) :=
  if l.remediationStartUnix = 0 then do
    let deadline ← okOr (addI64 currentTime Sizes.defaultRemediationWindowSecs) .panicked
    return { l with remediationStartUnix := currentTime, remediationDeadlineUnix := deadline }
  else return l

def isEffectivelySettled (l : Lottery K) (currentTime : ℤ) : Bool :=
  l.phase currentTime = .settled

def addTickets (l : Lottery K) (count lamports : ℕ) : Result (Lottery K) := do
  let totalTickets ← okOr (checkedAdd 64 l.totalTickets count) Error.mathOverflow
  let totalFunds ← okOr (checkedAdd 64 l.totalFunds lamports) Error.mathOverflow
  return { l with totalTickets, totalFunds }

def addAttestation (l : Lottery K) : Result (Lottery K) := do
  let attestedCount ← okOr (checkedAdd 64 l.attestedCount 1) Error.mathOverflow
  return { l with attestedCount }

def markUploadsComplete (l : Lottery K) (aggregateHash : Bytes32) : Lottery K :=
  { l with uploadsComplete := true, pocAggregateHash := aggregateHash }

def settle (l : Lottery K) : Lottery K :=
  { l with settled := true, status := LotteryStatus.settled.toU8 }

def addParticipant (l : Lottery K) : Result (Lottery K) := do
  let participantsCount ← okOr (checkedAdd 64 l.participantsCount 1) Error.mathOverflow
  return { l with participantsCount }

def setSelectedWinners (l : Lottery K) (count : ℕ) : Result (Lottery K) := do
  rejectIf (count = 0) Error.invalidInstruction
  rejectIf (l.participantsCount ≤ 1) Error.invalidInstruction
  rejectIf (l.participantsCount - 1 < count) Error.invalidInstruction
  return { l with selectedNumberOfWinners := count }

/-- The loop that clears the used bytes of the bitmap; a missing byte would abort. -/
def clearBitmap (bitmap : List UInt8) (bytesNeeded : ℕ) : Result (List UInt8) := do
  rejectIf (bitmap.length < bytesNeeded) .panicked
  return List.replicate bytesNeeded 0 ++ bitmap.drop bytesNeeded

def initializeSettlement (l : Lottery K) (winnersMerkleRoot : Bytes32)
    (winnersCount totalPayout : ℕ) : Result (Lottery K) := do
  rejectIf (l.settlementComplete = true) Error.lotteryAlreadySettled
  rejectIf (Sizes.maxWinners < winnersCount) Error.invalidInstruction
  let paidWinnersBitmap ← clearBitmap l.paidWinnersBitmap ((winnersCount + 7) / 8)
  return { l with winnersMerkleRoot, winnersCount, totalPayout, paidWinnersBitmap }

def isWinnerPaid (l : Lottery K) (winnerIndex : ℕ) : Bool :=
  if l.winnersCount ≤ winnerIndex then false
  else if l.paidWinnersBitmap.length ≤ winnerIndex / 8 then false
  else testBit (l.paidWinnersBitmap.getD (winnerIndex / 8) 0) (winnerIndex % 8)

def markWinnerPaid (l : Lottery K) (winnerIndex : ℕ) : Result (Lottery K) := do
  rejectIf (l.winnersCount ≤ winnerIndex) Error.invalidInstruction
  -- `while byte_index >= len { push(0) }`
  let bitmap := l.paidWinnersBitmap ++
    List.replicate (winnerIndex / 8 + 1 - l.paidWinnersBitmap.length) 0
  return { l with paidWinnersBitmap := orAt bitmap winnerIndex }

def incrementSettlementBatch (l : Lottery K) : Lottery K :=
  { l with settlementBatchesCompleted := saturatingAdd 32 l.settlementBatchesCompleted 1 }

def allWinnersPaid (l : Lottery K) : Bool :=
  if l.winnersCount = 0 then true
  else (List.range l.winnersCount).all fun i ↦ l.isWinnerPaid i

def completeSettlement (l : Lottery K) : Result (Lottery K) := do
  rejectIf (l.allWinnersPaid = false) Error.invalidInstruction
  return { l with settlementComplete := true }.settle

/-- `upload_elapsed`, as three handlers compute it. -/
def uploadElapsed (l : Lottery K) (currentTime : ℤ) : Bool :=
  0 < l.uploadDeadlineUnix ∧ l.uploadDeadlineUnix < currentTime

/-- `all_attested`, as two handlers compute it. -/
def allAttested (l : Lottery K) : Bool :=
  0 < l.participantsCount ∧ l.attestedCount = l.participantsCount

end Lottery

end DailyLottery
