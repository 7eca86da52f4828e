import DailyLottery.Utils.Crypto

namespace DailyLottery.FinalizeWinners

open Lib

variable {K : Type} [DecidableEq K] [Inhabited K] (rt : Runtime K)

def loadOrCreateRoot (w : World K) (lotteryAi payerAi rootAi : AccountInfo K) (lottery : Lottery K)
    (currentTime : ℤ) : Result (World K × FinalizationLedger K) := do
  assertPdaKey rt rootAi (.finalizationRoot lotteryAi.key)
  if dataIsEmpty w rootAi then
    let w ← createAccount rt w payerAi rootAi FinalizationLedger.size
    return (w, FinalizationLedger.new lotteryAi.key lottery.participantsCount currentTime)
  else
    assertPdaOwned rt w rootAi (.finalizationRoot lotteryAi.key)
    let root ← readAccountData rt w (FinalizationLedger K) rootAi
    rejectIf (root.lottery ≠ lotteryAi.key ∨ root.protocolVersion ≠ finalizationProtocolVersion ∨
      root.requiredCount ≠ lottery.participantsCount) Error.invalidAccountData
    return (w, root)

def readValidParticipant (w : World K) (lotteryAi participantAi : AccountInfo K) :
    Result (Participant K) := do
  let participant ← readAccountData rt w (Participant K) participantAi
  rejectIf (participant.lottery ≠ lotteryAi.key) Error.invalidAccountData
  assertPdaOwned rt w participantAi (.participant lotteryAi.key participant.wallet)
  return participant

def requireParticipantIndex (expected actual : ℕ) : Result Unit :=
  rejectIf (actual ≠ expected) Error.invalidInstruction

/-- The ledger after an included participant joins the pool. -/
def addEligible (root : FinalizationLedger K) (participant : Participant K) :
    Result (FinalizationLedger K) := do
  let eligibleCount ← okOr (checkedAdd 64 root.eligibleCount 1) Error.mathOverflow
  let totalEligibleTickets ← okOr (checkedAdd 64 root.totalEligibleTickets
    participant.ticketsBought) Error.mathOverflow
  return { root with
    eligibleCount, totalEligibleTickets
    participantsCommitment := extendParticipantsCommitment rt root.participantsCommitment
      participant.participantIndex participant.wallet participant.ticketsBought
      participant.revealDigest }

/-- One pass of the loop in `process_aggregation_chunk`. -/
def aggregateParticipant (root : FinalizationLedger K) (participant : Participant K) :
    Result (FinalizationLedger K × Option (Participant K)) := do
  requireParticipantIndex root.processedCount participant.participantIndex
  rejectIf (participant.ticketsBought = 0 ∨ participant.finalizationGeneration = root.generation)
    Error.invalidAccountData
  let participant := participant.markFinalizedForGeneration root.generation
  let processedCount ← okOr (checkedAdd 64 root.processedCount 1) Error.mathOverflow
  let root := { root with processedCount }
  let root ← (if participant.revealIncluded then addEligible rt root participant else pure root)
  return (root, some participant)

def writeUpdated (w : World K) (participantAi : AccountInfo K) :
    Option (Participant K) → Result (World K)
  | some participant => writeAccountData rt w participantAi participant
  | none => .ok w

/-- The loop over participant accounts both passes share: `body` updates the ledger and says
whether the participant is written back. -/
def participantLoop
    (body : FinalizationLedger K → Participant K →
      Result (FinalizationLedger K × Option (Participant K)))
    (lotteryAi : AccountInfo K) :
    List (AccountInfo K) → World K → FinalizationLedger K → Result (World K × FinalizationLedger K)
  | [], w, root => .ok (w, root)
  | participantAi :: rest, w, root => do
    requireWritable participantAi
    let participant ← readValidParticipant rt w lotteryAi participantAi
    let (root, updated) ← body root participant
    let w ← writeUpdated rt w participantAi updated
    participantLoop body lotteryAi rest w root

/-- The end of the aggregation pass: target, seed and the first draw. -/
def finishAggregation (config : Config K) (lottery : Lottery K) (root : FinalizationLedger K) :
    Result (Lottery K × FinalizationLedger K) := do
  rejectIf (root.eligibleCount = 0 ∨ root.totalEligibleTickets = 0) Error.noAttestedParticipants
  let target := min (min (max lottery.selectedNumberOfWinners 1)
    (config.effectiveMaxWinners lottery.participantsCount)) root.eligibleCount
  rejectIf (2 ^ 32 ≤ target) Error.mathOverflow
  let root := { root with targetWinners := target }
  let lottery ← lottery.setSelectedWinners target
  let root := { root with
    seed := computeSeed rt lottery.id root.eligibleCount root.totalEligibleTickets
      lottery.pocAggregateHash root.participantsCommitment }
  let remaining ← root.remainingTickets
  let draw ← drawIndex rt root.seed 0 remaining
  return (lottery, { root with currentRound := 0 }.beginSelectionRound draw)

def processAggregationChunk (w : World K) (lotteryAi : AccountInfo K) (config : Config K)
    (lottery : Lottery K) (root : FinalizationLedger K)
    (participantAccounts : List (AccountInfo K)) :
    Result (World K × Lottery K × FinalizationLedger K) := do
  let (w, root) ←
    participantLoop rt (aggregateParticipant rt) lotteryAi participantAccounts w root
  rejectIf (root.requiredCount < root.processedCount) Error.invalidInstruction
  if root.processedCount = root.requiredCount then
    let (lottery, root) ← finishAggregation rt config lottery root
    return (w, lottery, root)
  else return (w, lottery, root)

/-- One pass of the loop in `process_selection_chunk`; the participant where it is written. -/
def selectParticipant (root : FinalizationLedger K) (participant : Participant K) :
    Result (FinalizationLedger K × Option (Participant K)) := do
  requireParticipantIndex root.roundProcessedCount participant.participantIndex
  rejectIf (participant.finalizationGeneration ≠ root.generation ∨ participant.ticketsBought = 0)
    Error.invalidAccountData
  let roundProcessedCount ← okOr (checkedAdd 64 root.roundProcessedCount 1) Error.mathOverflow
  let root := { root with roundProcessedCount }
  if participant.revealIncluded && !participant.selectedInGeneration root.generation then
    let start := root.roundRemainingTicketsSeen
    let stop ← okOr (checkedAdd 64 start participant.ticketsBought) Error.mathOverflow
    if root.pendingWinnerFound = false ∧ start ≤ root.roundDrawIndex ∧
    root.roundDrawIndex < stop then
      return ({ root with
          pendingWinner := participant.wallet
          pendingWinnerTickets := participant.ticketsBought
          pendingWinnerFound := true
          roundRemainingTicketsSeen := stop },
        some (participant.markSelected root.generation root.currentRound))
    else return ({ root with roundRemainingTicketsSeen := stop }, none)
  else return (root, none)

def assertWinnerPageKey (lotteryAi pageAi : AccountInfo K) (pageIndex : ℕ) : Result Unit :=
  assertPdaKey rt pageAi (.winnerPage lotteryAi.key pageIndex)

def loadOrCreateWinnerPage (w : World K) (lotteryAi payerAi pageAi : AccountInfo K)
    (generation pageIndex : ℕ) : Result (World K × WinnerPage K) := do
  assertWinnerPageKey rt lotteryAi pageAi pageIndex
  if dataIsEmpty w pageAi then
    let w ← createAccount rt w payerAi pageAi WinnerPage.size
    return (w, WinnerPage.new lotteryAi.key generation pageIndex)
  else
    assertPdaOwned rt w pageAi (.winnerPage lotteryAi.key pageIndex)
    let page ← readAccountData rt w (WinnerPage K) pageAi
    rejectIf (page.lottery ≠ lotteryAi.key ∨ page.generation ≠ generation ∨
      page.pageIndex ≠ pageIndex) Error.invalidAccountData
    return (w, page)

/-- `page.append` on the account's bytes, then the header over them. -/
def appendWinner (w : World K) (pageAi : AccountInfo K) (page : WinnerPage K)
    (winner : SelectedWinner K) : Result (World K) := do
  let (page, data) ← page.append (w.accounts pageAi.key).data.pageData winner
  let w ← writeAccountData rt w pageAi page
  return w.setData pageAi.key (.winnerPage page data)

def settlementAmounts (lottery : Lottery K) (winnersCount : ℕ) : Result (ℕ × ℕ) := do
  let serviceFee ← computeServiceFee lottery.totalFunds lottery.serviceChargeBps
  let winnersPool := lottery.totalFunds - serviceFee
  rejectIf (winnersCount = 0 ∨ winnersPool < winnersCount) Error.insufficientFunds
  let perWinner := winnersPool / winnersCount
  let totalPayout ← okOr (checkedMul 64 perWinner winnersCount) Error.mathOverflow
  return (totalPayout, perWinner)

def completeFinalization (lottery : Lottery K) (root : FinalizationLedger K) (currentTime : ℤ) :
    Result (Lottery K × FinalizationLedger K) := do
  let winnersCount := root.selectedCount
  let (totalPayout, _) ← settlementAmounts lottery winnersCount
  let lottery ← lottery.initializeSettlement root.winnersCommitment winnersCount totalPayout
  let lottery :=
    if lottery.settlementStartUnix = 0 then { lottery with settlementStartUnix := currentTime }
    else lottery
  return (lottery, root.complete currentTime)

/-- The two events of a completed finalization. -/
def emitCompleted (w : World K) (lotteryAi : AccountInfo K) (lottery : Lottery K)
    (root : FinalizationLedger K) (currentTime : ℤ) : World K :=
  (w.emit (.winnersComputed lottery.id lotteryAi.key root.seed root.eligibleCount currentTime)).emit
    (.winnersFinalized lottery.id lotteryAi.key root.selectedCount lottery.totalPayout
      (lottery.totalPayout / root.selectedCount) root.winnersCommitment currentTime)

/-- The winner of a pass that has seen every participant. -/
def roundWinner (root : FinalizationLedger K) : Result (SelectedWinner K) := do
  let expected ← root.remainingTickets
  rejectIf (root.roundRemainingTicketsSeen ≠ expected ∨ root.pendingWinnerFound = false)
    Error.winnerNotFound
  return ⟨root.pendingWinner, root.pendingWinnerTickets⟩

/-- What follows a recorded winner: completion or the next draw. -/
def nextRound (lottery : Lottery K) (root : FinalizationLedger K) (currentTime : ℤ) :
    Result (Lottery K × FinalizationLedger K) := do
  if root.selectedCount = root.targetWinners then completeFinalization lottery root currentTime
  else
    let currentRound ← okOr (checkedAdd 32 root.currentRound 1) Error.mathOverflow
    let root := { root with currentRound }
    let remaining ← root.remainingTickets
    let draw ← drawIndex rt root.seed root.currentRound remaining
    return (lottery, root.beginSelectionRound draw)

def finishRound (w : World K) (lotteryAi payerAi winnerPageAi : AccountInfo K) (lottery : Lottery K)
    (root : FinalizationLedger K) (currentTime : ℤ) :
    Result (World K × Lottery K × FinalizationLedger K) := do
  let winner ← roundWinner root
  let pageIndex := root.selectedCount / winnersPerPage
  let pageOffset := root.selectedCount % winnersPerPage
  let (w, page) ← loadOrCreateWinnerPage rt w lotteryAi payerAi winnerPageAi root.generation pageIndex
  let w ← appendWinner rt w winnerPageAi page winner
  let winnerIndex := root.selectedCount
  let root ← root.recordWinner rt winner
  let w := w.emit (.winnerSelected lottery.id lotteryAi.key
    (rt.address (.participant lotteryAi.key winner.wallet)) winner.wallet winnerIndex winner.tickets
    pageIndex pageOffset currentTime)
  let (lottery, root) ← nextRound rt lottery root currentTime
  let w :=
    if root.phase = .completed then emitCompleted w lotteryAi lottery root currentTime else w
  return (w, lottery, root)

def processSelectionChunk (w : World K) (lotteryAi payerAi winnerPageAi : AccountInfo K)
    (lottery : Lottery K) (root : FinalizationLedger K)
    (participantAccounts : List (AccountInfo K)) (currentTime : ℤ) :
    Result (World K × Lottery K × FinalizationLedger K) := do
  let (w, root) ← participantLoop rt selectParticipant lotteryAi participantAccounts w root
  rejectIf (root.requiredCount < root.roundProcessedCount) Error.invalidInstruction
  if root.roundProcessedCount = root.requiredCount then
    finishRound rt w lotteryAi payerAi winnerPageAi lottery root currentTime
  else return (w, lottery, root)

/-- The progress a chunk reports. -/
def chunkEvent (lotteryAi rootAi : AccountInfo K) (lottery : Lottery K)
    (before root : FinalizationLedger K) (batchSize : ℕ) (currentTime : ℤ) : LotteryEvent K :=
  let completed := root.phase = .completed
  let processedCount :=
    if before.phase = .aggregating then root.processedCount
    else if completed then root.requiredCount
    else root.roundProcessedCount
  .finalizationChunkProcessed lottery.id lotteryAi.key rootAi.key root.phase batchSize processedCount
    root.requiredCount root.eligibleCount root.totalEligibleTickets root.currentRound
    root.targetWinners root.selectedCount completed currentTime

def storeChunk (w : World K) (lotteryAi rootAi : AccountInfo K) (lottery : Lottery K)
    (root : FinalizationLedger K) : Result (World K) := do
  let w ← writeAccountData rt w rootAi root
  writeAccountData rt w lotteryAi lottery

def processChunk (w : World K) (lotteryAi payerAi rootAi winnerPageAi : AccountInfo K)
    (config : Config K) (lottery : Lottery K) (participantAccounts : List (AccountInfo K)) :
    Result (World K) := do
  rejectIf (participantAccounts = []) Error.missingAccount
  let currentTime := w.clock
  let (w, root) ← loadOrCreateRoot rt w lotteryAi payerAi rootAi lottery currentTime
  assertWinnerPageKey rt lotteryAi winnerPageAi (root.selectedCount / winnersPerPage)
  let batchSize := participantAccounts.length
  match root.phase with
  | .aggregating => do
    let (w, lottery, root') ←
      processAggregationChunk rt w lotteryAi config lottery root participantAccounts
    let w := w.emit (chunkEvent lotteryAi rootAi lottery root root' batchSize currentTime)
    storeChunk rt w lotteryAi rootAi lottery root'
  | .selecting => do
    let (w, lottery, root') ← processSelectionChunk rt w lotteryAi payerAi winnerPageAi lottery root
      participantAccounts currentTime
    let w := w.emit (chunkEvent lotteryAi rootAi lottery root root' batchSize currentTime)
    storeChunk rt w lotteryAi rootAi lottery root'
  | .completed => return w
  | .unknown => .error Error.invalidAccountData

/-- The call that finds reveals missing: it starts the remediation window or fails. -/
def processMissingReveals (w : World K) (lotteryAi : AccountInfo K) (lottery : Lottery K) :
    Result (World K) := do
  let currentTime := w.clock
  rejectIf (¬(lottery.uploadElapsed currentTime = true ∧ lottery.remediationStartUnix = 0))
    Error.invalidPhaseTransition
  let lottery ← lottery.beginRemediation currentTime
  let w ← writeAccountData rt w lotteryAi lottery
  return w.emit (.revealRemediationBegan lottery.id lotteryAi.key lottery.providerUploadedCount
    lottery.attestedCount lottery.remediationStartUnix lottery.remediationDeadlineUnix currentTime)

def process (w : World K) (accounts : List (AccountInfo K)) : Result (World K) :=
  match accounts with
  | configAi :: lotteryAi :: vaultAi :: payerAi :: systemProgramAi :: finalizationRootAi ::
      winnerPageAi :: participantAccounts => do
    assertPdaOwned rt w configAi .config
    requireWritable lotteryAi
    requireWritable vaultAi
    requireSigner payerAi
    requireWritable payerAi
    requireWritable finalizationRootAi
    requireWritable winnerPageAi
    requireKeyMatch systemProgramAi default
    let config ← readAccountData rt w (Config K) configAi
    let lottery ← readAccountData rt w (Lottery K) lotteryAi
    let _vault ← readAccountData rt w (Vault K) vaultAi
    assertPdaOwned rt w lotteryAi (.lottery configAi.key lottery.id)
    assertPdaOwned rt w vaultAi (.vault lotteryAi.key)
    requireKeyMatch vaultAi lottery.vault
    if lottery.settlementComplete = true ∨ lottery.settled = true then return w
    else
      rejectIf (lottery.participantsCount ≤ 1) Error.invalidInstruction
      rejectIf (lottery.attestedCount = 0) Error.noAttestedParticipants
      if lottery.hasMissingAttestedReveals then processMissingReveals rt w lotteryAi lottery
      else
        rejectIf (lottery.uploadsComplete = false ∧ lottery.uploadElapsed w.clock = false)
          Error.invalidInstruction
        processChunk rt w lotteryAi payerAi finalizationRootAi winnerPageAi config lottery
          participantAccounts
  | _ => .error .notEnoughAccountKeys

end DailyLottery.FinalizeWinners
