import DailyLottery.Utils.Crypto

namespace DailyLottery

open Lib

variable {K : Type} [DecidableEq K] [Inhabited K] (rt : Runtime K) (w : World K)

/-- One entry of a payout batch; its legacy proof bytes are never read. -/
structure WinnerProof (K : Type) where
  index : ℕ
  recipient : K
  amount : ℕ
  merkleProof : List Bytes32

namespace SettlePayoutBatch

/-- The checks on one entry, up to the paid bits: what the page stores and whether it is paid. -/
def checkEntry (lottery : Lottery K) (page : WinnerPage K) (data : PageData K)
    (pageIndex expectedAmount : ℕ) (winner : WinnerProof K) : Result Bool := do
  rejectIf (lottery.winnersCount ≤ winner.index) Error.invalidInstruction
  rejectIf (winner.index / winnersPerPage ≠ pageIndex ∨ winner.amount ≠ expectedAmount)
    Error.invalidInstruction
  let stored ← okOr (page.winner data (winner.index % winnersPerPage)) Error.invalidInstruction
  let pagePaid := page.isPaid data (winner.index % winnersPerPage)
  rejectIf (stored.wallet ≠ winner.recipient) Error.invalidInstruction
  let lotteryPaid := lottery.isWinnerPaid winner.index
  rejectIf (pagePaid ≠ lotteryPaid) Error.invalidAccountData
  return pagePaid

/-- The transfer and the two marks of an unpaid entry. -/
def payEntry (lottery : Lottery K) (lotteryAi vaultAi winnerPageAi : AccountInfo K)
    (page : WinnerPage K) (recipientAi : AccountInfo K) (batchIndex : ℕ) (winner : WinnerProof K) :
    Result (World K × Lottery K) := do
  rejectIf (recipientAi.key ≠ winner.recipient) Error.invalidAccount
  let w ← movePositive w vaultAi recipientAi winner.amount
  let data ← page.markPaid (w.accounts winnerPageAi.key).data.pageData
    (winner.index % winnersPerPage)
  let w := w.setData winnerPageAi.key (.winnerPage page data)
  let lottery ← lottery.markWinnerPaid winner.index
  return (w.emit (.winnerPaid lottery.id lotteryAi.key winner.recipient winner.amount batchIndex
    winner.index w.clock), lottery)

/-- The loop over the batch, each entry with the recipient account at its position. -/
def payLoop (lotteryAi vaultAi winnerPageAi : AccountInfo K) (page : WinnerPage K)
    (pageIndex expectedAmount batchIndex : ℕ) :
    List (WinnerProof K × AccountInfo K) → World K → Lottery K → Result (World K × Lottery K)
  | [], w, lottery => .ok (w, lottery)
  | (winner, recipientAi) :: rest, w, lottery => do
    let paid ← checkEntry lottery page (w.accounts winnerPageAi.key).data.pageData pageIndex
      expectedAmount winner
    if paid then
      payLoop lotteryAi vaultAi winnerPageAi page pageIndex expectedAmount batchIndex rest w lottery
    else
      let (w, lottery) ← payEntry w lottery lotteryAi vaultAi winnerPageAi page recipientAi
        batchIndex winner
      payLoop lotteryAi vaultAi winnerPageAi page pageIndex expectedAmount batchIndex rest w lottery

/-- The completing batch: service fee, rounding remainder and the rest of the vault go to the
authority. -/
def closeVault (lottery : Lottery K) (lotteryAi vaultAi authorityAi : AccountInfo K) :
    Result (World K × Lottery K) := do
  let serviceFee ← computeServiceFee lottery.totalFunds lottery.serviceChargeBps
  let payoutRemainder := lottery.totalFunds - lottery.totalPayout - serviceFee
  let w ← movePositive w vaultAi authorityAi serviceFee
  let w ← movePositive w vaultAi authorityAi payoutRemainder
  let remainingRent := (w.accounts vaultAi.key).lamports
  let w ← moveLamports w vaultAi authorityAi remainingRent
  let lottery ← lottery.completeSettlement
  let w := w.emit (.payoutsComplete lottery.id lotteryAi.key lottery.winnersCount
    lottery.totalPayout lottery.settlementBatchesCompleted w.clock)
  let w :=
    if 0 < serviceFee ∨ 0 < payoutRemainder then
      w.emit (.serviceFeePaid lottery.id lotteryAi.key authorityAi.key serviceFee payoutRemainder
        remainingRent w.clock)
    else w
  return (w, lottery)

/-- The check after a batch whether every winner is paid. -/
def completeIfPaid (lottery : Lottery K) (lotteryAi vaultAi authorityAi : AccountInfo K) :
    Result (World K × Lottery K) :=
  if lottery.allWinnersPaid then closeVault w lottery lotteryAi vaultAi authorityAi
  else .ok (w, lottery)

def processBatch (lottery : Lottery K)
    (lotteryAi vaultAi authorityAi winnerPageAi : AccountInfo K)
    (recipientAccounts : List (AccountInfo K)) (batchIndex : ℕ) (winners : List (WinnerProof K)) :
    Result (World K) := do
  let first ← okOr winners.head? Error.invalidInstruction
  let pageIndex := first.index / winnersPerPage
  rejectIf (2 ^ 32 ≤ pageIndex) Error.mathOverflow
  assertPdaOwned rt w winnerPageAi (.winnerPage lotteryAi.key pageIndex)
  requireWritable winnerPageAi
  let page ← readAccountData rt w (WinnerPage K) winnerPageAi
  rejectIf (page.lottery ≠ lotteryAi.key ∨ page.pageIndex ≠ pageIndex) Error.invalidAccountData
  let expectedAmount := lottery.totalPayout / lottery.winnersCount
  rejectIf (recipientAccounts.length < winners.length) Error.missingAccount
  let (w, lottery) ← payLoop lotteryAi vaultAi winnerPageAi page pageIndex expectedAmount batchIndex
    (winners.zip recipientAccounts) w lottery
  let lottery := lottery.incrementSettlementBatch
  let (w, lottery) ← completeIfPaid w lottery lotteryAi vaultAi authorityAi
  writeAccountData rt w lotteryAi lottery

def process (accounts : List (AccountInfo K)) (lotteryId batchIndex : ℕ)
    (winners : List (WinnerProof K)) : Result (World K) :=
  match accounts with
  | configAi :: lotteryAi :: vaultAi :: authorityAi :: systemProgramAi :: winnerPageAi ::
      recipientAccounts => do
    assertPdaOwned rt w configAi .config
    requireWritable lotteryAi
    requireWritable vaultAi
    requireWritable authorityAi
    requireKeyMatch systemProgramAi default
    let config ← readAccountData rt w (Config K) configAi
    let lottery ← readAccountData rt w (Lottery K) lotteryAi
    let _vault ← readAccountData rt w (Vault K) vaultAi
    assertPdaOwned rt w lotteryAi (.lottery configAi.key lottery.id)
    assertPdaOwned rt w vaultAi (.vault lotteryAi.key)
    rejectIf (authorityAi.key ≠ config.authority) Error.unauthorized
    rejectIf (lottery.id ≠ lotteryId) Error.invalidInstruction
    if lottery.settlementComplete then return w
    else
      rejectIf (lottery.winnersCount = 0) Error.invalidInstruction
      processBatch rt w lottery lotteryAi vaultAi authorityAi winnerPageAi recipientAccounts
        batchIndex winners
  | _ => .error .notEnoughAccountKeys

end SettlePayoutBatch

namespace FinalizeNoAttesters

def process (accounts : List (AccountInfo K)) : Result (World K) :=
  match accounts with
  | configAi :: lotteryAi :: vaultAi :: authorityAi :: _ => do
    assertPdaOwned rt w configAi .config
    requireWritable lotteryAi
    requireWritable vaultAi
    requireWritable authorityAi
    let config ← readAccountData rt w (Config K) configAi
    let lottery ← readAccountData rt w (Lottery K) lotteryAi
    assertPdaOwned rt w lotteryAi (.lottery configAi.key lottery.id)
    assertPdaOwned rt w vaultAi (.vault lotteryAi.key)
    requireKeyMatch vaultAi lottery.vault
    requireKeyMatch authorityAi config.authority
    if lottery.settled then return w
    else
      let singleParticipantReady := lottery.participantsCount = 1 ∧ lottery.uploadsComplete = true
      -- unlike elsewhere, the deadline itself already counts as elapsed here
      let uploadDeadlineElapsed :=
        0 < lottery.uploadDeadlineUnix ∧ lottery.uploadDeadlineUnix ≤ w.clock
      rejectIf (¬singleParticipantReady ∧ ¬uploadDeadlineElapsed) Error.invalidInstruction
      let noAttestations := lottery.attestedCount = 0
      let remediationExpired := lottery.remediationExpired w.clock
      rejectIf (¬(noAttestations ∨ remediationExpired = true)) Error.invalidInstruction
      let lottery := lottery.settle
      let w ← writeAccountData rt w lotteryAi lottery
      let reason :=
        if lottery.participantsCount = 1 then "Single participant refunded"
        else if noAttestations then "No attestations submitted"
        else if remediationExpired then "Accepted reveals omitted after remediation window"
        else "No reveals uploaded by provider"
      let w := w.emit (.refundsIssued lottery.id lotteryAi.key lottery.participantsCount
        lottery.totalFunds reason w.clock)
      return w.emit (.lotterySettled lottery.id lotteryAi.key lottery.vault lottery.totalTickets
        lottery.totalFunds 0 lottery.authority w.clock)
  | _ => .error .notEnoughAccountKeys

end FinalizeNoAttesters

namespace ClaimRefund

def process (accounts : List (AccountInfo K)) : Result (World K) :=
  match accounts with
  | configAi :: lotteryAi :: vaultAi :: participantAi :: walletAi :: _ => do
    assertPdaOwned rt w configAi .config
    requireWritable lotteryAi
    requireWritable vaultAi
    requireWritable participantAi
    requireWritable walletAi
    requireSigner walletAi
    let _config ← readAccountData rt w (Config K) configAi
    let lottery ← readAccountData rt w (Lottery K) lotteryAi
    let _vault ← readAccountData rt w (Vault K) vaultAi
    let participant ← readAccountData rt w (Participant K) participantAi
    assertPdaOwned rt w lotteryAi (.lottery configAi.key lottery.id)
    rejectIf (lottery.config ≠ configAi.key) Error.invalidAccountData
    assertPdaOwned rt w vaultAi (.vault lotteryAi.key)
    requireKeyMatch vaultAi lottery.vault
    assertPdaOwned rt w participantAi (.participant lotteryAi.key walletAi.key)
    rejectIf (participant.lottery ≠ lotteryAi.key ∨ participant.wallet ≠ walletAi.key)
      Error.invalidAccountData
    rejectIf (lottery.settled = false ∨ lottery.winnersCount ≠ 0 ∨ lottery.totalPayout ≠ 0)
      Error.refundUnavailable
    rejectIf (participant.ticketsBought = 0) Error.refundUnavailable
    rejectIf (participant.refundClaimed = true) Error.refundAlreadyClaimed
    let refundAmount ← okOr (checkedMul 64 lottery.ticketPriceLamports participant.ticketsBought)
      Error.mathOverflow
    let w ← moveLamports w vaultAi walletAi refundAmount
    let participant := participant.markRefundClaimed
    let settlementBatchesCompleted ← okOr (checkedAdd 32 lottery.settlementBatchesCompleted 1)
      Error.mathOverflow
    let lottery := { lottery with settlementBatchesCompleted }
    let w ← writeAccountData rt w participantAi participant
    let w ← writeAccountData rt w lotteryAi lottery
    return w.emit (.refundClaimed lottery.id lotteryAi.key participantAi.key walletAi.key
      refundAmount participant.ticketsBought w.clock)
  | _ => .error .notEnoughAccountKeys

end ClaimRefund

namespace CloseParticipant

def process (accounts : List (AccountInfo K)) : Result (World K) :=
  match accounts with
  | configAi :: lotteryAi :: participantAi :: walletAi :: _ => do
    assertPdaOwned rt w configAi .config
    requireWritable participantAi
    requireWritable walletAi
    requireSigner walletAi
    let _config ← readAccountData rt w (Config K) configAi
    let lottery ← readAccountData rt w (Lottery K) lotteryAi
    let participant ← readAccountData rt w (Participant K) participantAi
    assertPdaOwned rt w lotteryAi (.lottery configAi.key lottery.id)
    rejectIf (lottery.config ≠ configAi.key) Error.invalidAccountData
    assertPdaOwned rt w participantAi (.participant lotteryAi.key walletAi.key)
    rejectIf (participant.lottery ≠ lotteryAi.key ∨ participant.wallet ≠ walletAi.key)
      Error.invalidAccountData
    let canCloseRefundPath :=
      lottery.settled = true ∧ lottery.winnersCount = 0 ∧ participant.refundClaimed = true
    let canCloseWinnersPath := lottery.settlementComplete = true ∧ 0 < lottery.winnersCount
    rejectIf (¬canCloseRefundPath ∧ ¬canCloseWinnersPath) Error.invalidLotteryState
    let rentReclaimed := (w.accounts participantAi.key).lamports
    rejectIf (rentReclaimed = 0) Error.invalidAccount
    let w ← moveLamports w participantAi walletAi rentReclaimed
    return w.emit (.participantClosed lottery.id lotteryAi.key participantAi.key walletAi.key
      rentReclaimed w.clock)
  | _ => .error .notEnoughAccountKeys

end CloseParticipant

namespace CloseRefundVault

def process (accounts : List (AccountInfo K)) : Result (World K) :=
  match accounts with
  | configAi :: lotteryAi :: vaultAi :: authorityAi :: _ => do
    assertPdaOwned rt w configAi .config
    requireWritable vaultAi
    requireWritable authorityAi
    let config ← readAccountData rt w (Config K) configAi
    let lottery ← readAccountData rt w (Lottery K) lotteryAi
    let _vault ← readAccountData rt w (Vault K) vaultAi
    assertPdaOwned rt w lotteryAi (.lottery configAi.key lottery.id)
    rejectIf (lottery.config ≠ configAi.key) Error.invalidAccountData
    assertPdaOwned rt w vaultAi (.vault lotteryAi.key)
    requireKeyMatch vaultAi lottery.vault
    requireKeyMatch authorityAi config.authority
    rejectIf (lottery.settled = false ∨ lottery.winnersCount ≠ 0 ∨ lottery.totalPayout ≠ 0)
      Error.refundUnavailable
    rejectIf (lottery.settlementBatchesCompleted < lottery.participantsCount)
      Error.refundUnavailable
    let rentReclaimed := (w.accounts vaultAi.key).lamports
    rejectIf (rentReclaimed = 0) Error.refundUnavailable
    let w ← moveLamports w vaultAi authorityAi rentReclaimed
    return w.emit (.refundVaultClosed lottery.id lotteryAi.key vaultAi.key authorityAi.key
      lottery.settlementBatchesCompleted rentReclaimed w.clock)
  | _ => .error .notEnoughAccountKeys

end CloseRefundVault

end DailyLottery
