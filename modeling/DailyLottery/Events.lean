import DailyLottery.State.FinalizationLedger

namespace DailyLottery

/-- The events the handlers log; keys stand for their base58 strings. -/
inductive LotteryEvent (K : Type)
  | systemInitialized (authority config : K) (ticketPriceLamports serviceChargeBps : ℕ)
      (timestamp : ℤ)
  | serviceChargeUpdated (config : K) (oldBps newBps : ℕ) (authority : K) (timestamp : ℤ)
  | lotteryCreated (lotteryId : ℕ) (lottery config authority vault : K)
      (createdAtUnix buyStartUnix buyDeadlineUnix : ℤ) (serviceChargeBps ticketPriceLamports : ℕ)
  | ticketsPurchased (lotteryId : ℕ) (lottery participant buyer : K)
      (ticketsBought totalTicketsForParticipant totalTicketsForLottery amountPaid totalFunds
        participantIndex : ℕ) (proofOfChanceHash : Option Bytes32) (timestamp : ℤ)
  | attestationSubmitted (lotteryId : ℕ) (lottery participant wallet : K)
      (votedNumberOfWinners totalAttested : ℕ) (timestamp : ℤ)
  | revealsUploaded (lotteryId : ℕ) (lottery authority : K) (participantsCount : ℕ)
      (aggregateHash : Bytes32) (selectedNumberOfWinners : ℕ) (timestamp : ℤ)
  | revealRemediationBegan (lotteryId : ℕ) (lottery : K) (includedRevealsCount attestedCount : ℕ)
      (remediationStartUnix remediationDeadlineUnix timestamp : ℤ)
  | revealRemediationCompleted (lotteryId : ℕ) (lottery : K)
      (includedRevealsCount attestedCount : ℕ) (timestamp : ℤ)
  | uploadPhaseBegan (lotteryId : ℕ) (lottery : K) (newStart newDeadline timestamp : ℤ)
  | settlementPhaseBegan (lotteryId : ℕ) (lottery : K) (settlementStartUnix timestamp : ℤ)
  | lotterySettled (lotteryId : ℕ) (lottery vault : K) (totalTickets totalFunds serviceFee : ℕ)
      (authority : K) (timestamp : ℤ)
  | refundsIssued (lotteryId : ℕ) (lottery : K) (recipientCount totalRefundedLamports : ℕ)
      (reason : String) (timestamp : ℤ)
  | refundClaimed (lotteryId : ℕ) (lottery participant wallet : K) (amount ticketsRefunded : ℕ)
      (timestamp : ℤ)
  | refundVaultClosed (lotteryId : ℕ) (lottery vault authority : K)
      (refundsClaimedCount vaultRentReclaimed : ℕ) (timestamp : ℤ)
  | participantClosed (lotteryId : ℕ) (lottery participant wallet : K) (rentReclaimed : ℕ)
      (timestamp : ℤ)
  | winnersComputed (lotteryId : ℕ) (lottery : K) (seed : Bytes32) (totalEligible : ℕ)
      (timestamp : ℤ)
  | winnersFinalized (lotteryId : ℕ) (lottery : K) (winnersCount totalPayout perWinnerPayout : ℕ)
      (winnersMerkleRoot : Bytes32) (timestamp : ℤ)
  | winnerSelected (lotteryId : ℕ) (lottery participant winner : K)
      (winnerIndex tickets pageIndex pageOffset : ℕ) (timestamp : ℤ)
  | finalizationChunkProcessed (lotteryId : ℕ) (lottery finalizationLedger : K)
      (phase : FinalizationPhase) (batchSize processedCount requiredCount eligibleCount
        totalEligibleTickets currentRound targetWinners selectedWinnersCount : ℕ)
      (completed : Bool) (timestamp : ℤ)
  | winnerPaid (lotteryId : ℕ) (lottery winner : K) (amount batchIndex winnerIndex : ℕ)
      (timestamp : ℤ)
  | payoutsComplete (lotteryId : ℕ) (lottery : K) (totalWinners totalPaid batchesCompleted : ℕ)
      (timestamp : ℤ)
  | serviceFeePaid (lotteryId : ℕ) (lottery authority : K)
      (serviceFee remainder vaultRentReclaimed : ℕ) (timestamp : ℤ)

end DailyLottery
