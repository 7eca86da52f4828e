import DailyLottery.Lib.Checked

namespace DailyLottery

/-- The program's custom errors, in the order that fixes their codes. -/
inductive Error
  | invalidInstruction | mathOverflow | insufficientFunds | unauthorized | invalidLotteryState
  | invalidUploadWindow | invalidAttestation | invalidUploads | alreadySettled | noActiveLottery
  | activeLotteryExists | alreadyAttested | proofHashMismatch | outsideTimeWindow
  | invalidAccountData | missingAccount | incorrectOwner | invalidSeeds | invalidServiceCharge
  | invalidTicketCount | winnerSelectionFailed | lotteryAlreadySettled | winnerNotFound
  | revealMismatch | missingProofOfChance | lotteryNotSettled | lotteryAlreadyActive
  | attestationAlreadySubmitted | invalidTimeWindow | noAttestedParticipants | winnerAlreadyPaid
  | invalidMerkleProof | invalidAccount | invalidPhaseTransition | participantLimitReached
  | refundUnavailable | refundAlreadyClaimed | earlyUploadDisabled | serviceChargeUpdateDisabled
  deriving DecidableEq, Repr

/-- What a failed instruction returns: a custom error, or a failure of the runtime, of the
System Program or of an overflow check. -/
inductive ProgramError
  | custom (e : Error)
  | invalidAccountData
  | accountDataTooSmall
  | notEnoughAccountKeys
  | accountBorrowFailed
  | readonlyAccount
  | externalAccountDataModified
  | privilegeEscalation
  | accountAlreadyInUse
  | insufficientLamports
  | panicked
  deriving DecidableEq, Repr

instance : Coe Error ProgramError := ⟨.custom⟩

abbrev Result := Except ProgramError

end DailyLottery
