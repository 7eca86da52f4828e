import DailyLottery.Utils.Crypto

namespace DailyLottery

open Lib

variable {K : Type} [DecidableEq K] [Inhabited K] (rt : Runtime K) (w : World K)

namespace Initialize

def process (accounts : List (AccountInfo K))
    (ticketPriceLamports serviceChargeBps maxWinnersCap : ℕ) :
    Result (World K) :=
  match accounts with
  | authorityAi :: configAi :: systemProgramAi :: _ => do
    requireSigner authorityAi
    requireKeyMatch systemProgramAi default
    rejectIf (Config.validateServiceCharge serviceChargeBps = false) Error.invalidServiceCharge
    rejectIf (Config.validateMaxWinnersCap maxWinnersCap = false) Error.invalidInstruction
    assertPdaKey rt configAi .config
    -- an existing config is left alone, whatever the arguments
    if (w.accounts configAi.key).owner ≠ rt.programId then
      let w ← createAccount rt w authorityAi configAi Sizes.configSize
      let config : Config K :=
        { authority := authorityAi.key
          ticketPriceLamports, serviceChargeBps
          lotteryCount := 0
          buyWindowSecs := 24 * 60 * 60
          uploadWindowSecs := 24 * 60 * 60
          maxWinnersCap }
      let w ← writeAccountData rt w configAi config
      return w.emit (.systemInitialized authorityAi.key configAi.key ticketPriceLamports
        serviceChargeBps w.clock)
    else return w
  | _ => .error .notEnoughAccountKeys

end Initialize

namespace UpdateServiceCharge

def process (accounts : List (AccountInfo K)) (newBps : ℕ) : Result (World K) := do
  rejectIf (rt.allowServiceChargeUpdate = false) Error.serviceChargeUpdateDisabled
  match accounts with
  | configAi :: authorityAi :: _ => do
    assertPdaOwned rt w configAi .config
    requireSigner authorityAi
    rejectIf (Config.validateServiceCharge newBps = false) Error.invalidServiceCharge
    let config ← readAccountData rt w (Config K) configAi
    rejectIf (authorityAi.key ≠ config.authority) Error.unauthorized
    let w ← writeAccountData rt w configAi { config with serviceChargeBps := newBps }
    return w.emit (.serviceChargeUpdated configAi.key config.serviceChargeBps newBps
      config.authority w.clock)
  | _ => .error .notEnoughAccountKeys

end UpdateServiceCharge

namespace CreateLottery

/-- `create_account` where the program does not own the account yet. -/
def createIfForeign (payer new : AccountInfo K) (space : ℕ) : Result (World K) :=
  if (w.accounts new.key).owner ≠ rt.programId then createAccount rt w payer new space else .ok w

def process (accounts : List (AccountInfo K)) : Result (World K) :=
  match accounts with
  | configAi :: lotteryAi :: vaultAi :: authorityAi :: systemProgramAi :: _ => do
    assertPdaOwned rt w configAi .config
    requireSigner authorityAi
    requireWritable lotteryAi
    requireWritable vaultAi
    requireWritable authorityAi
    requireKeyMatch systemProgramAi default
    let config ← readAccountData rt w (Config K) configAi
    rejectIf (authorityAi.key ≠ config.authority) Error.unauthorized
    let lotteryId ← okOr (checkedAdd 64 config.lotteryCount 1) .panicked
    assertPdaKey rt lotteryAi (.lottery configAi.key lotteryId)
    assertPdaKey rt vaultAi (.vault lotteryAi.key)
    let vaultBump := (rt.findProgramAddress (.vault lotteryAi.key)).2
    let w ← createIfForeign rt w authorityAi lotteryAi Sizes.lotterySize
    let w ← createIfForeign rt w authorityAi vaultAi Sizes.vaultSize
    let lottery ← Lottery.new lotteryId configAi.key config.authority w.clock vaultAi.key vaultBump
      config.serviceChargeBps config.ticketPriceLamports
    let vault : Vault K := ⟨lotteryAi.key, vaultBump⟩
    let w ← writeAccountData rt w lotteryAi lottery
    let w ← writeAccountData rt w vaultAi vault
    let w ← writeAccountData rt w configAi { config with lotteryCount := lotteryId }
    return w.emit (.lotteryCreated lotteryId lotteryAi.key configAi.key config.authority vaultAi.key
      w.clock lottery.buyStartUnix lottery.buyDeadlineUnix lottery.serviceChargeBps
      lottery.ticketPriceLamports)
  | _ => .error .notEnoughAccountKeys

end CreateLottery

namespace BeginRevealPhase

/-- The window moves: the start only backwards, the deadline only forwards. -/
def openWindow (lottery : Lottery K) (now att upl : ℤ) : Result (Lottery K) := do
  let uploadStartUnix :=
    if lottery.uploadStartUnix = 0 ∨ now < lottery.uploadStartUnix then now
    else lottery.uploadStartUnix
  let desiredDeadline ← okOr (addI64 now att) .panicked
  let deadline := max lottery.uploadDeadlineUnix desiredDeadline
  let desiredUpload ← okOr (addI64 deadline upl) .panicked
  return { lottery with uploadStartUnix, uploadDeadlineUnix := max deadline desiredUpload }

/-- With a single participant the uploads are complete from the start. -/
def autoComplete (lottery : Lottery K) : Lottery K :=
  if lottery.participantsCount = 1 then
    { lottery.markUploadsComplete (aggregateHashes rt []) with selectedNumberOfWinners := 1 }
  else lottery

def process (accounts : List (AccountInfo K)) (attestationSecs uploadSecs : ℕ) :
    Result (World K) := do
  rejectIf (rt.allowEarlyUpload = false) Error.earlyUploadDisabled
  match accounts with
  | configAi :: lotteryAi :: authorityAi :: _ => do
    assertPdaOwned rt w configAi .config
    requireSigner authorityAi
    let config ← readAccountData rt w (Config K) configAi
    let lottery ← readAccountData rt w (Lottery K) lotteryAi
    requireKeyMatch lotteryAi (rt.address (.lottery lottery.config lottery.id))
    rejectIf (authorityAi.key ≠ config.authority) Error.unauthorized
    rejectIf (lottery.settled = true) Error.lotteryAlreadySettled
    let now := w.clock
    let alreadyStarted := 0 < lottery.uploadStartUnix ∧ lottery.uploadStartUnix ≤ now
    let alreadyEnded := 0 < lottery.uploadDeadlineUnix ∧ lottery.uploadDeadlineUnix < now
    let settlementStarted := 0 < lottery.settlementStartUnix
    let uploadsComplete := lottery.uploadsComplete || lottery.settlementComplete
    rejectIf (alreadyStarted ∨ alreadyEnded ∨ settlementStarted ∨ uploadsComplete = true)
      Error.invalidPhaseTransition
    let att : ℤ := if attestationSecs = 0 then config.uploadWindowSecs else attestationSecs
    let upl : ℤ := if uploadSecs = 0 then config.uploadWindowSecs else uploadSecs
    let lottery ← openWindow lottery now att upl
    let lottery := autoComplete rt lottery
    let w ← writeAccountData rt w lotteryAi lottery
    let w :=
      if lottery.participantsCount = 1 then
        w.emit (.revealsUploaded lottery.id lotteryAi.key authorityAi.key 1
          lottery.pocAggregateHash 1 now)
      else w
    return w.emit (.uploadPhaseBegan lottery.id lotteryAi.key now lottery.uploadDeadlineUnix now)
  | _ => .error .notEnoughAccountKeys

end BeginRevealPhase

end DailyLottery
