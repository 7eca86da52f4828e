import DailyLottery.Utils.Crypto
import DailyLottery.Utils.RevealScore

namespace DailyLottery

open Lib

def maxRevealPlaintextBytes : ℕ := 49

variable {K : Type} [DecidableEq K] [Inhabited K] (rt : Runtime K) (w : World K)

namespace BuyTickets

/-- The participant a purchase works on, and the lottery with it counted. -/
def loadOrCreateParticipant (lottery : Lottery K) (lotteryAi participantAi buyerAi : AccountInfo K)
    (providedProof : Option Bytes32) : Result (World K × Participant K × Lottery K) :=
  if dataIsEmpty w participantAi = false then do
    let existing ← readAccountData rt w (Participant K) participantAi
    rejectIf (existing.lottery ≠ lotteryAi.key ∨ existing.wallet ≠ buyerAi.key)
      Error.invalidAccountData
    rejectIf (∃ hash ∈ providedProof, existing.proofOfChanceHash ≠ hash) Error.proofHashMismatch
    return (w, existing, lottery)
  else do
    rejectIf (Sizes.maxParticipants ≤ lottery.participantsCount) Error.participantLimitReached
    let w ← createAccount rt w buyerAi participantAi Sizes.participantSize
    let proofHash ← okOr providedProof Error.missingProofOfChance
    let participant := Participant.new lotteryAi.key buyerAi.key proofHash 0
      lottery.participantsCount
    let lottery ← lottery.addParticipant
    return (w, participant, lottery)

def process (accounts : List (AccountInfo K)) (proofOfChanceHash : Option Bytes32)
    (numberOfTickets : ℕ) : Result (World K) :=
  match accounts with
  | configAi :: lotteryAi :: vaultAi :: participantAi :: buyerAi :: systemProgramAi :: _ => do
    validateTicketCount numberOfTickets
    assertPdaOwned rt w configAi .config
    requireSigner buyerAi
    requireWritable lotteryAi
    requireWritable vaultAi
    requireWritable participantAi
    requireWritable buyerAi
    requireKeyMatch systemProgramAi default
    let _config ← readAccountData rt w (Config K) configAi
    let lottery ← readAccountData rt w (Lottery K) lotteryAi
    let _vault ← readAccountData rt w (Vault K) vaultAi
    assertPdaOwned rt w lotteryAi (.lottery configAi.key lottery.id)
    rejectIf (lottery.config ≠ configAi.key) Error.invalidAccountData
    assertPdaOwned rt w vaultAi (.vault lotteryAi.key)
    requireKeyMatch vaultAi lottery.vault
    let currentTime := w.clock
    rejectIf (0 < lottery.uploadStartUnix ∧ lottery.uploadStartUnix ≤ currentTime)
      Error.outsideTimeWindow
    rejectIf (lottery.isActive = false ∨ lottery.isInBuyWindow currentTime = false)
      Error.outsideTimeWindow
    assertPdaKey rt participantAi (.participant lotteryAi.key buyerAi.key)
    let totalCost ← okOr (checkedMul 64 lottery.ticketPriceLamports numberOfTickets)
      Error.mathOverflow
    let (w, participant, lottery) ←
      loadOrCreateParticipant rt w lottery lotteryAi participantAi buyerAi proofOfChanceHash
    let participant ← participant.addTickets numberOfTickets
    let w ← systemTransfer w buyerAi vaultAi totalCost
    let lottery ← lottery.addTickets numberOfTickets totalCost
    let w ← writeAccountData rt w participantAi participant
    let w ← writeAccountData rt w lotteryAi lottery
    return w.emit (.ticketsPurchased lottery.id lotteryAi.key participantAi.key buyerAi.key
      numberOfTickets participant.ticketsBought lottery.totalTickets totalCost lottery.totalFunds
      participant.participantIndex proofOfChanceHash currentTime)
  | _ => .error .notEnoughAccountKeys

end BuyTickets

namespace AttestUploaded

/-- "IKIGAI_ATTEST_V2" -/
def attestationMessageDomainV2 : Bytes :=
  [0x49, 0x4b, 0x49, 0x47, 0x41, 0x49, 0x5f, 0x41, 0x54, 0x54, 0x45, 0x53, 0x54, 0x5f, 0x56, 0x32]

def readU16 (data : Bytes) (off : ℕ) : ℕ := ofLeBytes ((data.drop off).take 2)

def slice (data : Bytes) (off len : ℕ) : Bytes := (data.drop off).take len

/-- Public key and message of a single-signature ed25519 instruction with inline data. -/
def parseEd25519Ix (data : Bytes) : Option (Bytes × Bytes) :=
  if data.length < 16 then none
  else if data.headD 0 ≠ 1 then none
  else
    let sigOff := readU16 data 2
    let sigIx := readU16 data 4
    let pkOff := readU16 data 6
    let pkIx := readU16 data 8
    let msgOff := readU16 data 10
    let msgSz := readU16 data 12
    let msgIx := readU16 data 14
    if sigIx ≠ 0xFFFF ∨ pkIx ≠ 0xFFFF ∨ msgIx ≠ 0xFFFF then none
    else if data.length ≤ sigOff then none
    else if data.length < pkOff + 32 then none
    else if data.length < msgOff + msgSz then none
    else if data.length < sigOff + 64 then none
    else some (slice data pkOff 32, slice data msgOff msgSz)

def expectedMessage (lottery wallet : K) (proofOfChanceHash : Bytes32) (vote : ℕ) : Bytes :=
  attestationMessageDomainV2 ++ (rt.keyBytes lottery).toList ++ (rt.keyBytes wallet).toList ++
    proofOfChanceHash.toList ++ leBytes 8 vote

/-- The scan over the ten instructions before this one. -/
def providerSigOk (preceding : List (K × Bytes)) (authority : K) (message : Bytes) : Bool :=
  (preceding.reverse.take 10).any fun ix ↦
    decide (ix.1 = rt.ed25519Program) &&
      (match parseEd25519Ix ix.2 with
      | some (pk, msg) => pk == (rt.keyBytes authority).toList && msg == message
      | none => false)

/-- `preceding` lists the program ids and data of the instructions that come before this one
in the transaction, as the instructions sysvar shows them. -/
def process (preceding : List (K × Bytes)) (accounts : List (AccountInfo K))
    (votedNumberOfWinners : ℕ) : Result (World K) :=
  match accounts with
  | configAi :: lotteryAi :: participantAi :: walletAi :: ixSysvarAi :: _ => do
    assertPdaOwned rt w configAi .config
    requireWritable lotteryAi
    requireWritable participantAi
    requireSigner walletAi
    rejectIf (ixSysvarAi.key ≠ rt.instructionsSysvar) Error.invalidInstruction
    let config ← readAccountData rt w (Config K) configAi
    let lottery ← readAccountData rt w (Lottery K) lotteryAi
    let participant ← readAccountData rt w (Participant K) participantAi
    assertPdaOwned rt w lotteryAi (.lottery configAi.key lottery.id)
    assertPdaOwned rt w participantAi (.participant lotteryAi.key walletAi.key)
    rejectIf (participant.wallet ≠ walletAi.key) Error.unauthorized
    rejectIf (participant.hasTickets = false) Error.invalidInstruction
    let currentTime := w.clock
    rejectIf (lottery.phase currentTime ≠ .upload) Error.outsideTimeWindow
    rejectIf (votedNumberOfWinners = 0) Error.invalidInstruction
    let maxWinners := config.effectiveMaxWinners lottery.participantsCount
    rejectIf (maxWinners < votedNumberOfWinners) Error.invalidInstruction
    rejectIf (participant.attestedUploaded = true) Error.attestationAlreadySubmitted
    let message := expectedMessage rt lotteryAi.key walletAi.key participant.proofOfChanceHash
      votedNumberOfWinners
    rejectIf (providerSigOk rt preceding config.authority message = false) Error.invalidAttestation
    let participant ← participant.setVoteNumberOfWinners votedNumberOfWinners
    let participant ← participant.attestUpload currentTime
    let lottery ← lottery.addAttestation
    let beganSettlement := lottery.allAttested && lottery.settlementStartUnix = 0
    let lottery :=
      if beganSettlement then { lottery with settlementStartUnix := currentTime } else lottery
    let w ← writeAccountData rt w participantAi participant
    let w ← writeAccountData rt w lotteryAi lottery
    let w := w.emit (.attestationSubmitted lottery.id lotteryAi.key participantAi.key walletAi.key
      votedNumberOfWinners lottery.attestedCount currentTime)
    return if beganSettlement then
        w.emit (.settlementPhaseBegan lottery.id lotteryAi.key lottery.settlementStartUnix currentTime)
      else w
  | _ => .error Error.invalidInstruction

end AttestUploaded

/-- The vote tally at its address, where it exists. -/
def loadVoteTally (voteTallyAi lotteryAi : AccountInfo K) : Result (VoteTally K) := do
  assertPdaOwned rt w voteTallyAi (.voteTally lotteryAi.key)
  readAccountData rt w (VoteTally K) voteTallyAi

namespace AttestReveal

def loadOrCreateTally (lottery : Lottery K) (maxWinners : ℕ)
    (walletAi voteTallyAi lotteryAi : AccountInfo K) : Result (World K × VoteTally K) := do
  if dataIsEmpty w voteTallyAi then
    let w ← createAccount rt w walletAi voteTallyAi (VoteTally.accountSizeFor maxWinners)
    return (w, VoteTally.new lotteryAi.key maxWinners lottery.attestedCount)
  else
    let tally ← loadVoteTally rt w voteTallyAi lotteryAi
    rejectIf (tally.lottery ≠ lotteryAi.key ∨ tally.maxWinners ≠ maxWinners)
      Error.invalidAccountData
    return (w, tally)

/-- What an on-chain reveal does to the participant. -/
def attestParticipant (participant : Participant K) (vote : ℕ) (currentTime : ℤ)
    (revealDigest : Bytes32) : Result (Participant K) := do
  let participant ← participant.setVoteNumberOfWinners vote
  let participant ← participant.attestUpload currentTime
  return participant.includeVerifiedReveal revealDigest

/-- What it does to the tally. -/
def tallyParticipant (tally : VoteTally K) (lottery : Lottery K) (participant : Participant K) :
    Result (VoteTally K) := do
  let tally := { tally with totalAttested := lottery.attestedCount }
  let tally := tally.addVote participant.votedWinners participant.ticketsBought
    participant.attestedAtUnix
  let processedCount ← okOr (checkedAdd 64 tally.processedCount 1) Error.mathOverflow
  return { tally with processedCount }

/-- The attestation and the reveal counted in the lottery. -/
def recordReveal (lottery : Lottery K) (revealDigest : Bytes32) : Result (Lottery K) := do
  let lottery ← lottery.addAttestation
  return { lottery with
    providerUploadedCount := saturatingAdd 64 lottery.providerUploadedCount 1
    pocAggregateHash := xorRevealDigests lottery.pocAggregateHash [revealDigest] }

/-- The phase flags after an attestation. -/
def updatePhase (lottery : Lottery K) (currentTime : ℤ) : Lottery K :=
  let allAttested := lottery.allAttested
  let uploadElapsed := lottery.uploadElapsed currentTime
  let lottery :=
    if allAttested = true ∧ lottery.settlementStartUnix = 0 then
      { lottery with settlementStartUnix := currentTime }
    else lottery
  if lottery.attestedCount ≤ lottery.providerUploadedCount ∧
      (allAttested = true ∨ uploadElapsed = true) then
    { lottery with uploadsComplete := true }
  else lottery

/-- The winner count the tally elects and the phase flags. -/
def conclude (lottery : Lottery K) (tally : VoteTally K) (currentTime : ℤ) :
    Result (Lottery K) := do
  let lottery ← (
    if 1 < lottery.participantsCount then
      lottery.setSelectedWinners (tally.selectedWinners lottery.participantsCount)
    else pure lottery)
  return updatePhase lottery currentTime

def process (accounts : List (AccountInfo K)) (votedNumberOfWinners : ℕ) (revealPlaintext : Bytes) :
    Result (World K) :=
  match accounts with
  | configAi :: lotteryAi :: participantAi :: walletAi :: voteTallyAi :: systemProgramAi :: _ => do
    assertPdaOwned rt w configAi .config
    requireWritable lotteryAi
    requireWritable participantAi
    requireSigner walletAi
    requireWritable walletAi
    requireWritable voteTallyAi
    requireKeyMatch systemProgramAi default
    rejectIf (revealPlaintext = [] ∨ maxRevealPlaintextBytes < revealPlaintext.length)
      Error.invalidUploads
    let config ← readAccountData rt w (Config K) configAi
    let lottery ← readAccountData rt w (Lottery K) lotteryAi
    let participant ← readAccountData rt w (Participant K) participantAi
    assertPdaOwned rt w lotteryAi (.lottery configAi.key lottery.id)
    rejectIf (lottery.config ≠ configAi.key) Error.invalidAccountData
    assertPdaOwned rt w participantAi (.participant lotteryAi.key walletAi.key)
    rejectIf (participant.lottery ≠ lotteryAi.key ∨ participant.wallet ≠ walletAi.key)
      Error.invalidAccountData
    rejectIf (participant.hasTickets = false) Error.invalidInstruction
    rejectIf (participant.attestedUploaded = true) Error.attestationAlreadySubmitted
    rejectIf (participant.revealIncluded = true) Error.invalidUploads
    let currentTime := w.clock
    rejectIf (lottery.phase currentTime ≠ .upload) Error.outsideTimeWindow
    rejectIf (votedNumberOfWinners = 0) Error.invalidInstruction
    let maxWinners := config.effectiveMaxWinners lottery.participantsCount
    rejectIf (maxWinners < votedNumberOfWinners) Error.invalidInstruction
    rejectIf (rt.sha256 revealPlaintext ≠ participant.proofOfChanceHash) Error.revealMismatch
    let revealDigest := computeRevealDigest rt walletAi.key revealPlaintext
    let participant ← attestParticipant participant votedNumberOfWinners currentTime revealDigest
    let lottery ← recordReveal lottery revealDigest
    assertPdaKey rt voteTallyAi (.voteTally lotteryAi.key)
    let (w, tally) ← loadOrCreateTally rt w lottery maxWinners walletAi voteTallyAi lotteryAi
    let tally ← tallyParticipant tally lottery participant
    let lottery ← conclude lottery tally currentTime
    let w ← writeAccountData rt w participantAi participant
    let w ← writeAccountData rt w lotteryAi lottery
    let w ← writeAccountData rt w voteTallyAi tally
    let w := w.emit (.attestationSubmitted lottery.id lotteryAi.key participantAi.key walletAi.key
      votedNumberOfWinners lottery.attestedCount currentTime)
    return w.emit (.revealsUploaded lottery.id lotteryAi.key walletAi.key
      lottery.providerUploadedCount lottery.pocAggregateHash lottery.selectedNumberOfWinners
      currentTime)
  | _ => .error .notEnoughAccountKeys

end AttestReveal

namespace UploadReveals

/-- Whether a signer other than the authority may supply missing reveals. -/
def canRemediate (lottery : Lottery K) (isAuthority : Bool) (currentTime : ℤ) : Bool :=
  !isAuthority && lottery.uploadElapsed currentTime && lottery.hasMissingAttestedReveals &&
    !lottery.remediationExpired currentTime

/-- The phase and uploader checks, with the times they start. -/
def checkPhase (lottery : Lottery K) (isAuthority : Bool) (currentTime : ℤ) :
    Result (Lottery K) := do
  let uploadElapsed := lottery.uploadElapsed currentTime
  let canRemediate := canRemediate lottery isAuthority currentTime
  rejectIf (lottery.remediationExpired currentTime = true) Error.invalidPhaseTransition
  rejectIf (isAuthority = false ∧ canRemediate = false) Error.unauthorized
  let lottery ← (
    if canRemediate = true ∧ lottery.remediationStartUnix = 0 then
      lottery.beginRemediation currentTime
    else pure lottery)
  rejectIf (lottery.settled = true ∨ lottery.settlementComplete = true ∨
    lottery.uploadsComplete = true) Error.invalidPhaseTransition
  rejectIf (uploadElapsed = false ∧ lottery.allAttested = false ∧ lottery.settlementStartUnix = 0)
    Error.invalidPhaseTransition
  let lottery :=
    if lottery.settlementStartUnix = 0 then { lottery with settlementStartUnix := currentTime }
    else lottery
  rejectIf (lottery.attestedCount = 0) Error.noAttestedParticipants
  return lottery

def loadOrCreateTally (lottery : Lottery K) (maxWinners : ℕ)
    (uploaderAi voteTallyAi lotteryAi : AccountInfo K) : Result (World K × VoteTally K) := do
  if dataIsEmpty w voteTallyAi then
    requireWritable uploaderAi
    let w ← createAccount rt w uploaderAi voteTallyAi (VoteTally.accountSizeFor maxWinners)
    let tally := VoteTally.new lotteryAi.key maxWinners lottery.attestedCount
    let w ← writeAccountData rt w voteTallyAi tally
    return (w, tally)
  else
    let tally ← loadVoteTally rt w voteTallyAi lotteryAi
    rejectIf (tally.lottery ≠ lotteryAi.key) Error.invalidInstruction
    rejectIf (tally.maxWinners ≠ maxWinners) Error.invalidInstruction
    return (w, tally)

/-- The duplicate and length checks over the entries as supplied. -/
def validateEntries : List (K × Bytes) → List K → Result Unit
  | [], _ => .ok ()
  | (pk, plaintext) :: entries, seen => do
    rejectIf (pk ∈ seen) Error.invalidUploads
    rejectIf (maxRevealPlaintextBytes < plaintext.length) Error.invalidUploads
    validateEntries entries (pk :: seen)

/-- Lexicographic order on the bytes of a key, the order of a `BTreeMap` keyed by it. -/
def keyLe (a b : K × Bytes) : Bool :=
  decide ((rt.keyBytes a.1).toList.map UInt8.toNat ≤ (rt.keyBytes b.1).toList.map UInt8.toNat)

def provided (entries : List (K × Bytes)) : List (K × Bytes) := entries.mergeSort (keyLe rt)

/-- What one entry does to its participant and to the tally, with the digest it adds. -/
def includeReveal (maxWinners : ℕ) (tally : VoteTally K) (participant : Participant K)
    (plaintext : Bytes) : Result (VoteTally K × Participant K × Bytes32) := do
  rejectIf (participant.revealIncluded = true) Error.invalidUploads
  rejectIf (participant.attestedUploaded = false) Error.invalidUploads
  rejectIf (rt.sha256 plaintext ≠ participant.proofOfChanceHash) Error.revealMismatch
  let revealDigest := computeRevealDigest rt participant.wallet plaintext
  let voted := participant.votedWinners
  let tally :=
    if 0 < voted ∧ voted ≤ maxWinners then
      tally.addVote voted participant.ticketsBought participant.attestedAtUnix
    else tally
  let participant := { participant with revealScore := revealScore plaintext }
  return (tally, participant.includeVerifiedReveal revealDigest, revealDigest)

/-- The loop over the entries in key order. -/
def processEntries (maxWinners : ℕ) (lotteryAi : AccountInfo K) (rest : List (AccountInfo K)) :
    List (K × Bytes) → World K → VoteTally K → List Bytes32 →
      Result (World K × VoteTally K × List Bytes32)
  | [], w, tally, digests => .ok (w, tally, digests)
  | (pk, plaintext) :: entries, w, tally, digests => do
    let participantAi ← okOr (rest.find? fun ai ↦ ai.key = pk) Error.missingAccount
    requireWritable participantAi
    let participant ← readAccountData rt w (Participant K) participantAi
    assertPdaOwned rt w participantAi (.participant lotteryAi.key participant.wallet)
    rejectIf (participant.lottery ≠ lotteryAi.key) Error.invalidAccountData
    let (tally, participant, digest) ← includeReveal rt maxWinners tally participant plaintext
    let w ← writeAccountData rt w participantAi participant
    processEntries maxWinners lotteryAi rest entries w tally (digests ++ [digest])

/-- The lottery after `newUploads` more reveals with the given digests. -/
def includeUploads (lottery : Lottery K) (tally : VoteTally K) (digests : List Bytes32) :
    Result (Lottery K) := do
  let providerUploadedCount := saturatingAdd 64 lottery.providerUploadedCount digests.length
  let uploadsComplete := lottery.uploadsComplete || lottery.attestedCount ≤ providerUploadedCount
  let lottery := { lottery with
    providerUploadedCount, uploadsComplete
    pocAggregateHash := xorRevealDigests lottery.pocAggregateHash digests }
  lottery.setSelectedWinners (tally.selectedWinners lottery.participantsCount)

def process (accounts : List (AccountInfo K)) (entries : List (K × Bytes)) : Result (World K) :=
  match accounts with
  | configAi :: lotteryAi :: uploaderAi :: systemProgramAi :: voteTallyAi :: rest => do
    assertPdaOwned rt w configAi .config
    requireWritable lotteryAi
    requireSigner uploaderAi
    requireWritable voteTallyAi
    requireKeyMatch systemProgramAi default
    rejectIf (validateAccountDiscriminator w (Config K) configAi = false) Error.invalidAccountData
    rejectIf (validateAccountDiscriminator w (Lottery K) lotteryAi = false)
      Error.invalidAccountData
    let config ← readAccountData rt w (Config K) configAi
    let lottery ← readAccountData rt w (Lottery K) lotteryAi
    assertPdaOwned rt w lotteryAi (.lottery configAi.key lottery.id)
    rejectIf (lottery.config ≠ configAi.key) Error.invalidAccountData
    let currentTime := w.clock
    let isAuthority := decide (uploaderAi.key = config.authority)
    let begins := canRemediate lottery isAuthority currentTime && lottery.remediationStartUnix = 0
    let lottery ← checkPhase lottery isAuthority currentTime
    let w :=
      if begins then
        w.emit (.revealRemediationBegan lottery.id lotteryAi.key lottery.providerUploadedCount
          lottery.attestedCount lottery.remediationStartUnix lottery.remediationDeadlineUnix
          currentTime)
      else w
    let maxWinners := config.effectiveMaxWinners lottery.participantsCount
    assertPdaKey rt voteTallyAi (.voteTally lotteryAi.key)
    let (w, tally) ← loadOrCreateTally rt w lottery maxWinners uploaderAi voteTallyAi lotteryAi
    let tally := { tally with totalAttested := lottery.attestedCount }
    validateEntries entries []
    let (w, tally, digests) ←
      processEntries rt maxWinners lotteryAi rest (provided rt entries) w tally []
    let tally := { tally with
      processedCount := saturatingAdd 64 tally.processedCount digests.length }
    let lottery ← includeUploads lottery tally digests
    let w :=
      if lottery.attestedCount ≤ lottery.providerUploadedCount ∧
          0 < lottery.remediationStartUnix then
        w.emit (.revealRemediationCompleted lottery.id lotteryAi.key lottery.providerUploadedCount
          lottery.attestedCount currentTime)
      else w
    let w ← writeAccountData rt w voteTallyAi tally
    let w := w.emit (.revealsUploaded lottery.id lotteryAi.key uploaderAi.key
      lottery.providerUploadedCount lottery.pocAggregateHash lottery.selectedNumberOfWinners
      currentTime)
    writeAccountData rt w lotteryAi lottery
  | _ => .error .notEnoughAccountKeys

end UploadReveals

end DailyLottery
