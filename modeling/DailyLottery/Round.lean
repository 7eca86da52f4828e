import DailyLottery.Lib.Run
import DailyLottery.Lib.Sweep
import DailyLottery.Instructions.Setup
import DailyLottery.Instructions.Participation
import DailyLottery.Instructions.FinalizeWinners
import DailyLottery.Instructions.Settlement

namespace DailyLottery

open Lib

/-- One lottery with everything that belongs to it, free of addresses and caller-supplied
account lists. Participants stand in the order of their first purchase and stay listed after
their accounts are closed. -/
structure Round (K : Type) where
  key : K
  now : ℤ
  config : Config K
  lottery : Lottery K
  participants : List (Participant K)
  tally : Option (VoteTally K)
  ledger : Option (FinalizationLedger K)
  pages : ℕ → Option (WinnerPage K × PageData K)
  vault : ℕ
  vaultClosed : Bool
  donated : ℕ

variable {K : Type} [DecidableEq K] [Inhabited K]

/-- When `CloseParticipant` lets a participant account go. -/
def Lottery.Closable (l : Lottery K) (p : Participant K) : Prop :=
  (l.settled = true ∧ l.winnersCount = 0 ∧ p.refundClaimed = true) ∨
    (l.settlementComplete = true ∧ 0 < l.winnersCount)

def Lottery.countRefund (l : Lottery K) : Lottery K :=
  { l with settlementBatchesCompleted := l.settlementBatchesCompleted + 1 }

def Participant.attest (p : Participant K) (vote : ℕ) (now : ℤ) : Participant K :=
  { p with
    votedNumberOfWinners := Participant.voteWord vote
    attestedUploaded := true
    attestedAtUnix := now }

structure Lottery.CanBuy (l : Lottery K) (now : ℤ) (count : ℕ) : Prop where
  count_pos : 0 < count
  not_started : ¬(0 < l.uploadStartUnix ∧ l.uploadStartUnix ≤ now)
  active : l.isActive = true
  window : l.isInBuyWindow now = true
  cost_lt : l.ticketPriceLamports * count < 2 ^ 64
  tickets_lt : l.totalTickets + count < 2 ^ 64
  funds_lt : l.totalFunds + l.ticketPriceLamports * count < 2 ^ 64

def Lottery.sell (l : Lottery K) (count : ℕ) : Lottery K :=
  { l with
    totalTickets := l.totalTickets + count
    totalFunds := l.totalFunds + l.ticketPriceLamports * count }

/-- The guards both attestation instructions share. -/
structure Lottery.CanAttest (l : Lottery K) (config : Config K) (now : ℤ) (p : Participant K)
    (vote : ℕ) : Prop where
  tickets : p.hasTickets = true
  phase : l.phase now = .upload
  vote_pos : 0 < vote
  vote_le : vote ≤ config.effectiveMaxWinners l.participantsCount
  fresh : p.attestedUploaded = false
  count_lt : l.attestedCount + 1 < 2 ^ 64

def Lottery.countAttestation (l : Lottery K) (now : ℤ) : Lottery K :=
  let l := { l with attestedCount := l.attestedCount + 1 }
  if l.allAttested && l.settlementStartUnix = 0 then { l with settlementStartUnix := now } else l

namespace Round

/-- The tally a reveal is counted in, and the condition for reusing the one there is. -/
def openTally (r : Round K) (attestedCount : ℕ) : VoteTally K :=
  r.tally.getD (VoteTally.new r.key
    (r.config.effectiveMaxWinners r.lottery.participantsCount) attestedCount)

def TallyFits (r : Round K) : Prop :=
  ∀ t ∈ r.tally, t.maxWinners = r.config.effectiveMaxWinners r.lottery.participantsCount

variable (rt : Runtime K)

def IncludeVisit (maxWinners : ℕ) (s : VoteTally K × List Bytes32) (plaintext : Bytes)
    (p : Participant K) (s' : VoteTally K × List Bytes32) (p' : Participant K) : Prop :=
  ∃ digest, UploadReveals.includeReveal rt maxWinners s.1 p plaintext = .ok (s'.1, p', digest) ∧
    s'.2 = s.2 ++ [digest]

def PassVisit (body : FinalizationLedger K → Participant K →
      Result (FinalizationLedger K × Option (Participant K)))
    (root : FinalizationLedger K) (_ : Unit) (p : Participant K)
    (root' : FinalizationLedger K) (p' : Participant K) : Prop :=
  ∃ updated, body root p = .ok (root', updated) ∧ p' = updated.getD p

def openLedger (r : Round K) : FinalizationLedger K :=
  r.ledger.getD (FinalizationLedger.new r.key r.lottery.participantsCount r.now)

def openPage (r : Round K) (root : FinalizationLedger K) : WinnerPage K × PageData K :=
  (r.pages (root.selectedCount / winnersPerPage)).getD
    (WinnerPage.new r.key root.generation (root.selectedCount / winnersPerPage), .zeroed)

/-- The guards of `FinalizeWinners` before it looks at participants. -/
structure Finalizable (r : Round K) : Prop where
  not_settled : r.lottery.settled = false
  not_complete : r.lottery.settlementComplete = false
  two_le : 1 < r.lottery.participantsCount
  attested : r.lottery.attestedCount ≠ 0
  no_missing : r.lottery.hasMissingAttestedReveals = false
  elapsed : r.lottery.uploadsComplete = true ∨ r.lottery.uploadElapsed r.now = true
  required : ∀ root ∈ r.ledger, root.requiredCount = r.lottery.participantsCount

/-- A payout batch run over the lottery's and the page's paid bits; the last argument lists the
indices it newly pays. -/
inductive PayRun (page : WinnerPage K) (pageIndex amount : ℕ) :
    Lottery K → PageData K → List (WinnerProof K) → Lottery K → PageData K → List ℕ → Prop
  | nil (l : Lottery K) (data : PageData K) : PayRun page pageIndex amount l data [] l data []
  | skip {l l' : Lottery K} {data data' : PageData K} {x : WinnerProof K}
      {xs : List (WinnerProof K)} {fresh : List ℕ} :
      SettlePayoutBatch.checkEntry l page data pageIndex amount x = .ok true →
      PayRun page pageIndex amount l data xs l' data' fresh →
      PayRun page pageIndex amount l data (x :: xs) l' data' fresh
  | pay {l l₁ l' : Lottery K} {data data₁ data' : PageData K} {x : WinnerProof K}
      {xs : List (WinnerProof K)} {fresh : List ℕ} :
      SettlePayoutBatch.checkEntry l page data pageIndex amount x = .ok false →
      page.markPaid data (x.index % winnersPerPage) = .ok data₁ →
      l.markWinnerPaid x.index = .ok l₁ →
      PayRun page pageIndex amount l₁ data₁ xs l' data' fresh →
      PayRun page pageIndex amount l data (x :: xs) l' data' (x.index :: fresh)

structure Pays (r : Round K) (winners : List (WinnerProof K)) (pageIndex : ℕ)
    (page : WinnerPage K) (l : Lottery K) (data : PageData K) (fresh : List ℕ) : Prop where
  not_complete : r.lottery.settlementComplete = false
  winners_pos : r.lottery.winnersCount ≠ 0
  nonempty : winners ≠ []
  page_eq : ∃ old, r.pages pageIndex = some (page, old) ∧
    PayRun page pageIndex (r.lottery.totalPayout / r.lottery.winnersCount) r.lottery old winners
      l data fresh
  solvent : fresh.length * (r.lottery.totalPayout / r.lottery.winnersCount) ≤ r.vault

/-- What one step of the program or its environment can do to a lottery. -/
inductive Step : Round K → Round K → Prop
  | refl (r : Round K) : Step r r
  | tick {r : Round K} {time : ℤ} :
      r.now ≤ time → time < 2 ^ 63 → Step r { r with now := time }
  | reconfigure {r : Round K} {config : Config K} :
      config.authority = r.config.authority → config.maxWinnersCap = r.config.maxWinnersCap →
      config.ticketPriceLamports = r.config.ticketPriceLamports →
      config.uploadWindowSecs = r.config.uploadWindowSecs → Step r { r with config := config }
  | deposit {r : Round K} (lamports : ℕ) :
      Step r { r with vault := r.vault + lamports, donated := r.donated + lamports }
  | buyFirst {r : Round K} {wallet : K} {hash : Bytes32} {count : ℕ} :
      r.lottery.CanBuy r.now count → wallet ∉ r.participants.map Participant.wallet →
      r.lottery.participantsCount < Sizes.maxParticipants → count < 2 ^ 64 →
      Step r { r with
        lottery := { r.lottery.sell count with
          participantsCount := r.lottery.participantsCount + 1 }
        vault := r.vault + r.lottery.ticketPriceLamports * count
        participants := r.participants ++
          [Participant.new r.key wallet hash count r.lottery.participantsCount] }
  | buyMore {r : Round K} {i : ℕ} {p : Participant K} {count : ℕ} :
      r.lottery.CanBuy r.now count → r.participants[i]? = some p →
      p.ticketsBought + count < 2 ^ 64 →
      Step r { r with
        lottery := r.lottery.sell count
        vault := r.vault + r.lottery.ticketPriceLamports * count
        participants := r.participants.set i { p with ticketsBought := p.ticketsBought + count } }
  | beginReveal {r : Round K} {att upl : ℤ} {l : Lottery K} :
      r.lottery.settled = false →
      ¬(0 < r.lottery.uploadStartUnix ∧ r.lottery.uploadStartUnix ≤ r.now) →
      ¬(0 < r.lottery.uploadDeadlineUnix ∧ r.lottery.uploadDeadlineUnix < r.now) →
      ¬(0 < r.lottery.settlementStartUnix) → r.lottery.uploadsComplete = false →
      r.lottery.settlementComplete = false → (0 ≤ att) → (0 ≤ upl) →
      (0 < r.config.uploadWindowSecs → 0 < att ∧ 0 < upl) →
      BeginRevealPhase.openWindow r.lottery r.now att upl = .ok l →
      Step r { r with lottery := BeginRevealPhase.autoComplete rt l }
  | attestUploaded {r : Round K} {i : ℕ} {p : Participant K} {vote : ℕ} :
      r.participants[i]? = some p → r.lottery.CanAttest r.config r.now p vote →
      Step r { r with
        lottery := r.lottery.countAttestation r.now
        participants := r.participants.set i (p.attest vote r.now) }
  | attestReveal {r : Round K} {i : ℕ} {p p' : Participant K} {vote : ℕ} {plaintext : Bytes}
      {l l' : Lottery K} {t : VoteTally K} :
      r.participants[i]? = some p → r.lottery.CanAttest r.config r.now p vote →
        p.revealIncluded = false →
      plaintext ≠ [] → plaintext.length ≤ maxRevealPlaintextBytes →
      rt.sha256 plaintext = p.proofOfChanceHash →
      p' = (p.attest vote r.now).includeVerifiedReveal (computeRevealDigest rt p.wallet plaintext) →
      AttestReveal.recordReveal r.lottery (computeRevealDigest rt p.wallet plaintext) = .ok l →
      r.TallyFits → AttestReveal.tallyParticipant (r.openTally l.attestedCount) l p' = .ok t →
      AttestReveal.conclude l t r.now = .ok l' →
      Step r { r with lottery := l', participants := r.participants.set i p', tally := some t }
  | uploadReveals {r : Round K} {isAuthority : Bool} {entries : List (ℕ × Bytes)}
      {l l' : Lottery K} {t : VoteTally K} {ps : List (Participant K)} {digests : List Bytes32} :
      UploadReveals.checkPhase r.lottery isAuthority r.now = .ok l → r.TallyFits →
      Sweep (IncludeVisit rt (r.config.effectiveMaxWinners r.lottery.participantsCount))
        r.participants ({ r.openTally l.attestedCount with totalAttested := l.attestedCount }, [])
        entries ps (t, digests) →
      UploadReveals.includeUploads l { t with
        processedCount := saturatingAdd 64 t.processedCount digests.length } digests = .ok l' →
      Step r { r with
        lottery := l', participants := ps
        tally := some { t with
          processedCount := saturatingAdd 64 t.processedCount digests.length } }
  | beginRemediation {r : Round K} {l : Lottery K} :
      r.lottery.settled = false → r.lottery.settlementComplete = false →
      1 < r.lottery.participantsCount → r.lottery.hasMissingAttestedReveals = true →
      r.lottery.uploadElapsed r.now = true → r.lottery.remediationStartUnix = 0 →
      r.lottery.beginRemediation r.now = .ok l → Step r { r with lottery := l }
  | aggregate {r : Round K} {chunk : List (ℕ × Unit)} {ps : List (Participant K)}
      {root root' : FinalizationLedger K} {l : Lottery K} :
      r.Finalizable → r.openLedger.phase = .aggregating → chunk ≠ [] →
      Sweep (PassVisit (FinalizeWinners.aggregateParticipant rt)) r.participants r.openLedger chunk
        ps root →
      root.processedCount ≤ root.requiredCount →
      (if root.processedCount = root.requiredCount then
        FinalizeWinners.finishAggregation rt r.config r.lottery root
      else pure (r.lottery, root)) = .ok (l, root') →
      Step r { r with lottery := l, participants := ps, ledger := some root' }
  | select {r : Round K} {chunk : List (ℕ × Unit)} {ps : List (Participant K)}
      {root : FinalizationLedger K} :
      r.Finalizable → r.openLedger.phase = .selecting → chunk ≠ [] →
      Sweep (PassVisit FinalizeWinners.selectParticipant) r.participants r.openLedger chunk ps root →
      root.roundProcessedCount < root.requiredCount →
      Step r { r with participants := ps, ledger := some root }
  | selectLast {r : Round K} {chunk : List (ℕ × Unit)} {ps : List (Participant K)}
      {root root₁ root' : FinalizationLedger K} {winner : SelectedWinner K}
      {page : WinnerPage K} {data : PageData K} {l : Lottery K} :
      r.Finalizable → r.openLedger.phase = .selecting → chunk ≠ [] →
      Sweep (PassVisit FinalizeWinners.selectParticipant) r.participants r.openLedger chunk ps root →
      root.roundProcessedCount = root.requiredCount →
      FinalizeWinners.roundWinner root = .ok winner →
      (r.openPage root).1.append (r.openPage root).2 winner = .ok (page, data) →
      root.recordWinner rt winner = .ok root₁ →
      FinalizeWinners.nextRound rt r.lottery root₁ r.now = .ok (l, root') →
      Step r { r with
        lottery := l, participants := ps, ledger := some root'
        pages := Function.update r.pages (root.selectedCount / winnersPerPage)
          (some (page, data)) }
  | payBatch {r : Round K} {winners : List (WinnerProof K)} {pageIndex : ℕ} {page : WinnerPage K}
      {l : Lottery K} {data : PageData K} {fresh : List ℕ} :
      r.Pays winners pageIndex page l data fresh →
      l.incrementSettlementBatch.allWinnersPaid = false →
      Step r { r with
        lottery := l.incrementSettlementBatch
        pages := Function.update r.pages pageIndex (some (page, data))
        vault := r.vault - fresh.length * (r.lottery.totalPayout / r.lottery.winnersCount) }
  | payLast {r : Round K} {winners : List (WinnerProof K)} {pageIndex : ℕ} {page : WinnerPage K}
      {l l' : Lottery K} {data : PageData K} {fresh : List ℕ} {fee : ℕ} :
      r.Pays winners pageIndex page l data fresh →
      computeServiceFee l.totalFunds l.serviceChargeBps = .ok fee →
      fee + (l.totalFunds - l.totalPayout - fee) ≤
        r.vault - fresh.length * (r.lottery.totalPayout / r.lottery.winnersCount) →
      l.incrementSettlementBatch.completeSettlement = .ok l' →
      Step r { r with
        lottery := l'
        pages := Function.update r.pages pageIndex (some (page, data))
        vault := 0, vaultClosed := true }
  | finalizeNoAttesters {r : Round K} :
      r.lottery.settled = false →
      ((r.lottery.participantsCount = 1 ∧ r.lottery.uploadsComplete = true) ∨
        (0 < r.lottery.uploadDeadlineUnix ∧ r.lottery.uploadDeadlineUnix ≤ r.now)) →
      (r.lottery.attestedCount = 0 ∨ r.lottery.remediationExpired r.now = true) →
      Step r { r with lottery := r.lottery.settle }
  | claimRefund {r : Round K} {i : ℕ} {p : Participant K} :
      r.lottery.settled = true → r.lottery.winnersCount = 0 → r.lottery.totalPayout = 0 →
      r.participants[i]? = some p → p.ticketsBought ≠ 0 → p.refundClaimed = false →
      r.lottery.ticketPriceLamports * p.ticketsBought ≤ r.vault →
      r.lottery.settlementBatchesCompleted + 1 < 2 ^ 32 →
      Step r { r with
        lottery := r.lottery.countRefund
        participants := r.participants.set i p.markRefundClaimed
        vault := r.vault - r.lottery.ticketPriceLamports * p.ticketsBought }
  | closeRefundVault {r : Round K} :
      r.lottery.settled = true → r.lottery.winnersCount = 0 → r.lottery.totalPayout = 0 →
      r.lottery.participantsCount ≤ r.lottery.settlementBatchesCompleted →
      Step r { r with vault := 0, vaultClosed := true }

structure Created (r : Round K) : Prop where
  lottery : ∃ id config authority vault bump bps price,
    Lottery.new id config authority r.now vault bump bps price = .ok r.lottery ∧
      r.config.serviceChargeBps = bps ∧ r.config.ticketPriceLamports = price
  participants : r.participants = []
  tally : r.tally = none
  ledger : r.ledger = none
  pages : r.pages = fun _ ↦ none
  vault : r.vault = rt.minimumBalance Sizes.vaultSize
  vaultClosed : r.vaultClosed = false
  donated : r.donated = 0
  config : r.config.Valid

def machine : System (Round K) Unit := ⟨Created rt, fun r _ r' ↦ Step rt r r'⟩

end Round

end DailyLottery
