import DailyLottery.Lib.Run
import DailyLottery.Instructions.Setup
import DailyLottery.Instructions.Participation
import DailyLottery.Instructions.FinalizeWinners
import DailyLottery.Instructions.Settlement

namespace DailyLottery

open Lib

inductive Instruction (K : Type)
  | initializeConfig (ticketPriceLamports serviceChargeBps maxWinnersCap : ℕ)
  | createLottery
  | buyTickets (proofOfChanceHash : Option Bytes32) (numberOfTickets : ℕ)
  | attestUploaded (votedNumberOfWinners : ℕ)
  | attestReveal (votedNumberOfWinners : ℕ) (revealPlaintext : Bytes)
  | uploadReveals (entries : List (K × Bytes))
  | finalizeWinners
  | settlePayoutBatch (lotteryId batchIndex : ℕ) (winners : List (WinnerProof K))
  | finalizeNoAttesters
  | claimRefund
  | closeParticipant
  | closeRefundVault
  | updateServiceCharge (newBps : ℕ)
  | beginRevealNow (attestationSecs uploadSecs : ℕ)

variable {K : Type} [DecidableEq K] [Inhabited K] (rt : Runtime K)

/-- `process_instruction`; `preceding` is what the instructions sysvar shows before it. -/
def processInstruction (w : World K) (preceding : List (K × Bytes)) (ix : Instruction K)
    (accounts : List (AccountInfo K)) : Result (World K) :=
  match ix with
  | .initializeConfig price bps cap => Initialize.process rt w accounts price bps cap
  | .createLottery => CreateLottery.process rt w accounts
  | .buyTickets hash count => BuyTickets.process rt w accounts hash count
  | .attestUploaded vote => AttestUploaded.process rt w preceding accounts vote
  | .attestReveal vote plaintext => AttestReveal.process rt w accounts vote plaintext
  | .uploadReveals entries => UploadReveals.process rt w accounts entries
  | .finalizeWinners => FinalizeWinners.process rt w accounts
  | .settlePayoutBatch id batch winners => SettlePayoutBatch.process rt w accounts id batch winners
  | .finalizeNoAttesters => FinalizeNoAttesters.process rt w accounts
  | .claimRefund => ClaimRefund.process rt w accounts
  | .closeParticipant => CloseParticipant.process rt w accounts
  | .closeRefundVault => CloseRefundVault.process rt w accounts
  | .updateServiceCharge bps => UpdateServiceCharge.process rt w accounts bps
  | .beginRevealNow att upl => BeginRevealPhase.process rt w accounts att upl

/-- What can happen to the ledger: an instruction of the program, the clock moving on, a plain
transfer to any address, anything at all at an address the program did not derive, and the
runtime dropping an account without lamports. -/
inductive Action (K : Type)
  | instruction (preceding : List (K × Bytes)) (ix : Instruction K)
    (accounts : List (AccountInfo K))
  | tick (time : ℤ)
  | deposit (key : K) (lamports : ℕ)
  | outside (key : K) (account : Account K)
  | reap (key : K)

/-- A derived address has no private key, so it signs no top-level instruction. -/
def SignersAreKeys (accounts : List (AccountInfo K)) : Prop :=
  ∀ ai ∈ accounts, ai.isSigner = true → ∀ s, ai.key ≠ rt.address s

/-- A failed instruction changes nothing and is no step. -/
inductive Step : World K → Action K → World K → Prop
  | instruction {w w' : World K} {preceding : List (K × Bytes)} {ix : Instruction K}
      {accounts : List (AccountInfo K)} :
      SignersAreKeys rt accounts → processInstruction rt w preceding ix accounts = .ok w' →
      Step w (.instruction preceding ix accounts) w'
  | tick {w : World K} {time : ℤ} :
      w.clock ≤ time → time < 2 ^ 63 → Step w (.tick time) { w with clock := time }
  | deposit {w : World K} (key : K) (lamports : ℕ) :
      Step w (.deposit key lamports) (w.setLamports key ((w.accounts key).lamports + lamports))
  | outside {w : World K} {key : K} (account : Account K) :
      (∀ s, key ≠ rt.address s) → Step w (.outside key account) (w.setAccount key account)
  | reap {w : World K} {key : K} :
      (w.accounts key).lamports = 0 → Step w (.reap key) (w.setAccount key .unused)

/-- Before the program is used none of its addresses holds anything. -/
structure Genesis (w : World K) : Prop where
  unused : ∀ s, w.accounts (rt.address s) = .unused
  clock_ge : -2 ^ 63 ≤ w.clock
  clock_lt : w.clock < 2 ^ 63

def system : System (World K) (Action K) := ⟨Genesis rt, Step rt⟩

end DailyLottery
