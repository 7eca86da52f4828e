import DailyLottery.State.Lottery
import DailyLottery.State.Participant
import DailyLottery.State.VoteTally
import DailyLottery.Events

namespace DailyLottery

open Lib

/-- The seed patterns of the program's derived addresses. -/
inductive Seeds (K : Type)
  | config
  | lottery (config : K) (id : ℕ)
  | participant (lottery wallet : K)
  | vault (lottery : K)
  | voteTally (lottery : K)
  | finalizationRoot (lottery : K)
  | winnerPage (lottery : K) (pageIndex : ℕ)
  deriving DecidableEq

/-- Account data by the type it was last written as. `zeroed` is a fresh allocation and
`other` whatever another program or a stranger stored. -/
inductive AccountData (K : Type)
  | empty
  | zeroed (space : ℕ)
  | config (c : Config K)
  | lottery (l : Lottery K)
  | participant (p : Participant K)
  | vault (v : Vault K)
  | voteTally (t : VoteTally K)
  | finalizationLedger (root : FinalizationLedger K)
  | winnerPage (page : WinnerPage K) (data : PageData K)
  | other (bytes : Bytes)

def AccountData.isEmpty {K : Type} : AccountData K → Bool
  | .empty => true
  | _ => false

/-- How a state type sits in an account: `wrap` writes it over the old data. -/
class AccountType (K : Type) (T : Type) where
  wrap : T → AccountData K → AccountData K
  unwrap : AccountData K → Option T

section AccountTypes

variable {K : Type}

instance : AccountType K (Config K) where
  wrap c _ := .config c
  unwrap | .config c => some c | _ => none

instance : AccountType K (Lottery K) where
  wrap l _ := .lottery l
  unwrap | .lottery l => some l | _ => none

instance : AccountType K (Participant K) where
  wrap p _ := .participant p
  unwrap | .participant p => some p | _ => none

instance : AccountType K (Vault K) where
  wrap v _ := .vault v
  unwrap | .vault v => some v | _ => none

instance : AccountType K (VoteTally K) where
  wrap t _ := .voteTally t
  unwrap | .voteTally t => some t | _ => none

instance : AccountType K (FinalizationLedger K) where
  wrap root _ := .finalizationLedger root
  unwrap | .finalizationLedger root => some root | _ => none

/-- The raw bytes behind a page header; a fresh allocation is all zeros. -/
def AccountData.pageData [Inhabited K] : AccountData K → PageData K
  | .winnerPage _ data => data
  | _ => .zeroed

/-- Writing a header leaves the entries and the paid bitmap behind it alone. -/
instance [Inhabited K] : AccountType K (WinnerPage K) where
  wrap page old := .winnerPage page old.pageData
  unwrap | .winnerPage page _ => some page | _ => none

end AccountTypes

/-- What the program takes from outside: its id, address derivation, SHA-256, rent, the build
features, and the result of deserializing bytes that were written as another type. Derived
addresses are injective in their seeds; the System Program's id is `default`, the zero key. -/
structure Runtime (K : Type) [Inhabited K] where
  programId : K
  findProgramAddress : Seeds K → K × ℕ
  sha256 : Bytes → Bytes32
  keyBytes : K → Bytes32
  minimumBalance : ℕ → ℕ
  allowEarlyUpload : Bool
  allowServiceChargeUpdate : Bool
  ed25519Program : K
  instructionsSysvar : K
  misread : (T : Type) → AccountData K → Option T
  programId_ne_default : programId ≠ default
  findProgramAddress_injective : Function.Injective fun s ↦ (findProgramAddress s).1
  minimumBalance_pos : ∀ space, 0 < minimumBalance space

structure Account (K : Type) where
  lamports : ℕ
  owner : K
  data : AccountData K

/-- An address nobody has used: no lamports, no data, owned by the System Program. -/
def Account.unused {K : Type} [Inhabited K] : Account K := ⟨0, default, .empty⟩

structure World (K : Type) where
  accounts : K → Account K
  clock : ℤ
  log : List (LotteryEvent K)

structure AccountInfo (K : Type) where
  key : K
  isSigner : Bool
  isWritable : Bool

namespace Runtime

variable {K : Type} [Inhabited K] (rt : Runtime K)

def address (s : Seeds K) : K := (rt.findProgramAddress s).1

@[simp] theorem address_inj {s t : Seeds K} : rt.address s = rt.address t ↔ s = t :=
  rt.findProgramAddress_injective.eq_iff

def configKey : K := rt.address .config
def lotteryKey (id : ℕ) : K := rt.address (.lottery rt.configKey id)

@[simp] theorem lotteryKey_inj {i j : ℕ} : rt.lotteryKey i = rt.lotteryKey j ↔ i = j := by
  simp [lotteryKey]

end Runtime

namespace World

variable {K : Type} [DecidableEq K]

def setAccount (w : World K) (k : K) (a : Account K) : World K :=
  { w with accounts := Function.update w.accounts k a }

def setData (w : World K) (k : K) (d : AccountData K) : World K :=
  w.setAccount k { w.accounts k with data := d }

def setLamports (w : World K) (k : K) (n : ℕ) : World K :=
  w.setAccount k { w.accounts k with lamports := n }

def emit (w : World K) (e : LotteryEvent K) : World K := { w with log := w.log ++ [e] }

@[simp] theorem accounts_setAccount_self (w : World K) (k : K) (a : Account K) :
    (w.setAccount k a).accounts k = a := by simp [setAccount]

theorem accounts_setAccount_of_ne (w : World K) {k k' : K} (a : Account K) (h : k' ≠ k) :
    (w.setAccount k a).accounts k' = w.accounts k' := by simp [setAccount, h]

omit [DecidableEq K] in
@[simp] theorem accounts_emit (w : World K) (e : LotteryEvent K) :
    (w.emit e).accounts = w.accounts := rfl

end World

section Checks

variable {K : Type} [DecidableEq K] [Inhabited K] (rt : Runtime K) (w : World K)

def assertPdaKey (ai : AccountInfo K) (seeds : Seeds K) : Result Unit :=
  rejectIf (rt.address seeds ≠ ai.key) Error.invalidSeeds

def assertPdaOwned (ai : AccountInfo K) (seeds : Seeds K) : Result Unit := do
  rejectIf (rt.address seeds ≠ ai.key) Error.invalidSeeds
  rejectIf ((w.accounts ai.key).owner ≠ rt.programId) Error.incorrectOwner

def requireSigner (ai : AccountInfo K) : Result Unit :=
  rejectIf (ai.isSigner = false) Error.unauthorized

def requireWritable (ai : AccountInfo K) : Result Unit :=
  rejectIf (ai.isWritable = false) Error.invalidInstruction

def requireKeyMatch (ai : AccountInfo K) (expected : K) : Result Unit :=
  rejectIf (ai.key ≠ expected) Error.invalidAccountData

def validateTicketCount (count : ℕ) : Result Unit :=
  rejectIf (count = 0) Error.invalidTicketCount

def dataIsEmpty (ai : AccountInfo K) : Bool := (w.accounts ai.key).data.isEmpty

/-- `read_account_data`: no discriminator is checked, so data of another type is handed to
`misread`. -/
def readAccountData (T : Type) [AccountType K T] (ai : AccountInfo K) : Result T :=
  let data := (w.accounts ai.key).data
  if data.isEmpty then .error .invalidAccountData
  else
    match AccountType.unwrap (T := T) data with
    | some t => .ok t
    | none => okOr (rt.misread T data) .invalidAccountData

/-- `write_account_data`; the runtime refuses a write to a read-only account or to one the
program does not own. -/
def writeAccountData {T : Type} [AccountType K T] (ai : AccountInfo K) (t : T) :
    Result (World K) := do
  let data := (w.accounts ai.key).data
  rejectIf (data.isEmpty = true) .accountDataTooSmall
  rejectIf (ai.isWritable = false) .readonlyAccount
  rejectIf ((w.accounts ai.key).owner ≠ rt.programId) .externalAccountDataModified
  return w.setData ai.key (AccountType.wrap t data)

/-- `validate_account_discriminator`: the data was last written as a `T`. -/
def validateAccountDiscriminator (T : Type) [AccountType K T] (ai : AccountInfo K) : Bool :=
  (AccountType.unwrap (T := T) (w.accounts ai.key).data).isSome

/-- The System Program's `create_account`, the new address signing through its seeds. -/
def createAccount (payer new : AccountInfo K) (space : ℕ) : Result (World K) := do
  let lamports := rt.minimumBalance space
  rejectIf (payer.isSigner = false ∨ payer.isWritable = false ∨ new.isWritable = false)
    .privilegeEscalation
  rejectIf (0 < (w.accounts new.key).lamports) .accountAlreadyInUse
  rejectIf ((w.accounts new.key).data.isEmpty = false ∨ (w.accounts new.key).owner ≠ default)
    .accountAlreadyInUse
  rejectIf ((w.accounts payer.key).data.isEmpty = false ∨ (w.accounts payer.key).owner ≠ default)
    .invalidAccountData
  rejectIf ((w.accounts payer.key).lamports < lamports) .insufficientLamports
  let w := w.setLamports payer.key ((w.accounts payer.key).lamports - lamports)
  return w.setAccount new.key ⟨lamports, rt.programId, .zeroed space⟩

/-- The System Program's `transfer`. -/
def systemTransfer (source target : AccountInfo K) (lamports : ℕ) : Result (World K) := do
  rejectIf (source.isSigner = false ∨ source.isWritable = false ∨ target.isWritable = false)
    .privilegeEscalation
  rejectIf ((w.accounts source.key).data.isEmpty = false ∨
    (w.accounts source.key).owner ≠ default) .invalidAccountData
  rejectIf ((w.accounts source.key).lamports < lamports) .insufficientLamports
  let w := w.setLamports source.key ((w.accounts source.key).lamports - lamports)
  return w.setLamports target.key ((w.accounts target.key).lamports + lamports)

/-- Lamports moved by the program itself between two borrowed accounts. The credit is a
`saturating_add`; the lamport supply is far below `2 ^ 64`, so it is a plain sum. -/
def moveLamports (source target : AccountInfo K) (lamports : ℕ) : Result (World K) := do
  rejectIf (source.key = target.key) .accountBorrowFailed
  rejectIf ((w.accounts source.key).lamports < lamports) Error.insufficientFunds
  rejectIf (source.isWritable = false ∨ target.isWritable = false) .readonlyAccount
  let w := w.setLamports source.key ((w.accounts source.key).lamports - lamports)
  return w.setLamports target.key ((w.accounts target.key).lamports + lamports)

/-- The same where amounts of zero are skipped. -/
def movePositive (source target : AccountInfo K) (lamports : ℕ) : Result (World K) :=
  if 0 < lamports then moveLamports w source target lamports else .ok w

end Checks

section CheckLemmas

variable {K : Type} [DecidableEq K] [Inhabited K] {rt : Runtime K} {w w' : World K}
  {ai : AccountInfo K} {u : Unit}

@[simp] theorem assertPdaKey_eq_ok {s : Seeds K} :
    assertPdaKey rt ai s = .ok u ↔ rt.address s = ai.key := by
  simp [assertPdaKey]

@[simp] theorem assertPdaOwned_eq_ok {s : Seeds K} :
    assertPdaOwned rt w ai s = .ok u ↔
      rt.address s = ai.key ∧ (w.accounts ai.key).owner = rt.programId := by
  simp [assertPdaOwned]

omit [DecidableEq K] [Inhabited K] in
@[simp] theorem requireSigner_eq_ok : requireSigner ai = .ok u ↔ ai.isSigner = true := by
  simp [requireSigner]

omit [DecidableEq K] [Inhabited K] in
@[simp] theorem requireWritable_eq_ok : requireWritable ai = .ok u ↔ ai.isWritable = true := by
  simp [requireWritable]

omit [Inhabited K] in
@[simp] theorem requireKeyMatch_eq_ok {k : K} : requireKeyMatch ai k = .ok u ↔ ai.key = k := by
  simp [requireKeyMatch]

omit [DecidableEq K] [Inhabited K] in
@[simp] theorem validateTicketCount_eq_ok {n : ℕ} : validateTicketCount n = .ok u ↔ n ≠ 0 := by
  simp [validateTicketCount]

@[simp] theorem writeAccountData_eq_ok {T : Type} [AccountType K T] {t : T} :
    writeAccountData rt w ai t = .ok w' ↔
      (w.accounts ai.key).data.isEmpty = false ∧ ai.isWritable = true ∧
        (w.accounts ai.key).owner = rt.programId ∧
        w.setData ai.key (AccountType.wrap t (w.accounts ai.key).data) = w' := by
  simp only [writeAccountData, bind_eq_ok, rejectIf_eq_ok, exists_const, pure_eq_ok,
    Bool.not_eq_true, Bool.not_eq_false, not_not, ne_eq]

@[simp] theorem createAccount_eq_ok {payer new : AccountInfo K} {space : ℕ} :
    createAccount rt w payer new space = .ok w' ↔
      (payer.isSigner = true ∧ payer.isWritable = true ∧ new.isWritable = true) ∧
        w.accounts new.key = .unused ∧
        (w.accounts payer.key).data.isEmpty = true ∧ (w.accounts payer.key).owner = default ∧
        rt.minimumBalance space ≤ (w.accounts payer.key).lamports ∧
        (w.setLamports payer.key ((w.accounts payer.key).lamports - rt.minimumBalance space)).setAccount
          new.key ⟨rt.minimumBalance space, rt.programId, .zeroed space⟩ = w' := by
  have hu (a : Account K) : a = .unused ↔ a.lamports = 0 ∧ a.data.isEmpty = true ∧
    a.owner = default := by
    obtain ⟨n, o, d⟩ := a
    cases d <;> simp [Account.unused, AccountData.isEmpty, and_comm]
  simp only [createAccount, bind_eq_ok, rejectIf_eq_ok, exists_const, pure_eq_ok, not_or, not_lt,
    Bool.not_eq_false, not_not, ne_eq, nonpos_iff_eq_zero, hu, and_assoc]

omit [Inhabited K] in
@[simp] theorem moveLamports_eq_ok {source target : AccountInfo K} {n : ℕ} :
    moveLamports w source target n = .ok w' ↔ source.key ≠ target.key ∧
      n ≤ (w.accounts source.key).lamports ∧
      source.isWritable = true ∧ target.isWritable = true ∧
      (w.setLamports source.key ((w.accounts source.key).lamports - n)).setLamports target.key
        ((w.accounts target.key).lamports + n) = w' := by
  simp only [moveLamports, bind_eq_ok, rejectIf_eq_ok, exists_const, pure_eq_ok, not_or,
    Bool.not_eq_false, not_lt, and_assoc]
  refine and_congr_right fun h ↦ ?_
  simp [World.setLamports, World.setAccount, Ne.symm h]

@[simp] theorem systemTransfer_eq_ok {source target : AccountInfo K} {n : ℕ}
    (h : source.key ≠ target.key) : systemTransfer w source target n = .ok w' ↔
      (source.isSigner = true ∧ source.isWritable = true ∧ target.isWritable = true) ∧
        (w.accounts source.key).data.isEmpty = true ∧ (w.accounts source.key).owner = default ∧
        n ≤ (w.accounts source.key).lamports ∧
        (w.setLamports source.key ((w.accounts source.key).lamports - n)).setLamports target.key
          ((w.accounts target.key).lamports + n) = w' := by
  simp only [systemTransfer, bind_eq_ok, rejectIf_eq_ok, exists_const, pure_eq_ok, not_or, not_lt,
    Bool.not_eq_false, not_not, ne_eq, and_assoc]
  simp [World.setLamports, World.setAccount, Ne.symm h]

end CheckLemmas

end DailyLottery
