import DailyLottery.Accounts
import DailyLottery.Utils.Sha256

set_option linter.unusedSectionVars false

namespace DailyLottery

open Lib

section Exec

variable {K : Type} [DecidableEq K] [Inhabited K] (rt : Runtime K) (foreign : K → Bool)

/-- One action carried out; `foreign` tells keys the program did not derive. -/
def exec (w : World K) : Action K → Option (World K)
  | .instruction preceding ix accounts =>
    if accounts.all fun ai ↦ !ai.isSigner || foreign ai.key then
      (processInstruction rt w preceding ix accounts).toOption
    else none
  | .tick time => if w.clock ≤ time ∧ time < 2 ^ 63 then some { w with clock := time } else none
  | .deposit key n => some (w.setLamports key ((w.accounts key).lamports + n))
  | .outside key account => if foreign key then some (w.setAccount key account) else none
  | .reap key => if (w.accounts key).lamports = 0 then some (w.setAccount key .unused) else none

def execAll : List (Action K) → World K → Option (World K)
  | [], w => some w
  | a :: as, w => (exec rt foreign w a).bind (execAll as)

variable {rt foreign}

theorem exec_step (hf : ∀ k, foreign k = true → ∀ s, k ≠ rt.address s) {w w' : World K}
    {a : Action K}
    (h : exec rt foreign w a = some w') : Step rt w a w' := by
  cases a with
  | instruction preceding ix accounts =>
    simp only [exec, Option.ite_none_right_eq_some, List.all_eq_true, Bool.or_eq_true,
      Bool.not_eq_true'] at h
    obtain ⟨hs, h⟩ := h
    refine .instruction (fun ai hai hsign ↦ hf _ ?_) ?_
    · exact (hs ai hai).resolve_left (by simp [hsign])
    · cases hp : processInstruction rt w preceding ix accounts with
      | error e => simp [hp, Except.toOption] at h
      | ok w₁ =>
        simp only [hp, Except.toOption, Option.some.injEq] at h
        rw [h]
  | tick time =>
    simp only [exec, Option.ite_none_right_eq_some, Option.some.injEq] at h
    obtain ⟨⟨hle, hlt⟩, rfl⟩ := h
    exact .tick hle hlt
  | deposit key n =>
    simp only [exec, Option.some.injEq] at h
    exact h ▸ .deposit key n
  | outside key account =>
    simp only [exec, Option.ite_none_right_eq_some, Option.some.injEq] at h
    obtain ⟨hk, rfl⟩ := h
    exact .outside account (hf key hk)
  | reap key =>
    simp only [exec, Option.ite_none_right_eq_some, Option.some.injEq] at h
    obtain ⟨hz, rfl⟩ := h
    exact .reap hz

theorem step_exec (hd : ∀ k, foreign k = false → ∃ s, k = rt.address s) {w w' : World K}
    {a : Action K}
    (h : Step rt w a w') : exec rt foreign w a = some w' := by
  have hforeign {k : K} (hk : ∀ s, k ≠ rt.address s) : foreign k = true := by
    by_contra hfalse
    obtain ⟨s, hs⟩ := hd k (Bool.eq_false_iff.mpr hfalse)
    exact hk s hs
  cases h with
  | @instruction _ preceding ix accounts hsig hok =>
    have hall : (accounts.all fun ai ↦ !ai.isSigner || foreign ai.key) = true := by
      refine List.all_eq_true.mpr fun ai hai ↦ ?_
      by_cases hsign : ai.isSigner = true
      · simp [hforeign (hsig ai hai hsign)]
      · simp [hsign]
    refine (if_pos hall).trans ?_
    rw [hok]
    rfl
  | tick hle hlt => exact if_pos ⟨hle, hlt⟩
  | deposit => rfl
  | outside account hk => exact if_pos (hforeign hk)
  | reap hz => exact if_pos hz

theorem execAll_path (hf : ∀ k, foreign k = true → ∀ s, k ≠ rt.address s) {as : List (Action K)}
    {w w' : World K} (h : execAll rt foreign as w = some w') : (system rt).Path w as w' := by
  induction as generalizing w with
  | nil =>
    cases h
    exact .nil _
  | cons a as ih =>
    obtain ⟨w₁, h₁, h⟩ := Option.bind_eq_some_iff.mp h
    exact .cons (exec_step hf h₁) (ih h)

end Exec

namespace Sample

/-- Wallets, and the addresses derived from them. -/
inductive Key
  | wallet (n : ℕ)
  | config
  | lottery (config : Key) (id : ℕ)
  | participant (lottery wallet : Key)
  | vault (lottery : Key)
  | voteTally (lottery : Key)
  | finalizationRoot (lottery : Key)
  | winnerPage (lottery : Key) (pageIndex : ℕ)
  deriving DecidableEq

instance : Inhabited Key := ⟨.wallet 0⟩

def Key.derive : Seeds Key → Key
  | .config => .config
  | .lottery c id => .lottery c id
  | .participant l w => .participant l w
  | .vault l => .vault l
  | .voteTally l => .voteTally l
  | .finalizationRoot l => .finalizationRoot l
  | .winnerPage l i => .winnerPage l i

def Key.isWallet : Key → Bool
  | .wallet _ => true
  | _ => false

/-- A number for a key: its kind in the lowest byte, what it is derived from above. -/
def Key.code : Key → ℕ
  | .wallet n => n
  | .config => 1
  | .lottery c id => 2 + 256 * (id + 2 ^ 64 * c.code)
  | .participant l w => 3 + 256 * (w.code + 2 ^ 64 * l.code)
  | .vault l => 4 + 256 * l.code
  | .voteTally l => 5 + 256 * l.code
  | .finalizationRoot l => 6 + 256 * l.code
  | .winnerPage l i => 7 + 256 * (i + 2 ^ 32 * l.code)

/-- The highest byte tells the derived addresses from the wallets. -/
def Key.bytes (k : Key) : Bytes32 :=
  let n := if k.isWallet then k.code else k.code + 255 * 256 ^ 31
  Vector.ofFn fun i ↦ UInt8.ofNat (n / 256 ^ i.val)

def rt : Runtime Key where
  programId := .wallet 1
  findProgramAddress s := (Key.derive s, 255)
  sha256 := Sha256.hash
  keyBytes := Key.bytes
  minimumBalance space := (space + 128) * 6960
  allowEarlyUpload := false
  allowServiceChargeUpdate := false
  ed25519Program := .wallet 2
  instructionsSysvar := .wallet 3
  misread _ _ := none
  programId_ne_default := by decide
  findProgramAddress_injective s t h := by
    cases s <;> cases t <;> simp_all [Key.derive]
  minimumBalance_pos _ := by positivity

theorem foreign_of_isWallet (k : Key) (h : k.isWallet = true) (s : Seeds Key) :
    k ≠ rt.address s := by
  rintro rfl
  cases s <;> cases h

theorem derived_of_not_isWallet (k : Key) (h : k.isWallet = false) : ∃ s, k = rt.address s := by
  cases k with
  | wallet n => cases h
  | config => exact ⟨.config, rfl⟩
  | lottery c id => exact ⟨.lottery c id, rfl⟩
  | participant l n => exact ⟨.participant l n, rfl⟩
  | vault l => exact ⟨.vault l, rfl⟩
  | voteTally l => exact ⟨.voteTally l, rfl⟩
  | finalizationRoot l => exact ⟨.finalizationRoot l, rfl⟩
  | winnerPage l i => exact ⟨.winnerPage l i, rfl⟩

/-- Every wallet holds a thousand SOL, the clock stands at 1000. -/
def genesis : World Key where
  accounts
    | .wallet _ => ⟨10 ^ 12, default, .empty⟩
    | _ => .unused
  clock := 1000
  log := []

theorem genesis_genesis : Genesis rt genesis := by
  refine ⟨fun s ↦ ?_, by decide, by decide⟩
  cases s <;> rfl

theorem run_from (acts : List (Action Key)) (p : World Key → Bool)
    (h : (execAll rt Key.isWallet acts genesis).any p = true) :
    ∃ w ws, (system rt).History acts.reverse (w :: ws) ∧ [genesis] <:+ (w :: ws) ∧ p w = true := by
  obtain ⟨w, hw, hp⟩ := (Option.any_eq_true _ _).mp h
  obtain ⟨ws, hh, hsuf⟩ := (System.History.init genesis_genesis).extend
    (execAll_path foreign_of_isWallet hw)
  exact ⟨w, ws, by simpa using hh, hsuf, hp⟩

def lotteryOf (w : World Key) (id : ℕ) : Option (Lottery Key) :=
  AccountType.unwrap (w.view rt id .lottery).data

def ledgerOf (w : World Key) (id : ℕ) : Option (FinalizationLedger Key) :=
  AccountType.unwrap (w.view rt id .finalizationRoot).data

theorem run_lottery (acts : List (Action Key)) (id : ℕ) (p : World Key → Lottery Key → Bool)
    (h : (execAll rt Key.isWallet acts genesis).any (fun w ↦
      (lotteryOf w id).any (p w)) = true) :
    ∃ w ws l, (system rt).History acts.reverse (w :: ws) ∧
      (w.view rt id .lottery).data = .lottery l ∧ p w l = true := by
  obtain ⟨w, ws, hh, -, hp⟩ := run_from _ _ h
  cases hu : lotteryOf w id with
  | none => simp [hu] at hp
  | some l => exact ⟨w, ws, l, hh, unwrap_lottery.mp hu, by simpa [hu] using hp⟩

theorem step_ok {w : World Key} {a : Action Key} {p : World Key → Bool}
    (h : (exec rt Key.isWallet w a).any p = true) : ∃ w', Step rt w a w' ∧ p w' = true := by
  obtain ⟨w', hw', hp⟩ := (Option.any_eq_true _ _).mp h
  exact ⟨w', exec_step foreign_of_isWallet hw', hp⟩

/-- The lottery one more action leaves satisfies `p`. -/
def after (w : World Key) (a : Action Key) (id : ℕ) (p : Lottery Key → Bool) : Bool :=
  (exec rt Key.isWallet w a).any fun w' ↦ (lotteryOf w' id).any p

theorem after_ok {w : World Key} {a : Action Key} {id : ℕ} {p : Lottery Key → Bool}
    (h : after w a id p = true) :
    ∃ w' l, Step rt w a w' ∧ (w'.view rt id .lottery).data = .lottery l ∧ p l = true := by
  obtain ⟨w', hs, hp⟩ := step_ok h
  obtain ⟨l, hl, hp⟩ := (Option.any_eq_true _ _).mp hp
  exact ⟨w', l, hs, unwrap_lottery.mp hl, hp⟩

section Actions

variable (id : ℕ)

def lotteryKey : Key := .lottery .config id
def participantKey (n : ℕ) : Key := .participant (lotteryKey id) (.wallet n)

def writable (k : Key) : AccountInfo Key := ⟨k, false, true⟩
def signer (k : Key) : AccountInfo Key := ⟨k, true, true⟩

/-- The authority is wallet 10, the participants are the wallets from 20 on. -/
def authority : Key := .wallet 10

def reveal (n : ℕ) : Bytes := [0x61, 0x1f, UInt8.ofNat n]

def configure (price bps cap : ℕ) : Action Key := .instruction [] (.initializeConfig price bps cap)
  [signer authority, writable .config, writable default]

def create : Action Key := .instruction [] .createLottery
  [writable .config, writable (lotteryKey id), writable (.vault (lotteryKey id)), signer authority,
    writable default]

def buy (n count : ℕ) : Action Key :=
  .instruction [] (.buyTickets (some (Sha256.hash (reveal n))) count)
    [writable .config, writable (lotteryKey id), writable (.vault (lotteryKey id)),
      writable (participantKey id n), signer (.wallet n), writable default]

def attest (n vote : ℕ) : Action Key := .instruction [] (.attestReveal vote (reveal n))
  [writable .config, writable (lotteryKey id), writable (participantKey id n), signer (.wallet n),
    writable (.voteTally (lotteryKey id)), writable default]

/-- The data of an ed25519 instruction with one signature, the key first and the message last. -/
def signed (publicKey : Bytes32) (message : Bytes) : Bytes :=
  [1, 0] ++ [48, 0xFFFF, 16, 0xFFFF, 112, message.length, 0xFFFF].flatMap (leBytes 2) ++
    publicKey.toList ++ List.replicate 64 0 ++ message

def attestSigned (n vote : ℕ) : Action Key := .instruction
  [(rt.ed25519Program, signed (Key.bytes authority)
    (AttestUploaded.expectedMessage rt (lotteryKey id)
    (.wallet n) (Sha256.hash (reveal n)) vote))] (.attestUploaded vote)
  [writable .config, writable (lotteryKey id), writable (participantKey id n), signer (.wallet n),
    writable rt.instructionsSysvar]

def finalize (page : ℕ) (ns : List ℕ) : Action Key := .instruction [] .finalizeWinners
  ([writable .config, writable (lotteryKey id), writable (.vault (lotteryKey id)),
    signer (.wallet 5), writable default, writable (.finalizationRoot (lotteryKey id)),
    writable (.winnerPage (lotteryKey id) page)] ++ ns.map fun n ↦ writable (participantKey id n))

def upload (uploader : ℕ) (ns : List ℕ) : Action Key := .instruction []
  (.uploadReveals (ns.map fun n ↦ (participantKey id n, reveal n)))
  ([writable .config, writable (lotteryKey id), signer (.wallet uploader), writable default,
    writable (.voteTally (lotteryKey id))] ++ ns.map fun n ↦ writable (participantKey id n))

/-- A payout batch of the given winners, each with its index. -/
def pay (page amount : ℕ) (winners : List (ℕ × ℕ)) : Action Key := .instruction []
  (.settlePayoutBatch id 0 (winners.map fun x ↦ ⟨x.1, .wallet x.2, amount, []⟩))
  ([writable .config, writable (lotteryKey id), writable (.vault (lotteryKey id)),
    writable authority, writable default, writable (.winnerPage (lotteryKey id) page)] ++
    winners.map fun x ↦ writable (.wallet x.2))

def cancel : Action Key := .instruction [] .finalizeNoAttesters
  [writable .config, writable (lotteryKey id), writable (.vault (lotteryKey id)),
    writable authority]

def claim (n : ℕ) : Action Key := .instruction [] .claimRefund
  [writable .config, writable (lotteryKey id), writable (.vault (lotteryKey id)),
    writable (participantKey id n), signer (.wallet n)]

end Actions

end Sample

end DailyLottery
