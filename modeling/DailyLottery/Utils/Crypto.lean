import DailyLottery.Utils.Account

namespace DailyLottery

open Lib

/-- `to_le_bytes` at a width of `width` bytes. -/
def leBytes (width n : ℕ) : Bytes := (List.range width).map fun i ↦ UInt8.ofNat (n / 256 ^ i)

/-- `from_le_bytes`. -/
def ofLeBytes : Bytes → ℕ
  | [] => 0
  | b :: bs => b.toNat + 256 * ofLeBytes bs

theorem leBytes_succ (width n : ℕ) :
    leBytes (width + 1) n = UInt8.ofNat n :: leBytes width (n / 256) := by
  simp only [leBytes, List.range_succ_eq_map, List.map_cons, List.map_map, pow_zero, Nat.div_one,
    List.cons.injEq, true_and]
  refine List.map_congr_left fun i _ ↦ ?_
  simp only [Function.comp_apply, pow_succ', Nat.div_div_eq_div_mul]

theorem ofLeBytes_leBytes (width n : ℕ) : ofLeBytes (leBytes width n) = n % 256 ^ width := by
  induction width generalizing n with
  | zero => simp [leBytes, ofLeBytes, Nat.mod_one]
  | succ width ih =>
    have hbyte : (UInt8.ofNat n).toNat = n % 256 := UInt8.toNat_ofNat'
    rw [leBytes_succ, ofLeBytes, ih, hbyte, pow_succ' 256 width, Nat.mod_mul]

theorem leBytes_inj {width m n : ℕ} (hm : m < 256 ^ width) (hn : n < 256 ^ width)
    (h : leBytes width m = leBytes width n) : m = n := by
  have hof := congrArg ofLeBytes h
  rwa [ofLeBytes_leBytes, ofLeBytes_leBytes, Nat.mod_eq_of_lt hm, Nat.mod_eq_of_lt hn] at hof

def xorBytes (a b : Bytes32) : Bytes32 := Vector.zipWith (· ^^^ ·) a b

theorem xorBytes_comm (a b : Bytes32) : xorBytes a b = xorBytes b a := by
  ext i hi
  simp [xorBytes, UInt8.xor_comm]

theorem xorBytes_assoc (a b c : Bytes32) :
    xorBytes (xorBytes a b) c = xorBytes a (xorBytes b c) := by
  ext i hi
  simp [xorBytes, UInt8.xor_assoc]

def xorRevealDigests (initial : Bytes32) (digests : List Bytes32) : Bytes32 :=
  digests.foldl xorBytes initial

/-- "IKIGAI_RPD_V2_REVEAL" -/
def rpdV2RevealDomain : Bytes :=
  [0x49, 0x4b, 0x49, 0x47, 0x41, 0x49, 0x5f, 0x52, 0x50, 0x44, 0x5f, 0x56, 0x32, 0x5f, 0x52, 0x45,
    0x56, 0x45, 0x41, 0x4c]

/-- "IKIGAI_RPD_V3_POOL" -/
def rpdPoolDomain : Bytes :=
  [0x49, 0x4b, 0x49, 0x47, 0x41, 0x49, 0x5f, 0x52, 0x50, 0x44, 0x5f, 0x56, 0x33, 0x5f, 0x50, 0x4f,
    0x4f, 0x4c]

/-- "IKIGAI_RPD_V3_SEED" -/
def rpdSeedDomain : Bytes :=
  [0x49, 0x4b, 0x49, 0x47, 0x41, 0x49, 0x5f, 0x52, 0x50, 0x44, 0x5f, 0x56, 0x33, 0x5f, 0x53, 0x45,
    0x45, 0x44]

/-- "IKIGAI_RPD_V3_DRAW" -/
def rpdDrawDomain : Bytes :=
  [0x49, 0x4b, 0x49, 0x47, 0x41, 0x49, 0x5f, 0x52, 0x50, 0x44, 0x5f, 0x56, 0x33, 0x5f, 0x44, 0x52,
    0x41, 0x57]

/-- "IKIGAI_WINNERS_V2" -/
def winnersDomain : Bytes :=
  [0x49, 0x4b, 0x49, 0x47, 0x41, 0x49, 0x5f, 0x57, 0x49, 0x4e, 0x4e, 0x45, 0x52, 0x53, 0x5f, 0x56,
    0x32]

variable {K : Type} [Inhabited K] (rt : Runtime K)

def aggregateHashes (inputs : List Bytes32) : Bytes32 :=
  rt.sha256 (inputs.flatMap Vector.toList)

def computeRevealDigest (wallet : K) (plaintext : Bytes) : Bytes32 :=
  rt.sha256 (rpdV2RevealDomain ++ (rt.keyBytes wallet).toList ++ leBytes 4 plaintext.length ++
    plaintext)

def extendParticipantsCommitment (current : Bytes32) (participantIndex : ℕ) (wallet : K)
    (tickets : ℕ) (revealDigest : Bytes32) : Bytes32 :=
  rt.sha256 (rpdPoolDomain ++ current.toList ++ leBytes 8 participantIndex ++
    (rt.keyBytes wallet).toList ++ leBytes 8 tickets ++ revealDigest.toList)

def computeSeed (lotteryId eligibleCount totalTickets : ℕ)
    (aggregate participantsCommitment : Bytes32) : Bytes32 :=
  rt.sha256 (rpdSeedDomain ++ leBytes 8 lotteryId ++ leBytes 8 eligibleCount ++
    leBytes 8 totalTickets ++ aggregate.toList ++ participantsCommitment.toList)

def extendWinnersCommitment (current : Bytes32) (index : ℕ) (winner : SelectedWinner K) : Bytes32 :=
  rt.sha256 (winnersDomain ++ current.toList ++ leBytes 4 index ++
    (rt.keyBytes winner.wallet).toList ++ leBytes 8 winner.tickets)

def FinalizationLedger.recordWinner (root : FinalizationLedger K) (winner : SelectedWinner K) :
    Result (FinalizationLedger K) := do
  rejectIf (root.targetWinners ≤ root.selectedCount) Error.invalidInstruction
  let selectedCount ← okOr (checkedAdd 32 root.selectedCount 1) Error.mathOverflow
  let selectedTicketsTotal ← okOr (checkedAdd 64 root.selectedTicketsTotal winner.tickets)
    Error.mathOverflow
  return { root with
    selectedCount, selectedTicketsTotal
    winnersCommitment := extendWinnersCommitment rt root.winnersCommitment
      (selectedCount - 1) winner }

/-- The first sixteen bytes of the draw hash, as a little-endian `u128`. -/
def drawSample (seed : Bytes32) (round nonce : ℕ) : ℕ :=
  ofLeBytes ((rt.sha256 (rpdDrawDomain ++ seed.toList ++ leBytes 8 round ++
    leBytes 4 nonce)).toList.take 16)

/-- `modulus.wrapping_neg() % modulus` on `u128`. -/
def rejectionFloor (modulus : ℕ) : ℕ := (2 ^ 128 - modulus) % 2 ^ 128 % modulus

/-- The loop over nonces, `fuel` of them being left. -/
def drawLoop (sample : ℕ → ℕ) (modulus : ℕ) : ℕ → ℕ → Result ℕ
  | 0, _ => .error Error.winnerSelectionFailed
  | fuel + 1, nonce =>
    if rejectionFloor modulus ≤ sample nonce then .ok (sample nonce % modulus)
    else drawLoop sample modulus fuel (nonce + 1)

def drawIndex (seed : Bytes32) (round remaining : ℕ) : Result ℕ := do
  rejectIf (remaining = 0) Error.invalidInstruction
  drawLoop (drawSample rt seed round) remaining (2 ^ 32) 0

theorem drawLoop_lt {sample : ℕ → ℕ} {modulus fuel nonce d : ℕ} (hm : 0 < modulus)
    (h : drawLoop sample modulus fuel nonce = .ok d) : d < modulus := by
  induction fuel generalizing nonce with
  | zero => simp [drawLoop] at h
  | succ fuel ih =>
    unfold drawLoop at h
    split at h
    · cases h
      exact Nat.mod_lt _ hm
    · exact ih h

theorem drawLoop_eq_ok {sample : ℕ → ℕ} {modulus fuel nonce d : ℕ} :
    drawLoop sample modulus fuel nonce = .ok d ↔
      ∃ k < fuel, (∀ i < k, sample (nonce + i) < rejectionFloor modulus) ∧
        rejectionFloor modulus ≤ sample (nonce + k) ∧ d = sample (nonce + k) % modulus := by
  induction fuel generalizing nonce with
  | zero => simp [drawLoop]
  | succ fuel ih =>
    unfold drawLoop
    split
    · next haccept =>
      simp only [Except.ok.injEq]
      constructor
      · intro hd
        exact ⟨0, Nat.succ_pos _, fun i hi ↦ absurd hi (Nat.not_lt_zero i), haccept, hd.symm⟩
      · rintro ⟨k, -, hrej, -, hd⟩
        cases k with
        | zero => exact hd.symm
        | succ k => exact absurd (hrej 0 (Nat.succ_pos k)) (Nat.not_lt.mpr haccept)
    · next hreject =>
      have hnext (i : ℕ) : nonce + 1 + i = nonce + (i + 1) := by omega
      rw [ih]
      simp only [hnext]
      constructor
      · rintro ⟨k, hk, hrej, hacc, hd⟩
        refine ⟨k + 1, by omega, fun i hi ↦ ?_, hacc, hd⟩
        cases i with
        | zero => exact Nat.lt_of_not_le hreject
        | succ i => exact hrej i (by omega)
      · rintro ⟨k, hk, hrej, hacc, hd⟩
        cases k with
        | zero => exact absurd hacc hreject
        | succ k => exact ⟨k, by omega, fun i hi ↦ hrej (i + 1) (by omega), hacc, hd⟩

theorem drawLoop_eq_error {sample : ℕ → ℕ} {modulus fuel nonce : ℕ} {e : ProgramError} :
    drawLoop sample modulus fuel nonce = .error e ↔
      e = Error.winnerSelectionFailed ∧ ∀ k < fuel,
        sample (nonce + k) < rejectionFloor modulus := by
  induction fuel generalizing nonce with
  | zero => simp [drawLoop, eq_comm]
  | succ fuel ih =>
    unfold drawLoop
    split
    · next haccept =>
      simp only [reduceCtorEq, false_iff, not_and]
      exact fun _ hrej ↦ absurd (hrej 0 (Nat.succ_pos fuel)) (Nat.not_lt.mpr haccept)
    · next hreject =>
      have hnext (i : ℕ) : nonce + 1 + i = nonce + (i + 1) := by omega
      rw [ih]
      simp only [hnext]
      refine and_congr_right fun _ ↦ ⟨fun hrej k hk ↦ ?_, fun hrej k hk ↦ hrej (k + 1) (by omega)⟩
      cases k with
      | zero => exact Nat.lt_of_not_le hreject
      | succ k => exact hrej k (by omega)

theorem drawIndex_lt {seed : Bytes32} {round remaining d : ℕ}
    (h : drawIndex rt seed round remaining = .ok d) : d < remaining := by
  simp only [drawIndex, bind_eq_ok, rejectIf_eq_ok] at h
  obtain ⟨_, hr, h⟩ := h
  exact drawLoop_lt (Nat.pos_of_ne_zero hr) h

theorem drawIndex_eq_error {seed : Bytes32} {round remaining : ℕ} (hr : remaining ≠ 0)
    {e : ProgramError} (h : drawIndex rt seed round remaining = .error e) :
    e = Error.winnerSelectionFailed := by
  simp only [drawIndex, bind_eq_error, rejectIf_eq_error, rejectIf_eq_ok] at h
  obtain ⟨hz, -⟩ | ⟨-, -, h⟩ := h
  · exact absurd hz hr
  · exact (drawLoop_eq_error.mp h).1

def computeServiceFee (totalFunds bps : ℕ) : Result ℕ := do
  let fee := totalFunds * bps / 10000
  rejectIf (2 ^ 64 ≤ fee) Error.mathOverflow
  return fee

end DailyLottery
