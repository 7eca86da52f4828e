import DailyLottery.Lib.Draw
import DailyLottery.Round.Ballot

set_option linter.unusedSectionVars false

namespace DailyLottery

open Lib

variable {K : Type} [DecidableEq K] [Inhabited K] (rt : Runtime K)

namespace Ballot

/-- Those a draw is among. -/
def pool (bs : List (Ballot K)) : List (Ballot K) := bs.filter included

def poolTickets (bs : List (Ballot K)) : ℕ := total tickets (pool bs)

def poolCommitment (bs : List (Ballot K)) : Bytes32 :=
  (pool bs).foldl (fun h x ↦
    extendParticipantsCommitment rt h x.index x.wallet x.tickets x.digest) (Vector.replicate 32 0)

/-- Those of the pool not drawn yet. -/
def left (winners bs : List (Ballot K)) : List (Ballot K) := (pool bs).filter fun x ↦ x ∉ winners

def selected (x : Ballot K) : SelectedWinner K := ⟨x.wallet, x.tickets⟩

def winnersCommitment (winners : List (Ballot K)) : Bytes32 :=
  winners.zipIdx.foldl (fun h x ↦ extendWinnersCommitment rt h x.2 x.1.selected)
    (Vector.replicate 32 0)

theorem winnersCommitment_concat (winners : List (Ballot K)) (x : Ballot K) :
    winnersCommitment rt (winners ++ [x]) =
      extendWinnersCommitment rt (winnersCommitment rt winners) winners.length x.selected := by
  simp [winnersCommitment, List.zipIdx_append]

@[simp] theorem pool_concat (bs : List (Ballot K)) (x : Ballot K) :
    pool (bs ++ [x]) = if x.included then pool bs ++ [x] else pool bs := by
  rw [pool, List.filter_append, ← pool]
  by_cases hx : x.included <;> simp [hx]

theorem left_concat (winners bs : List (Ballot K)) (x : Ballot K) : left winners (bs ++ [x]) =
    if x.included ∧ x ∉ winners then left winners bs ++ [x] else left winners bs := by
  unfold left
  rw [pool_concat]
  by_cases hx : x.included
  · rw [if_pos hx, List.filter_append]
    by_cases hw : x ∈ winners <;> simp [hx, hw]
  · simp [hx]

theorem poolTickets_concat (bs : List (Ballot K)) (x : Ballot K) :
    poolTickets (bs ++ [x]) =
      if x.included then poolTickets bs + x.tickets else poolTickets bs := by
  unfold poolTickets
  rw [pool_concat]
  split <;> simp

theorem poolCommitment_concat (bs : List (Ballot K)) (x : Ballot K) :
    poolCommitment rt (bs ++ [x]) = if x.included then
      extendParticipantsCommitment rt (poolCommitment rt bs) x.index x.wallet x.tickets x.digest
      else poolCommitment rt bs := by
  unfold poolCommitment
  rw [pool_concat]
  split <;> simp

theorem poolTickets_le (bs : List (Ballot K)) : poolTickets bs ≤ (bs.map tickets).sum :=
  (List.filter_sublist.map tickets).sum_le_sum (fun _ _ ↦ Nat.zero_le _)

theorem length_pool (bs : List (Ballot K)) : (pool bs).length = includedOf bs := by
  rw [pool, includedOf, List.countP_eq_length_filter]

end Ballot

/-- The marks after the first `k` participants were aggregated and those in `sel` selected. -/
def Marked (ps : List (Participant K)) (k : ℕ) (sel : List (Ballot K)) : Prop :=
  ∀ (i : ℕ) (p : Participant K), ps[i]? = some p →
    p.finalizationGeneration = (if i < k then 1 else 0) ∧
      p.selectedGeneration = if p.ballot ∈ sel then 1 else 0

open Ballot

/-- What the outcome of a lottery is a function of: the participants in the order of their
indices, the winners their votes ask for and the most there may be, and the data of the lottery
that enter the seed and the payout. -/
structure Contest (K : Type) where
  lotteryId : ℕ
  aggregate : Bytes32
  totalFunds : ℕ
  serviceChargeBps : ℕ
  maxWinners : ℕ
  votedWinners : ℕ
  ballots : List (Ballot K)

/-- The result a finalized lottery stores, pages and all. -/
structure Outcome (K : Type) where
  processedCount : ℕ
  eligibleCount : ℕ
  totalEligibleTickets : ℕ
  participantsCommitment : Bytes32
  seed : Bytes32
  targetWinners : ℕ
  selectedCount : ℕ
  selectedTicketsTotal : ℕ
  winnersCommitment : Bytes32
  winners : List (SelectedWinner K)
  winnersCount : ℕ
  totalPayout : ℕ
  winnersMerkleRoot : Bytes32

namespace Contest

variable (c : Contest K)

def seed : Bytes32 :=
  computeSeed rt c.lotteryId (pool c.ballots).length (poolTickets c.ballots) c.aggregate
    (poolCommitment rt c.ballots)

def target : ℕ := min (min (max c.votedWinners 1) c.maxWinners) (pool c.ballots).length

/-- The first `n` winners, drawn from the pool without replacement, with those left. -/
def draw (n : ℕ) : Result (List (Ballot K) × List (Ballot K)) :=
  drawRounds Ballot.tickets (fun round remaining ↦ drawIndex rt (c.seed rt) round remaining)
    Error.winnerNotFound (pool c.ballots) n

def serviceFee : ℕ := c.totalFunds * c.serviceChargeBps / 10000

def perWinner : ℕ := (c.totalFunds - c.serviceFee) / c.target

/-- The outcome in one go: one fold over the participants for the pool and the seed, then one
draw for every winner. -/
def outcome : Result (Outcome K) := do
  let (winners, _) ← c.draw rt c.target
  rejectIf (c.target = 0 ∨ c.totalFunds - c.serviceFee < c.target) Error.insufficientFunds
  return {
    processedCount := c.ballots.length
    eligibleCount := (pool c.ballots).length
    totalEligibleTickets := poolTickets c.ballots
    participantsCommitment := poolCommitment rt c.ballots
    seed := c.seed rt
    targetWinners := c.target
    selectedCount := c.target
    selectedTicketsTotal := total Ballot.tickets winners
    winnersCommitment := winnersCommitment rt winners
    winners := winners.map selected
    winnersCount := c.target
    totalPayout := c.perWinner * c.target
    winnersMerkleRoot := winnersCommitment rt winners }

variable {rt c}

theorem draw_length {n : ℕ} {winners rest : List (Ballot K)}
    (h : c.draw rt n = .ok (winners, rest)) :
    winners.length = n := (drawRounds_perm h).1

theorem draw_rest (hnd : c.ballots.Nodup) {n : ℕ} {winners rest : List (Ballot K)}
    (h : c.draw rt n = .ok (winners, rest)) : rest = left winners c.ballots :=
  drawRounds_rest (hnd.filter _) h

theorem draw_total {n : ℕ} {winners rest : List (Ballot K)}
    (h : c.draw rt n = .ok (winners, rest)) :
    total Ballot.tickets winners + total Ballot.tickets rest = poolTickets c.ballots :=
  drawRounds_total h

theorem draw_mem {n : ℕ} {winners rest : List (Ballot K)} (h : c.draw rt n = .ok (winners, rest))
    {x : Ballot K} (hx : x ∈ winners) : x ∈ c.ballots ∧ x.included = true := by
  have hmem : x ∈ pool c.ballots := (drawRounds_perm h).2.1.subset (List.mem_append_left _ hx)
  exact ⟨(List.mem_filter.mp hmem).1, (List.mem_filter.mp hmem).2⟩

theorem draw_wallets (hw : (c.ballots.map Ballot.wallet).Nodup) {n : ℕ}
    {winners rest : List (Ballot K)}
    (h : c.draw rt n = .ok (winners, rest)) : (winners.map Ballot.wallet).Nodup := by
  have hpool : ((pool c.ballots).map Ballot.wallet).Nodup :=
    hw.sublist (List.filter_sublist.map _)
  have hperm := ((drawRounds_perm h).2.1.map Ballot.wallet).nodup_iff.mpr hpool
  rw [List.map_append] at hperm
  exact hperm.of_append_left

theorem draw_left {n : ℕ} {winners rest : List (Ballot K)} (hpos : ∀ x ∈ c.ballots, 0 < x.tickets)
    (h : c.draw rt n = .ok (winners, rest)) :
    (pool c.ballots).length ≤ n + total Ballot.tickets rest := by
  obtain ⟨hlen, hperm, hsub⟩ := drawRounds_perm h
  have hcount := hperm.length_eq
  rw [List.length_append, hlen] at hcount
  have hmem : ∀ x ∈ rest, 0 < x.tickets := fun x hx ↦ hpos x (List.mem_filter.mp (hsub.subset hx)).1
  have := length_le_total hmem
  omega

end Contest

end DailyLottery
