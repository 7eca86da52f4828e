import DailyLottery.State.Config

namespace DailyLottery

open Lib

def i64Max : ℤ := 2 ^ 63 - 1

structure VoteTally (K : Type) where
  lottery : K
  maxWinners : ℕ
  totalAttested : ℕ
  processedCount : ℕ
  weights : List ℕ
  firstSeen : List ℤ

namespace VoteTally

variable {K : Type}

def accountSizeFor (maxWinners : ℕ) : ℕ :=
  8 + 32 + 8 + 8 + 8 + 4 + (maxWinners + 1) * 16 + 4 + (maxWinners + 1) * 8

def new (lottery : K) (maxWinners totalAttested : ℕ) : VoteTally K :=
  { lottery, maxWinners, totalAttested
    processedCount := 0
    weights := List.replicate (maxWinners + 1) 0
    firstSeen := List.replicate (maxWinners + 1) i64Max }

def addVote (t : VoteTally K) (count weight : ℕ) (attestedAt : ℤ) : VoteTally K :=
  if count = 0 ∨ t.maxWinners < count then t
  else if t.weights.length ≤ count then t
  else { t with
    weights := t.weights.set count (saturatingAdd 128 (t.weights.getD count 0) weight)
    firstSeen :=
      if attestedAt < t.firstSeen.getD count 0 then t.firstSeen.set count attestedAt
      else t.firstSeen }

/-- The running optimum of the scan in `selected_winners`. -/
structure Best where
  count : ℕ
  weight : ℕ
  time : ℤ

def Best.better (b : Best) (count weight : ℕ) (time : ℤ) : Bool :=
  b.weight < weight ∨ (weight = b.weight ∧ time < b.time) ∨
    (weight = b.weight ∧ time = b.time ∧ count < b.count)

def scan (t : VoteTally K) : List ℕ → Best → Best
  | [], b => b
  | count :: counts, b =>
    if t.weights.length ≤ count then b
    else
      let weight := t.weights.getD count 0
      let time := t.firstSeen.getD count i64Max
      if weight = 0 then scan t counts b
      else if b.better count weight time then scan t counts ⟨count, weight, time⟩
      else scan t counts b

def selectedWinners (t : VoteTally K) (participantsCount : ℕ) : ℕ :=
  if participantsCount ≤ 1 then 1
  else
    let maxCount := min t.maxWinners (participantsCount - 1)
    let best := t.scan (List.range' 1 maxCount) ⟨1, 0, i64Max⟩
    if best.weight = 0 then 1 else best.count

end VoteTally

end DailyLottery
