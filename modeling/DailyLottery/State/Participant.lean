import DailyLottery.State.Config

namespace DailyLottery

open Lib

/-- `votedNumberOfWinners` packs the vote with three state flags, hence a bit vector. -/
structure Participant (K : Type) where
  lottery : K
  wallet : K
  proofOfChanceHash : Bytes32
  ticketsBought : ℕ
  attestedUploaded : Bool
  attestedAtUnix : ℤ
  votedNumberOfWinners : BitVec 64
  revealScore : ℕ
  participantIndex : ℕ
  revealDigest : Bytes32
  finalizationGeneration : ℕ
  selectedGeneration : ℕ
  selectedRound : ℕ

namespace Participant

variable {K : Type}

def revealIncludedFlag : BitVec 64 := 1 <<< 63
def settlementIncludedFlag : BitVec 64 := 1 <<< 62
def refundClaimedFlag : BitVec 64 := 1 <<< 61
def stateFlagsMask : BitVec 64 :=
    revealIncludedFlag ||| settlementIncludedFlag ||| refundClaimedFlag

def new (lottery wallet : K) (proofOfChanceHash : Bytes32)
    (initialTickets participantIndex : ℕ) : Participant K :=
  { lottery, wallet, proofOfChanceHash
    ticketsBought := initialTickets
    attestedUploaded := false
    attestedAtUnix := 0
    votedNumberOfWinners := 0
    revealScore := 0
    participantIndex
    revealDigest := Vector.replicate 32 0
    finalizationGeneration := 0
    selectedGeneration := 0
    selectedRound := 0 }

def addTickets (p : Participant K) (count : ℕ) : Result (Participant K) := do
  let ticketsBought ← okOr (checkedAdd 64 p.ticketsBought count) Error.mathOverflow
  return { p with ticketsBought }

def attestUpload (p : Participant K) (timestamp : ℤ) : Result (Participant K) := do
  rejectIf (p.attestedUploaded = true) Error.invalidInstruction
  return { p with attestedUploaded := true, attestedAtUnix := timestamp }

def setVoteNumberOfWinners (p : Participant K) (votedCount : ℕ) : Result (Participant K) := do
  rejectIf (p.attestedUploaded = true) Error.invalidInstruction
  return { p with votedNumberOfWinners := BitVec.ofNat 64 votedCount &&& ~~~stateFlagsMask }

def votedWinners (p : Participant K) : ℕ := (p.votedNumberOfWinners &&& ~~~stateFlagsMask).toNat

def revealIncluded (p : Participant K) : Bool := p.votedNumberOfWinners &&& revealIncludedFlag != 0

def markRevealIncluded (p : Participant K) : Participant K :=
  { p with votedNumberOfWinners := p.votedNumberOfWinners ||| revealIncludedFlag }

def includeVerifiedReveal (p : Participant K) (digest : Bytes32) : Participant K :=
  { p with revealDigest := digest }.markRevealIncluded

def settlementIncluded (p : Participant K) : Bool :=
  p.votedNumberOfWinners &&& settlementIncludedFlag != 0

def refundClaimed (p : Participant K) : Bool := p.votedNumberOfWinners &&& refundClaimedFlag != 0

def markRefundClaimed (p : Participant K) : Participant K :=
  { p with votedNumberOfWinners := p.votedNumberOfWinners ||| refundClaimedFlag }

def hasTickets (p : Participant K) : Bool := 0 < p.ticketsBought

def markFinalizedForGeneration (p : Participant K) (generation : ℕ) : Participant K :=
  { p with finalizationGeneration := generation }

def selectedInGeneration (p : Participant K) (generation : ℕ) : Bool :=
  generation ≠ 0 ∧ p.selectedGeneration = generation

def markSelected (p : Participant K) (generation round : ℕ) : Participant K :=
  { p with selectedGeneration := generation, selectedRound := round }

theorem and_flag_ne_zero (v : BitVec 64) {i : ℕ} (hi : i < 64) :
    (v &&& (1#64 <<< i) != 0#64) = v.getLsbD i := by
  rw [← BitVec.twoPow_eq, BitVec.and_twoPow]
  cases h : v.getLsbD i
  · simp
  · have : BitVec.twoPow 64 i ≠ 0#64 := by
      intro he
      have := congrArg (BitVec.getLsbD · i) he
      simp [hi] at this
    simpa using this

theorem revealIncluded_eq (p : Participant K) :
    p.revealIncluded = p.votedNumberOfWinners.getLsbD 63 := and_flag_ne_zero _ (by decide)

theorem refundClaimed_eq (p : Participant K) :
    p.refundClaimed = p.votedNumberOfWinners.getLsbD 61 := and_flag_ne_zero _ (by decide)

theorem getLsbD_not_mask {i : ℕ} (hi : i < 64) :
    (~~~stateFlagsMask).getLsbD i = decide (i < 61) := by
  interval_cases i <;> rfl

@[simp] theorem revealIncluded_markRevealIncluded (p : Participant K) :
    p.markRevealIncluded.revealIncluded = true := by
  rw [revealIncluded_eq, markRevealIncluded, revealIncludedFlag]
  simp only [BitVec.getLsbD_or]
  simp

@[simp] theorem refundClaimed_markRevealIncluded (p : Participant K) :
    p.markRevealIncluded.refundClaimed = p.refundClaimed := by
  simp only [refundClaimed_eq, markRevealIncluded, revealIncludedFlag, BitVec.getLsbD_or]
  simp

@[simp] theorem revealIncluded_markRefundClaimed (p : Participant K) :
    p.markRefundClaimed.revealIncluded = p.revealIncluded := by
  simp only [revealIncluded_eq, markRefundClaimed, refundClaimedFlag, BitVec.getLsbD_or]
  simp

@[simp] theorem refundClaimed_markRefundClaimed (p : Participant K) :
    p.markRefundClaimed.refundClaimed = true := by
  rw [refundClaimed_eq, markRefundClaimed, refundClaimedFlag]
  simp only [BitVec.getLsbD_or]
  simp

theorem or_and_not_mask (v f : BitVec 64) (hf : f &&& ~~~stateFlagsMask = 0) :
    (v ||| f) &&& ~~~stateFlagsMask = v &&& ~~~stateFlagsMask := by
  have h : (v ||| f) &&& ~~~stateFlagsMask =
      (v &&& ~~~stateFlagsMask) ||| (f &&& ~~~stateFlagsMask) := by
    ext i hi
    simp only [BitVec.getElem_and, BitVec.getElem_or, Bool.and_or_distrib_right]
  rw [h, hf]
  exact BitVec.or_zero

@[simp] theorem votedWinners_markRevealIncluded (p : Participant K) :
    p.markRevealIncluded.votedWinners = p.votedWinners :=
  congrArg BitVec.toNat (or_and_not_mask _ _ (by decide))

@[simp] theorem votedWinners_markRefundClaimed (p : Participant K) :
    p.markRefundClaimed.votedWinners = p.votedWinners :=
  congrArg BitVec.toNat (or_and_not_mask _ _ (by decide))

/-- The vote word right after a vote is stored: the vote and no flag. -/
def voteWord (vote : ℕ) : BitVec 64 := BitVec.ofNat 64 vote &&& ~~~stateFlagsMask

theorem getLsbD_voteWord (vote : ℕ) {i : ℕ} (hi : 61 ≤ i) : (voteWord vote).getLsbD i = false := by
  unfold voteWord
  rw [BitVec.getLsbD_and]
  by_cases h : i < 64
  · rw [getLsbD_not_mask h]
    simp [hi]
  · rw [BitVec.getLsbD_of_ge _ _ (by omega)]
    rfl

theorem voteWord_and_not_mask {vote : ℕ} (h : vote < 2 ^ 61) :
    (voteWord vote &&& ~~~stateFlagsMask).toNat = vote := by
  have hm : ~~~stateFlagsMask = BitVec.ofNat 64 (2 ^ 61 - 1) := by decide
  have hv : vote % 2 ^ 64 = vote := Nat.mod_eq_of_lt (by omega)
  rw [voteWord, hm, BitVec.toNat_and, BitVec.toNat_and, BitVec.toNat_ofNat, BitVec.toNat_ofNat, hv]
  rw [show (2 ^ 61 - 1) % 2 ^ 64 = 2 ^ 61 - 1 from rfl, Nat.and_two_pow_sub_one_eq_mod,
    Nat.and_two_pow_sub_one_eq_mod, Nat.mod_mod, Nat.mod_eq_of_lt h]

end Participant

end DailyLottery
