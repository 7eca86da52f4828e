import DailyLottery.Lib.Sweep
import DailyLottery.State.Participant
import DailyLottery.State.VoteTally
import DailyLottery.Utils.Crypto

set_option linter.unusedSectionVars false

namespace DailyLottery

open Lib

/-- What one participant contributes to the outcome of a lottery. -/
structure Ballot (K : Type) where
  wallet : K
  index : ℕ
  tickets : ℕ
  attested : Bool
  attestedAt : ℤ
  vote : ℕ
  included : Bool
  digest : Bytes32
  deriving DecidableEq

variable {K : Type} [DecidableEq K]

def Participant.ballot (p : Participant K) : Ballot K :=
  ⟨p.wallet, p.participantIndex, p.ticketsBought, p.attestedUploaded, p.attestedAtUnix,
    p.votedWinners, p.revealIncluded, p.revealDigest⟩

namespace Ballot

def attestedOf (bs : List (Ballot K)) : ℕ := bs.countP attested
def includedOf (bs : List (Ballot K)) : ℕ := bs.countP included

def votesFor (bs : List (Ballot K)) (count : ℕ) : List (Ballot K) :=
  bs.filter fun b ↦ b.included && b.vote == count

def weightOf (bs : List (Ballot K)) (count : ℕ) : ℕ := ((votesFor bs count).map tickets).sum

def firstSeenOf (bs : List (Ballot K)) (count : ℕ) : ℤ :=
  ((votesFor bs count).map attestedAt).foldr min i64Max

/-- The XOR of the included reveal digests. -/
def digestOf (bs : List (Ballot K)) : Bytes32 :=
  ((bs.filter included).map digest).foldr xorBytes (Vector.replicate 32 0)

variable {bs : List (Ballot K)} {b c : Ballot K} {i : ℕ}

theorem weightOf_eq (bs : List (Ballot K)) (count : ℕ) : weightOf bs count =
    bs.foldr (fun b n ↦ if b.included && b.vote == count then b.tickets + n else n) 0 := by
  rw [weightOf, votesFor, List.sum_eq_foldr, List.foldr_map, List.foldr_filter]

theorem firstSeenOf_eq (bs : List (Ballot K)) (count : ℕ) : firstSeenOf bs count =
    bs.foldr (fun b t ↦ if b.included && b.vote == count then min b.attestedAt t else t) i64Max := by
  rw [firstSeenOf, votesFor, List.foldr_map, List.foldr_filter]

theorem digestOf_eq (bs : List (Ballot K)) : digestOf bs =
    bs.foldr (fun b h ↦ if b.included then xorBytes b.digest h else h) (Vector.replicate 32 0) := by
  rw [digestOf, List.foldr_map, List.foldr_filter]

theorem includedOf_set_of_not (hx : bs[i]? = some b) (h : b.included = false)
    (h' : c.included = false) : includedOf (bs.set i c) = includedOf bs := by
  rw [includedOf, includedOf, List.countP_eq_length_filter, List.countP_eq_length_filter,
    filter_set_of_not hx h h']

theorem votesFor_set_of_not (hx : bs[i]? = some b) (h : b.included = false)
    (h' : c.included = false) (count : ℕ) : votesFor (bs.set i c) count = votesFor bs count :=
  filter_set_of_not hx (by simp [h]) (by simp [h'])

theorem digestOf_set_of_not (hx : bs[i]? = some b) (h : b.included = false)
    (h' : c.included = false) : digestOf (bs.set i c) = digestOf bs := by
  rw [digestOf, filter_set_of_not hx h h', digestOf]

/-- A ballot not included before is included now. -/
structure Joins (bs : List (Ballot K)) (i : ℕ) (b c : Ballot K) : Prop where
  get : bs[i]? = some b
  before : b.included = false
  after : c.included = true

theorem weightOf_set (h : Joins bs i b c) (count : ℕ) : weightOf (bs.set i c) count =
    weightOf bs count + if c.vote = count then c.tickets else 0 := by
  have hset := foldr_set (f := fun (b : Ballot K) (n : ℕ) ↦
    if b.included && b.vote == count then b.tickets + n else n) ?_ c h.get ?_ 0
  · rw [weightOf_eq, weightOf_eq, hset, h.after]
    by_cases hc : c.vote = count <;> simp [hc, Nat.add_comm]
  · intro p q n
    split <;> split <;> omega
  · intro n
    simp [h.before]

theorem firstSeenOf_set (h : Joins bs i b c) (count : ℕ) : firstSeenOf (bs.set i c) count =
    if c.vote = count then min c.attestedAt (firstSeenOf bs count) else firstSeenOf bs count := by
  have hset := foldr_set (f := fun (b : Ballot K) (t : ℤ) ↦
    if b.included && b.vote == count then min b.attestedAt t else t) ?_ c h.get ?_ i64Max
  · rw [firstSeenOf_eq, firstSeenOf_eq, hset, h.after]
    by_cases hc : c.vote = count <;> simp [hc]
  · intro p q n
    split <;> split <;> omega
  · intro n
    simp [h.before]

theorem digestOf_set (h : Joins bs i b c) :
    digestOf (bs.set i c) = xorBytes c.digest (digestOf bs) := by
  have hset := foldr_set (f := fun (b : Ballot K) (x : Bytes32) ↦
    if b.included then xorBytes b.digest x else x) ?_ c h.get ?_ (Vector.replicate 32 0)
  · rw [digestOf_eq, digestOf_eq, hset, h.after, if_pos rfl]
  · intro p q x
    split <;> split <;> try rfl
    rw [← xorBytes_assoc, xorBytes_comm p.digest, xorBytes_assoc]
  · intro x
    simp [h.before]

theorem includedOf_set (h : Joins bs i b c) : includedOf (bs.set i c) = includedOf bs + 1 := by
  have := countP_set (y := c) included h.get
  simpa [h.before, h.after, includedOf] using this

theorem weightOf_le (bs : List (Ballot K)) (count : ℕ) : weightOf bs count ≤ (bs.map tickets).sum :=
  (List.filter_sublist.map tickets).sum_le_sum (fun _ _ ↦ Nat.zero_le _)

end Ballot

namespace VoteTally

open Ballot

/-- The weights and times of a tally are those of the included ballots. -/
structure Counts (t : VoteTally K) (bs : List (Ballot K)) : Prop where
  weights_length : t.weights.length = t.maxWinners + 1
  firstSeen_length : t.firstSeen.length = t.maxWinners + 1
  weights : ∀ c, 1 ≤ c → c ≤ t.maxWinners → t.weights.getD c 0 = weightOf bs c
  firstSeen : ∀ c, 1 ≤ c → c ≤ t.maxWinners → t.firstSeen.getD c i64Max = firstSeenOf bs c

variable {t : VoteTally K} {bs : List (Ballot K)}

theorem Counts.new {lottery : K} {mw n : ℕ} (h : includedOf bs = 0) :
    (VoteTally.new lottery mw n).Counts bs := by
  have hnone : ∀ c, votesFor bs c = [] := by
    intro c
    rw [votesFor, List.filter_eq_nil_iff]
    intro b hb
    have := List.countP_eq_zero.mp h b hb
    simp [this]
  refine ⟨by simp [VoteTally.new], by simp [VoteTally.new], fun c _ _ ↦ ?_, fun c _ _ ↦ ?_⟩
  · rw [weightOf, hnone]
    simp only [VoteTally.new, List.getD_eq_getElem?_getD, List.getElem?_replicate]
    split <;> rfl
  · rw [firstSeenOf, hnone]
    simp only [VoteTally.new, List.getD_eq_getElem?_getD, List.getElem?_replicate]
    split <;> rfl

theorem Counts.set_of_not (h : t.Counts bs) {i : ℕ} {b b' : Ballot K} (hx : bs[i]? = some b)
    (hb : b.included = false) (hb' : b'.included = false) : t.Counts (bs.set i b') := by
  refine ⟨h.weights_length, h.firstSeen_length, fun c hc hc' ↦ ?_, fun c hc hc' ↦ ?_⟩
  · rw [weightOf, votesFor_set_of_not hx hb hb']
    exact h.weights c hc hc'
  · rw [firstSeenOf, votesFor_set_of_not hx hb hb']
    exact h.firstSeen c hc hc'

theorem getD_set {α : Type} (xs : List α) {i : ℕ} (hi : i < xs.length) (a d : α) (j : ℕ) :
    (xs.set i a).getD j d = if j = i then a else xs.getD j d := by
  simp only [List.getD_eq_getElem?_getD, List.getElem?_set, hi, if_true]
  by_cases hj : j = i
  · subst hj
    simp
  · simp [hj, Ne.symm hj]

theorem Counts.addVote (h : t.Counts bs) {i : ℕ} {b b' : Ballot K} (hj : Joins bs i b b')
    (hpos : 1 ≤ b'.vote) (hle : b'.vote ≤ t.maxWinners)
    (hlt : weightOf bs b'.vote + b'.tickets < 2 ^ 128) :
    (t.addVote b'.vote b'.tickets b'.attestedAt).Counts (bs.set i b') := by
  have hw : b'.vote < t.weights.length := by rw [h.weights_length]; omega
  have hf : b'.vote < t.firstSeen.length := by rw [h.firstSeen_length]; omega
  have hget (d : ℤ) : t.firstSeen.getD b'.vote d = firstSeenOf bs b'.vote := by
    rw [← h.firstSeen _ hpos hle, List.getD_eq_getElem _ _ hf, List.getD_eq_getElem _ _ hf]
  unfold VoteTally.addVote
  rw [if_neg (by omega), if_neg (by omega), h.weights _ hpos hle, saturatingAdd_of_lt hlt, hget]
  refine ⟨?_, ?_, fun c hc hc' ↦ ?_, fun c hc hc' ↦ ?_⟩
  · simpa using h.weights_length
  · dsimp only
    split
    · simpa using h.firstSeen_length
    · exact h.firstSeen_length
  · rw [weightOf_set hj, getD_set _ hw, h.weights c hc hc']
    by_cases hcv : c = b'.vote
    · subst hcv
      simp
    · simp [hcv, Ne.symm hcv]
  · rw [firstSeenOf_set hj, ← h.firstSeen c hc hc']
    dsimp only
    by_cases hcv : b'.vote = c
    · subst hcv
      rw [if_pos rfl, hget]
      split
      · next hlt =>
        rw [getD_set _ hf, if_pos rfl, min_eq_left hlt.le]
      · next hge =>
        rw [hget, min_eq_right (not_lt.mp hge)]
    · rw [if_neg hcv]
      split
      · rw [getD_set _ hf, if_neg (Ne.symm hcv)]
      · rfl

end VoteTally

end DailyLottery
