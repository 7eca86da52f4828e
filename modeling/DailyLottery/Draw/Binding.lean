import DailyLottery.Codec.Bytes
import DailyLottery.Lib.HashChain
import DailyLottery.Round.Outcome
import DailyLottery.Execute

set_option linter.unusedSectionVars false

namespace DailyLottery

open Lib Ballot

variable {K : Type} [DecidableEq K] [Inhabited K] (rt : Runtime K)

/-- What the program takes hashes of. -/
inductive Preimage (K : Type)
  | pool (current : Bytes32) (participantIndex : ℕ) (wallet : K) (tickets : ℕ) (digest : Bytes32)
  | seed (lotteryId eligibleCount totalTickets : ℕ) (aggregate participantsCommitment : Bytes32)
  | draw (seed : Bytes32) (round nonce : ℕ)
  | winner (current : Bytes32) (index : ℕ) (winner : SelectedWinner K)
  | reveal (wallet : K) (plaintext : Bytes)

inductive Purpose
  | pool | seed | draw | winner | reveal
  deriving DecidableEq

def Preimage.purpose : Preimage K → Purpose
  | .pool .. => .pool
  | .seed .. => .seed
  | .draw .. => .draw
  | .winner .. => .winner
  | .reveal .. => .reveal

def Purpose.domain : Purpose → Bytes
  | .pool => rpdPoolDomain
  | .seed => rpdSeedDomain
  | .draw => rpdDrawDomain
  | .winner => winnersDomain
  | .reveal => rpdV2RevealDomain

def Preimage.fields : Preimage K → Bytes
  | .pool current participantIndex wallet tickets digest =>
    current.toList ++ (leBytes 8 participantIndex ++
      ((rt.keyBytes wallet).toList ++ (leBytes 8 tickets ++ digest.toList)))
  | .seed lotteryId eligibleCount totalTickets aggregate participantsCommitment =>
    leBytes 8 lotteryId ++ (leBytes 8 eligibleCount ++
      (leBytes 8 totalTickets ++ (aggregate.toList ++ participantsCommitment.toList)))
  | .draw drawSeed round nonce => drawSeed.toList ++ (leBytes 8 round ++ leBytes 4 nonce)
  | .winner current index entry =>
    current.toList ++ (leBytes 4 index ++
      ((rt.keyBytes entry.wallet).toList ++ leBytes 8 entry.tickets))
  | .reveal wallet plaintext =>
    (rt.keyBytes wallet).toList ++ (leBytes 4 plaintext.length ++ plaintext)

def Preimage.message (x : Preimage K) : Bytes := x.purpose.domain ++ x.fields rt

variable {rt}

theorem sha256_pool (current : Bytes32) (i : ℕ) (wallet : K) (tickets : ℕ) (digest : Bytes32) :
    rt.sha256 ((Preimage.pool current i wallet tickets digest).message rt) =
      extendParticipantsCommitment rt current i wallet tickets digest := by
  simp only [extendParticipantsCommitment, List.append_assoc]
  rfl

theorem sha256_seed (id n total : ℕ) (aggregate commitment : Bytes32) :
    rt.sha256 ((Preimage.seed id n total aggregate commitment).message rt) =
      computeSeed rt id n total aggregate commitment := by
  simp only [computeSeed, List.append_assoc]
  rfl

theorem sha256_draw (seed : Bytes32) (round nonce : ℕ) :
    ofLeBytes ((rt.sha256 ((Preimage.draw seed round nonce).message rt)).toList.take 16) =
      drawSample rt seed round nonce := by
  simp only [drawSample, List.append_assoc]
  rfl

theorem sha256_winner (current : Bytes32) (i : ℕ) (winner : SelectedWinner K) :
    rt.sha256 ((Preimage.winner current i winner).message rt) =
      extendWinnersCommitment rt current i winner := by
  simp only [extendWinnersCommitment, List.append_assoc]
  rfl

theorem sha256_reveal (wallet : K) (plaintext : Bytes) :
    rt.sha256 ((Preimage.reveal wallet plaintext).message rt) =
      computeRevealDigest rt wallet plaintext := by
  simp only [computeRevealDigest, List.append_assoc]
  rfl

/-- No domain is the beginning of another, so a message tells its purpose. -/
theorem Preimage.purpose_eq {x y : Preimage K} (h : x.message rt = y.message rt) :
    x.purpose = y.purpose := by
  have hdomains : ∀ p q : Purpose, p.domain.take 17 = q.domain.take 17 → p = q := by
    intro p q
    cases p <;> cases q <;> decide
  have hlen : ∀ p : Purpose, 17 ≤ p.domain.length := by
    intro p
    cases p <;> decide
  have htake := congrArg (List.take 17) h
  simp only [Preimage.message, List.take_append_of_le_length, hlen] at htake
  exact hdomains _ _ htake

/-- What the pool commitment is extended by for one eligible participant. -/
def poolMessage (rt : Runtime K) (current : Bytes32) (x : Ballot K) : Bytes :=
  (Preimage.pool current x.index x.wallet x.tickets x.digest).message rt

/-- What the commitment tells of an eligible participant. -/
def Ballot.entry (x : Ballot K) : ℕ × K × ℕ × Bytes32 := (x.index, x.wallet, x.tickets, x.digest)

theorem poolCommitment_eq (bs : List (Ballot K)) :
    poolCommitment rt bs = chain rt.sha256 (poolMessage rt) (Vector.replicate 32 0) (pool bs) := by
  simp only [poolCommitment, chain, poolMessage, sha256_pool]

/-- The numbers of an eligible participant are `u64`. -/
def Ballot.Fits (x : Ballot K) : Prop := x.index < 2 ^ 64 ∧ x.tickets < 2 ^ 64

instance (x : Ballot K) : Decidable x.Fits := inferInstanceAs (Decidable (_ ∧ _))

theorem poolMessage_inj {h h' : Bytes32} {x y : Ballot K} (hx : x.Fits) (hy : y.Fits)
    (hkeys : rt.keyBytes x.wallet = rt.keyBytes y.wallet → x.wallet = y.wallet)
    (heq : poolMessage rt h x = poolMessage rt h' y) : h = h' ∧ x.entry = y.entry := by
  have hfields := (List.append_inj heq rfl).2
  obtain ⟨hcurrent, hrest⟩ := vector_append_inj.mp hfields
  obtain ⟨hindex, hrest⟩ := (leBytes_append_inj hx.1 hy.1).mp hrest
  obtain ⟨hwallet, hrest⟩ := vector_append_inj.mp hrest
  obtain ⟨htickets, hrest⟩ := (leBytes_append_inj hx.2 hy.2).mp hrest
  have hdigest := Vector.toList_inj.mp hrest
  exact ⟨hcurrent, by rw [entry, entry, hindex, hkeys hwallet, htickets, hdigest]⟩

namespace Contest

variable {c c' : Contest K}

/-- The numbers a seed is made of are `u64`. -/
structure Fits (c : Contest K) : Prop where
  lotteryId : c.lotteryId < 2 ^ 64
  eligible : (pool c.ballots).length < 2 ^ 64
  tickets : poolTickets c.ballots < 2 ^ 64
  pool : ∀ x ∈ pool c.ballots, x.Fits

def seedMessage (rt : Runtime K) (c : Contest K) : Bytes :=
  (Preimage.seed c.lotteryId (Ballot.pool c.ballots).length (poolTickets c.ballots) c.aggregate
    (poolCommitment rt c.ballots) : Preimage K).message rt

def messages (rt : Runtime K) (c : Contest K) : List Bytes :=
  chainMessages rt.sha256 (poolMessage rt) (Vector.replicate 32 0) (Ballot.pool c.ballots) ++
    [c.seedMessage rt]

theorem seed_eq : c.seed rt = rt.sha256 (c.seedMessage rt) := (sha256_seed _ _ _ _ _).symm

end Contest

/-- On these messages the hash has no collision and is never zero. -/
def CollisionFree (hash : Bytes → Bytes32) (messages : List Bytes) : Prop :=
  ∀ m ∈ messages, hash m ≠ Vector.replicate 32 0 ∧ ∀ m' ∈ messages, hash m = hash m' → m = m'

instance (hash : Bytes → Bytes32) (messages : List Bytes) :
    Decidable (CollisionFree hash messages) :=
  inferInstanceAs (Decidable (∀ m ∈ messages, _ ∧ ∀ m' ∈ messages, _ → _))

/-- The pool commitment determines the eligible participants and the seed all that enters it. -/
theorem draw_input_bound {c c' : Contest K} (hc : c.Fits) (hc' : c'.Fits)
    (hkeys : ∀ x ∈ pool c.ballots, ∀ y ∈ pool c'.ballots,
      rt.keyBytes x.wallet = rt.keyBytes y.wallet → x.wallet = y.wallet)
    (hhash : CollisionFree rt.sha256 (c.messages rt ++ c'.messages rt)) :
    (poolCommitment rt c.ballots = poolCommitment rt c'.ballots →
      (pool c.ballots).map entry = (pool c'.ballots).map entry) ∧
    (c.seed rt = c'.seed rt → c.lotteryId = c'.lotteryId ∧
      (pool c.ballots).length = (pool c'.ballots).length ∧
      poolTickets c.ballots = poolTickets c'.ballots ∧ c.aggregate = c'.aggregate ∧
      (pool c.ballots).map entry = (pool c'.ballots).map entry) ∧
    ∀ x y : Preimage K, x.message rt = y.message rt → x.purpose = y.purpose := by
  have hpool (heq : poolCommitment rt c.ballots = poolCommitment rt c'.ballots) :
      (pool c.ballots).map entry = (pool c'.ballots).map entry := by
    rw [poolCommitment_eq, poolCommitment_eq] at heq
    refine map_eq_of_chain_eq (fun h h' x y hx hy ↦ ?_) (fun m hm m' hm' ↦ ?_) (fun m hm ↦ ?_)
      (fun m hm ↦ ?_) heq
    · exact poolMessage_inj (hc.pool x hx) (hc'.pool y hy) (hkeys x hx y hy)
    · exact (hhash m (by simp [Contest.messages, hm])).2 m' (by simp [Contest.messages, hm'])
    · exact (hhash m (by simp [Contest.messages, hm])).1
    · exact (hhash m (by simp [Contest.messages, hm])).1
  refine ⟨hpool, fun heq ↦ ?_, fun x y ↦ Preimage.purpose_eq⟩
  rw [Contest.seed_eq, Contest.seed_eq] at heq
  have hmessage := (hhash (c.seedMessage rt) (by simp [Contest.messages])).2 _
    (by simp [Contest.messages]) heq
  have hfields := (List.append_inj hmessage rfl).2
  obtain ⟨hid, hrest⟩ := (leBytes_append_inj hc.lotteryId hc'.lotteryId).mp hfields
  obtain ⟨hcount, hrest⟩ := (leBytes_append_inj hc.eligible hc'.eligible).mp hrest
  obtain ⟨htickets, hrest⟩ := (leBytes_append_inj hc.tickets hc'.tickets).mp hrest
  obtain ⟨haggregate, hrest⟩ := vector_append_inj.mp hrest
  exact ⟨hid, hcount, htickets, haggregate, hpool (Vector.toList_inj.mp hrest)⟩

def Sample.ballot (i tickets : ℕ) : Ballot Sample.Key :=
  ⟨.wallet (20 + i), i, tickets, true, 0, 1, true, Sha256.hash (Sample.reveal i)⟩

def Sample.contest (ballots : List (Ballot Sample.Key)) : Contest Sample.Key :=
  ⟨1, Vector.replicate 32 0, 1000, 0, 1, 1, ballots⟩

/-- Two lists of different lengths with the same tickets in all, under SHA-256 itself. -/
theorem draw_input_bound_sample :
    let c := Sample.contest [Sample.ballot 0 2, Sample.ballot 1 3]
    let c' := Sample.contest [Sample.ballot 0 5]
    poolCommitment Sample.rt c.ballots ≠ poolCommitment Sample.rt c'.ballots ∧
      c.seed Sample.rt ≠ c'.seed Sample.rt := by
  intro c c'
  have hc : c.Fits := ⟨by decide, by decide, by decide, by decide⟩
  have hc' : c'.Fits := ⟨by decide, by decide, by decide, by decide⟩
  have hkeys : ∀ x ∈ pool c.ballots, ∀ y ∈ pool c'.ballots,
      Sample.rt.keyBytes x.wallet = Sample.rt.keyBytes y.wallet → x.wallet = y.wallet := by
    decide +kernel
  have hhash : CollisionFree Sample.rt.sha256 (c.messages Sample.rt ++ c'.messages Sample.rt) := by
    decide +kernel
  have hbound := draw_input_bound hc hc' hkeys hhash
  have hne : (pool c.ballots).length ≠ (pool c'.ballots).length := by decide
  refine ⟨fun h ↦ hne ?_, fun h ↦ hne (hbound.2.1 h).2.1⟩
  have hlen := congrArg List.length (hbound.1 h)
  rwa [List.length_map, List.length_map] at hlen

end DailyLottery
