import DailyLottery.Round.Routes
import DailyLottery.Round.Outcome

set_option linter.unusedSectionVars false

namespace DailyLottery

open Lib Ballot

variable {K : Type} [DecidableEq K] [Inhabited K]

namespace Ballot

/-- Each participant stands at its own index. -/
def Indexed (bs : List (Ballot K)) : Prop :=
  ∀ (i : ℕ) (x : Ballot K), bs[i]? = some x → x.index = i

theorem Indexed.nodup {bs : List (Ballot K)} (h : Indexed bs) : bs.Nodup := by
  rw [List.nodup_iff_injective_getElem]
  intro i j hij
  have hi := h i bs[i] (List.getElem?_eq_getElem i.isLt)
  have hj := h j bs[j] (List.getElem?_eq_getElem j.isLt)
  exact Fin.ext (hi.symm.trans ((congrArg index hij).trans hj))

theorem Indexed.notMem_take {bs : List (Ballot K)} (h : Indexed bs) {k : ℕ} {x : Ballot K}
    (hx : bs[k]? = some x) : x ∉ bs.take k := by
  intro hmem
  obtain ⟨j, hj, hjx⟩ := List.getElem_of_mem hmem
  rw [List.length_take] at hj
  rw [List.getElem_take] at hjx
  have hget : bs[j]? = some x := by rw [List.getElem?_eq_getElem (by omega), hjx]
  have := (h j x hget).symm.trans (h k x hx)
  omega

theorem take_succ_of_get {bs : List (Ballot K)} {k : ℕ} {x : Ballot K} (hx : bs[k]? = some x) :
    bs.take (k + 1) = bs.take k ++ [x] := by
  rw [List.take_add_one, hx]
  rfl

end Ballot

/-- The fields of a ledger no pass changes. -/
structure FinalizationLedger.Rooted (root : FinalizationLedger K) (n : ℕ) : Prop where
  version : root.protocolVersion = finalizationProtocolVersion
  generation : root.generation = 1
  required : root.requiredCount = n

variable (rt : Runtime K)

/-- The pool of a ledger is that of `bs`. -/
structure FinalizationLedger.Pooled (root : FinalizationLedger K)
    (bs : List (Ballot K)) : Prop where
  processed : root.processedCount = bs.length
  eligible : root.eligibleCount = (pool bs).length
  tickets : root.totalEligibleTickets = poolTickets bs
  commitment : root.participantsCommitment = poolCommitment rt bs

namespace Contest

variable (c : Contest K)

/-- A ledger that has aggregated the first `k` participants. -/
structure Aggregating (root : FinalizationLedger K) (ps : List (Participant K)) (k : ℕ) : Prop where
  phase : root.phase = .aggregating
  rooted : root.Rooted c.ballots.length
  pooled : root.Pooled rt (c.ballots.take k)
  selectedCount : root.selectedCount = 0
  selectedTickets : root.selectedTicketsTotal = 0
  commitment : root.winnersCommitment = Vector.replicate 32 0
  marks : Marked ps k []

/-- The winner a selection pass has found among the first `k` participants. -/
def found (winners : List (Ballot K)) (k d : ℕ) : Option (Ballot K) :=
  pick Ballot.tickets (left winners (c.ballots.take k)) d

/-- A ledger with `winners` recorded, in a pass that has seen the first `k` participants. -/
structure Selecting (root : FinalizationLedger K) (ps : List (Participant K))
    (winners : List (Ballot K)) (k : ℕ) : Prop where
  phase : root.phase = .selecting
  rooted : root.Rooted c.ballots.length
  pooled : root.Pooled rt c.ballots
  drawn : ∃ rest, c.draw rt winners.length = .ok (winners, rest)
  seed : root.seed = c.seed rt
  target : root.targetWinners = c.target
  selectedCount : root.selectedCount = winners.length
  selectedTickets : root.selectedTicketsTotal = total Ballot.tickets winners
  commitment : root.winnersCommitment = winnersCommitment rt winners
  round : root.currentRound = winners.length
  index : drawIndex rt (c.seed rt) winners.length (total Ballot.tickets (left winners c.ballots)) =
    .ok root.roundDrawIndex
  processed : root.roundProcessedCount = k
  seen : root.roundRemainingTicketsSeen = total Ballot.tickets (left winners (c.ballots.take k))
  isFound : root.pendingWinnerFound = (c.found winners k root.roundDrawIndex).isSome
  pending : ∀ x ∈ c.found winners k root.roundDrawIndex,
    root.pendingWinner = x.wallet ∧ root.pendingWinnerTickets = x.tickets
  marks : Marked ps c.ballots.length (winners ++ (c.found winners k root.roundDrawIndex).toList)

/-- A ledger with all winners recorded. -/
structure Completed (root : FinalizationLedger K) (winners : List (Ballot K)) : Prop where
  phase : root.phase = .completed
  rooted : root.Rooted c.ballots.length
  pooled : root.Pooled rt c.ballots
  drawn : ∃ rest, c.draw rt c.target = .ok (winners, rest)
  seed : root.seed = c.seed rt
  target : root.targetWinners = c.target
  selectedCount : root.selectedCount = c.target
  selectedTickets : root.selectedTicketsTotal = total Ballot.tickets winners
  commitment : root.winnersCommitment = winnersCommitment rt winners

section Visits

variable {rt c} {root root' : FinalizationLedger K} {ps : List (Participant K)} {i k : ℕ}
  {p p' : Participant K} {winners : List (Ballot K)}

theorem get_ballot (hps : ps.map Participant.ballot = c.ballots) (hp : ps[i]? = some p) :
    c.ballots[i]? = some p.ballot := by
  rw [← hps, List.getElem?_map, hp]
  rfl

theorem index_eq (hix : Indexed c.ballots) (hps : ps.map Participant.ballot = c.ballots)
    (hp : ps[i]? = some p) : p.participantIndex = i := hix i p.ballot (get_ballot hps hp)

theorem Aggregating.visit (h : c.Aggregating rt root ps k) (hk : k ≤ c.ballots.length)
    (hix : Indexed c.ballots) (hps : ps.map Participant.ballot = c.ballots) (hp : ps[i]? = some p)
    (hv : Round.PassVisit (FinalizeWinners.aggregateParticipant rt) root () p root' p') :
    i = k ∧ k < c.ballots.length ∧ c.Aggregating rt root' (ps.set i p') (k + 1) := by
  obtain ⟨updated, hv, rfl⟩ := hv
  obtain ⟨hidx, -, -, rfl, hroot⟩ := FinalizeWinners.aggregateParticipant_ok hv
  have hx := get_ballot hps hp
  have hi : i = k := by
    rw [← index_eq hix hps hp, hidx, h.pooled.processed, List.length_take, min_eq_left hk]
  subst hi
  have hlt := (List.getElem?_eq_some_iff.mp hx).1
  have htake := take_succ_of_get hx
  have hgen := h.rooted.generation
  have hinc : p.ballot.included = p.revealIncluded := rfl
  refine ⟨rfl, hlt, ?_⟩
  have hmarks : Marked (ps.set i (p.markFinalizedForGeneration root.generation)) (i + 1) [] := by
    intro j q hq
    rw [List.getElem?_set] at hq
    split at hq
    · next hij =>
      subst hij
      split at hq
      · cases hq
        exact ⟨by rw [if_pos (by omega)]; exact hgen, (h.marks i p hp).2⟩
      · cases hq
    · next hij =>
      obtain ⟨hf, hs⟩ := h.marks j q hq
      refine ⟨?_, hs⟩
      rw [hf]
      by_cases hj : j < i
      · rw [if_pos hj, if_pos (by omega)]
      · rw [if_neg hj, if_neg (by omega)]
  have hpool := h.pooled
  rw [hroot]
  split
  · next hp' =>
    refine ⟨h.phase, ⟨h.rooted.version, h.rooted.generation, h.rooted.required⟩, ⟨?_, ?_, ?_, ?_⟩,
      h.selectedCount, h.selectedTickets, h.commitment, hmarks⟩ <;> dsimp only <;> rw [htake]
    · rw [List.length_append, ← hpool.processed, List.length_singleton]
    · rw [pool_concat, hinc, if_pos hp', List.length_append, ← hpool.eligible,
        List.length_singleton]
    · rw [poolTickets_concat, hinc, if_pos hp', ← hpool.tickets]
      rfl
    · rw [poolCommitment_concat, hinc, if_pos hp', ← hpool.commitment]
      rfl
  · next hp' =>
    refine ⟨h.phase, ⟨h.rooted.version, h.rooted.generation, h.rooted.required⟩, ⟨?_, ?_, ?_, ?_⟩,
      h.selectedCount, h.selectedTickets, h.commitment, hmarks⟩ <;> dsimp only <;> rw [htake]
    · rw [List.length_append, ← hpool.processed, List.length_singleton]
    · rw [pool_concat, hinc, if_neg hp', ← hpool.eligible]
    · rw [poolTickets_concat, hinc, if_neg hp', ← hpool.tickets]
    · rw [poolCommitment_concat, hinc, if_neg hp', ← hpool.commitment]

theorem Selecting.counts_iff (h : c.Selecting rt root ps winners i) (hix : Indexed c.ballots)
    (hps : ps.map Participant.ballot = c.ballots) (hp : ps[i]? = some p) :
    (p.revealIncluded && !p.selectedInGeneration root.generation) = true ↔
      p.ballot.included = true ∧ p.ballot ∉ winners := by
  have hnot : p.ballot ∉ (c.found winners i root.roundDrawIndex).toList := by
    intro hmem
    have hpick := mem_of_pick (Option.mem_toList.mp hmem)
    have htake := (List.mem_filter.mp (List.mem_filter.mp hpick).1).1
    exact hix.notMem_take (get_ballot hps hp) htake
  have hsel := (h.marks i p hp).2
  simp only [List.mem_append, hnot, or_false] at hsel
  have hinc : p.ballot.included = p.revealIncluded := rfl
  rw [Participant.selectedInGeneration, h.rooted.generation, hsel, hinc, Bool.and_eq_true]
  refine and_congr_right fun _ ↦ ?_
  split <;> simp_all

theorem found_succ (winners : List (Ballot K)) (d : ℕ) {x : Ballot K}
    (hx : c.ballots[k]? = some x) :
    c.found winners (k + 1) d = if x.included ∧ x ∉ winners then
      (c.found winners k d).or
        (if total Ballot.tickets (left winners (c.ballots.take k)) ≤ d ∧
            d < total Ballot.tickets (left winners (c.ballots.take k)) + x.tickets then
          some x else none)
      else c.found winners k d := by
  unfold found
  rw [take_succ_of_get hx, left_concat]
  split
  · rw [pick_concat]
  · rfl

theorem found_eq_none_iff {d : ℕ} : c.found winners k d = none ↔
    total Ballot.tickets (left winners (c.ballots.take k)) ≤ d := pick_eq_none_iff

theorem marked_select {n : ℕ} {winners : List (Ballot K)} {round : ℕ} (h : Marked ps n winners)
    (hix : Indexed c.ballots) (hps : ps.map Participant.ballot = c.ballots) (hp : ps[i]? = some p) :
    Marked (ps.set i (p.markSelected 1 round)) n (winners ++ [p.ballot]) := by
  intro j q hq
  rw [List.getElem?_set] at hq
  split at hq
  · next hij =>
    subst hij
    split at hq
    · cases hq
      refine ⟨(h i p hp).1, ?_⟩
      have hb : (p.markSelected 1 round).ballot = p.ballot := rfl
      rw [hb, if_pos (by simp)]
      rfl
    · cases hq
  · next hij =>
    obtain ⟨hf, hs⟩ := h j q hq
    have hne : q.ballot ≠ p.ballot := by
      intro he
      have hj := index_eq hix hps hq
      have hi := index_eq hix hps hp
      have : q.participantIndex = p.participantIndex := congrArg Ballot.index he
      omega
    refine ⟨hf, ?_⟩
    rw [hs]
    simp [hne]

theorem Selecting.visit (h : c.Selecting rt root ps winners k) (hix : Indexed c.ballots)
    (hps : ps.map Participant.ballot = c.ballots) (hp : ps[i]? = some p)
    (hv : Round.PassVisit FinalizeWinners.selectParticipant root () p root' p') :
    i = k ∧ k < c.ballots.length ∧ c.Selecting rt root' (ps.set i p') winners (k + 1) := by
  obtain ⟨updated, hv, rfl⟩ := hv
  obtain ⟨hidx, -, -, hcases⟩ := FinalizeWinners.selectParticipant_ok hv
  have hx := get_ballot hps hp
  have hi : i = k := by rw [← index_eq hix hps hp, hidx, h.processed]
  subst hi
  have hlt := (List.getElem?_eq_some_iff.mp hx).1
  have hself : ps.set i p = ps := by
    obtain ⟨hi, rfl⟩ := List.getElem?_eq_some_iff.mp hp
    exact List.set_getElem_self hi
  have hcount := h.counts_iff hix hps hp
  have hsucc := found_succ winners root.roundDrawIndex hx
  have hnone := @found_eq_none_iff K _ _ c i winners root.roundDrawIndex
  have hseen := h.seen
  have hleft := left_concat winners (c.ballots.take i) p.ballot
  rw [← take_succ_of_get hx] at hleft
  have htk : p.ballot.tickets = p.ticketsBought := rfl
  refine ⟨rfl, hlt, ?_⟩
  rcases hcases with ⟨hno, rfl, rfl⟩ | ⟨hyes, ⟨hf, hle, hlt', rfl, rfl⟩ | ⟨hout, rfl, rfl⟩⟩
  · rw [if_neg fun hc ↦ by simp [hcount.mpr hc] at hno] at hsucc hleft
    simp only [Option.getD_none, hself]
    exact ⟨h.phase, ⟨h.rooted.version, h.rooted.generation, h.rooted.required⟩,
      ⟨h.pooled.1, h.pooled.2, h.pooled.3, h.pooled.4⟩, h.drawn, h.seed, h.target, h.selectedCount,
      h.selectedTickets, h.commitment, h.round, h.index, congrArg (· + 1) h.processed,
      by rw [hleft]; exact h.seen, by dsimp only; rw [hsucc]; exact h.isFound,
      by dsimp only; rw [hsucc]; exact h.pending, by dsimp only; rw [hsucc]; exact h.marks⟩
  · rw [if_pos (hcount.mp hyes)] at hsucc hleft
    have hz : c.found winners i root.roundDrawIndex = none := by
      have := h.isFound
      rw [hf] at this
      simpa using this.symm
    rw [hz, Option.none_or, ← hseen, htk, if_pos ⟨hle, hlt'⟩] at hsucc
    have hmarks := h.marks
    rw [hz, Option.toList_none, List.append_nil] at hmarks
    refine ⟨h.phase, ⟨h.rooted.version, h.rooted.generation, h.rooted.required⟩,
      ⟨h.pooled.1, h.pooled.2, h.pooled.3, h.pooled.4⟩, h.drawn, h.seed, h.target, h.selectedCount,
      h.selectedTickets, h.commitment, h.round, h.index, congrArg (· + 1) h.processed, ?_, ?_, ?_,
      ?_⟩ <;> dsimp only
    · rw [hleft, total_append, hseen]
      simp [htk]
    · rw [hsucc]
      rfl
    · rw [hsucc]
      rintro x hx
      cases hx
      exact ⟨rfl, rfl⟩
    · rw [hsucc, h.rooted.generation]
      exact marked_select hmarks hix hps hp
  · rw [if_pos (hcount.mp hyes)] at hsucc hleft
    have hsame : c.found winners (i + 1) root.roundDrawIndex =
        c.found winners i root.roundDrawIndex := by
      rw [hsucc]
      by_cases hz : c.found winners i root.roundDrawIndex = none
      · have hf : root.pendingWinnerFound = false := by rw [h.isFound, hz]; rfl
        rw [hz, Option.none_or, if_neg]
        rw [← hseen, htk]
        exact fun hc ↦ hout ⟨hf, hc.1, hc.2⟩
      · obtain ⟨x, hx⟩ := Option.ne_none_iff_exists'.mp hz
        rw [hx]
        rfl
    simp only [Option.getD_none, hself]
    refine ⟨h.phase, ⟨h.rooted.version, h.rooted.generation, h.rooted.required⟩,
      ⟨h.pooled.1, h.pooled.2, h.pooled.3, h.pooled.4⟩, h.drawn, h.seed, h.target, h.selectedCount,
      h.selectedTickets, h.commitment, h.round, h.index, congrArg (· + 1) h.processed, ?_,
      by dsimp only; rw [hsame]; exact h.isFound, by dsimp only; rw [hsame]; exact h.pending,
      by dsimp only; rw [hsame]; exact h.marks⟩
    rw [hleft, total_append, ← hseen]
    simp [htk]

theorem Aggregating.chunk {ps' : List (Participant K)} {chunk : List (ℕ × Unit)}
    (h : c.Aggregating rt root ps k) (hk : k ≤ c.ballots.length) (hix : Indexed c.ballots)
    (hps : ps.map Participant.ballot = c.ballots)
    (hs : Sweep (Round.PassVisit
      (FinalizeWinners.aggregateParticipant rt)) ps root chunk ps' root') :
    chunk.map Prod.fst = List.range' k chunk.length ∧ k + chunk.length ≤ c.ballots.length ∧
      c.Aggregating rt root' ps' (k + chunk.length) := by
  have hrun := hs.consecutive (P := fun ps root k ↦ ps.map Participant.ballot = c.ballots ∧
    k ≤ c.ballots.length ∧ c.Aggregating rt root ps k) ⟨hps, hk, h⟩ ?_
  · exact ⟨hrun.1, hrun.2.2⟩
  · rintro ps root i ⟨⟩ p root' p' k ⟨hps, hk, h⟩ hp hv
    obtain ⟨hi, hlt, h'⟩ := h.visit hk hix hps hp hv
    refine ⟨hi, ?_, hlt, h'⟩
    rw [map_set_same hp (Round.ballot_of_unmarked (Round.unmarked_aggregateParticipant hv)), hps]

theorem Selecting.chunk {ps' : List (Participant K)} {chunk : List (ℕ × Unit)}
    (h : c.Selecting rt root ps winners k) (hk : k ≤ c.ballots.length) (hix : Indexed c.ballots)
    (hps : ps.map Participant.ballot = c.ballots)
    (hs : Sweep (Round.PassVisit FinalizeWinners.selectParticipant) ps root chunk ps' root') :
    chunk.map Prod.fst = List.range' k chunk.length ∧ k + chunk.length ≤ c.ballots.length ∧
      c.Selecting rt root' ps' winners (k + chunk.length) := by
  have hrun := hs.consecutive (P := fun ps root k ↦ ps.map Participant.ballot = c.ballots ∧
    k ≤ c.ballots.length ∧ c.Selecting rt root ps winners k) ⟨hps, hk, h⟩ ?_
  · exact ⟨hrun.1, hrun.2.2⟩
  · rintro ps root i ⟨⟩ p root' p' k ⟨hps, hk, h⟩ hp hv
    obtain ⟨hi, hlt, h'⟩ := h.visit hix hps hp hv
    refine ⟨hi, ?_, hlt, h'⟩
    rw [map_set_same hp (Round.ballot_of_unmarked (Round.unmarked_selectParticipant hv)), hps]

end Visits

section Ends

variable {rt c} {root root' root₁ : FinalizationLedger K} {ps : List (Participant K)}
  {winners : List (Ballot K)} {winner : SelectedWinner K}

@[simp] theorem left_nil (bs : List (Ballot K)) : left [] bs = pool bs := by
  simp [left]

theorem Aggregating.finish {config : Config K} {l l' : Lottery K}
    (h : c.Aggregating rt root ps c.ballots.length)
    (hid : l.id = c.lotteryId) (hpoc : l.pocAggregateHash = c.aggregate)
    (hsel : l.selectedNumberOfWinners = c.votedWinners)
    (hmax : config.effectiveMaxWinners l.participantsCount = c.maxWinners)
    (hfin : FinalizeWinners.finishAggregation rt config l root = .ok (l', root')) :
    c.Selecting rt root' ps [] 0 ∧ 0 < c.target ∧
    l' = { l with selectedNumberOfWinners := c.target } := by
  have hpool := h.pooled
  rw [List.take_length] at hpool
  have hone := config.one_le_effectiveMaxWinners l.participantsCount
  obtain ⟨target, draw, rfl, hne, -, -, hdraw, rfl, rfl⟩ :=
    FinalizeWinners.finishAggregation_ok hfin
  rw [hpool.eligible] at hne
  rw [hid, hpoc, hpool.eligible, hpool.tickets, hpool.commitment, h.selectedTickets, Nat.sub_zero]
    at hdraw
  have htarget : min (min (max l.selectedNumberOfWinners 1)
      (config.effectiveMaxWinners l.participantsCount)) root.eligibleCount = c.target := by
    rw [hsel, hmax, hpool.eligible]
    rfl
  rw [htarget]
  have hseed : computeSeed rt l.id root.eligibleCount root.totalEligibleTickets l.pocAggregateHash
      root.participantsCommitment = c.seed rt := by
    rw [hid, hpoc, hpool.eligible, hpool.tickets, hpool.commitment]
    rfl
  rw [hseed]
  refine ⟨⟨rfl, ⟨h.rooted.version, h.rooted.generation, h.rooted.required⟩,
    ⟨hpool.1, hpool.2, hpool.3, hpool.4⟩, ⟨_, rfl⟩, rfl, rfl, h.selectedCount, h.selectedTickets,
    h.commitment, rfl, ?_, rfl, rfl, rfl, ?_, h.marks⟩, ?_, rfl⟩
  · rw [left_nil]
    exact hdraw
  · intro x hx
    cases hx
  · unfold target
    rw [hmax] at hone
    omega

theorem Selecting.drawn_next (h : c.Selecting rt root ps winners c.ballots.length)
    (hnd : c.ballots.Nodup) (hw : FinalizeWinners.roundWinner root = .ok winner) :
    ∃ x rest, winner = x.selected ∧
      c.found winners c.ballots.length root.roundDrawIndex = some x ∧
      c.draw rt (winners.length + 1) = .ok (winners ++ [x], rest) := by
  obtain ⟨hf, rfl⟩ := FinalizeWinners.roundWinner_ok hw
  rw [h.isFound, Option.isSome_iff_exists] at hf
  obtain ⟨x, hx⟩ := hf
  obtain ⟨hwallet, htickets⟩ := h.pending x hx
  obtain ⟨rest, hdrawn⟩ := h.drawn
  have hrest := draw_rest hnd hdrawn
  refine ⟨x, rest.erase x, by rw [hwallet, htickets]; rfl, hx, ?_⟩
  refine drawRounds_succ hdrawn (d := root.roundDrawIndex) ?_ ?_
  · rw [hrest]
    exact h.index
  · unfold found at hx
    rw [List.take_length] at hx
    rw [hrest]
    exact hx

theorem Selecting.next {l l' : Lottery K} {now : ℤ}
    (h : c.Selecting rt root ps winners c.ballots.length) (hnd : c.ballots.Nodup)
    (hw : FinalizeWinners.roundWinner root = .ok winner)
    (hrec : root.recordWinner rt winner = .ok root₁)
    (hnext : FinalizeWinners.nextRound rt l root₁ now = .ok (l', root')) :
    ∃ x, winner = x.selected ∧
      ((winners.length + 1 < c.target ∧ l' = l ∧ c.Selecting rt root' ps (winners ++ [x]) 0) ∨
        winners.length + 1 = c.target ∧ c.Completed rt root' (winners ++ [x]) ∧
          FinalizeWinners.completeFinalization l root₁ now = .ok (l', root')) := by
  obtain ⟨x, rest, rfl, hfound, hdraw⟩ := h.drawn_next hnd hw
  obtain ⟨hlt, rfl⟩ := FinalizeWinners.recordWinner_ok hrec
  rw [h.selectedCount, h.target] at hlt
  have hlen : (winners ++ [x]).length = winners.length + 1 := by simp
  have htotal : total Ballot.tickets (winners ++ [x]) = root.selectedTicketsTotal + x.tickets := by
    rw [h.selectedTickets, total_append]
    simp
  have hcommit : extendWinnersCommitment rt root.winnersCommitment root.selectedCount x.selected =
      winnersCommitment rt (winners ++ [x]) := by
    rw [winnersCommitment_concat, h.commitment, h.selectedCount]
  refine ⟨x, rfl, ?_⟩
  rcases FinalizeWinners.nextRound_ok hnext with ⟨heq, hcomp⟩ | ⟨hne, rfl, -, draw, hd, rfl⟩
  · right
    dsimp only at heq
    rw [h.selectedCount, h.target] at heq
    refine ⟨heq, ?_, hcomp⟩
    obtain ⟨_, _, -, -, -, -, -, -, rfl⟩ := FinalizeWinners.completeFinalization_ok hcomp
    exact ⟨rfl, ⟨h.rooted.version, h.rooted.generation, h.rooted.required⟩,
      ⟨h.pooled.1, h.pooled.2, h.pooled.3, h.pooled.4⟩, ⟨rest, by rw [← heq]; exact hdraw⟩, h.seed,
      h.target, (congrArg (· + 1) h.selectedCount).trans heq, htotal.symm, hcommit⟩
  · left
    dsimp only at hne hd
    rw [h.selectedCount, h.target] at hne
    have hleft : root.totalEligibleTickets - (root.selectedTicketsTotal + x.tickets) =
        total Ballot.tickets (left (winners ++ [x]) c.ballots) := by
      have := draw_total hdraw
      rw [← draw_rest hnd hdraw, h.pooled.tickets, ← htotal]
      omega
    have hmarks := h.marks
    rw [hfound] at hmarks
    refine ⟨by omega, rfl, ⟨rfl, ⟨h.rooted.version, h.rooted.generation, h.rooted.required⟩,
      ⟨h.pooled.1, h.pooled.2, h.pooled.3, h.pooled.4⟩, ⟨rest, by rw [hlen]; exact hdraw⟩, h.seed,
      h.target, ?_, htotal.symm, hcommit, ?_, ?_, rfl, rfl, rfl, ?_, ?_⟩⟩
    · rw [hlen, ← h.selectedCount]
      rfl
    · rw [hlen, ← h.round]
      rfl
    · rw [hlen, ← hleft, ← h.round, ← h.seed]
      exact hd
    · intro y hy
      cases hy
    · exact (List.append_nil (winners ++ [x])).symm ▸ hmarks

end Ends

end Contest

end DailyLottery
