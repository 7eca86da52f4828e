import DailyLottery.Round.Invariant

set_option linter.unusedSectionVars false

namespace DailyLottery

open Lib Ballot

variable {K : Type} [DecidableEq K] [Inhabited K] {rt : Runtime K}

namespace Contest

/-- The bounds that keep every counter of the passes in range. -/
structure Bounded (c : Contest K) : Prop where
  index : Indexed c.ballots
  length_le : c.ballots.length ≤ Sizes.maxParticipants
  tickets_pos : ∀ x ∈ c.ballots, 0 < x.tickets
  tickets_lt : total Ballot.tickets c.ballots < 2 ^ 64
  funds_lt : c.totalFunds < 2 ^ 64
  bps : c.serviceChargeBps < 10000
  maxWinners_le : c.maxWinners ≤ Sizes.maxWinners
  maxWinners_pos : 1 ≤ c.maxWinners
  maxWinners_lt : c.maxWinners < c.ballots.length

variable {c : Contest K} {root root' : FinalizationLedger K} {ps : List (Participant K)} {k : ℕ}
  {p : Participant K} {winners : List (Ballot K)}

theorem total_left_le (winners bs : List (Ballot K)) :
    total Ballot.tickets (left winners bs) ≤ total Ballot.tickets bs :=
  ((List.filter_sublist.trans List.filter_sublist).map _).sum_le_sum fun _ _ ↦ Nat.zero_le _

theorem Bounded.room (hc : c.Bounded) {x : Ballot K} (hx : c.ballots[k]? = some x) :
    total Ballot.tickets (c.ballots.take k) + x.tickets < 2 ^ 64 := by
  have hsub : (c.ballots.take (k + 1)).Sublist c.ballots := List.take_sublist _ _
  have hle := (hsub.map Ballot.tickets).sum_le_sum fun _ _ ↦ Nat.zero_le _
  rw [take_succ_of_get hx] at hle
  have hsum : total Ballot.tickets (c.ballots.take k ++ [x]) =
      total Ballot.tickets (c.ballots.take k) + x.tickets := by
    rw [total_append, total_cons, total_nil, Nat.add_zero]
  exact hsum ▸ hle.trans_lt hc.tickets_lt

theorem Aggregating.accepts (h : c.Aggregating rt root ps k) (hc : c.Bounded)
    (hps : ps.map Participant.ballot = c.ballots) (hp : ps[k]? = some p) :
    ∃ x, FinalizeWinners.aggregateParticipant rt root p = .ok x := by
  have hx := get_ballot hps hp
  have hlt : k < c.ballots.length := (List.getElem?_eq_some_iff.mp hx).1
  have hidx : p.participantIndex = k := index_eq hc.index hps hp
  have htickets : 0 < p.ticketsBought := hc.tickets_pos _ (List.mem_of_getElem? hx)
  have hmax : Sizes.maxParticipants < 2 ^ 63 := by decide
  have hlen := hc.length_le
  have hproc : root.processedCount = k := by
    rw [h.pooled.processed, List.length_take, min_eq_left hlt.le]
  have hgen : p.finalizationGeneration ≠ root.generation := by
    rw [(h.marks k p hp).1, h.rooted.generation, if_neg (lt_irrefl k)]
    decide
  have hpool : root.eligibleCount ≤ k := by
    have hle : (pool (c.ballots.take k)).length ≤ (c.ballots.take k).length :=
      List.length_filter_le _ _
    rw [List.length_take, min_eq_left hlt.le] at hle
    rwa [h.pooled.eligible]
  have hsum : root.totalEligibleTickets + p.ticketsBought < 2 ^ 64 := by
    have hle : root.totalEligibleTickets ≤ total Ballot.tickets (c.ballots.take k) := by
      rw [h.pooled.tickets]
      exact poolTickets_le _
    exact (Nat.add_le_add_right hle _).trans_lt (hc.room hx)
  simp only [FinalizeWinners.aggregateParticipant, FinalizeWinners.requireParticipantIndex,
    exists_bind_eq_ok, rejectIf_eq_ok, exists_const, okOr_eq_ok, checkedAdd_eq_some]
  refine ⟨by rw [hidx, hproc, not_not], by simp [htickets.ne', hgen], _, ⟨by omega, rfl⟩, ?_⟩
  split
  · simp only [FinalizeWinners.addEligible, bind_eq_ok, okOr_eq_ok, checkedAdd_eq_some, pure_eq_ok]
    exact ⟨_, ⟨_, ⟨by omega, rfl⟩, _, ⟨hsum, rfl⟩, rfl⟩, _, rfl⟩
  · exact ⟨_, rfl, _, rfl⟩

theorem Selecting.accepts (h : c.Selecting rt root ps winners k) (hc : c.Bounded)
    (hps : ps.map Participant.ballot = c.ballots) (hp : ps[k]? = some p) :
    ∃ x, FinalizeWinners.selectParticipant root p = .ok x := by
  have hx := get_ballot hps hp
  have hlt : k < c.ballots.length := (List.getElem?_eq_some_iff.mp hx).1
  have hidx : p.participantIndex = k := index_eq hc.index hps hp
  have htickets : 0 < p.ticketsBought := hc.tickets_pos _ (List.mem_of_getElem? hx)
  have hmax : Sizes.maxParticipants < 2 ^ 63 := by decide
  have hlen := hc.length_le
  have hproc := h.processed
  have hgen : p.finalizationGeneration = root.generation := by
    rw [(h.marks k p hp).1, h.rooted.generation, if_pos hlt]
  have hsum : root.roundRemainingTicketsSeen + p.ticketsBought < 2 ^ 64 := by
    rw [h.seen]
    exact (Nat.add_le_add_right (total_left_le _ _) _).trans_lt (hc.room hx)
  simp only [FinalizeWinners.selectParticipant, FinalizeWinners.requireParticipantIndex,
    exists_bind_eq_ok, rejectIf_eq_ok, exists_const, okOr_eq_ok, checkedAdd_eq_some]
  refine ⟨by rw [hidx, hproc, not_not], by simp [htickets.ne', hgen], _, ⟨by omega, rfl⟩, ?_⟩
  split
  · simp only [exists_bind_eq_ok, okOr_eq_ok, checkedAdd_eq_some]
    refine ⟨_, ⟨hsum, rfl⟩, ?_⟩
    split
    · exact ⟨_, rfl⟩
    · exact ⟨_, rfl⟩
  · exact ⟨_, rfl⟩

section Ends

theorem Bounded.left_pos (hc : c.Bounded) {n : ℕ} {rest : List (Ballot K)}
    (h : c.draw rt n = .ok (winners, rest)) (hn : n < c.target) :
      total Ballot.tickets rest ≠ 0 := by
  have hle := draw_left hc.tickets_pos h
  have htarget : c.target ≤ (pool c.ballots).length := min_le_right _ _
  omega

theorem Bounded.target_le (hc : c.Bounded) : c.target ≤ Sizes.maxWinners :=
  (min_le_left _ _).trans ((min_le_right _ _).trans hc.maxWinners_le)

theorem Bounded.one_le_target (hc : c.Bounded) (hpool : pool c.ballots ≠ []) : 1 ≤ c.target := by
  have hlen : 0 < (pool c.ballots).length := List.length_pos_iff.mpr hpool
  have hmax := hc.maxWinners_pos
  unfold target
  omega

theorem Aggregating.finish_error {config : Config K} {l : Lottery K} {e : ProgramError}
    (h : c.Aggregating rt root ps c.ballots.length) (hc : c.Bounded)
    (hid : l.id = c.lotteryId) (hpoc : l.pocAggregateHash = c.aggregate)
    (hsel : l.selectedNumberOfWinners = c.votedWinners)
    (hmax : config.effectiveMaxWinners l.participantsCount = c.maxWinners)
    (hcount : l.participantsCount = c.ballots.length) (hpool : pool c.ballots ≠ [])
    (he : FinalizeWinners.finishAggregation rt config l root = .error e) :
    e = Error.winnerSelectionFailed ∧ c.draw rt 1 = .error e := by
  have hp := h.pooled
  rw [List.take_length] at hp
  have hone := hc.one_le_target hpool
  have hle := hc.target_le
  have hlt := hc.maxWinners_lt
  have hcap : c.target ≤ c.maxWinners := (min_le_left _ _).trans (min_le_right _ _)
  have hsize : Sizes.maxWinners < 2 ^ 32 := by decide
  have hdraw : c.draw rt 0 = .ok ([], pool c.ballots) := rfl
  have hleft : poolTickets c.ballots ≠ 0 := hc.left_pos hdraw hone
  have heligible : root.eligibleCount ≠ 0 := by
    rw [hp.eligible]
    simpa using hpool
  have htarget : min (min (max l.selectedNumberOfWinners 1)
      (config.effectiveMaxWinners l.participantsCount)) root.eligibleCount = c.target := by
    rw [hsel, hmax, hp.eligible]
    rfl
  have hremaining {r : FinalizationLedger K} {x : Result ℕ} (hx : r.remainingTickets = x)
      (ht : r.totalEligibleTickets = root.totalEligibleTickets)
      (hs : r.selectedTicketsTotal = root.selectedTicketsTotal) :
      x = .ok (poolTickets c.ballots) := by
    rw [← hx, FinalizationLedger.remainingTickets, ht, hs, hp.tickets, h.selectedTickets]
    rfl
  simp only [FinalizeWinners.finishAggregation, bind_eq_error, rejectIf_eq_error, rejectIf_eq_ok,
    exists_const, pure_ne_error, and_false, or_false, htarget] at he
  obtain ⟨hbad, -⟩ | ⟨-, ⟨hbad, -⟩ | ⟨-, hset | ⟨l', hset, hrem | ⟨n, hrem, hd⟩⟩⟩⟩ := he
  · rw [hp.tickets] at hbad
    exact absurd hbad (by simp [hleft, heligible])
  · omega
  · simp only [Lottery.setSelectedWinners, bind_eq_error, rejectIf_eq_error, rejectIf_eq_ok,
      exists_const, pure_ne_error, and_false, or_false] at hset
    omega
  · cases hremaining hrem rfl rfl
  · cases hremaining hrem rfl rfl
    obtain rfl := (Lottery.setSelectedWinners_ok hset).1
    have hseed : computeSeed rt l.id root.eligibleCount root.totalEligibleTickets
        l.pocAggregateHash root.participantsCommitment = c.seed rt := by
      rw [hid, hpoc, hp.eligible, hp.tickets, hp.commitment]
      rfl
    dsimp only at hd
    rw [hseed] at hd
    exact ⟨drawIndex_eq_error rt hleft hd, drawRounds_succ_error hdraw hd⟩

theorem Selecting.remaining (h : c.Selecting rt root ps winners k) (hc : c.Bounded) :
    root.remainingTickets = .ok (total Ballot.tickets (left winners c.ballots)) := by
  obtain ⟨rest, hdraw⟩ := h.drawn
  have htotal := draw_total hdraw
  rw [draw_rest hc.index.nodup hdraw] at htotal
  simp only [FinalizationLedger.remainingTickets, bind_eq_ok, rejectIf_eq_ok, exists_const,
    pure_eq_ok, h.pooled.tickets, h.selectedTickets]
  omega

theorem Selecting.winner (h : c.Selecting rt root ps winners c.ballots.length) (hc : c.Bounded) :
    ∃ x ∈ left winners c.ballots, FinalizeWinners.roundWinner root = .ok x.selected := by
  have hlt := drawIndex_lt rt h.index
  obtain ⟨x, hx⟩ := Option.ne_none_iff_exists'.mp fun hnone : c.found winners c.ballots.length
      root.roundDrawIndex = none ↦ by
    rw [found_eq_none_iff, List.take_length] at hnone
    omega
  obtain ⟨hwallet, htickets⟩ := h.pending x hx
  have hfound : root.pendingWinnerFound = true := by rw [h.isFound, hx]; rfl
  have hseen := h.seen
  rw [List.take_length] at hseen
  refine ⟨x, ?_, ?_⟩
  · rw [found, List.take_length] at hx
    exact mem_of_pick hx
  · simp only [FinalizeWinners.roundWinner, bind_eq_ok, rejectIf_eq_ok, exists_const, pure_eq_ok]
    exact ⟨_, h.remaining hc, by simp [hseen, hfound], by rw [hwallet, htickets]; rfl⟩

theorem Selecting.record (h : c.Selecting rt root ps winners k) (hc : c.Bounded)
    (hlt : winners.length < c.target) {x : Ballot K} (hx : x ∈ left winners c.ballots) :
    ∃ root₁, root.recordWinner rt x.selected = .ok root₁ := by
  obtain ⟨rest, hdraw⟩ := h.drawn
  have htotal := draw_total hdraw
  rw [draw_rest hc.index.nodup hdraw] at htotal
  have hle : x.tickets ≤ total Ballot.tickets (left winners c.ballots) :=
    List.single_le_sum (fun _ _ ↦ Nat.zero_le _) _ (List.mem_map_of_mem hx)
  have hpool : poolTickets c.ballots ≤ total Ballot.tickets c.ballots := poolTickets_le _
  have hbound := hc.tickets_lt
  have hmax := hc.target_le
  have hsize : Sizes.maxWinners < 2 ^ 31 := by decide
  simp only [FinalizationLedger.recordWinner, exists_bind_eq_ok, rejectIf_eq_ok, exists_const,
    okOr_eq_ok, checkedAdd_eq_some]
  refine ⟨?_, _, ⟨?_, rfl⟩, _, ⟨?_, rfl⟩, _, rfl⟩
  · rw [h.target, h.selectedCount]
    omega
  · rw [h.selectedCount]
    omega
  · have htickets : x.selected.tickets = x.tickets := rfl
    rw [h.selectedTickets]
    omega

theorem Bounded.serviceFee_le (hc : c.Bounded) : c.serviceFee ≤ c.totalFunds := by
  have hmul := Nat.mul_le_mul_left c.totalFunds hc.bps.le
  exact Nat.div_le_of_le_mul (by omega)

theorem Bounded.settlementAmounts_eq {l : Lottery K} (hc : c.Bounded)
    (hfunds : l.totalFunds = c.totalFunds) (hbps : l.serviceChargeBps = c.serviceChargeBps)
    (hpos : 0 < c.target) : FinalizeWinners.settlementAmounts l c.target =
      if c.totalFunds - c.serviceFee < c.target then .error Error.insufficientFunds
      else .ok (c.perWinner * c.target, c.perWinner) := by
  have hlt := hc.funds_lt
  have hfee := hc.serviceFee_le
  have hservice : computeServiceFee l.totalFunds l.serviceChargeBps = .ok c.serviceFee := by
    simp only [computeServiceFee, bind_eq_ok, rejectIf_eq_ok, exists_const, pure_eq_ok,
      hfunds, hbps]
    unfold serviceFee at hfee ⊢
    exact ⟨by omega, rfl⟩
  have hdiv : (c.totalFunds - c.serviceFee) / c.target * c.target ≤ c.totalFunds - c.serviceFee :=
    Nat.div_mul_le_self _ _
  rw [FinalizeWinners.settlementAmounts, hservice]
  split
  · simp only [bind_eq_error, rejectIf_eq_error, hfunds]
    exact .inr ⟨_, rfl, .inl ⟨by omega, trivial⟩⟩
  · simp only [bind_eq_ok, rejectIf_eq_ok, exists_const, okOr_eq_ok, checkedMul_eq_some, pure_eq_ok,
      hfunds]
    exact ⟨_, rfl, by omega, _, ⟨by omega, rfl⟩, rfl⟩

theorem Bounded.complete_error {l : Lottery K} {now : ℤ} {e : ProgramError} (hc : c.Bounded)
    (hfunds : l.totalFunds = c.totalFunds) (hbps : l.serviceChargeBps = c.serviceChargeBps)
    (hset : l.settlementComplete = false)
    (hbitmap : (Sizes.maxWinners + 7) / 8 ≤ l.paidWinnersBitmap.length)
    (hpos : 0 < c.target) (hcount : root.selectedCount = c.target)
    (he : FinalizeWinners.completeFinalization l root now = .error e) :
    e = Error.insufficientFunds ∧ c.totalFunds - c.serviceFee < c.target := by
  have hle := hc.target_le
  simp only [FinalizeWinners.completeFinalization, hcount, hc.settlementAmounts_eq hfunds hbps hpos,
    bind_eq_error, pure_ne_error, and_false, exists_false, or_false, Prod.exists] at he
  obtain hamounts | ⟨_, _, -, hinit⟩ := he
  · split at hamounts
    · next hsmall =>
      cases hamounts
      exact ⟨rfl, hsmall⟩
    · cases hamounts
  · simp only [Lottery.initializeSettlement, Lottery.clearBitmap, bind_eq_error, rejectIf_eq_error,
      rejectIf_eq_ok, exists_const, pure_ne_error, and_false, or_false, hset] at hinit
    obtain ⟨hbad, -⟩ | ⟨-, ⟨hbad, -⟩ | ⟨-, hbad, -⟩⟩ := hinit
    · cases hbad
    · omega
    · omega

theorem Selecting.next_error {root₁ : FinalizationLedger K} {winner : SelectedWinner K}
    {l : Lottery K} {now : ℤ} {e : ProgramError}
    (h : c.Selecting rt root ps winners c.ballots.length) (hc : c.Bounded)
    (hlt : winners.length < c.target)
    (hfunds : l.totalFunds = c.totalFunds) (hbps : l.serviceChargeBps = c.serviceChargeBps)
    (hset : l.settlementComplete = false)
    (hbitmap : (Sizes.maxWinners + 7) / 8 ≤ l.paidWinnersBitmap.length)
    (hw : FinalizeWinners.roundWinner root = .ok winner)
    (hrec : root.recordWinner rt winner = .ok root₁)
    (he : FinalizeWinners.nextRound rt l root₁ now = .error e) :
    (e = Error.winnerSelectionFailed ∧ winners.length + 1 < c.target ∧
      c.draw rt (winners.length + 2) = .error e) ∨
      e = Error.insufficientFunds ∧ winners.length + 1 = c.target ∧
        c.totalFunds - c.serviceFee < c.target := by
  obtain ⟨x, rest, rfl, -, hdraw⟩ := h.drawn_next hc.index.nodup hw
  obtain ⟨-, rfl⟩ := FinalizeWinners.recordWinner_ok hrec
  have hcount := h.selectedCount
  have htarget := h.target
  unfold FinalizeWinners.nextRound at he
  split at he
  · next heq =>
    dsimp only at heq
    rw [hcount, htarget] at heq
    obtain ⟨rfl, hpool⟩ := hc.complete_error hfunds hbps hset hbitmap (by omega)
      (by dsimp only; omega) he
    exact .inr ⟨rfl, heq, hpool⟩
  · next hne =>
    dsimp only at hne
    have hround := h.round
    have hle := hc.target_le
    have hsize : Sizes.maxWinners < 2 ^ 31 := by decide
    have hlt' : winners.length + 1 < c.target := by omega
    have htotal := draw_total hdraw
    rw [total_append, total_cons, total_nil, Nat.add_zero] at htotal
    have htickets : (x.selected).tickets = x.tickets := rfl
    have hsum := h.selectedTickets
    have hpool := h.pooled.tickets
    simp only [FinalizationLedger.remainingTickets, bind_eq_error, okOr_eq_error,
      checkedAdd_eq_none,
      okOr_eq_ok, checkedAdd_eq_some, rejectIf_eq_error, rejectIf_eq_ok, exists_const, pure_eq_ok,
      pure_ne_error, and_false, or_false, bind_eq_ok] at he
    obtain ⟨hbad, -⟩ | ⟨_, ⟨-, rfl⟩, ⟨hbad, -⟩ | ⟨_, ⟨-, rfl⟩, hd⟩⟩ := he
    · omega
    · omega
    · have hremaining : root.totalEligibleTickets - (root.selectedTicketsTotal + x.tickets) =
          total Ballot.tickets rest := by omega
      rw [htickets, hremaining, hround, h.seed] at hd
      exact .inl ⟨drawIndex_eq_error rt (hc.left_pos hdraw hlt') hd, hlt',
        drawRounds_succ_error hdraw hd⟩

end Ends

end Contest

namespace Round

variable {r : Round K}

/-- Until the winners are known the bitmap is as long as it was made. -/
def Spare (r : Round K) : Prop := r.lottery.winnersCount = 0 →
  r.lottery.paidWinnersBitmap.length = (Sizes.maxWinners + 7) / 8

theorem spare (h : (machine rt).Reachable r) : r.Spare := by
  refine reachable_invariant (P := Spare) h (fun r hr _ ↦ ?_) fun r r' _ h hs hw ↦ ?_
  · obtain ⟨id, config, authority, vault, bump, bps, price, hnew, -, -⟩ := hr.lottery
    simp only [Lottery.new, bind_eq_ok, pure_eq_ok, Prod.exists] at hnew
    obtain ⟨_, _, _, _, -, hl⟩ := hnew
    rw [← hl]
    exact List.length_replicate
  · cases hs with
    | refl => exact h hw
    | tick => exact h hw
    | reconfigure => exact h hw
    | deposit => exact h hw
    | buyFirst => exact h hw
    | buyMore => exact h hw
    | beginReveal _ _ _ _ _ _ _ _ _ hopen =>
      obtain rfl := BeginRevealPhase.openWindow_ok hopen
      rw [BeginRevealPhase.autoComplete_eq] at hw ⊢
      exact h hw
    | attestUploaded =>
      rw [Lottery.countAttestation_eq] at hw ⊢
      exact h hw
    | attestReveal _ _ _ _ _ _ _ hrec _ _ hconc =>
      obtain ⟨-, rfl⟩ := AttestReveal.recordReveal_ok hrec
      obtain rfl := AttestReveal.conclude_ok hconc
      exact h hw
    | uploadReveals hadmit _ _ hinc =>
      obtain ⟨-, -, -, -, -, -, -, rfl⟩ := UploadReveals.checkPhase_ok hadmit
      obtain ⟨-, rfl⟩ := UploadReveals.includeUploads_ok hinc
      exact h hw
    | beginRemediation _ _ _ _ _ _ hrem =>
      obtain ⟨-, rfl⟩ | ⟨-, rfl⟩ := Lottery.beginRemediation_ok hrem
      all_goals exact h hw
    | aggregate _ _ _ _ _ hend =>
      split at hend
      · obtain ⟨_, _, _, _, _, _, _, rfl, -⟩ := FinalizeWinners.finishAggregation_ok hend
        exact h hw
      · cases hend
        exact h hw
    | select => exact h hw
    | selectLast _ _ _ _ _ _ _ _ hnext =>
      rcases FinalizeWinners.nextRound_ok hnext with ⟨-, hcomp⟩ | ⟨-, rfl, -⟩
      · obtain ⟨fee, bitmap, -, hne, -, -, -, rfl, -⟩ :=
          FinalizeWinners.completeFinalization_ok hcomp
        exact absurd hw hne
      · exact h hw
    | payBatch hpays _ =>
      obtain ⟨old, -, hrun⟩ := hpays.page_eq
      obtain ⟨bitmap, rfl⟩ := hrun.lottery
      exact absurd hw hpays.winners_pos
    | payLast hpays _ _ hcomp =>
      obtain ⟨old, -, hrun⟩ := hpays.page_eq
      obtain ⟨bitmap, rfl⟩ := hrun.lottery
      obtain rfl := Lottery.completeSettlement_ok hcomp
      exact absurd hw hpays.winners_pos
    | finalizeNoAttesters => exact h hw
    | claimRefund => exact h hw
    | closeRefundVault => exact h hw

theorem Invariant.bounded (hi : Invariant rt r) (hs : r.books.Sealed) : r.contest.Bounded := by
  have he := hi.books.enrolled
  have htwo : 2 ≤ r.lottery.participantsCount := hs.two_le
  have hlen : r.contest.ballots.length = r.lottery.participantsCount := he.length
  refine ⟨he.index, hlen ▸ he.le, he.tickets_pos, ?_, he.funds_lt, hi.configured.serviceCharge,
    r.config.effectiveMaxWinners_le_maxWinners _, r.config.one_le_effectiveMaxWinners _, ?_⟩
  · have htickets : r.lottery.totalTickets = total Ballot.tickets r.contest.ballots := he.tickets
    rw [← htickets]
    exact he.tickets_lt
  · have hle : r.contest.maxWinners ≤ r.lottery.participantsCount - 1 :=
      r.config.effectiveMaxWinners_le htwo
    omega

theorem Invariant.pool_ne_nil (hi : Invariant rt r) (hs : r.books.Sealed) :
    pool r.contest.ballots ≠ [] := by
  intro hnil
  have hlen : includedOf r.books.ballots = 0 := by
    rw [← length_pool, show pool r.books.ballots = [] from hnil]
    rfl
  exact (hi.books.included_eq hs).2 hlen

end Round

theorem Paged.room {key : K} {pages : ℕ → Option (WinnerPage K × PageData K)}
    {winners : List (SelectedWinner K)} (h : Paged key pages winners) {i : ℕ}
    (hi : i = winners.length / winnersPerPage) {page : WinnerPage K} {data : PageData K}
    (hp : (page, data) = (pages i).getD (WinnerPage.new key 1 i, .zeroed)) (w : SelectedWinner K) :
    ∃ x, page.append data w = .ok x := by
  obtain ⟨-, -, -, hcount, -⟩ := h.openPage hi hp
  have hmod := Nat.div_add_mod winners.length winnersPerPage
  have hlt : winners.length % winnersPerPage < winnersPerPage := Nat.mod_lt _ (by decide)
  have hper : winnersPerPage < 2 ^ 15 := by decide
  rw [← hi, Nat.mul_comm] at hmod
  simp only [WinnerPage.append, exists_bind_eq_ok, rejectIf_eq_ok, exists_const, okOr_eq_ok,
    checkedAdd_eq_some]
  exact ⟨by omega, _, ⟨by omega, rfl⟩, _, rfl⟩

end DailyLottery
