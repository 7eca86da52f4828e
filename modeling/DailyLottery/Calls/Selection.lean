import DailyLottery.Calls.Finalize
import DailyLottery.Runs.Announced

set_option linter.unusedSectionVars false

namespace DailyLottery

open Lib Ballot

variable {K : Type} [DecidableEq K] [Inhabited K] {rt : Runtime K} {acts : List (Action K)}
  {w : World K} {ws : List (World K)} {id : ℕ}

/-- The participants a winner is drawn from. -/
def eligible (ps : List (Participant K)) : List (Participant K) :=
    ps.filter Participant.revealIncluded

/-- What a ledger past its aggregation says of the participants `ps` and the winners drawn so far. -/
structure SelectionSound (c : Config K) (l : Lottery K) (tally : Option (VoteTally K))
    (ps : List (Participant K)) (root : FinalizationLedger K) (winners : List (SelectedWinner K)) :
    Prop where
  count : winners.length = root.selectedCount
  wallets : (winners.map SelectedWinner.wallet).Nodup
  member : ∀ x ∈ winners, ∃ p ∈ eligible ps, x = ⟨p.wallet, p.ticketsBought⟩
  eligibleCount : root.eligibleCount = (eligible ps).length
  eligibleTickets : root.totalEligibleTickets = ((eligible ps).map Participant.ticketsBought).sum
  ticketsTotal : root.selectedTicketsTotal = (winners.map SelectedWinner.tickets).sum
  target : root.targetWinners = min (min (max (contestOf c l tally ps).votedWinners 1)
    (c.effectiveMaxWinners l.participantsCount)) root.eligibleCount
  one_le : 1 ≤ root.targetWinners
  selected_le : root.selectedCount ≤ root.targetWinners
  room : root.phase = .selecting → root.selectedCount < root.targetWinners ∧
    ∃ remaining, root.remainingTickets = .ok remaining ∧
      root.targetWinners - root.selectedCount ≤ remaining ∧ root.roundDrawIndex < remaining
  pending : root.phase = .selecting → root.pendingWinnerFound = true →
    root.pendingWinner ∉ winners.map SelectedWinner.wallet ∧
      ∃ p ∈ eligible ps, p.wallet = root.pendingWinner ∧ p.ticketsBought = root.pendingWinnerTickets
  marked : root.phase = .selecting → ∀ p ∈ ps, p.selectedInGeneration root.generation = true ↔
    p.wallet ∈ winners.map SelectedWinner.wallet ∨
      root.pendingWinnerFound = true ∧ p.wallet = root.pendingWinner

namespace Contest

variable {c : Contest K} {root : FinalizationLedger K} {ps : List (Participant K)}
  {winners : List (Ballot K)} {k : ℕ}

theorem pool_map (ps : List (Participant K)) :
    pool (ps.map Participant.ballot) = (eligible ps).map Participant.ballot := by
  rw [pool, eligible, List.filter_map]
  rfl

theorem draw_eligible (hps : ps.map Participant.ballot = c.ballots) {n : ℕ} {rest : List (Ballot K)}
    (h : c.draw rt n = .ok (winners, rest)) {x : Ballot K} (hx : x ∈ winners) :
    ∃ p ∈ eligible ps, p.ballot = x := by
  have hpool : x ∈ pool c.ballots := List.mem_filter.mpr (draw_mem h hx)
  rw [← hps, pool_map] at hpool
  exact List.mem_map.mp hpool

theorem mem_of_found {d : ℕ} {x : Ballot K} (h : c.found winners k d = some x) :
    x ∈ pool c.ballots ∧ x ∉ winners := by
  obtain ⟨hpool, hnew⟩ := List.mem_filter.mp (mem_of_pick h)
  refine ⟨?_, of_decide_eq_true hnew⟩
  exact (((List.take_sublist k c.ballots).filter _).subset hpool)

end Contest

theorem Represents.sound {r : Round K} {root : FinalizationLedger K}
    (hr : Represents rt acts w ws id r) (hi : r.Invariant rt)
    (hroot : (w.view rt id .finalizationRoot).data = .finalizationLedger root)
    (hph : root.phase ≠ .aggregating) : ∃ winners, Stores rt id w winners ∧
      SelectionSound r.config r.lottery (tallyAt rt id w) r.participants root winners := by
  have hseal := hi.routed.sealed_of_ledger (by simp [hr.eq_ledger hroot])
  have hc := hi.bounded hseal
  have hwallets : (r.contest.ballots.map Ballot.wallet).Nodup := hi.books.enrolled.wallets
  have hpool : pool r.contest.ballots = (eligible r.participants).map Participant.ballot :=
    Contest.pool_map _
  have hone := hc.one_le_target (hi.pool_ne_nil hseal)
  have htally : contestOf r.config r.lottery (tallyAt rt id w) r.participants = r.contest := by
    rw [hr.tallyAt_eq]
    rfl
  have hmap (winners : List (Ballot K)) :
      (winners.map selected).map SelectedWinner.wallet = winners.map Ballot.wallet := by
    rw [List.map_map]
    rfl
  have hsum (winners : List (Ballot K)) :
      ((winners.map selected).map SelectedWinner.tickets).sum = total Ballot.tickets winners := by
    rw [List.map_map]
    rfl
  have hmember {n : ℕ} {winners rest : List (Ballot K)}
      (hdraw : r.contest.draw rt n = .ok (winners, rest)) (x : SelectedWinner K)
      (hx : x ∈ winners.map selected) : ∃ p ∈ eligible r.participants,
        x = ⟨p.wallet, p.ticketsBought⟩ := by
    obtain ⟨b, hb, rfl⟩ := List.mem_map.mp hx
    obtain ⟨p, hp, rfl⟩ := Contest.draw_eligible rfl hdraw hb
    exact ⟨p, hp, rfl⟩
  -- a wallet stands for its ballot
  have hinj {x y : Ballot K} (hx : x ∈ r.contest.ballots) (hy : y ∈ r.contest.ballots)
      (hxy : x.wallet = y.wallet) : x = y := List.inj_on_of_nodup_map hwallets hx hy hxy
  have hcount {root : FinalizationLedger K} (hp : root.Pooled rt r.contest.ballots) :
      root.eligibleCount = (eligible r.participants).length ∧
        root.totalEligibleTickets =
          ((eligible r.participants).map Participant.ticketsBought).sum := by
    rw [hp.eligible, hp.tickets, poolTickets, hpool, List.length_map, total, List.map_map]
    exact ⟨rfl, rfl⟩
  have htarget {root : FinalizationLedger K} (hp : root.Pooled rt r.contest.ballots)
      (ht : root.targetWinners = r.contest.target) : root.targetWinners =
        min (min (max r.contest.votedWinners 1)
          (r.config.effectiveMaxWinners r.lottery.participantsCount)) root.eligibleCount := by
    rw [ht, hp.eligible]
    rfl
  cases hi.progress with
  | waiting hnone => simp [hr.eq_ledger hroot] at hnone
  | aggregating hl _ _ _ hst =>
    cases (hr.eq_ledger hroot).symm.trans hl
    exact absurd hst.phase hph
  | @selecting _ winners k hl _ hpages _ hlt hlt' hst =>
    cases (hr.eq_ledger hroot).symm.trans hl
    obtain ⟨rest, hdraw⟩ := hst.drawn
    have hleft : rest = left winners r.contest.ballots := Contest.draw_rest hc.index.nodup hdraw
    refine ⟨winners.map selected, hr.winnerAt_eq hpages, ?_⟩
    refine ⟨?_, ?_, hmember hdraw, (hcount hst.pooled).1, (hcount hst.pooled).2, ?_, ?_, ?_,
      ?_, ?_, ?_, ?_⟩
    · rw [List.length_map, hst.selectedCount]
    · rw [hmap]
      exact Contest.draw_wallets hwallets hdraw
    · rw [hst.selectedTickets, hsum]
    · rw [htally]
      exact htarget hst.pooled hst.target
    · rw [hst.target]
      exact hone
    · rw [hst.target, hst.selectedCount]
      exact hlt'.le
    · intro _
      have hle := Contest.draw_left hc.tickets_pos hdraw
      have htl : r.contest.target ≤ (pool r.contest.ballots).length := min_le_right _ _
      rw [hst.target, hst.selectedCount]
      refine ⟨hlt', _, hst.remaining hc, ?_, drawIndex_lt rt hst.index⟩
      rw [← hleft]
      omega
    · intro _ hfound
      rw [hst.isFound, Option.isSome_iff_exists] at hfound
      obtain ⟨x, hx⟩ := hfound
      obtain ⟨hmem, hnew⟩ := Contest.mem_of_found hx
      obtain ⟨hwallet, htickets⟩ := hst.pending x hx
      rw [hmap, hwallet, htickets]
      refine ⟨fun hin ↦ ?_, ?_⟩
      · obtain ⟨y, hy, hyx⟩ := List.mem_map.mp hin
        exact hnew (hinj (Contest.draw_mem hdraw hy).1 (List.mem_filter.mp hmem).1 hyx ▸ hy)
      · rw [hpool] at hmem
        obtain ⟨p, hp, rfl⟩ := List.mem_map.mp hmem
        exact ⟨p, hp, rfl, rfl⟩
    · intro _ p hp
      have hballot : p.ballot ∈ r.contest.ballots := List.mem_map_of_mem hp
      obtain ⟨i, hi⟩ := List.getElem?_of_mem hp
      have hmark : p.selectedInGeneration root.generation = true ↔
          p.ballot ∈ winners ++ (r.contest.found winners k root.roundDrawIndex).toList := by
        rw [Participant.selectedInGeneration, decide_eq_true_eq, (hst.marks i p hi).2,
          hst.rooted.generation]
        split <;> simp [*]
      rw [hmark, List.mem_append, hmap, hst.isFound]
      refine or_congr ⟨fun hin ↦ List.mem_map_of_mem hin, fun hin ↦ ?_⟩ ?_
      · obtain ⟨y, hy, hyp⟩ := List.mem_map.mp hin
        exact hinj (Contest.draw_mem hdraw hy).1 hballot hyp ▸ hy
      · cases hx : r.contest.found winners k root.roundDrawIndex with
        | none => simp
        | some x =>
          have hmem := (List.mem_filter.mp (Contest.mem_of_found hx).1).1
          have hwallet := (hst.pending x hx).1
          simp only [Option.toList_some, List.mem_singleton, Option.isSome_some, true_and, hwallet]
          exact ⟨fun he ↦ by rw [← he]; rfl, fun he ↦ hinj hballot hmem he⟩
  | @completed _ winners hl hdec hpages hst =>
    cases (hr.eq_ledger hroot).symm.trans hl
    obtain ⟨rest, hdraw⟩ := hst.drawn
    have hnot : root.phase ≠ .selecting := by simp [hst.phase]
    refine ⟨winners.map selected, hr.winnerAt_eq hpages, ?_⟩
    refine ⟨?_, ?_, hmember hdraw, (hcount hst.pooled).1, (hcount hst.pooled).2, ?_, ?_, ?_, ?_,
      fun h ↦ absurd h hnot, fun h ↦ absurd h hnot, fun h ↦ absurd h hnot⟩
    · rw [List.length_map, hst.selectedCount, Contest.draw_length hdraw]
    · rw [hmap]
      exact Contest.draw_wallets hwallets hdraw
    · rw [hst.selectedTickets, hsum]
    · rw [htally]
      exact htarget hst.pooled hst.target
    · rw [hst.target]
      exact hone
    · rw [hst.target, hst.selectedCount]

/-- In every reachable state with a ledger past its aggregation, the winners so far are distinct
eligible participants, and the draw at hand has someone to find. -/
theorem selection_sound {l : Lottery K} {root : FinalizationLedger K}
    (h : (system rt).History acts (w :: ws)) (hl : (w.view rt id .lottery).data = .lottery l)
    (hroot : (w.view rt id .finalizationRoot).data = .finalizationLedger root)
    (hph : root.phase ≠ .aggregating) :
    ∃ c ps winners, (w.accounts rt.configKey).data = .config c ∧ Roll rt (w :: ws) id ps ∧
      Stores rt id w winners ∧ SelectionSound c l (tallyAt rt id w) ps root winners := by
  obtain ⟨r, -, hi, hr, rfl, -⟩ := represented h hl
  obtain ⟨winners, hst, hsound⟩ := hr.sound hi hroot hph
  exact ⟨r.config, r.participants, winners, hr.config, hr.roll hi.books, hst, hsound⟩

/-- In the middle of a selection pass over three participants. -/
theorem selection_sound_sample :
    ∃ (w : World Sample.Key) (l : Lottery Sample.Key) (root : FinalizationLedger Sample.Key)
      (c : Config Sample.Key) (ps : List (Participant Sample.Key))
      (winners : List (SelectedWinner Sample.Key)),
      (w.view Sample.rt 1 .finalizationRoot).data = .finalizationLedger root ∧
      root.phase = .selecting ∧ Stores Sample.rt 1 w winners ∧
      SelectionSound c l (tallyAt Sample.rt 1 w) ps root winners := by
  obtain ⟨w, ws, l, h, hl, hp⟩ := Sample.run_lottery
    (Sample.ready ++ [Sample.finalize 1 0 [20, 21, 22], Sample.finalize 1 0 [20]]) 1
    (fun w _ ↦ (Sample.ledgerOf w 1).any fun root ↦
      decide (FinalizationLedger.phase root = FinalizationPhase.selecting)) (by decide +kernel)
  obtain ⟨root, hroot, hph⟩ := (Option.any_eq_true _ _).mp hp
  have hroot := unwrap_finalizationLedger.mp hroot
  have hph := of_decide_eq_true hph
  obtain ⟨c, ps, winners, -, -, hst, hsound⟩ := selection_sound h hl hroot (by simp [hph])
  exact ⟨w, l, root, c, ps, winners, hroot, hph, hst, hsound⟩

end DailyLottery
