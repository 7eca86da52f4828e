import DailyLottery.Runs.Roll
import DailyLottery.Execute

set_option linter.unusedSectionVars false

namespace DailyLottery

open Lib Ballot

variable {K : Type} [DecidableEq K] [Inhabited K] {rt : Runtime K} {acts : List (Action K)}
  {w w' : World K} {ws : List (World K)} {id : ℕ} {l : Lottery K} {ps : List (Participant K)}

/-- The tickets of a lottery and the money paid for them. -/
structure Ticketed (l : Lottery K) (ps : List (Participant K)) : Prop where
  index : ps.map Participant.participantIndex = List.range l.participantsCount
  count_le : l.participantsCount ≤ Sizes.maxParticipants
  tickets_pos : ∀ p ∈ ps, 1 ≤ p.ticketsBought
  tickets : l.totalTickets = (ps.map Participant.ticketsBought).sum
  funds : l.totalFunds = l.ticketPriceLamports * l.totalTickets
  tickets_lt : l.totalTickets < 2 ^ 64
  funds_lt : l.totalFunds < 2 ^ 64

theorem Round.ticketed {r : Round K} (hb : r.books.Sound)
    (hroll : r.participants.map Participant.participantIndex = List.range r.participants.length) :
    Ticketed r.lottery r.participants := by
  have he := hb.enrolled
  have hlen : r.participants.length = r.lottery.participantsCount := by
    have := he.length
    rwa [books, List.length_map] at this
  have ht := he.tickets
  rw [books, List.map_map] at ht
  exact ⟨hlen ▸ hroll, he.le, fun p hp ↦ he.tickets_pos p.ballot (List.mem_map_of_mem hp), ht,
    he.funds, he.tickets_lt, he.funds_lt⟩

/-- The ticket accounts in every run. A purchase that fails is no step. -/
theorem tickets_accounted (h : (system rt).History acts (w :: ws))
    (hl : (w.view rt id .lottery).data = .lottery l) :
    (∃ ps, Roll rt (w :: ws) id ps ∧ Ticketed l ps ∧
      ∀ p ∈ ps, (w.view rt id (.participant p.wallet)).data = .participant p ∨
        (w.view rt id (.participant p.wallet)).data = .empty ∧ l.settled = true) ∧
    ∀ pre hash count accounts e, BuyTickets.process rt w accounts hash count = .error e →
      ∀ w', ¬Step rt w (.instruction pre (.buyTickets hash count) accounts) w' := by
  obtain ⟨r, -, hi, hr, rfl, -⟩ := represented h hl
  have hroll := hr.roll hi.books
  refine ⟨⟨r.participants, hroll, Round.ticketed hi.books hroll.index,
    fun p hp ↦ hr.stored hi.routed hp⟩, ?_⟩
  intro pre hash count accounts e he w' hs
  cases hs with
  | instruction _ hok =>
    rw [processInstruction, he] at hok
    cases hok

/-- Two participants, one of whom buys again. -/
theorem tickets_accounted_sample : ∃ w ws l, (w.view Sample.rt 1 .lottery).data = .lottery l ∧
    l.totalTickets = 6 ∧ ∃ ps, Roll Sample.rt (w :: ws) 1 ps ∧ Ticketed l ps := by
  obtain ⟨w, ws, l, h, hl, ht⟩ := Sample.run_lottery
    [Sample.configure 1000 500 10, Sample.create 1, Sample.buy 1 20 1, Sample.buy 1 21 2,
      Sample.buy 1 20 3] 1 (fun _ l ↦ l.totalTickets == 6) (by decide +kernel)
  obtain ⟨⟨ps, hroll, hps, -⟩, -⟩ := tickets_accounted h hl
  exact ⟨w, ws, l, hl, by simpa using ht, ps, hroll, hps⟩

end DailyLottery
