import DailyLottery.Round.Progress
import DailyLottery.Refinement.FinalizeWinners

set_option linter.unusedSectionVars false

namespace DailyLottery

open Lib Ballot

variable {K : Type} [DecidableEq K] [Inhabited K] {rt : Runtime K} {r r' : Round K}

namespace Round

/-- The participant the next chunk has to begin with. -/
def cursor (r : Round K) : ℕ :=
  match r.openLedger.phase with
  | .aggregating => r.openLedger.processedCount
  | _ => r.openLedger.roundProcessedCount

variable (rt) in
/-- The winners drawn so far, in the order of the pages. -/
structure Standing (r : Round K) (winners : List (Ballot K)) : Prop where
  pages : Paged r.key r.pages (winners.map selected)
  drawn : ∃ rest, r.contest.draw rt r.openLedger.selectedCount = .ok (winners, rest)

namespace Progress

theorem of_aggregating (h : Progress rt r) (hb : r.books.Sound) (hs : r.books.Sealed)
    (hph : r.openLedger.phase = .aggregating) :
    ∃ k, r.contest.Aggregating rt r.openLedger r.participants k ∧ k < r.books.ballots.length ∧
      (∀ i, r.pages i = none) ∧ r.lottery.winnersCount = 0 ∧
      r.lottery.selectedNumberOfWinners = r.books.elected := by
  have hopen {root : FinalizationLedger K} (hl : r.ledger = some root) : r.openLedger = root := by
    rw [openLedger, hl, Option.getD_some]
  cases h with
  | waiting hl hw hp hm he =>
    have hpos : 0 < r.books.ballots.length := by
      rw [hb.enrolled.length]
      exact zero_lt_one.trans hs.two_le
    refine ⟨0, ?_, hpos, hp, hw, he hs.two_le (hb.included_eq hs).2⟩
    rw [openLedger, hl]
    exact ⟨rfl, ⟨rfl, rfl, hb.enrolled.length.symm⟩, ⟨rfl, rfl, rfl, rfl⟩, rfl, rfl, rfl, hm⟩
  | aggregating hl hw hp hlt hst he => exact ⟨_, hopen hl ▸ hst, hlt, hp, hw, he⟩
  | selecting hl _ _ _ _ _ hst =>
    rw [hopen hl, hst.phase] at hph
    cases hph
  | completed hl _ _ hst =>
    rw [hopen hl, hst.phase] at hph
    cases hph

theorem of_selecting (h : Progress rt r) (hph : r.openLedger.phase = .selecting) :
    ∃ winners k, r.contest.Selecting rt r.openLedger r.participants winners k ∧
      k < r.books.ballots.length ∧ winners.length < r.contest.target ∧
      Paged r.key r.pages (winners.map selected) := by
  have hopen {root : FinalizationLedger K} (hl : r.ledger = some root) : r.openLedger = root := by
    rw [openLedger, hl, Option.getD_some]
  cases h with
  | waiting hl =>
    rw [openLedger, hl] at hph
    cases hph
  | aggregating hl _ _ _ hst =>
    rw [hopen hl, hst.phase] at hph
    cases hph
  | selecting hl _ hp _ hlt hlt' hst => exact ⟨_, _, hopen hl ▸ hst, hlt, hlt', hp⟩
  | completed hl _ _ hst =>
    rw [hopen hl, hst.phase] at hph
    cases hph

theorem standing (h : Progress rt r) : ∃ winners, r.Standing rt winners := by
  have hopen {root : FinalizationLedger K} (hl : r.ledger = some root) : r.openLedger = root := by
    rw [openLedger, hl, Option.getD_some]
  cases h with
  | waiting hl _ hp =>
    refine ⟨[], .empty hp, ?_⟩
    rw [openLedger, hl]
    exact ⟨_, rfl⟩
  | aggregating hl _ hp _ hst =>
    refine ⟨[], .empty hp, ?_⟩
    rw [hopen hl, hst.selectedCount]
    exact ⟨_, rfl⟩
  | selecting hl _ hp _ _ _ hst =>
    refine ⟨_, hp, ?_⟩
    rw [hopen hl, hst.selectedCount]
    exact hst.drawn
  | completed hl _ hp hst =>
    refine ⟨_, hp, ?_⟩
    rw [hopen hl, hst.selectedCount]
    exact hst.drawn

end Progress

theorem Standing.eq {winners winners' : List (Ballot K)} (h : r.Standing rt winners)
    (h' : r'.Standing rt winners') (hl : r'.ledger = r.ledger)
    (hc : r.ledger ≠ none → r'.contest = r.contest) : winners' = winners := by
  obtain ⟨rest, hd⟩ := h.drawn
  obtain ⟨rest', hd'⟩ := h'.drawn
  cases hroot : r.ledger with
  | none =>
    have hz : r.openLedger.selectedCount = 0 := by
      rw [openLedger, hroot]
      rfl
    have hz' : r'.openLedger.selectedCount = 0 := by
      rw [openLedger, hl, hroot]
      rfl
    rw [hz] at hd
    rw [hz'] at hd'
    rw [List.length_eq_zero_iff.mp (Contest.draw_length hd),
      List.length_eq_zero_iff.mp (Contest.draw_length hd')]
  | some root =>
    have hopen : r'.openLedger = r.openLedger := by
      rw [openLedger, openLedger, hl, hroot]
      rfl
    rw [hopen, hc (by simp [hroot]), hd] at hd'
    cases hd'
    rfl

end Round

namespace FinalizeWinners

variable {es : List (ℕ × Unit)} {x : Option (ℕ × SelectedWinner K)}

open Round

theorem Turn.positions (ht : Turn rt r es x r') (hp : Progress rt r) (hb : r.books.Sound)
    (hs : r.books.Sealed) : es.map Prod.fst = List.range' r.cursor es.length ∧
      r.cursor + es.length ≤ r.participants.length := by
  have hix : Indexed r.contest.ballots := hb.enrolled.index
  have hlen : r.contest.ballots.length = r.participants.length := List.length_map _
  have hselecting (hph : r.openLedger.phase = .selecting) {ps : List (Participant K)}
      {root : FinalizationLedger K} (hsweep : Sweep (PassVisit selectParticipant) r.participants
        r.openLedger es ps root) : es.map Prod.fst = List.range' r.cursor es.length ∧
        r.cursor + es.length ≤ r.participants.length := by
    obtain ⟨winners, k, hst, hlt, -, -⟩ := hp.of_selecting hph
    obtain ⟨hrange, hle, -⟩ := hst.chunk hlt.le hix rfl hsweep
    rw [cursor, hph, hst.processed, ← hlen]
    exact ⟨hrange, hle⟩
  cases ht with
  | aggregate _ hph _ hsweep =>
    obtain ⟨k, hst, hlt, -⟩ := hp.of_aggregating hb hs hph
    obtain ⟨hrange, hle, -⟩ := hst.chunk hlt.le hix rfl hsweep
    have hproc : r.openLedger.processedCount = k := by
      rw [hst.pooled.processed, List.length_take]
      exact min_eq_left hlt.le
    rw [cursor, hph, hproc, ← hlen]
    exact ⟨hrange, hle⟩
  | select _ hph _ hsweep => exact hselecting hph hsweep
  | selectLast _ hph _ hsweep => exact hselecting hph hsweep

theorem Turn.paged (ht : Turn rt r es x r') (hp : Progress rt r) (hb : r.books.Sound)
    {winners : List (Ballot K)} (hw : r.Standing rt winners) :
    Paged r'.key r'.pages (winners.map selected ++ x.toList.map Prod.snd) ∧
      ∀ y ∈ x, y.1 = winners.length := by
  cases ht with
  | aggregate => simpa using hw.pages
  | select => simpa using hw.pages
  | @selectLast ps root root₁ root' winner page data l _ hph _ hsweep _ _ happ =>
    obtain ⟨winners', k, hst, hlt, -, hpages⟩ := hp.of_selecting hph
    obtain ⟨-, -, hst'⟩ := hst.chunk hlt.le hb.enrolled.index rfl hsweep
    obtain rfl : winners = winners' := by
      obtain ⟨rest, hd⟩ := hst.drawn
      obtain ⟨rest', hd'⟩ := hw.drawn
      rw [hst.selectedCount, hd] at hd'
      cases hd'
      rfl
    have hcount : root.selectedCount = (winners.map selected).length := by
      rw [hst'.selectedCount, List.length_map]
    refine ⟨?_, fun y hy ↦ ?_⟩
    · refine hpages.append (by rw [hcount]) ?_ happ
      rw [openPage, hst'.rooted.generation]
    · cases hy
      exact hst'.selectedCount

end FinalizeWinners

end DailyLottery
