import DailyLottery.Round.Passes

set_option linter.unusedSectionVars false

namespace DailyLottery

open Lib Ballot

variable {K : Type} [DecidableEq K] [Inhabited K]

/-- The pages hold the winners in order, a hundred to a page. -/
structure Paged (key : K) (pages : ℕ → Option (WinnerPage K × PageData K))
    (winners : List (SelectedWinner K)) : Prop where
  missing : ∀ i, winners.length ≤ i * winnersPerPage → pages i = none
  present : ∀ i, i * winnersPerPage < winners.length → ∃ page data, pages i = some (page, data)
  page : ∀ i page data, pages i = some (page, data) → page.lottery = key ∧ page.generation = 1 ∧
    page.pageIndex = i ∧ page.count = min winnersPerPage (winners.length - i * winnersPerPage) ∧
    ∀ j < winnersPerPage, page.winner data j = winners[i * winnersPerPage + j]?

def Unpaid (pages : ℕ → Option (WinnerPage K × PageData K)) : Prop :=
  ∀ i page data, pages i = some (page, data) → data.paid = Vector.replicate _ 0

namespace Paged

variable {key : K} {pages : ℕ → Option (WinnerPage K × PageData K)}
  {winners : List (SelectedWinner K)}

theorem empty (h : ∀ i, pages i = none) : Paged key pages [] := by
  refine ⟨fun i _ ↦ h i, fun i hi ↦ ?_, fun i page data hp ↦ ?_⟩
  · simp at hi
  · rw [h i] at hp
    cases hp

theorem exists_iff (h : Paged key pages winners) (i : ℕ) :
    (∃ page data, pages i = some (page, data)) ↔ i * winnersPerPage < winners.length := by
  refine ⟨fun ⟨page, data, hp⟩ ↦ ?_, h.present i⟩
  by_contra hle
  rw [h.missing i (by omega)] at hp
  cases hp

theorem openPage (h : Paged key pages winners) {i : ℕ} (hi : i = winners.length / winnersPerPage)
    {page : WinnerPage K} {data : PageData K}
    (hp : (page, data) = (pages i).getD (WinnerPage.new key 1 i, .zeroed)) :
    page.lottery = key ∧ page.generation = 1 ∧ page.pageIndex = i ∧
      page.count = winners.length - i * winnersPerPage ∧
      ∀ j < winnersPerPage, page.winner data j = winners[i * winnersPerPage + j]? := by
  have hpos : 0 < winnersPerPage := by decide
  have hmod := Nat.div_add_mod winners.length winnersPerPage
  have hlt := Nat.mod_lt winners.length hpos
  rw [← hi, Nat.mul_comm] at hmod
  cases hpi : pages i with
  | none =>
    rw [hpi] at hp
    obtain ⟨rfl, rfl⟩ := Prod.mk.inj hp
    have hle : winners.length ≤ i * winnersPerPage := by
      by_contra hle
      obtain ⟨page, data, hs⟩ := h.present i (by omega)
      rw [hpi] at hs
      cases hs
    refine ⟨rfl, rfl, rfl, by rw [Nat.sub_eq_zero_of_le hle]; rfl, fun j _ ↦ ?_⟩
    rw [List.getElem?_eq_none (by omega)]
    rfl
  | some x =>
    rw [hpi] at hp
    subst hp
    obtain ⟨hl, hg, hi', hc, hw⟩ := h.page i page data hpi
    exact ⟨hl, hg, hi', by rw [hc]; omega, hw⟩

theorem winner_append {page page' : WinnerPage K} {data data' : PageData K} {w : SelectedWinner K}
    (h : page.append data w = .ok (page', data')) (j : ℕ) :
    page'.winner data' j = if j = page.count then some w else page.winner data j := by
  obtain ⟨hlt, rfl, rfl⟩ := FinalizeWinners.append_ok h
  unfold WinnerPage.winner
  dsimp only
  rcases Nat.lt_trichotomy j page.count with hj | rfl | hj
  · rw [if_neg (by omega), if_neg (by omega), if_neg (by omega)]
    simp [hj.ne']
  · rw [if_neg (by omega), if_pos rfl]
    simp [hlt]
  · rw [if_pos (by omega), if_neg (by omega), if_pos (by omega)]

theorem append (h : Paged key pages winners) {i : ℕ} (hi : i = winners.length / winnersPerPage)
    {page page' : WinnerPage K} {data data' : PageData K} {w : SelectedWinner K}
    (hp : (page, data) = (pages i).getD (WinnerPage.new key 1 i, .zeroed))
    (ha : page.append data w = .ok (page', data')) :
    Paged key (Function.update pages i (some (page', data'))) (winners ++ [w]) := by
  have hpos : 0 < winnersPerPage := by decide
  have hmod := Nat.div_add_mod winners.length winnersPerPage
  have hlt := Nat.mod_lt winners.length hpos
  rw [← hi, Nat.mul_comm] at hmod
  obtain ⟨hl, hg, hix, hc, hw⟩ := h.openPage hi hp
  have hwin := winner_append ha
  obtain ⟨hcl, rfl, rfl⟩ := FinalizeWinners.append_ok ha
  have hother {j : ℕ} (hj : j ≠ i) :
      (j * winnersPerPage < (winners ++ [w]).length ↔ j * winnersPerPage < winners.length) := by
    have : j * winnersPerPage ≠ winners.length := by
      intro he
      rw [← he, Nat.mul_div_cancel _ hpos] at hi
      exact hj hi.symm
    rw [List.length_append, List.length_singleton]
    omega
  refine ⟨fun j hj ↦ ?_, fun j hj ↦ ?_, fun j page₁ data₁ hp₁ ↦ ?_⟩
  · have hne : j ≠ i := by
      rintro rfl
      rw [List.length_append, List.length_singleton] at hj
      omega
    rw [Function.update_of_ne hne]
    refine h.missing j ?_
    have := hother hne
    omega
  · by_cases hne : j = i
    · subst hne
      exact ⟨_, _, Function.update_self ..⟩
    · rw [Function.update_of_ne hne]
      exact h.present j ((hother hne).mp hj)
  · by_cases hne : j = i
    · subst hne
      rw [Function.update_self] at hp₁
      cases hp₁
      refine ⟨hl, hg, hix, ?_, fun m hm ↦ ?_⟩
      · dsimp only
        rw [hc, List.length_append, List.length_singleton]
        omega
      · rw [hwin]
        split
        · next hmc =>
          subst hmc
          rw [hc, Nat.add_sub_cancel' (by omega), List.getElem?_concat_length]
        · next hmc =>
          rw [hw m hm]
          by_cases hlen : j * winnersPerPage + m < winners.length
          · rw [List.getElem?_append_left hlen]
          · rw [List.getElem?_eq_none (by omega), List.getElem?_eq_none]
            rw [List.length_append, List.length_singleton]
            omega
    · rw [Function.update_of_ne hne] at hp₁
      obtain ⟨hl', hg', hix', hc', hw'⟩ := h.page j page₁ data₁ hp₁
      have hjlt := (h.exists_iff j).mp ⟨page₁, data₁, hp₁⟩
      have hji : j + 1 ≤ i := by
        have hle : j ≤ i := by
          rw [hi, Nat.le_div_iff_mul_le hpos]
          omega
        omega
      have hfull := Nat.mul_le_mul_right winnersPerPage hji
      rw [Nat.add_mul, Nat.one_mul] at hfull
      refine ⟨hl', hg', hix', ?_, fun m hm ↦ ?_⟩
      · rw [hc', List.length_append, List.length_singleton]
        omega
      · rw [hw' m hm, List.getElem?_append_left (by omega)]

theorem rewrite (h : Paged key pages winners) {i : ℕ} {page : WinnerPage K}
    {data data' : PageData K}
    (hp : pages i = some (page, data)) (hw : ∀ j, page.winner data' j = page.winner data j) :
    Paged key (Function.update pages i (some (page, data'))) winners := by
  have hpage := h.page i page data hp
  refine ⟨fun j hj ↦ ?_, fun j hj ↦ ?_, fun j page₁ data₁ hp₁ ↦ ?_⟩
  · have hne : j ≠ i := by
      rintro rfl
      rw [h.missing j hj] at hp
      cases hp
    rw [Function.update_of_ne hne]
    exact h.missing j hj
  · by_cases hne : j = i
    · subst hne
      exact ⟨_, _, Function.update_self ..⟩
    · rw [Function.update_of_ne hne]
      exact h.present j hj
  · by_cases hne : j = i
    · subst hne
      rw [Function.update_self] at hp₁
      cases hp₁
      obtain ⟨hl, hg, hi, hc, hwin⟩ := hpage
      exact ⟨hl, hg, hi, hc, fun m hm ↦ by rw [hw, hwin m hm]⟩
    · rw [Function.update_of_ne hne] at hp₁
      exact h.page j page₁ data₁ hp₁

end Paged

/-- The result stored in the lottery when its finalization completes. -/
structure Lottery.Decided (l : Lottery K) (c : Contest K) (root : FinalizationLedger K) : Prop where
  winnersCount : l.winnersCount = c.target
  totalPayout : l.totalPayout = c.perWinner * c.target
  winnersMerkleRoot : l.winnersMerkleRoot = root.winnersCommitment
  target_pos : 0 < c.target
  target_le : c.target ≤ c.totalFunds - c.serviceFee

theorem Lottery.decided_of_ok {l l' : Lottery K} {c : Contest K} {root root' : FinalizationLedger K}
    {now : ℤ} (hfunds : l.totalFunds = c.totalFunds)
    (hbps : l.serviceChargeBps = c.serviceChargeBps)
    (hsel : root.selectedCount = c.target)
    (h : FinalizeWinners.completeFinalization l root now = .ok (l', root')) :
      l'.Decided c root' := by
  obtain ⟨fee, bitmap, hfee, hne, hle, -, -, rfl, rfl⟩ := FinalizeWinners.completeFinalization_ok h
  simp only [computeServiceFee, bind_eq_ok, rejectIf_eq_ok, exists_const, pure_eq_ok] at hfee
  obtain ⟨-, hfee⟩ := hfee
  rw [hfunds, hbps] at hfee
  rw [hsel, hfunds] at hle
  rw [hsel] at hne
  subst hfee
  refine ⟨hsel, ?_, rfl, Nat.pos_of_ne_zero hne, hle⟩
  dsimp only
  rw [hsel, hfunds]
  rfl

namespace Round

def contest (r : Round K) : Contest K where
  lotteryId := r.lottery.id
  aggregate := r.lottery.pocAggregateHash
  totalFunds := r.lottery.totalFunds
  serviceChargeBps := r.lottery.serviceChargeBps
  maxWinners := r.books.maxWinners
  votedWinners := r.books.elected
  ballots := r.books.ballots

variable {rt : Runtime K} {r r' : Round K}

theorem contest_eq_of_frozen (h : r.books.Frozen r'.books) : r'.contest = r.contest := by
  have hmw : r'.books.maxWinners = r.books.maxWinners := by
    unfold Books.maxWinners Config.effectiveMaxWinners
    rw [h.participantsCount, h.maxWinnersCap]
  have hid := h.id
  have hpoc := h.pocAggregateHash
  have hfunds := h.totalFunds
  have hbps := h.serviceChargeBps
  simp only [books] at hid hpoc hfunds hbps
  unfold contest
  rw [hid, hpoc, hfunds, hbps, hmw, h.elected, h.ballots]

variable (rt) in
/-- How far the finalization of a lottery got. -/
inductive Progress (r : Round K) : Prop
  | waiting (ledger : r.ledger = none) (undecided : r.lottery.winnersCount = 0)
      (pages : ∀ i, r.pages i = none) (marks : Marked r.participants 0 [])
      (elected : 1 < r.lottery.participantsCount → includedOf r.books.ballots ≠ 0 →
        r.lottery.selectedNumberOfWinners = r.books.elected)
  | aggregating {root : FinalizationLedger K} {k : ℕ} (ledger : r.ledger = some root)
      (undecided : r.lottery.winnersCount = 0) (pages : ∀ i, r.pages i = none)
      (lt : k < r.books.ballots.length)
      (state : r.contest.Aggregating rt root r.participants k)
      (elected : r.lottery.selectedNumberOfWinners = r.books.elected)
  | selecting {root : FinalizationLedger K} {winners : List (Ballot K)} {k : ℕ}
      (ledger : r.ledger = some root) (undecided : r.lottery.winnersCount = 0)
      (pages : Paged r.key r.pages (winners.map selected)) (unpaid : Unpaid r.pages)
      (lt : k < r.books.ballots.length) (lt_target : winners.length < r.contest.target)
      (state : r.contest.Selecting rt root r.participants winners k)
  | completed {root : FinalizationLedger K} {winners : List (Ballot K)}
      (ledger : r.ledger = some root) (decided : r.lottery.Decided r.contest root)
      (pages : Paged r.key r.pages (winners.map selected))
      (state : r.contest.Completed rt root winners)

theorem unpaid_append {root : FinalizationLedger K} {page : WinnerPage K} {data : PageData K}
    {winner : SelectedWinner K} (h : Unpaid r.pages)
    (ha : (r.openPage root).1.append (r.openPage root).2 winner = .ok (page, data)) :
    Unpaid (Function.update r.pages (root.selectedCount / winnersPerPage) (some (page, data))) := by
  intro j page₁ data₁ hp₁
  rw [Function.update_apply] at hp₁
  split at hp₁
  · cases hp₁
    obtain ⟨-, -, rfl⟩ := FinalizeWinners.append_ok ha
    cases hp : r.pages (root.selectedCount / winnersPerPage) with
    | none => simp [openPage, hp, PageData.zeroed]
    | some x => simpa [openPage, hp] using h _ x.1 x.2 hp
  · exact h j page₁ data₁ hp₁

namespace Progress

theorem of_completed (h : Progress rt r) {root : FinalizationLedger K} (hl : r.ledger = some root)
    (hph : root.phase = .completed) : ∃ winners, r.lottery.Decided r.contest root ∧
      Paged r.key r.pages (winners.map selected) ∧ r.contest.Completed rt root winners := by
  cases h with
  | waiting hnone => simp [hnone] at hl
  | aggregating hl' _ _ _ hstate =>
    cases hl'.symm.trans hl
    simp [hstate.phase] at hph
  | selecting hl' _ _ _ _ _ hstate =>
    cases hl'.symm.trans hl
    simp [hstate.phase] at hph
  | completed hl' hdec hpages hstate =>
    cases hl'.symm.trans hl
    exact ⟨_, hdec, hpages, hstate⟩

theorem of_decided (h : Progress rt r) (hw : r.lottery.winnersCount ≠ 0) :
    ∃ root, r.ledger = some root ∧ root.phase = .completed := by
  cases h with
  | waiting _ hz => exact absurd hz hw
  | aggregating _ hz => exact absurd hz hw
  | selecting _ hz => exact absurd hz hw
  | completed hl _ _ hstate => exact ⟨_, hl, hstate.phase⟩

theorem same (h : Progress rt r) (hc : r.ledger ≠ none → r'.contest = r.contest)
    (hledger : r'.ledger = r.ledger) (hkey : r'.key = r.key) (hpages : r'.pages = r.pages)
    (hps : r'.participants = r.participants)
    (hwc : r'.lottery.winnersCount = r.lottery.winnersCount)
    (htp : r'.lottery.totalPayout = r.lottery.totalPayout)
    (hwr : r'.lottery.winnersMerkleRoot = r.lottery.winnersMerkleRoot)
    (hel : (1 < r.lottery.participantsCount → includedOf r.books.ballots ≠ 0 →
        r.lottery.selectedNumberOfWinners = r.books.elected) →
      1 < r'.lottery.participantsCount → includedOf r'.books.ballots ≠ 0 →
        r'.lottery.selectedNumberOfWinners = r'.books.elected)
    (hel' : r.ledger ≠ none → r.lottery.selectedNumberOfWinners = r.books.elected →
      r'.lottery.selectedNumberOfWinners = r'.books.elected) : Progress rt r' := by
  have hbs : r'.books.ballots = r.books.ballots := congrArg (List.map Participant.ballot) hps
  cases h with
  | waiting hl hw hp hm he =>
    exact .waiting (hledger.trans hl) (hwc.trans hw) (by rw [hpages]; exact hp)
      (by rw [hps]; exact hm) (hel he)
  | aggregating hl hw hp hlt hs he =>
    have hne : r.ledger ≠ none := by simp [hl]
    exact .aggregating (hledger.trans hl) (hwc.trans hw) (by rw [hpages]; exact hp)
      (by rw [hbs]; exact hlt) (by rw [hc hne, hps]; exact hs) (hel' hne he)
  | selecting hl hw hp hu hlt hlt' hs =>
    have hne : r.ledger ≠ none := by simp [hl]
    exact .selecting (hledger.trans hl) (hwc.trans hw) (by rw [hpages, hkey]; exact hp)
      (by rw [hpages]; exact hu) (by rw [hbs]; exact hlt) (by rw [hc hne]; exact hlt')
      (by rw [hc hne, hps]; exact hs)
  | completed hl hd hp hs =>
    have hne : r.ledger ≠ none := by simp [hl]
    refine .completed (hledger.trans hl) ?_ (by rw [hpages, hkey]; exact hp)
      (by rw [hc hne]; exact hs)
    rw [hc hne]
    exact ⟨hwc.trans hd.winnersCount, htp.trans hd.totalPayout, hwr.trans hd.winnersMerkleRoot,
      hd.target_pos, hd.target_le⟩

/-- The marks of a lottery whose finalization has not begun. -/
def markColumns (p : Participant K) : ℕ × ℕ := (p.finalizationGeneration, p.selectedGeneration)

theorem marked_zero_map {ps ps' : List (Participant K)} (h : Marked ps 0 [])
    (hm : ps'.map markColumns = ps.map markColumns) : Marked ps' 0 [] := by
  intro i p hp
  have hget := congrArg (·[i]?) hm
  simp only [List.getElem?_map, hp, Option.map_some] at hget
  obtain ⟨q, hq, hqp⟩ := Option.map_eq_some_iff.mp hget.symm
  obtain ⟨hf, hs⟩ := Prod.mk.inj hqp
  obtain ⟨hf', hs'⟩ := h i q hq
  exact ⟨hf.symm.trans hf', hs.symm.trans (by simpa using hs')⟩

theorem aggregate {k : ℕ} {chunk : List (ℕ × Unit)} {ps : List (Participant K)}
    {root root' : FinalizationLedger K} {l : Lottery K} (hb : r.books.Sound)
    (hst : r.contest.Aggregating rt r.openLedger r.participants k) (hk : k < r.books.ballots.length)
    (hpages : ∀ i, r.pages i = none) (hwc : r.lottery.winnersCount = 0)
    (hel : r.lottery.selectedNumberOfWinners = r.books.elected)
    (hs : Sweep (PassVisit (FinalizeWinners.aggregateParticipant rt)) r.participants r.openLedger
      chunk ps root)
    (hend : (if root.processedCount = root.requiredCount then
        FinalizeWinners.finishAggregation rt r.config r.lottery root
      else pure (r.lottery, root)) = .ok (l, root'))
    (hr : r' = { r with lottery := l, participants := ps, ledger := some root' })
    (hc : r'.contest = r.contest) : Progress rt r' := by
  have hix : Indexed r.contest.ballots := hb.enrolled.index
  obtain ⟨-, hle', hst'⟩ := hst.chunk hk.le hix rfl hs
  have hbs : ps.map Participant.ballot = r.books.ballots :=
    books_pass (fun _ _ _ _ _ h ↦ ballot_of_unmarked (unmarked_aggregateParticipant h)) hs
  have hproc := hst'.pooled.processed
  rw [List.length_take, min_eq_left hle'] at hproc
  have hreq : root.requiredCount = r.books.ballots.length := hst'.rooted.required
  rw [hproc, hreq] at hend
  split at hend
  · next hfull =>
    rw [hfull] at hst'
    obtain ⟨hsel, hpos, rfl⟩ := hst'.finish rfl rfl hel rfl hend
    subst hr
    refine .selecting rfl hwc ?_ ?_ ?_ (hc ▸ hpos) (hc.symm ▸ hsel)
    · exact .empty hpages
    · intro i page data hp
      rw [hpages i] at hp
      cases hp
    · have : 0 < r.books.ballots.length := by omega
      rwa [← hbs] at this
  · next hpart =>
    cases hend
    subst hr
    refine .aggregating rfl hwc hpages ?_ (hc.symm ▸ hst') hel
    have : k + chunk.length < r.books.ballots.length := by
      have : r.contest.ballots.length = r.books.ballots.length := rfl
      omega
    rwa [← hbs] at this

theorem selectLast {k : ℕ} {chunk : List (ℕ × Unit)} {ps : List (Participant K)}
    {root root₀ root₁ root' : FinalizationLedger K} {winner : SelectedWinner K}
    {page : WinnerPage K}
    {data : PageData K} {l : Lottery K} {winners : List (Ballot K)} (hb : r.books.Sound)
    (hst : r.contest.Selecting rt root₀ r.participants winners k)
    (hk : k < r.books.ballots.length) (hpages : Paged r.key r.pages (winners.map selected))
    (hunpaid : Unpaid r.pages) (hwc : r.lottery.winnersCount = 0)
    (hs : Sweep (PassVisit FinalizeWinners.selectParticipant) r.participants root₀ chunk ps root)
    (hfull : root.roundProcessedCount = root.requiredCount)
    (hwin : FinalizeWinners.roundWinner root = .ok winner)
    (happ : (r.openPage root).1.append (r.openPage root).2 winner = .ok (page, data))
    (hrec : root.recordWinner rt winner = .ok root₁)
    (hnext : FinalizeWinners.nextRound rt r.lottery root₁ r.now = .ok (l, root'))
    (hr : r' = { r with
      lottery := l, participants := ps, ledger := some root'
      pages := Function.update r.pages (root.selectedCount / winnersPerPage) (some (page, data)) })
    (hc : r'.contest = r.contest) : Progress rt r' := by
  have hix : Indexed r.contest.ballots := hb.enrolled.index
  obtain ⟨-, hle', hst'⟩ := hst.chunk hk.le hix rfl hs
  have hbs : ps.map Participant.ballot = r.books.ballots :=
    books_pass (fun _ _ _ _ _ h ↦ ballot_of_unmarked (unmarked_selectParticipant h)) hs
  rw [hst'.processed, hst'.rooted.required] at hfull
  rw [hfull] at hst'
  have hlen : (winners.map selected).length = winners.length := List.length_map _
  have hcount : root.selectedCount = winners.length := hst'.selectedCount
  have hpage : ((r.openPage root).1, (r.openPage root).2) =
      (r.pages (root.selectedCount / winnersPerPage)).getD
        (WinnerPage.new r.key 1 (root.selectedCount / winnersPerPage), .zeroed) := by
    rw [openPage, hst'.rooted.generation]
  have happ' := hpages.append (by rw [hlen, hcount]) hpage happ
  have hunpaid' := unpaid_append hunpaid happ
  have hpos : 0 < (ps.map Participant.ballot).length := by
    rw [hbs]
    omega
  obtain ⟨x, rfl, ⟨hlt, rfl, hsel⟩ | ⟨heq, hdone, hcomp⟩⟩ :=
    hst'.next hix.nodup hwin hrec hnext
  · subst hr
    refine .selecting rfl hwc ?_ hunpaid' hpos ?_ (hc.symm ▸ hsel)
    · simpa using happ'
    · rw [hc, List.length_append, List.length_singleton]
      exact hlt
  · have hdec := Lottery.decided_of_ok (c := r.contest) rfl rfl (by
      rw [(FinalizeWinners.recordWinner_ok hrec).2]
      exact (congrArg (· + 1) hcount).trans heq) hcomp
    subst hr
    refine .completed rfl (hc.symm ▸ hdec) ?_ (hc.symm ▸ hdone)
    simpa using happ'

theorem step_waiting (hl : r.ledger = none) (hw : r.lottery.winnersCount = 0)
    (hp : ∀ i, r.pages i = none) (hm : Marked r.participants 0 [])
    (he : 1 < r.lottery.participantsCount → includedOf r.books.ballots ≠ 0 →
      r.lottery.selectedNumberOfWinners = r.books.elected)
    (hb : r.books.Sound) (hs : r.Step rt r') : Progress rt r' := by
  have h : Progress rt r := .waiting hl hw hp hm he
  have hfinal (hf : r.Finalizable) := contest_eq_of_frozen (hf.sealed.step hb hs.books).2
  have hsame {r' : Round K} := @same K _ _ rt r r' h fun hne ↦ absurd hl hne
  have hnot {r' : Round K} (hne : r.ledger ≠ none) :
      r.lottery.selectedNumberOfWinners = r.books.elected →
        r'.lottery.selectedNumberOfWinners = r'.books.elected := absurd hl hne
  cases hs with
  | refl => exact h
  | tick => exact hsame rfl rfl rfl rfl rfl rfl rfl id hnot
  | reconfigure => exact hsame rfl rfl rfl rfl rfl rfl rfl id hnot
  | deposit => exact hsame rfl rfl rfl rfl rfl rfl rfl id hnot
  | @buyFirst wallet hash count hbuy _ _ _ =>
    obtain ⟨-, -, htally⟩ := hb.timely.unstarted hbuy
    have hz := hb.balanced.untallied htally
    refine .waiting hl hw hp ?_ fun _ hne ↦ absurd ?_ hne
    · intro i p hi
      rw [List.getElem?_append] at hi
      split at hi
      · exact hm i p hi
      · obtain ⟨hlt, rfl⟩ := List.getElem?_eq_some_iff.mp hi
        simp [Participant.new]
    · simpa [books, includedOf, Participant.ballot_new] using hz
  | @buyMore i p count hbuy hi _ =>
    obtain ⟨hatt, -, htally⟩ := hb.timely.unstarted hbuy
    have hz := hb.balanced.untallied htally
    have hno := hb.balanced.unattested hatt p.ballot (List.mem_of_getElem? (ballots_get hi))
    refine .waiting hl hw hp (marked_zero_map hm (map_set_same hi (by rfl)))
      fun _ hne ↦ absurd ?_ hne
    have := includedOf_set_of_not (c := { p.ballot with tickets := p.ticketsBought + count })
      (ballots_get hi) hno.2 hno.2
    simp only [books, List.map_set]
    exact this.trans hz
  | @beginReveal att upl l _ _ _ _ _ _ _ _ _ hopen =>
    obtain rfl := BeginRevealPhase.openWindow_ok hopen
    rw [BeginRevealPhase.autoComplete_eq]
    refine hsame rfl rfl rfl rfl rfl rfl rfl (fun hel hpc hinc ↦ ?_) hnot
    have hne : r.lottery.participantsCount ≠ 1 := by
      dsimp only at hpc
      omega
    refine (if_neg hne).trans (hel hpc hinc)
  | @attestUploaded i p vote hi hcan =>
    have hinc : p.ballot.included = false := by
      by_contra hinc
      have hv := hb.balanced.valid p.ballot (List.mem_of_getElem? (ballots_get hi))
      have := hv.attested (by simpa using hinc)
      exact absurd (hcan.fresh.symm.trans this) (by decide)
    have hset := includedOf_set_of_not (c := { p.ballot with
      attested := true, attestedAt := r.now, vote := vote, included := false }) (ballots_get hi)
      hinc rfl
    rw [Lottery.countAttestation_eq]
    refine .waiting hl hw hp (marked_zero_map hm (map_set_same hi (by rfl))) fun hpc hne ↦ ?_
    simp only [books, List.map_set, p.ballot_attest (vote_lt hcan)] at hne
    exact he hpc fun hz ↦ hne (hset.trans hz)
  | @attestReveal i p p' vote plaintext l l' t hi _ _ _ _ _ hp' hrec _ _ hconc =>
    subst hp'
    obtain ⟨-, rfl⟩ := AttestReveal.recordReveal_ok hrec
    obtain rfl := AttestReveal.conclude_ok hconc
    refine .waiting hl hw hp (marked_zero_map hm (map_set_same hi (by rfl))) fun hpc _ ↦ ?_
    exact if_pos hpc
  | uploadReveals hadmit _ hsweep hinc =>
    obtain ⟨-, -, -, -, -, -, -, rfl⟩ := UploadReveals.checkPhase_ok hadmit
    obtain ⟨-, rfl⟩ := UploadReveals.includeUploads_ok hinc
    refine .waiting hl hw hp (marked_zero_map hm ?_) fun _ _ ↦ rfl
    refine hsweep.map_eq fun s e p s' p' hv ↦ ?_
    obtain ⟨digest, hv, -⟩ := hv
    obtain ⟨-, -, -, -, -, rfl⟩ := UploadReveals.includeReveal_ok hv
    rfl
  | beginRemediation _ _ _ _ _ _ hrem =>
    obtain ⟨-, rfl⟩ | ⟨-, rfl⟩ := Lottery.beginRemediation_ok hrem
    all_goals exact hsame rfl rfl rfl rfl rfl rfl rfl id hnot
  | aggregate hfin _ _ hsweep _ hend =>
    have hseal := hfin.sealed
    have hpos : 0 < r.books.ballots.length := by
      rw [hb.enrolled.length]
      exact zero_lt_one.trans hseal.two_le
    refine aggregate (k := 0) hb ?_ hpos hp hw
      (he hseal.two_le (hb.included_eq hseal).2) hsweep hend
      rfl (hfinal hfin)
    rw [openLedger, hl]
    exact ⟨rfl, ⟨rfl, rfl, hb.enrolled.length.symm⟩, ⟨rfl, rfl, rfl, rfl⟩, rfl, rfl, rfl, hm⟩
  | select _ hph =>
    simp [openLedger, hl, FinalizationLedger.new] at hph
  | selectLast _ hph =>
    simp [openLedger, hl, FinalizationLedger.new] at hph
  | payBatch hpays => exact absurd hw hpays.winners_pos
  | payLast hpays => exact absurd hw hpays.winners_pos
  | finalizeNoAttesters => exact hsame rfl rfl rfl rfl rfl rfl rfl id hnot
  | @claimRefund i p _ _ _ hi =>
    refine .waiting hl hw hp (marked_zero_map hm (map_set_same hi (by rfl))) ?_
    have hbs : (r.participants.set i p.markRefundClaimed).map Participant.ballot =
      r.books.ballots :=
      map_set_same hi p.ballot_markRefundClaimed
    intro hpc hne
    refine he hpc ?_
    rw [← hbs]
    exact hne
  | closeRefundVault => exact hsame rfl rfl rfl rfl rfl rfl rfl id hnot

theorem step_started (h : Progress rt r) (hne : r.ledger ≠ none) (hb : r.books.Sound)
    (hr : r.Routed) (hs : r.Step rt r') : Progress rt r' := by
  have hseal := hr.sealed_of_ledger hne
  have hfrozen := (hseal.step hb hs.books).2
  have hc := contest_eq_of_frozen hfrozen
  have hsame {r' : Round K} (hc : r'.contest = r.contest) := @same K _ _ rt r r' h fun _ ↦ hc
  cases hs with
  | refl => exact h
  | tick => exact hsame hc rfl rfl rfl rfl rfl rfl rfl id fun _ ↦ id
  | reconfigure => exact hsame hc rfl rfl rfl rfl rfl rfl rfl id fun _ ↦ id
  | deposit => exact hsame hc rfl rfl rfl rfl rfl rfl rfl id fun _ ↦ id
  | buyFirst hbuy => exact absurd (hseal.not_started hb) hbuy.not_started
  | buyMore hbuy => exact absurd (hseal.not_started hb) hbuy.not_started
  | beginReveal _ hns => exact absurd (hseal.not_started hb) hns
  | attestUploaded _ hcan => exact absurd hcan.phase (hseal.not_upload hb)
  | attestReveal _ hcan => exact absurd hcan.phase (hseal.not_upload hb)
  | @uploadReveals isAuthority entries l l' t ps digests hadmit _ hsweep hinc =>
    obtain ⟨rfl, -, -⟩ := hseal.no_visit hb (hsweep.map fun _ _ _ _ _ ↦ ballot_includeVisit)
    obtain ⟨rfl, -⟩ := Sweep.nil_iff.mp hsweep
    obtain ⟨-, -, -, -, -, -, -, rfl⟩ := UploadReveals.checkPhase_ok hadmit
    obtain ⟨-, rfl⟩ := UploadReveals.includeUploads_ok hinc
    exact hsame hc rfl rfl rfl rfl rfl rfl rfl (fun _ _ _ ↦ rfl) fun _ _ ↦ rfl
  | beginRemediation _ _ _ _ _ _ hrem =>
    obtain ⟨-, rfl⟩ | ⟨-, rfl⟩ := Lottery.beginRemediation_ok hrem
    all_goals exact hsame hc rfl rfl rfl rfl rfl rfl rfl id fun _ ↦ id
  | aggregate _ hph _ hsweep _ hend =>
    cases h with
    | waiting hl => exact absurd hl hne
    | @aggregating root₀ k hl hw hp hlt hst he =>
      have hopen : r.openLedger = root₀ := by rw [openLedger, hl]; rfl
      exact aggregate hb (hopen ▸ hst) hlt hp hw he hsweep hend rfl hc
    | selecting hl _ _ _ _ _ hst => simp [openLedger, hl, hst.phase] at hph
    | completed hl _ _ hst => simp [openLedger, hl, hst.phase] at hph
  | @select chunk ps root _ hph _ hsweep hpart =>
    cases h with
    | waiting hl => exact absurd hl hne
    | aggregating hl _ _ _ hst => simp [openLedger, hl, hst.phase] at hph
    | @selecting root₀ winners k hl hw hp hu hlt hlt' hst =>
      have hopen : r.openLedger = root₀ := by rw [openLedger, hl]; rfl
      rw [hopen] at hsweep
      obtain ⟨-, hle, hst'⟩ := hst.chunk hlt.le hb.enrolled.index rfl hsweep
      have hbs : ps.map Participant.ballot = r.books.ballots :=
        books_pass (fun _ _ _ _ _ h ↦ ballot_of_unmarked (unmarked_selectParticipant h)) hsweep
      rw [hst'.processed, hst'.rooted.required] at hpart
      refine .selecting rfl hw hp hu ?_ (hc.symm ▸ hlt') (hc.symm ▸ hst')
      have : k + chunk.length < r.books.ballots.length := hpart
      rwa [← hbs] at this
    | completed hl _ _ hst => simp [openLedger, hl, hst.phase] at hph
  | selectLast _ hph _ hsweep hfull hwin happ hrec hnext =>
    cases h with
    | waiting hl => exact absurd hl hne
    | aggregating hl _ _ _ hst => simp [openLedger, hl, hst.phase] at hph
    | @selecting root₀ winners k hl hw hp hu hlt hlt' hst =>
      have hopen : r.openLedger = root₀ := by rw [openLedger, hl]; rfl
      rw [hopen] at hsweep
      exact selectLast hb hst hlt hp hu hw hsweep hfull hwin happ hrec hnext rfl hc
    | completed hl _ _ hst => simp [openLedger, hl, hst.phase] at hph
  | payBatch hpays _ =>
    obtain ⟨old, hpage, hrun⟩ := hpays.page_eq
    obtain ⟨bitmap, rfl⟩ := hrun.lottery
    cases h with
    | waiting _ hw => exact absurd hw hpays.winners_pos
    | aggregating _ hw => exact absurd hw hpays.winners_pos
    | selecting _ hw => exact absurd hw hpays.winners_pos
    | completed hl hd hp hst =>
      refine .completed hl ?_ (hp.rewrite hpage hrun.winner) (hc.symm ▸ hst)
      rw [hc]
      exact ⟨hd.winnersCount, hd.totalPayout, hd.winnersMerkleRoot, hd.target_pos, hd.target_le⟩
  | payLast hpays _ _ hcomp =>
    obtain ⟨old, hpage, hrun⟩ := hpays.page_eq
    obtain ⟨bitmap, rfl⟩ := hrun.lottery
    obtain rfl := Lottery.completeSettlement_ok hcomp
    cases h with
    | waiting _ hw => exact absurd hw hpays.winners_pos
    | aggregating _ hw => exact absurd hw hpays.winners_pos
    | selecting _ hw => exact absurd hw hpays.winners_pos
    | completed hl hd hp hst =>
      refine .completed hl ?_ (hp.rewrite hpage hrun.winner) (hc.symm ▸ hst)
      rw [hc]
      exact ⟨hd.winnersCount, hd.totalPayout, hd.winnersMerkleRoot, hd.target_pos, hd.target_le⟩
  | finalizeNoAttesters => exact hsame hc rfl rfl rfl rfl rfl rfl rfl id fun _ ↦ id
  | claimRefund hset hw => exact absurd (hr.ledger_none hset hw) hne
  | closeRefundVault => exact hsame hc rfl rfl rfl rfl rfl rfl rfl id fun _ ↦ id

theorem step (h : Progress rt r) (hb : r.books.Sound) (hr : r.Routed) (hs : r.Step rt r') :
    Progress rt r' := by
  by_cases hne : r.ledger = none
  · cases h with
    | waiting hl hw hp hm he => exact step_waiting hl hw hp hm he hb hs
    | aggregating hl => simp [hl] at hne
    | selecting hl => simp [hl] at hne
    | completed hl => simp [hl] at hne
  · exact h.step_started hne hb hr hs

theorem init (h : r.Created rt) : Progress rt r := by
  obtain ⟨id, config, authority, vault, bump, bps, price, hnew, -, -⟩ := h.lottery
  obtain ⟨-, -, -, -, -, -, -, -, -, -, -, -, -, -, -, -, hpc, hwc, -⟩ := Lottery.new_ok hnew
  refine .waiting h.ledger hwc (fun i ↦ by rw [h.pages]) ?_ fun hlt ↦ ?_
  · intro i p hi
    simp [h.participants] at hi
  · omega

end Progress

end Round

end DailyLottery
