import DailyLottery.Runs.Turns
import DailyLottery.Runs.Payouts

set_option linter.unusedSectionVars false

namespace DailyLottery

open Lib Ballot

variable {K : Type} [DecidableEq K] [Inhabited K] {rt : Runtime K} {acts : List (Action K)}
  {w w' : World K} {ws : List (World K)} {id : ℕ} {l : Lottery K} {r : Round K}
  {winners xs : List (SelectedWinner K)}

/-- The announcements of a list of winners, the first of them the `n`th of its lottery. -/
def listed (n : ℕ) (winners : List (SelectedWinner K)) : List (Selection K) :=
  (winners.zipIdx n).map fun x ↦ x.1.announced x.2

theorem listed_append (n : ℕ) (winners xs : List (SelectedWinner K)) :
    listed n (winners ++ xs) = listed n winners ++ listed (n + winners.length) xs := by
  simp [listed, List.zipIdx_append]

def Stores (rt : Runtime K) (id : ℕ) (w : World K) (winners : List (SelectedWinner K)) : Prop :=
  ∀ i, winnerAt rt id w i = winners[i]?

theorem Stores.eq {winners' : List (SelectedWinner K)} (h : Stores rt id w winners)
    (h' : Stores rt id w winners') : winners' = winners :=
  List.ext_getElem? fun i ↦ (h' i).symm.trans (h i)

theorem Stores.of_pages (h : Stores rt id w winners)
    (hp : ∀ i, (w'.view rt id (.winnerPage i)).data = (w.view rt id (.winnerPage i)).data) :
    Stores rt id w' winners := by
  intro i
  rw [← h i, winnerAt, winnerAt, hp]

theorem Stores.of_absent (h : ∀ i, (w.view rt id (.winnerPage i)).data = .empty) :
    Stores rt id w [] := by
  intro i
  rw [winnerAt, h]
  rfl

/-- What a step adds to the winners of a lottery is what it announces. -/
def Adds (rt : Runtime K) (id : ℕ) (w w' : World K) : Prop :=
  ∃ winners xs, Stores rt id w winners ∧ Stores rt id w' (winners ++ xs) ∧
    Announces (rt.lotteryKey id) w w' (listed winners.length xs)

theorem Adds.of_same (hq : Announces (rt.lotteryKey id) w w' []) (h : Stores rt id w winners)
    (h' : Stores rt id w' winners) : Adds rt id w w' :=
  ⟨winners, [], h, by rwa [List.append_nil], hq⟩

theorem Step.sameLedger {a : Action K} {r' : Round K} (hc : Consistent rt acts w ws)
    (hs : Step rt w a w') (ha : ∀ pre accounts, a ≠ .instruction pre .finalizeWinners accounts)
    (hr : Represents rt acts w ws id r) (hr' : Represents rt (a :: acts) w' (w :: ws) id r')
    (ho : r.Onward r') : r'.ledger = r.ledger := by
  have hsame (hd : (w'.view rt id .finalizationRoot).data = (w.view rt id .finalizationRoot).data) :
      r'.ledger = r.ledger := by
    rw [hr.ledger, hr'.ledger] at hd
    cases hl : r.ledger <;> cases hl' : r'.ledger <;> simp_all
  by_cases hinst : ∃ pre ix accounts, a = .instruction pre ix accounts
  · obtain ⟨pre, ix, accounts, rfl⟩ := hinst
    refine hsame ((hs.changes hc id).ledger ?_)
    rintro rfl
    exact ha _ _ rfl
  · rcases hs.environment (fun pre ix accounts he ↦ hinst ⟨pre, ix, accounts, he⟩) id
      .finalizationRoot with hd | hd
    · exact hsame hd
    · have hnone : r'.ledger = none := by
        cases hl' : r'.ledger with
        | none => rfl
        | some root => simp [hr'.ledger, hl'] at hd
      rw [hnone]
      by_contra hne
      exact ho.ledger (Ne.symm hne) hnone

theorem Step.adds_of_quiet {a : Action K} (h : (system rt).History acts (w :: ws))
    (hs : Step rt w a w') (ha : ∀ pre accounts, a ≠ .instruction pre .finalizeWinners accounts) :
    Adds rt id w w' := by
  have hc := consistent h
  have hquiet := hs.quiet ha (rt.lotteryKey id)
  by_cases he : (w.view rt id .lottery).data = .empty
  · have habsent := Stores.of_absent fun i ↦ (hc.absent id he).data (.winnerPage i)
    refine .of_same hquiet habsent (.of_absent fun i ↦ ?_)
    rcases hc.follow_absent hs (hc.absent id he) with ha' | ⟨r, hcreated, hr⟩
    · exact ha'.data _
    · rw [hr.pages, hcreated.pages]
      rfl
  · obtain ⟨r, hreach, hr⟩ := hc.round id he
    have hi := Round.invariant hreach
    obtain ⟨r', hst, hr'⟩ := hc.follow hs hr hi
    have hi' := Round.invariant (hreach.step (a := ()) hst)
    obtain ⟨winners, hw⟩ := hi.progress.standing
    obtain ⟨winners', hw'⟩ := hi'.progress.standing
    obtain rfl := hw.eq hw' (hs.sameLedger hc ha hr hr' (.of_step hi.books hst)) fun hne ↦
      Round.contest_eq_of_frozen ((hi.routed.sealed_of_ledger hne).step hi.books hst.books).2
    exact .of_same hquiet (hr.winnerAt_eq hw.pages) (hr'.winnerAt_eq hw'.pages)

theorem Step.adds_of_finalize {pre : List (K × Bytes)} {accounts : List (AccountInfo K)}
    (h : (system rt).History acts (w :: ws))
    (hs : Step rt w (.instruction pre .finalizeWinners accounts) w') : Adds rt id w w' := by
  have hc := consistent h
  cases hs with
  | instruction hsig hok =>
    obtain ⟨c, l, hcd, hl, hon, heff⟩ := FinalizeWinners.effect hc.typed hsig hok
    obtain ⟨r, hreach, hi, hr, rfl, hid⟩ := represented h hl
    obtain rfl := hr.eq_config hcd
    have hstored (id : ℕ) : ∃ winners, Stores rt id w winners := by
      by_cases he : (w.view rt id .lottery).data = .empty
      · exact ⟨_, .of_absent fun i ↦ (hc.absent id he).data (.winnerPage i)⟩
      · obtain ⟨r, hreach, hr⟩ := hc.round id he
        obtain ⟨winners, hw⟩ := (Round.invariant hreach).progress.standing
        exact ⟨_, hr.winnerAt_eq hw.pages⟩
    obtain ⟨winners, hst⟩ := hstored id
    cases heff with
    | done he =>
      subst he
      exact .of_same (.of_log_eq rfl) hst hst
    | missing _ _ _ _ _ _ _ ht hq hv =>
      refine .of_same (hq _) hst (hst.of_pages fun i ↦ ?_)
      by_cases hid : id = r.lottery.id
      · subst hid
        rw [hv]
        simp
      · rw [ht.view_of_ne hid]
    | @chunk root lotteryAi _ _ _ _ _ _ _ hset hsc hpc hatt hmiss hel hchunk =>
      obtain ⟨ht, -, es, x, r', hturn, -, hann, -, -, -, hr'⟩ :=
        hchunk.simulated hc.typed hr hset hsc hpc hatt hmiss hel pre .finalizeWinners accounts
      have hann := hann (rt.lotteryKey id)
      simp only [hchunk.lotteryKey, rt.lotteryKey_inj] at hann
      by_cases hid : id = r.lottery.id
      · subst hid
        rw [if_pos rfl] at hann
        obtain ⟨winners, hw⟩ := hi.progress.standing
        obtain ⟨hpages, hn⟩ := hturn.paged hi.progress hi.books hw
        refine ⟨_, _, hr.winnerAt_eq hw.pages, hr'.winnerAt_eq hpages, ?_⟩
        rw [List.length_map]
        cases x with
        | none => exact hann
        | some y =>
          obtain ⟨n, winner⟩ := y
          obtain rfl : n = winners.length := hn _ rfl
          exact hann
      · rw [if_neg (Ne.symm hid)] at hann
        exact .of_same hann hst (hst.of_pages fun i ↦ by rw [ht.view_of_ne hid])

theorem Step.adds {a : Action K} (h : (system rt).History acts (w :: ws)) (hs : Step rt w a w') :
    Adds rt id w w' := by
  by_cases ha : ∃ pre accounts, a = .instruction pre .finalizeWinners accounts
  · obtain ⟨pre, accounts, rfl⟩ := ha
    exact hs.adds_of_finalize h
  · exact hs.adds_of_quiet h fun pre accounts he ↦ ha ⟨pre, accounts, he⟩

/-- The winners on the pages are those announced since the run began, in order. -/
theorem announced (h : (system rt).History acts (w :: ws)) :
    ∃ w₀ winners, [w₀] <:+ (w :: ws) ∧ Stores rt id w winners ∧
      Announces (rt.lotteryKey id) w₀ w (listed 0 winners) := by
  have hall := h.invariant (P := fun _ ws ↦ ∀ w ∈ ws.head?, ∃ w₀ winners, [w₀] <:+ ws ∧
    Stores rt id w winners ∧ Announces (rt.lotteryKey id) w₀ w (listed 0 winners)) ?_ ?_
  · exact hall w rfl
  · rintro s hs w hw
    cases hw
    refine ⟨s, [], List.suffix_rfl, .of_absent fun i ↦ ?_, .of_log_eq rfl⟩
    rw [World.view, Runtime.slotKey, hs.unused]
    rfl
  · rintro as ss s a t hh hP hs w hw
    cases hw
    obtain ⟨w₀, winners, hsuf, hst, hann⟩ := hP s rfl
    have hadds : Adds rt id s t := hs.adds hh
    obtain ⟨winners', xs, hst', hnext, hann'⟩ := hadds
    obtain rfl := hst.eq hst'
    refine ⟨w₀, _, hsuf.trans (List.suffix_cons _ _), hnext, ?_⟩
    rw [listed_append, Nat.zero_add]
    exact hann.trans hann'

/-- The entry a log of selections leaves at an offset of a page. -/
def replay (selections : List (Selection K)) (pageIndex pageOffset : ℕ) :
    Option (SelectedWinner K) :=
  selections.foldl (fun entry s ↦
    if s.pageIndex = pageIndex ∧ s.pageOffset = pageOffset then some ⟨s.wallet,
      s.tickets⟩ else entry)
    none

theorem replay_listed (winners : List (SelectedWinner K)) (i : ℕ) {j : ℕ}
    (hj : j < winnersPerPage) :
    replay (listed 0 winners) i j = winners[i * winnersPerPage + j]? := by
  induction winners using List.reverseRecOn with
  | nil => rfl
  | append_singleton winners x ih =>
    have hmod := Nat.div_add_mod winners.length winnersPerPage
    have hlt := Nat.mod_lt winners.length (show winnersPerPage > 0 by decide)
    rw [Nat.mul_comm] at hmod
    have hlast : listed winners.length [x] = [x.announced winners.length] := rfl
    rw [listed_append, Nat.zero_add, hlast, replay, List.foldl_append]
    rw [← replay, ih, List.foldl_cons, List.foldl_nil]
    by_cases hij : winners.length = i * winnersPerPage + j
    · have hi : winners.length / winnersPerPage = i := by
        rw [hij, Nat.mul_comm, Nat.mul_add_div (by decide), Nat.div_eq_of_lt hj, Nat.add_zero]
      have hoff : winners.length % winnersPerPage = j := by
        rw [hij, Nat.mul_comm, Nat.mul_add_mod, Nat.mod_eq_of_lt hj]
      rw [if_pos ⟨hi, hoff⟩, ← hij, List.getElem?_concat_length]
      rfl
    · rw [if_neg]
      · rw [List.getElem?_append]
        split
        · rfl
        · rw [List.getElem?_eq_none (by omega), List.getElem?_eq_none]
          rw [List.length_singleton]
          omega
      · rintro ⟨hi, hoff⟩
        rw [SelectedWinner.announced] at hi hoff
        simp only at hi hoff
        rw [hi, hoff] at hmod
        exact hij hmod.symm

theorem winnersCommitment_selected (winners : List (Ballot K)) :
    winnersCommitment rt winners = (winners.map selected).zipIdx.foldl
      (fun h x ↦ extendWinnersCommitment rt h x.2 x.1) (Vector.replicate 32 0) := by
  rw [winnersCommitment, List.zipIdx_map, List.foldl_map]
  rfl

/-- The pages, the commitment and the events of a finalized lottery, each with the same winners. -/
structure Published (rt : Runtime K) (id : ℕ) (w₀ w : World K) (l : Lottery K)
    (winners : List (SelectedWinner K)) (selections : List (Selection K)) : Prop where
  count : l.winnersCount = winners.length
  pos : 1 ≤ winners.length
  le : winners.length ≤ 256
  stored : ∀ i, winnerAt rt id w i = winners[i]?
  pages : ∀ i, (w.view rt id (.winnerPage i)).data ≠ .empty ↔ i ≤ (winners.length - 1) / 100
  entries : ∀ i, i ≤ (winners.length - 1) / 100 → ∃ page data,
    (w.view rt id (.winnerPage i)).data = .winnerPage page data ∧
      page.count = min 100 (winners.length - i * 100) ∧
      (∀ j, page.winner data j ≠ none ↔ j < page.count) ∧
      ∀ j < 100, page.winner data j = replay selections i j
  root : l.winnersMerkleRoot = winners.zipIdx.foldl
    (fun h x ↦ extendWinnersCommitment rt h x.2 x.1) (Vector.replicate 32 0)
  events : ∃ es, w.log = w₀.log ++ es ∧
    es.filterMap (LotteryEvent.selection (rt.lotteryKey id)) = selections
  selections : selections = winners.zipIdx.map fun x ↦
    ⟨x.2, x.1.wallet, x.1.tickets, x.2 / 100, x.2 % 100⟩

/-- Once a finalization is complete, pages, commitment and events tell the same winners. -/
theorem winners_published (h : (system rt).History acts (w :: ws))
    (hl : (w.view rt id .lottery).data = .lottery l) {root : FinalizationLedger K}
    (hroot : (w.view rt id .finalizationRoot).data = .finalizationLedger root)
    (hph : root.phase = .completed) :
    ∃ w₀ winners selections, [w₀] <:+ (w :: ws) ∧ Published rt id w₀ w l winners selections := by
  obtain ⟨r, hreach, hi, hr, rfl, -⟩ := represented h hl
  obtain ⟨ballots, hdec, hpages, hcomp⟩ := hi.progress.of_completed (hr.eq_ledger hroot) hph
  obtain ⟨w₀, winners, hsuf, hst : Stores rt id w winners, hann⟩ := announced h
  obtain rfl := hst.eq (hr.winnerAt_eq hpages)
  obtain ⟨rest, hdraw⟩ := hcomp.drawn
  have hlen : (ballots.map selected).length = r.contest.target := by
    rw [List.length_map]
    exact Contest.draw_length hdraw
  have hpos : 1 ≤ (ballots.map selected).length := hlen ▸ hdec.target_pos
  have hle : r.contest.target ≤ 256 := by
    have := r.config.effectiveMaxWinners_le_maxWinners r.lottery.participantsCount
    exact (min_le_left _ _).trans ((min_le_right _ _).trans this)
  have hexists (i : ℕ) : i * winnersPerPage < (ballots.map selected).length ↔
      i ≤ ((ballots.map selected).length - 1) / 100 := by
    have hper : winnersPerPage = 100 := rfl
    rw [Nat.le_div_iff_mul_le (by decide), hper]
    omega
  refine ⟨w₀, _, _, hsuf, hdec.winnersCount.trans hlen.symm, hpos, hlen ▸ hle, hst, fun i ↦ ?_,
    fun i hile ↦ ?_, ?_, hann, rfl⟩
  · rw [← hexists, ← hpages.exists_iff, hr.pages]
    cases hp : r.pages i with
    | none => simp
    | some x => exact ⟨fun _ ↦ ⟨x.1, x.2, rfl⟩, fun _ ↦ by simp⟩
  · obtain ⟨page, data, hp⟩ := hpages.present i ((hexists i).mpr hile)
    obtain ⟨-, -, -, hcount, hwin⟩ := hpages.page i page data hp
    refine ⟨page, data, by rw [hr.pages, hp]; rfl, hcount, fun j ↦ ?_, fun j hj ↦ ?_⟩
    · unfold WinnerPage.winner
      by_cases hj : page.count ≤ j
      · simp [hj]
      · have hlt : j < winnersPerPage := by omega
        have hcov := Nat.lt_of_not_le hj
        simp [hj, hlt, hcov]
    · rw [hwin j hj, replay_listed _ _ hj]
  · rw [hdec.winnersMerkleRoot, hcomp.commitment, winnersCommitment_selected]

/-- Two of three participants attest and ask for two winners. -/
theorem winners_published_sample :
    ∃ (w₀ w : World Sample.Key) (l : Lottery Sample.Key)
      (winners : List (SelectedWinner Sample.Key)) (selections : List (Selection Sample.Key)),
      (w.view Sample.rt 1 .lottery).data = .lottery l ∧ winners.length = 2 ∧
      Published Sample.rt 1 w₀ w l winners selections := by
  obtain ⟨w, ws, l, h, hl, hp⟩ := Sample.run_lottery
    [Sample.configure 1000 500 10, Sample.create 1, Sample.buy 1 20 1, Sample.buy 1 21 1,
      Sample.buy 1 22 1, .tick (1000 + 24 * 60 * 60), Sample.attest 1 20 2, Sample.attest 1 21 2,
      .tick (1000 + 72 * 60 * 60), Sample.finalize 1 0 [20, 21, 22],
      Sample.finalize 1 0 [20, 21], Sample.finalize 1 0 [22], Sample.finalize 1 0 [20, 21, 22]] 1
    (fun w l ↦ decide (l.winnersCount = 2) && (Sample.ledgerOf w 1).any fun root ↦
      decide (FinalizationLedger.phase root = FinalizationPhase.completed)) (by decide +kernel)
  obtain ⟨hcount, hany⟩ := Bool.and_eq_true_iff.mp hp
  obtain ⟨root, hroot, hph⟩ := (Option.any_eq_true _ _).mp hany
  obtain ⟨w₀, winners, selections, -, hpub⟩ :=
    winners_published h hl (unwrap_finalizationLedger.mp hroot) (of_decide_eq_true hph)
  refine ⟨w₀, w, l, winners, selections, hl, ?_, hpub⟩
  exact hpub.count.symm.trans (of_decide_eq_true hcount)

end DailyLottery
