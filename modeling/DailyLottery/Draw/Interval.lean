import DailyLottery.Execute
import DailyLottery.Lib.Draw

set_option linter.unusedSectionVars false

namespace DailyLottery

open Lib

variable {K : Type} [DecidableEq K] [Inhabited K]

namespace FinalizationLedger

/-- The participants a selection pass can still select. -/
def selectable (root : FinalizationLedger K) (ps : List (Participant K)) : List (Participant K) :=
  ps.filter fun p ↦ p.revealIncluded && !p.selectedInGeneration root.generation

/-- The ledger's ticket totals are those of the pool and of the winners marked in it. -/
structure Tallies (root : FinalizationLedger K) (ps : List (Participant K)) : Prop where
  eligible : root.totalEligibleTickets =
    total Participant.ticketsBought (ps.filter Participant.revealIncluded)
  selected : root.selectedTicketsTotal = total Participant.ticketsBought
    (ps.filter fun p ↦ p.revealIncluded && p.selectedInGeneration root.generation)

/-- Whom a pass over `ps` finds from where the ledger stands. -/
def finds (root : FinalizationLedger K) (ps : List (Participant K)) : Option (Participant K) :=
  if root.pendingWinnerFound = true ∨ root.roundDrawIndex < root.roundRemainingTicketsSeen then none
  else pick Participant.ticketsBought (root.selectable ps)
    (root.roundDrawIndex - root.roundRemainingTicketsSeen)

/-- The ledger after a pass over `ps`. -/
def passed (root : FinalizationLedger K) (ps : List (Participant K)) : FinalizationLedger K :=
  { root with
    roundProcessedCount := root.roundProcessedCount + ps.length
    roundRemainingTicketsSeen := root.roundRemainingTicketsSeen +
      total Participant.ticketsBought (root.selectable ps)
    pendingWinner := ((root.finds ps).map Participant.wallet).getD root.pendingWinner
    pendingWinnerTickets :=
      ((root.finds ps).map Participant.ticketsBought).getD root.pendingWinnerTickets
    pendingWinnerFound := root.pendingWinnerFound || (root.finds ps).isSome }

variable {root : FinalizationLedger K} {p : Participant K} {ps : List (Participant K)}

theorem selectable_passed (qs : List (Participant K)) :
    (root.passed qs).selectable ps = root.selectable ps := rfl

theorem selectable_cons_of_pos
    (h : (p.revealIncluded && !p.selectedInGeneration root.generation) = true) :
    root.selectable (p :: ps) = p :: root.selectable ps := List.filter_cons_of_pos h

theorem selectable_cons_of_neg
    (h : (p.revealIncluded && !p.selectedInGeneration root.generation) = false) :
    root.selectable (p :: ps) = root.selectable ps :=
  List.filter_cons_of_neg (by simp [h])

theorem finds_nil : root.finds [] = none := by
  simp [finds, selectable, pick]

theorem passed_nil : root.passed [] = root := by
  simp [passed, finds_nil, selectable]

theorem finds_cons : root.finds (p :: ps) =
    (root.finds [p]).or ((root.passed [p]).finds ps) := by
  cases hs : p.revealIncluded && !p.selectedInGeneration root.generation with
  | false =>
    have hone : root.selectable [p] = [] := selectable_cons_of_neg hs
    have hnone : root.finds [p] = none := by simp [finds, hone, pick]
    have hpassed : (root.passed [p]).finds ps = root.finds ps := by
      simp only [finds, selectable_passed]
      simp only [passed, hone, hnone, total_nil, Nat.add_zero, Option.isSome_none, Bool.or_false]
    rw [hnone, Option.none_or, hpassed, finds, finds, selectable_cons_of_neg hs]
  | true =>
    have hone : root.selectable [p] = [p] := selectable_cons_of_pos hs
    by_cases hskip : root.pendingWinnerFound = true ∨
        root.roundDrawIndex < root.roundRemainingTicketsSeen
    · have hnone (qs : List (Participant K)) : root.finds qs = none := if_pos hskip
      have hskip' : (root.passed [p]).pendingWinnerFound = true ∨
          (root.passed [p]).roundDrawIndex < (root.passed [p]).roundRemainingTicketsSeen := by
        rcases hskip with hfound | hlt
        · exact Or.inl (by simp [passed, hfound])
        · refine Or.inr (hlt.trans_le ?_)
          exact Nat.le_add_right _ _
      rw [hnone, hnone, Option.none_or, finds, if_pos hskip']
    · have hpick (qs : List (Participant K)) : root.finds qs = pick Participant.ticketsBought
          (root.selectable qs) (root.roundDrawIndex - root.roundRemainingTicketsSeen) :=
        if_neg hskip
      rw [hpick (p :: ps), hpick [p], hone, selectable_cons_of_pos hs, pick, pick]
      by_cases hin : root.roundDrawIndex - root.roundRemainingTicketsSeen < p.ticketsBought
      · rw [if_pos hin, if_pos hin, Option.some_or]
      · have hnone : root.finds [p] = none := by rw [hpick, hone, pick, if_neg hin, pick]
        have hgo : ¬((root.passed [p]).pendingWinnerFound = true ∨
            (root.passed [p]).roundDrawIndex < (root.passed [p]).roundRemainingTicketsSeen) := by
          simp only [passed, hnone, hone, total_cons, total_nil, Option.isSome_none, Bool.or_false]
          simp only [not_or, not_lt] at hskip hin ⊢
          exact ⟨hskip.1, by omega⟩
        rw [if_neg hin, if_neg hin, pick, Option.none_or, finds, if_neg hgo, selectable_passed]
        simp only [passed, hone, total_cons, total_nil, Nat.add_zero, Nat.sub_sub]

theorem passed_cons : root.passed (p :: ps) = (root.passed [p]).passed ps := by
  have hsel : total Participant.ticketsBought (root.selectable (p :: ps)) =
      total Participant.ticketsBought (root.selectable [p]) +
        total Participant.ticketsBought (root.selectable ps) := by
    rw [← total_append, selectable, selectable, selectable, ← List.filter_append,
      List.singleton_append]
  have hfind : root.finds (p :: ps) = (root.finds [p]).or ((root.passed [p]).finds ps) := finds_cons
  have hcount : root.roundProcessedCount + (p :: ps).length =
      root.roundProcessedCount + [p].length + ps.length := by
    rw [List.length_cons, List.length_singleton, Nat.add_comm ps.length 1, Nat.add_assoc]
  rw [passed, hcount, hsel, hfind, ← Nat.add_assoc]
  conv_rhs => rw [passed, selectable_passed]
  cases hone : root.finds [p] with
  | none => cases (root.passed [p]).finds ps <;> simp [passed, hone]
  | some x =>
    have hfound : (root.passed [p]).pendingWinnerFound = true := by simp [passed, hone]
    have hnone : (root.passed [p]).finds ps = none := if_pos (Or.inl hfound)
    rw [hnone]
    simp [passed, hone]

end FinalizationLedger

namespace FinalizeWinners

open FinalizationLedger

variable {rt : Runtime K} {lotteryAi : AccountInfo K} {w : World K} {root : FinalizationLedger K}
  {p : Participant K} {ps : List (Participant K)} {accounts : List (AccountInfo K)} {k : ℕ}

theorem selectParticipant_eq (hidx : p.participantIndex = root.roundProcessedCount)
    (hgen : p.finalizationGeneration = root.generation) (htickets : p.ticketsBought ≠ 0)
    (hcount : root.roundProcessedCount + 1 < 2 ^ 64)
    (hsum : root.roundRemainingTicketsSeen +
      total Participant.ticketsBought (root.selectable [p]) < 2 ^ 64) :
    selectParticipant root p = .ok (root.passed [p],
      (root.finds [p]).map fun p ↦ p.markSelected root.generation root.currentRound) := by
  have hchecked : checkedAdd 64 root.roundProcessedCount 1 = some (root.roundProcessedCount + 1) :=
    checkedAdd_eq_some.mpr ⟨hcount, rfl⟩
  cases hs : p.revealIncluded && !p.selectedInGeneration root.generation with
  | false =>
    have hone : root.selectable [p] = [] := selectable_cons_of_neg hs
    have hnone : root.finds [p] = none := by simp [finds, hone, pick]
    simp [selectParticipant, requireParticipantIndex, rejectIf, okOr, hidx, hgen,
      htickets, hchecked, hs, passed, hone, hnone]
  | true =>
    have hone : root.selectable [p] = [p] := selectable_cons_of_pos hs
    rw [hone, total_cons, total_nil, Nat.add_zero] at hsum
    have hstop : checkedAdd 64 root.roundRemainingTicketsSeen p.ticketsBought =
        some (root.roundRemainingTicketsSeen + p.ticketsBought) :=
      checkedAdd_eq_some.mpr ⟨hsum, rfl⟩
    by_cases hhit : root.pendingWinnerFound = false ∧
        root.roundRemainingTicketsSeen ≤ root.roundDrawIndex ∧
        root.roundDrawIndex < root.roundRemainingTicketsSeen + p.ticketsBought
    · have hsome : root.finds [p] = some p := by
        rw [finds, if_neg (by simp [hhit.1, hhit.2.1]), hone, pick, if_pos (by omega)]
      simp [selectParticipant, requireParticipantIndex, rejectIf, okOr, hidx, hgen, htickets,
        hchecked, hs, hstop, hhit, passed, hone, hsome]
    · have hnone : root.finds [p] = none := by
        rw [finds]
        split
        · rfl
        · next hgo =>
          simp only [not_or, Bool.not_eq_true, not_lt] at hgo
          rw [hone, pick, if_neg, pick]
          exact fun hlt ↦ hhit ⟨hgo.1, hgo.2, by omega⟩
      simp [selectParticipant, requireParticipantIndex, rejectIf, okOr, hidx, hgen, htickets,
        hchecked, hs, hstop, hhit, passed, hone, hnone]

/-- The accounts hold the pool `ps`, its participants standing at the indices from `k` on. -/
structure Holding (rt : Runtime K) (lotteryAi : AccountInfo K) (w : World K) (generation k : ℕ)
    (accounts : List (AccountInfo K)) (ps : List (Participant K)) : Prop where
  stored : List.Forall₂ (fun ai p ↦ ai.isWritable = true ∧ p.lottery = lotteryAi.key ∧
    ai.key = rt.address (.participant lotteryAi.key p.wallet) ∧
    (w.accounts ai.key).owner = rt.programId ∧
    (w.accounts ai.key).data = .participant p) accounts ps
  index : ∀ i p, ps[i]? = some p → p.participantIndex = k + i
  aggregated : ∀ p ∈ ps, p.finalizationGeneration = generation ∧ p.ticketsBought ≠ 0

def markFound (rt : Runtime K) (lotteryAi : AccountInfo K) (root : FinalizationLedger K)
    (w : World K) :
    Option (Participant K) → World K
  | some p => w.setData (rt.address (.participant lotteryAi.key p.wallet))
      (.participant (p.markSelected root.generation root.currentRound))
  | none => w

theorem finds_singleton : root.finds [p] = none ∨ root.finds [p] = some p := by
  cases h : root.finds [p] with
  | none => exact Or.inl rfl
  | some q =>
    rw [finds, Option.ite_none_left_eq_some] at h
    have hmem := List.mem_of_mem_filter (mem_of_pick h.2)
    exact Or.inr (congrArg some (List.mem_singleton.mp hmem))

theorem markFound_cons : markFound rt lotteryAi root w (root.finds (p :: ps)) =
    markFound rt lotteryAi (root.passed [p]) (markFound rt lotteryAi root w (root.finds [p]))
      ((root.passed [p]).finds ps) := by
  rw [finds_cons]
  cases hone : root.finds [p] with
  | none => rfl
  | some x =>
    have hfound : (root.passed [p]).pendingWinnerFound = true := by simp [passed, hone]
    have hnone : (root.passed [p]).finds ps = none := if_pos (Or.inl hfound)
    rw [hnone]
    rfl

theorem Holding.tail {ai : AccountInfo K} {generation : ℕ}
    (h : Holding rt lotteryAi w generation k (ai :: accounts) (p :: ps)) {w' : World K}
    (hw : ∀ key, key ≠ ai.key → w'.accounts key = w.accounts key) :
    Holding rt lotteryAi w' generation (k + 1) accounts ps := by
  obtain ⟨⟨-, -, -, -, hdata⟩, hstored⟩ := List.forall₂_cons.mp h.stored
  refine ⟨?_, fun i q hq ↦ ?_, fun q hq ↦ h.aggregated q (List.mem_cons_of_mem _ hq)⟩
  · rw [List.forall₂_iff_get] at hstored ⊢
    refine ⟨hstored.1, fun i hi hi' ↦ ?_⟩
    obtain ⟨hwr, hlot, hkey, howner, hdata'⟩ := hstored.2 i hi hi'
    -- another index, hence another account
    have hne : (accounts.get ⟨i, hi⟩).key ≠ ai.key := by
      intro he
      rw [he, hdata, AccountData.participant.injEq] at hdata'
      have hp := h.index 0 p rfl
      have hq := h.index (i + 1) (ps.get ⟨i, hi'⟩) (by simp)
      rw [← hdata', hp] at hq
      omega
    rw [hw _ hne]
    exact ⟨hwr, hlot, hkey, howner, hdata'⟩
  · have := h.index (i + 1) q hq
    omega

theorem participantLoop_select
    (h : Holding rt lotteryAi w root.generation root.roundProcessedCount accounts ps)
    (hcount : root.roundProcessedCount + ps.length < 2 ^ 64)
    (hsum : root.roundRemainingTicketsSeen +
      total Participant.ticketsBought (root.selectable ps) < 2 ^ 64) :
    participantLoop rt selectParticipant lotteryAi accounts w root =
      .ok (markFound rt lotteryAi root w (root.finds ps), root.passed ps) := by
  induction accounts generalizing w root ps with
  | nil =>
    obtain rfl : ps = [] := List.forall₂_nil_left_iff.mp h.stored
    rw [participantLoop, finds_nil, passed_nil, markFound]
  | cons ai accounts ih =>
    obtain ⟨p, qs, ⟨hwr, hlot, hkey, howner, hdata⟩, hstored, rfl⟩ :=
      List.forall₂_cons_left_iff.mp h.stored
    have hidx : p.participantIndex = root.roundProcessedCount := by simpa using h.index 0 p rfl
    obtain ⟨hgen, htickets⟩ := h.aggregated p List.mem_cons_self
    have hsplit : total Participant.ticketsBought (root.selectable (p :: qs)) =
        total Participant.ticketsBought (root.selectable [p]) +
          total Participant.ticketsBought (root.selectable qs) := by
      rw [← total_append, selectable, selectable, selectable, ← List.filter_append,
        List.singleton_append]
    rw [List.length_cons] at hcount
    have hvisit := selectParticipant_eq hidx hgen htickets (by omega) (by omega)
    have hne : (w.accounts ai.key).data.isEmpty = false := by rw [hdata]; rfl
    have hread : readValidParticipant rt w lotteryAi ai = .ok p := by
      have hok : readAccountData rt w (Participant K) ai = .ok p :=
        readAccountData_ok (by rw [hdata]; exact nofun) (by rw [hdata]; rfl)
      simp only [readValidParticipant, bind_eq_ok, rejectIf_eq_ok, assertPdaOwned_eq_ok, pure_eq_ok,
        exists_const]
      exact ⟨p, hok, fun hne ↦ hne hlot, ⟨hkey.symm, howner⟩, rfl⟩
    have hone : root.finds [p] = none ∨ root.finds [p] = some p := finds_singleton
    have hwrite : writeUpdated rt w ai
        ((root.finds [p]).map fun p ↦ p.markSelected root.generation root.currentRound) =
          .ok (markFound rt lotteryAi root w (root.finds [p])) := by
      rcases hone with hnone | hsome
      · rw [hnone]
        rfl
      · rw [hsome]
        exact writeAccountData_eq_ok.mpr ⟨hne, hwr, howner, by rw [hkey]; rfl⟩
    have hrest : Holding rt lotteryAi (markFound rt lotteryAi root w (root.finds [p]))
        root.generation (root.roundProcessedCount + 1) accounts qs := by
      refine h.tail fun key hk ↦ ?_
      rcases hone with hnone | hsome
      · rw [hnone]
        rfl
      · rw [hsome]
        exact World.accounts_setAccount_of_ne _ _ (hkey ▸ hk)
    have hloop : participantLoop rt selectParticipant lotteryAi accounts
        (markFound rt lotteryAi root w (root.finds [p])) (root.passed [p]) = .ok (_, _) :=
      ih hrest (by simp only [passed, List.length_singleton]; omega)
        (by rw [selectable_passed]; simp only [passed]; omega)
    have hpassed : root.passed (p :: qs) = (root.passed [p]).passed qs := passed_cons
    rw [markFound_cons, hpassed]
    simp only [participantLoop, bind_eq_ok, requireWritable_eq_ok, exists_const, Prod.exists]
    exact ⟨hwr, p, hread, _, _, hvisit, _, hwrite, hloop⟩

/-- One pass over the accounts of a pool, each chunk a call of its own. -/
def selectionPass (rt : Runtime K) (lotteryAi : AccountInfo K) : List (List (AccountInfo K)) →
    World K → FinalizationLedger K → Result (World K × FinalizationLedger K)
  | [], w, root => .ok (w, root)
  | chunk :: chunks, w, root => do
    let (w, root) ← participantLoop rt selectParticipant lotteryAi chunk w root
    selectionPass rt lotteryAi chunks w root

theorem participantLoop_append {body : FinalizationLedger K → Participant K →
      Result (FinalizationLedger K × Option (Participant K))} (xs ys : List (AccountInfo K)) :
    participantLoop rt body lotteryAi (xs ++ ys) w root =
      participantLoop rt body lotteryAi xs w root >>= fun x ↦
        participantLoop rt body lotteryAi ys x.1 x.2 := by
  induction xs generalizing w root with
  | nil => rfl
  | cons ai xs ih => simp only [List.cons_append, participantLoop, ih, bind_assoc]

/-- However a pass is cut, it does what one call would. -/
theorem selectionPass_eq (chunks : List (List (AccountInfo K))) :
    selectionPass rt lotteryAi chunks w root =
      participantLoop rt selectParticipant lotteryAi chunks.flatten w root := by
  induction chunks generalizing w root with
  | nil => rfl
  | cons chunk chunks ih =>
    rw [List.flatten_cons, participantLoop_append, selectionPass]
    simp only [ih]

/-- A pass that draws `d` records participant `i` as its winner, marks it and no one else. -/
def Selects (rt : Runtime K) (lotteryAi : AccountInfo K) (chunks : List (List (AccountInfo K)))
    (w : World K) (root : FinalizationLedger K) (ps : List (Participant K)) (d i : ℕ) : Prop :=
  ∃ p w' root', ps[i]? = some p ∧
    selectionPass rt lotteryAi chunks w (root.beginSelectionRound d) = .ok (w', root') ∧
    roundWinner root' = .ok ⟨p.wallet, p.ticketsBought⟩ ∧
    w' = w.setData (rt.address (.participant lotteryAi.key p.wallet))
      (.participant (p.markSelected root.generation root.currentRound))

theorem remainingTickets_eq (h : root.Tallies ps) :
    root.remainingTickets = .ok (total Participant.ticketsBought (root.selectable ps)) := by
  have hsplit : total Participant.ticketsBought (ps.filter Participant.revealIncluded) =
      total Participant.ticketsBought
        (ps.filter fun p ↦ p.revealIncluded && p.selectedInGeneration root.generation) +
      total Participant.ticketsBought (root.selectable ps) := total_filter _ _ _ ps
  rw [remainingTickets, h.eligible, h.selected, hsplit]
  simp [rejectIf]

variable {d i : ℕ} {chunks : List (List (AccountInfo K))}

theorem Holding.nodup {generation : ℕ} (h : Holding rt lotteryAi w generation k accounts ps) :
    ps.Nodup := by
  rw [List.nodup_iff_injective_getElem]
  intro i j hij
  have hi := h.index i ps[i] (List.getElem?_eq_getElem i.isLt)
  have hj := h.index j ps[j] (List.getElem?_eq_getElem j.isLt)
  have heq : ps[i] = ps[j] := hij
  rw [heq] at hi
  exact Fin.ext (by omega)

theorem Holding.eq_of_wallet {generation : ℕ}
    (h : Holding rt lotteryAi w generation k accounts ps) {q : Participant K} (hp : p ∈ ps)
    (hq : q ∈ ps) (hwallet : p.wallet = q.wallet) : p = q := by
  have hdata (x : Participant K) (hx : x ∈ ps) :
      (w.accounts (rt.address (.participant lotteryAi.key x.wallet))).data = .participant x := by
    obtain ⟨i, hi, rfl⟩ := List.getElem_of_mem hx
    obtain ⟨hlen, hall⟩ := List.forall₂_iff_get.mp h.stored
    obtain ⟨-, -, hkey, -, hdata⟩ := hall i (hlen ▸ hi) hi
    rwa [hkey] at hdata
  have hpq := hdata p hp
  rw [hwallet, hdata q hq, AccountData.participant.injEq] at hpq
  exact hpq.symm

theorem finds_begin : (root.beginSelectionRound d).finds ps =
    pick Participant.ticketsBought (root.selectable ps) d := by
  simp [finds, beginSelectionRound, resetPassCursor, selectable]

theorem selectionPass_ok (h : Holding rt lotteryAi w root.generation 0 chunks.flatten ps)
    (hsum : total Participant.ticketsBought ps < 2 ^ 64) :
    selectionPass rt lotteryAi chunks w (root.beginSelectionRound d) =
      .ok (markFound rt lotteryAi root w (pick Participant.ticketsBought (root.selectable ps) d),
        (root.beginSelectionRound d).passed ps) := by
  have hlen : ps.length ≤ total Participant.ticketsBought ps :=
    length_le_total fun p hp ↦ Nat.pos_of_ne_zero (h.aggregated p hp).2
  have hle : total Participant.ticketsBought (root.selectable ps) ≤
      total Participant.ticketsBought ps := by
    have hall := total_filter Participant.ticketsBought (fun _ ↦ true)
      (fun p ↦ p.revealIncluded && !p.selectedInGeneration root.generation) ps
    simp only [Bool.true_and, List.filter_true] at hall
    rw [hall]
    exact Nat.le_add_right _ _
  have hstart : Holding rt lotteryAi w (root.beginSelectionRound d).generation
      (root.beginSelectionRound d).roundProcessedCount chunks.flatten ps := h
  rw [selectionPass_eq, ← finds_begin]
  refine participantLoop_select hstart ?_ ?_
  · simp only [beginSelectionRound, resetPassCursor]
    omega
  · simp only [beginSelectionRound, resetPassCursor, selectable, Nat.zero_add]
    exact hle.trans_lt hsum

theorem roundWinner_passed (htally : root.Tallies ps)
    (hp : pick Participant.ticketsBought (root.selectable ps) d = some p) :
    roundWinner ((root.beginSelectionRound d).passed ps) = .ok ⟨p.wallet, p.ticketsBought⟩ := by
  have hfinds : (root.beginSelectionRound d).finds ps = some p := by rw [finds_begin, hp]
  have hseen : ((root.beginSelectionRound d).passed ps).roundRemainingTicketsSeen =
      total Participant.ticketsBought (root.selectable ps) := Nat.zero_add _
  have hfound : ((root.beginSelectionRound d).passed ps).pendingWinnerFound = true := by
    simp [passed, hfinds]
  have hremaining : ((root.beginSelectionRound d).passed ps).remainingTickets =
      .ok (total Participant.ticketsBought (root.selectable ps)) :=
        remainingTickets_eq ⟨htally.1, htally.2⟩
  simp only [roundWinner, bind_eq_ok, rejectIf_eq_ok, exists_const, pure_eq_ok]
  refine ⟨_, hremaining, ?_, ?_⟩
  · simp [hseen, hfound]
  · simp [passed, hfinds]

theorem selects_iff (h : Holding rt lotteryAi w root.generation 0 chunks.flatten ps)
    (htally : root.Tallies ps) (hsum : total Participant.ticketsBought ps < 2 ^ 64)
    (hd : d < total Participant.ticketsBought (root.selectable ps)) :
    Selects rt lotteryAi chunks w root ps d i ↔
      ∃ p, ps[i]? = some p ∧ pick Participant.ticketsBought (root.selectable ps) d = some p := by
  have hpass := selectionPass_ok (d := d) h hsum
  obtain ⟨q, hq⟩ := Option.ne_none_iff_exists'.mp fun hnone ↦
    absurd (pick_eq_none_iff.mp hnone) (Nat.not_le.mpr hd)
  have hqmem : q ∈ ps := List.mem_of_mem_filter (mem_of_pick hq)
  have hwinner := roundWinner_passed htally hq
  rw [hq] at hpass
  constructor
  · rintro ⟨p, w', root', hp, hrun, hwin, -⟩
    rw [hpass, Except.ok.injEq, Prod.mk.injEq] at hrun
    rw [← hrun.2, hwinner, Except.ok.injEq, SelectedWinner.mk.injEq] at hwin
    obtain rfl := h.eq_of_wallet hqmem (List.mem_of_getElem? hp) hwin.1
    exact ⟨q, hp, hq⟩
  · rintro ⟨p, hp, hpick⟩
    obtain rfl := Option.some.inj (hq.symm.trans hpick)
    exact ⟨q, _, _, hp, hpass, hwinner, rfl⟩

/-- Over all draws below the remaining tickets, each selects one participant, and a participant
is selected by as many draws as it has tickets in the round. -/
theorem selection_weighted (h : Holding rt lotteryAi w root.generation 0 chunks.flatten ps)
    (htally : root.Tallies ps) (hsum : total Participant.ticketsBought ps < 2 ^ 64)
    (hsome : root.selectable ps ≠ []) :
    ∃ remaining, root.remainingTickets = .ok remaining ∧ 0 < remaining ∧
      (∀ d < remaining, ∃! i, Selects rt lotteryAi chunks w root ps d i) ∧
      ∀ i p, ps[i]? = some p →
        Set.ncard {d | d < remaining ∧ Selects rt lotteryAi chunks w root ps d i} =
          if p.revealIncluded && !p.selectedInGeneration root.generation then p.ticketsBought
          else 0 := by
  have hnodup := h.nodup
  have hget {i j : ℕ} {p : Participant K} (hi : ps[i]? = some p)
    (hj : ps[j]? = some p) : i = j := by
    have hidx := h.index i p hi
    have hidx' := h.index j p hj
    omega
  refine ⟨_, remainingTickets_eq htally, ?_, fun d hd ↦ ?_, fun i p hp ↦ ?_⟩
  · obtain ⟨p, hp⟩ := List.exists_mem_of_ne_nil _ hsome
    have hlen : (root.selectable ps).length ≤
        total Participant.ticketsBought (root.selectable ps) := length_le_total fun p hp ↦
      Nat.pos_of_ne_zero (h.aggregated p (List.mem_of_mem_filter hp)).2
    exact (List.length_pos_of_mem hp).trans_le hlen
  · obtain ⟨q, hq⟩ := Option.ne_none_iff_exists'.mp fun hnone ↦
      absurd (pick_eq_none_iff.mp hnone) (Nat.not_le.mpr hd)
    obtain ⟨i, hi⟩ := List.mem_iff_getElem?.mp (List.mem_of_mem_filter (mem_of_pick hq))
    refine ⟨i, (selects_iff h htally hsum hd).mpr ⟨q, hi, hq⟩, fun j hj ↦ ?_⟩
    obtain ⟨p, hp, hpick⟩ := (selects_iff h htally hsum hd).mp hj
    obtain rfl := Option.some.inj (hq.symm.trans hpick)
    exact hget hp hi
  · have hset : {d | d < total Participant.ticketsBought (root.selectable ps) ∧
        Selects rt lotteryAi chunks w root ps d i} =
          {d | d < total Participant.ticketsBought (root.selectable ps) ∧
            pick Participant.ticketsBought (root.selectable ps) d = some p} := by
      ext d
      refine and_congr_right fun hd ↦ ?_
      rw [selects_iff h htally hsum hd]
      constructor
      · rintro ⟨q, hq, hpick⟩
        rwa [Option.some.inj (hp.symm.trans hq)]
      · exact fun hpick ↦ ⟨p, hp, hpick⟩
    rw [hset]
    split
    · next hs =>
      exact ncard_pick (hnodup.filter _) (List.mem_filter.mpr ⟨List.mem_of_getElem? hp, hs⟩)
    · next hs =>
      have hempty : {d | d < total Participant.ticketsBought (root.selectable ps) ∧
          pick Participant.ticketsBought (root.selectable ps) d = some p} = ∅ := by
        refine Set.eq_empty_of_forall_notMem fun d hd ↦ hs ?_
        exact (List.mem_filter.mp (mem_of_pick hd.2)).2
      rw [hempty, Set.ncard_empty]

section Sample

open DailyLottery.Sample

def pooled (i tickets : ℕ) (included : Bool) (selectedGeneration : ℕ) : Participant Key :=
  let p := (Participant.new (lotteryKey 1) (.wallet (20 + i)) (Vector.replicate 32 0) tickets
    i).markFinalizedForGeneration 1
  { (if included then p.markRevealIncluded else p) with selectedGeneration }

/-- One of the five did not reveal, one has won before. -/
def pool : List (Participant Key) :=
  [pooled 0 3 true 0, pooled 1 4 false 0, pooled 2 5 true 1, pooled 3 1 true 0, pooled 4 2 true 0]

def poolWorld : World Key :=
  pool.foldl (fun w p ↦ w.setAccount (.participant (lotteryKey 1) p.wallet)
    ⟨1, Sample.rt.programId, .participant p⟩) genesis

def poolRoot : FinalizationLedger Key :=
  { FinalizationLedger.new (lotteryKey 1) 5 0 with
    totalEligibleTickets := 11, selectedTicketsTotal := 5, selectedCount := 1, currentRound := 1 }

def poolChunks : List (List (AccountInfo Key)) :=
  [[writable (participantKey 1 20), writable (participantKey 1 21)],
    [writable (participantKey 1 22), writable (participantKey 1 23),
      writable (participantKey 1 24)]]

theorem selection_weighted_sample : ∃ remaining, poolRoot.remainingTickets = .ok remaining ∧
    (∀ d < remaining, ∃! i,
      Selects Sample.rt (writable (lotteryKey 1)) poolChunks poolWorld poolRoot pool d i) ∧
    Set.ncard {d | d < remaining ∧ Selects Sample.rt (writable (lotteryKey 1)) poolChunks poolWorld
      poolRoot pool d 4} = 2 := by
  have hpool : Holding Sample.rt (writable (lotteryKey 1)) poolWorld poolRoot.generation 0
      poolChunks.flatten pool := by
    refine ⟨?_, fun i p hp ↦ ?_, ?_⟩
    · refine .cons ?_ (.cons ?_ (.cons ?_ (.cons ?_ (.cons ?_ .nil)))) <;>
        exact ⟨rfl, rfl, rfl, rfl, rfl⟩
    · match i, hp with
      | 0, rfl | 1, rfl | 2, rfl | 3, rfl | 4, rfl => rfl
    · decide
  obtain ⟨n, hn, -, hone, hcount⟩ :=
    selection_weighted hpool ⟨by decide, by decide⟩ (by decide) (by decide)
  exact ⟨n, hn, hone, hcount 4 _ rfl⟩

end Sample

end FinalizeWinners

end DailyLottery
