import DailyLottery.Round.Progress

set_option linter.unusedSectionVars false

namespace DailyLottery

open Lib Ballot

variable {K : Type} [DecidableEq K] [Inhabited K]

namespace Lottery

variable {l l' : Lottery K} {i : ℕ}

theorem isWinnerPaid_eq (l : Lottery K) (i : ℕ) :
    l.isWinnerPaid i = (decide (i < l.winnersCount) && bitAt l.paidWinnersBitmap i) := by
  unfold isWinnerPaid
  split
  · next hle => simp [hle]
  · next hlt =>
    rw [decide_eq_true (by omega), Bool.true_and]
    split
    · next hle =>
      rw [bitAt, List.getD_eq_getElem?_getD, List.getElem?_eq_none hle]
      simp
    · exact testBit_eq _ (Nat.mod_lt _ (by decide))

theorem isWinnerPaid_mark (h : l.markWinnerPaid i = .ok l') (j : ℕ) :
    l'.isWinnerPaid j = (l.isWinnerPaid j || decide (j = i)) := by
  simp only [markWinnerPaid, bind_eq_ok, rejectIf_eq_ok, exists_const, pure_eq_ok, not_le] at h
  obtain ⟨hlt, rfl⟩ := h
  have hlen : i / 8 < (l.paidWinnersBitmap ++
      List.replicate (i / 8 + 1 - l.paidWinnersBitmap.length) 0).length := by
    rw [List.length_append, List.length_replicate]
    omega
  rw [isWinnerPaid_eq, isWinnerPaid_eq, bitAt_orAt hlen, bitAt_append_zeros]
  by_cases hj : j = i
  · subst hj
    simp [hlt]
  · simp [hj]

/-- The indices of the winners who got their share. -/
def paidWinners (l : Lottery K) : Finset ℕ :=
  (Finset.range l.winnersCount).filter fun i ↦ l.isWinnerPaid i = true

theorem mem_paidWinners {j : ℕ} : j ∈ l.paidWinners ↔ l.isWinnerPaid j = true := by
  rw [paidWinners, Finset.mem_filter, Finset.mem_range, and_iff_right_iff_imp]
  intro h
  rw [isWinnerPaid_eq, Bool.and_eq_true] at h
  exact of_decide_eq_true h.1

theorem paidWinners_subset (l : Lottery K) : l.paidWinners ⊆ Finset.range l.winnersCount :=
  Finset.filter_subset _ _

theorem card_paidWinners_le (l : Lottery K) : l.paidWinners.card ≤ l.winnersCount := by
  have := Finset.card_le_card l.paidWinners_subset
  rwa [Finset.card_range] at this

theorem allWinnersPaid_iff (h : l.winnersCount ≠ 0) :
    l.allWinnersPaid = true ↔ l.paidWinners = Finset.range l.winnersCount := by
  unfold allWinnersPaid paidWinners
  rw [if_neg h, List.all_eq_true, Finset.filter_eq_self]
  simp

theorem paidWinners_mark (h : l.markWinnerPaid i = .ok l') :
    l'.paidWinners = insert i l.paidWinners := by
  ext j
  rw [Finset.mem_insert, mem_paidWinners, mem_paidWinners, isWinnerPaid_mark h, Bool.or_eq_true,
    decide_eq_true_iff, or_comm]

theorem isWinnerPaid_cleared {bitmap : List UInt8} {n : ℕ}
    (h : clearBitmap l.paidWinnersBitmap ((n + 7) / 8) = .ok bitmap)
    (hl : l'.winnersCount = n ∧ l'.paidWinnersBitmap = bitmap) (j : ℕ) :
    l'.isWinnerPaid j = false := by
  simp only [clearBitmap, bind_eq_ok, rejectIf_eq_ok, exists_const, pure_eq_ok] at h
  obtain ⟨-, rfl⟩ := h
  rw [isWinnerPaid_eq, hl.1, hl.2]
  by_cases hj : j < n
  · rw [bitAt_zeros_append (by omega), Bool.and_false]
  · simp [hj]

theorem paidWinners_cleared {bitmap : List UInt8} {n : ℕ}
    (h : clearBitmap l.paidWinnersBitmap ((n + 7) / 8) = .ok bitmap)
    (hl : l'.winnersCount = n ∧ l'.paidWinnersBitmap = bitmap) : l'.paidWinners = ∅ := by
  ext j
  simp [mem_paidWinners, isWinnerPaid_cleared h hl j]

end Lottery

namespace WinnerPage

variable {page : WinnerPage K} {data data' : PageData K} {i : ℕ}

theorem isPaid_eq (page : WinnerPage K) (data : PageData K) (j : ℕ) :
    page.isPaid data j = (decide (j < page.count) && bitAt data.paid.toList j) := by
  unfold isPaid bitAt
  rw [maskBit_eq _ (Nat.mod_lt _ (by decide))]

theorem isPaid_mark (hcount : page.count ≤ winnersPerPage) (h : page.markPaid data i = .ok data')
    (j : ℕ) : page.isPaid data' j = (page.isPaid data j || decide (j = i)) := by
  simp only [markPaid, bind_eq_ok, rejectIf_eq_ok, exists_const, pure_eq_ok, not_or, not_le] at h
  obtain ⟨⟨hlt, -⟩, rfl⟩ := h
  have hlen : i / 8 < data.paid.toList.length := by
    have : winnersPerPage = 100 := rfl
    rw [Vector.length_toList]
    omega
  have hset : (data.paid.setIfInBounds (i / 8) (orBit (data.paid.toList.getD (i / 8) 0)
      (i % 8))).toList = orAt data.paid.toList i := by
    simp [orAt, ← Vector.toList_toArray]
  rw [isPaid_eq, isPaid_eq, hset, bitAt_orAt hlen]
  by_cases hj : j = i
  · subst hj
    simp [hlt]
  · simp [hj]

theorem isPaid_of_zeros (h : data.paid = Vector.replicate _ 0) (j : ℕ) :
    page.isPaid data j = false := by
  rw [isPaid_eq, h, Vector.toList_replicate, bitAt_zeros, Bool.and_false]

end WinnerPage

namespace Round

variable {rt : Runtime K} {r r' : Round K}

/-- What a payout batch does to the paid bits. -/
structure PayRun.Marks (page : WinnerPage K) (pageIndex : ℕ) (l : Lottery K) (data : PageData K)
    (xs : List (WinnerProof K)) (l' : Lottery K) (data' : PageData K) (fresh : List ℕ) : Prop where
  lottery : ∀ j, l'.isWinnerPaid j = (l.isWinnerPaid j || decide (j ∈ fresh))
  page : ∀ j, page.isPaid data' j =
    (page.isPaid data j || decide (∃ i ∈ fresh, i % winnersPerPage = j))
  nodup : fresh.Nodup
  subset : ∀ i ∈ fresh, i / winnersPerPage = pageIndex ∧ i < l.winnersCount ∧
    l.isWinnerPaid i = false ∧ i ∈ xs.map WinnerProof.index
  paid : ∀ x ∈ xs, l'.isWinnerPaid x.index = true

theorem PayRun.marks {page : WinnerPage K} {pageIndex amount : ℕ} {l l' : Lottery K}
    {data data' : PageData K} {xs : List (WinnerProof K)} {fresh : List ℕ}
    (hcount : page.count ≤ winnersPerPage)
    (h : PayRun page pageIndex amount l data xs l' data' fresh) :
    PayRun.Marks page pageIndex l data xs l' data' fresh := by
  induction h with
  | nil l data => exact ⟨by simp, by simp, .nil, by simp, by simp⟩
  | skip hx _ ih =>
    obtain ⟨-, -, -, -, -, hpaid⟩ := SettlePayoutBatch.checkEntry_ok hx
    refine ⟨ih.lottery, ih.page, ih.nodup, fun i hi ↦ ?_, fun y hy ↦ ?_⟩
    · obtain ⟨hp, hlt, hno, hmem⟩ := ih.subset i hi
      exact ⟨hp, hlt, hno, List.mem_cons_of_mem _ hmem⟩
    · rcases List.mem_cons.mp hy with rfl | hy
      · rw [ih.lottery, hpaid, Bool.true_or]
      · exact ih.paid y hy
  | @pay l l₁ l' data data₁ data' x xs fresh hx hm hl _ ih =>
    obtain ⟨hlt, hpage, -, -, -, hno⟩ := SettlePayoutBatch.checkEntry_ok hx
    have hpl := Lottery.isWinnerPaid_mark hl
    have hpp := WinnerPage.isPaid_mark hcount hm
    have hwc : l₁.winnersCount = l.winnersCount := by
      simp only [Lottery.markWinnerPaid, bind_eq_ok, rejectIf_eq_ok, exists_const, pure_eq_ok] at hl
      obtain ⟨-, rfl⟩ := hl
      rfl
    have hnew : x.index ∉ fresh := by
      intro hmem
      have := (ih.subset _ hmem).2.2.1
      rw [hpl] at this
      simp at this
    refine ⟨fun j ↦ ?_, fun j ↦ ?_, List.nodup_cons.mpr ⟨hnew, ih.nodup⟩, fun i hi ↦ ?_,
      fun y hy ↦ ?_⟩
    · rw [ih.lottery, hpl, Bool.or_assoc]
      simp
    · rw [ih.page, hpp, Bool.or_assoc]
      simp [eq_comm]
    · rcases List.mem_cons.mp hi with rfl | hi
      · exact ⟨hpage, hlt, hno, List.mem_cons_self⟩
      · obtain ⟨hp, hlt', hno', hmem⟩ := ih.subset i hi
        rw [hpl, Bool.or_eq_false_iff] at hno'
        exact ⟨hp, hwc ▸ hlt', hno'.1, List.mem_cons_of_mem _ hmem⟩
    · rcases List.mem_cons.mp hy with rfl | hy
      · rw [ih.lottery, hpl]
        simp
      · exact ih.paid y hy

theorem PayRun.Marks.paidWinners {page : WinnerPage K} {pageIndex : ℕ} {l l' : Lottery K}
    {data data' : PageData K} {xs : List (WinnerProof K)} {fresh : List ℕ}
    (h : PayRun.Marks page pageIndex l data xs l' data' fresh) :
    l'.paidWinners = l.paidWinners ∪ fresh.toFinset ∧
      l'.paidWinners.card = l.paidWinners.card + fresh.length := by
  have hset : l'.paidWinners = l.paidWinners ∪ fresh.toFinset := by
    ext j
    rw [Finset.mem_union, Lottery.mem_paidWinners, Lottery.mem_paidWinners, h.lottery,
      Bool.or_eq_true, decide_eq_true_iff, List.mem_toFinset]
  have hdisj : Disjoint l.paidWinners fresh.toFinset := by
    rw [Finset.disjoint_right]
    intro j hj
    rw [Lottery.mem_paidWinners, (h.subset j (List.mem_toFinset.mp hj)).2.2.1]
    decide
  refine ⟨hset, ?_⟩
  rw [hset, Finset.card_union_of_disjoint hdisj, List.toFinset_card_of_nodup h.nodup]

/-- The two bitmaps agree, and the settlement is complete once every winner is paid. -/
structure Paid (r : Round K) : Prop where
  agree : r.lottery.winnersCount ≠ 0 → ∀ i page data, r.pages i = some (page, data) →
    ∀ j < page.count, page.isPaid data j = r.lottery.isWinnerPaid (i * winnersPerPage + j)
  complete : r.lottery.winnersCount ≠ 0 →
    (r.lottery.settlementComplete = true ↔ r.lottery.allWinnersPaid = true)

namespace Paid

theorem same (h : r.Paid) (hpages : r'.pages = r.pages)
    (hwc : r'.lottery.winnersCount = r.lottery.winnersCount)
    (hbits : r'.lottery.paidWinnersBitmap = r.lottery.paidWinnersBitmap)
    (hsc : r'.lottery.settlementComplete = r.lottery.settlementComplete) : r'.Paid := by
  have hpaid (j : ℕ) : r'.lottery.isWinnerPaid j = r.lottery.isWinnerPaid j := by
    rw [Lottery.isWinnerPaid_eq, Lottery.isWinnerPaid_eq, hwc, hbits]
  have hall : r'.lottery.allWinnersPaid = r.lottery.allWinnersPaid := by
    simp only [Lottery.allWinnersPaid, hwc, hpaid]
  refine ⟨?_, ?_⟩
  · rw [hwc, hpages]
    simp only [hpaid]
    exact h.agree
  · rw [hwc, hsc, hall]
    exact h.complete

theorem of_undecided (h : r.lottery.winnersCount = 0) : r.Paid :=
  ⟨fun hne ↦ absurd h hne, fun hne ↦ absurd h hne⟩

theorem init (h : r.Created rt) : r.Paid := by
  obtain ⟨id, config, authority, vault, bump, bps, price, hnew, -, -⟩ := h.lottery
  obtain ⟨-, -, -, -, -, -, -, -, -, -, -, -, -, -, -, -, -, hwc, -⟩ := Lottery.new_ok hnew
  exact of_undecided hwc

theorem agree_pays {ws : List (SelectedWinner K)} {winners : List (WinnerProof K)} {pageIndex : ℕ}
    {page : WinnerPage K} {l : Lottery K} {data : PageData K} {fresh : List ℕ} (h : r.Paid)
    (hpages : Paged r.key r.pages ws) (hp : r.Pays winners pageIndex page l data fresh) :
    ∀ i page₁ data₁, Function.update r.pages pageIndex (some (page, data)) i = some (page₁, data₁) →
      ∀ j < page₁.count, page₁.isPaid data₁ j = l.isWinnerPaid (i * winnersPerPage + j) := by
  obtain ⟨old, hpage, hrun⟩ := hp.page_eq
  have hcount : page.count ≤ winnersPerPage := by
    rw [(hpages.page _ _ _ hpage).2.2.2.1]
    exact min_le_left _ _
  have hmarks := hrun.marks hcount
  intro i page₁ data₁ hp₁ j hj
  rw [hmarks.lottery]
  rw [Function.update_apply] at hp₁
  split at hp₁
  · next hi =>
    cases hp₁
    subst hi
    rw [hmarks.page, h.agree hp.winners_pos _ _ _ hpage j hj]
    congr 1
    rw [decide_eq_decide]
    constructor
    · rintro ⟨m, hm, hmj⟩
      have hdiv := (hmarks.subset m hm).1
      have hmi : i * winnersPerPage + j = m := by
        rw [← hmj, ← hdiv, Nat.mul_comm]
        exact Nat.div_add_mod _ _
      rwa [hmi]
    · intro hm
      refine ⟨_, hm, ?_⟩
      rw [Nat.mul_comm, Nat.mul_add_mod, Nat.mod_eq_of_lt (hj.trans_le hcount)]
  · next hi =>
    have hcount₁ : page₁.count ≤ winnersPerPage := by
      rw [(hpages.page _ _ _ hp₁).2.2.2.1]
      exact min_le_left _ _
    rw [h.agree hp.winners_pos _ _ _ hp₁ j hj, decide_eq_false, Bool.or_false]
    intro hm
    have hdiv := (hmarks.subset _ hm).1
    rw [Nat.mul_comm, Nat.mul_add_div (by decide), Nat.div_eq_of_lt (hj.trans_le hcount₁)] at hdiv
    exact hi hdiv

theorem step (h : r.Paid) (hr : Progress rt r) (hs : r.Step rt r') :
    r'.Paid := by
  cases hs with
  | refl => exact h
  | tick => exact h.same rfl rfl rfl rfl
  | reconfigure => exact h.same rfl rfl rfl rfl
  | deposit => exact h.same rfl rfl rfl rfl
  | buyFirst => exact h.same rfl rfl rfl rfl
  | buyMore => exact h.same rfl rfl rfl rfl
  | beginReveal _ _ _ _ _ _ _ _ _ hopen =>
    obtain rfl := BeginRevealPhase.openWindow_ok hopen
    rw [BeginRevealPhase.autoComplete_eq]
    exact h.same rfl rfl rfl rfl
  | attestUploaded =>
    rw [Lottery.countAttestation_eq]
    exact h.same rfl rfl rfl rfl
  | attestReveal _ _ _ _ _ _ _ hrec _ _ hconc =>
    obtain ⟨-, rfl⟩ := AttestReveal.recordReveal_ok hrec
    obtain rfl := AttestReveal.conclude_ok hconc
    exact h.same rfl rfl rfl rfl
  | uploadReveals hadmit _ _ hinc =>
    obtain ⟨-, -, -, -, -, -, -, rfl⟩ := UploadReveals.checkPhase_ok hadmit
    obtain ⟨-, rfl⟩ := UploadReveals.includeUploads_ok hinc
    exact h.same rfl rfl rfl rfl
  | beginRemediation _ _ _ _ _ _ hrem =>
    obtain ⟨-, rfl⟩ | ⟨-, rfl⟩ := Lottery.beginRemediation_ok hrem
    all_goals exact h.same rfl rfl rfl rfl
  | aggregate _ _ _ _ _ hend =>
    split at hend
    · obtain ⟨_, _, _, _, _, _, _, rfl, -⟩ := FinalizeWinners.finishAggregation_ok hend
      exact h.same rfl rfl rfl rfl
    · cases hend
      exact h.same rfl rfl rfl rfl
  | select => exact h.same rfl rfl rfl rfl
  | @selectLast chunk ps root root₁ root' winner page data l hfin hph _ _ _ _ happ _ hnext =>
    cases hr with
    | waiting hl => simp [openLedger, hl, FinalizationLedger.new] at hph
    | aggregating hl _ _ _ hst => simp [openLedger, hl, hst.phase] at hph
    | completed hl _ _ hst => simp [openLedger, hl, hst.phase] at hph
    | selecting hl hw hp hu =>
      rcases FinalizeWinners.nextRound_ok hnext with ⟨-, hcomp⟩ | ⟨-, rfl, -⟩
      · obtain ⟨fee, bitmap, -, hne, -, -, hclear, rfl, -⟩ :=
          FinalizeWinners.completeFinalization_ok hcomp
        have hno (j : ℕ) : Lottery.isWinnerPaid { r.lottery with
          winnersMerkleRoot := root₁.winnersCommitment
          winnersCount := root₁.selectedCount
          totalPayout := (r.lottery.totalFunds - fee) / root₁.selectedCount * root₁.selectedCount
          paidWinnersBitmap := bitmap
          settlementStartUnix := if r.lottery.settlementStartUnix = 0 then r.now
            else r.lottery.settlementStartUnix } j = false :=
          Lottery.isWinnerPaid_cleared hclear ⟨rfl, rfl⟩ j
        refine ⟨fun _ i page₁ data₁ hp₁ j _ ↦ ?_, fun _ ↦ ?_⟩
        · rw [hno, WinnerPage.isPaid_of_zeros (unpaid_append hu happ i page₁ data₁ hp₁)]
        · refine iff_of_false ?_ ?_
          · exact fun hc ↦ absurd (hfin.not_complete.symm.trans hc) (by decide)
          · rw [Lottery.allWinnersPaid_iff hne]
            intro hset
            have hmem := hset.symm ▸ Finset.mem_range.mpr (Nat.pos_of_ne_zero hne)
            rw [Lottery.mem_paidWinners, hno] at hmem
            cases hmem
      · exact of_undecided hw
  | @payBatch winners pageIndex page l data fresh hpays hnot =>
    obtain ⟨old, hpage, hrun⟩ := hpays.page_eq
    cases hr with
    | waiting _ hw => exact absurd hw hpays.winners_pos
    | aggregating _ hw => exact absurd hw hpays.winners_pos
    | selecting _ hw => exact absurd hw hpays.winners_pos
    | completed hl hd hp hst =>
      have hagree := h.agree_pays hp hpays
      obtain ⟨bitmap, rfl⟩ := hrun.lottery
      refine ⟨fun _ ↦ hagree, fun _ ↦ iff_of_false ?_ (by simpa using hnot)⟩
      exact fun hc ↦ absurd (hpays.not_complete.symm.trans hc) (by decide)
  | @payLast winners pageIndex page l l' data fresh fee hpays _ _ hcomp =>
    obtain ⟨old, hpage, hrun⟩ := hpays.page_eq
    have hall := Lottery.allWinnersPaid_of_completeSettlement hcomp
    obtain rfl := Lottery.completeSettlement_ok hcomp
    cases hr with
    | waiting _ hw => exact absurd hw hpays.winners_pos
    | aggregating _ hw => exact absurd hw hpays.winners_pos
    | selecting _ hw => exact absurd hw hpays.winners_pos
    | completed hl hd hp hst =>
      have hagree := h.agree_pays hp hpays
      exact ⟨fun _ ↦ hagree, fun _ ↦ iff_of_true rfl hall⟩
  | finalizeNoAttesters => exact h.same rfl rfl rfl rfl
  | claimRefund => exact h.same rfl rfl rfl rfl
  | closeRefundVault => exact h.same rfl rfl rfl rfl

end Paid

end Round

end DailyLottery
