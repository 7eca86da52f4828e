import DailyLottery.Runs.Payouts
import DailyLottery.Runs.Payable

set_option linter.unusedSectionVars false

namespace DailyLottery

open Lib Ballot

variable {K : Type} [DecidableEq K] [Inhabited K] {rt : Runtime K} {acts : List (Action K)}
  {w w' : World K} {ws : List (World K)} {id : ℕ} {l : Lottery K} {root : FinalizationLedger K}

theorem payable (h : (system rt).History acts (w :: ws))
    (hl : (w.view rt id .lottery).data = .lottery l) (hwc : l.winnersCount ≠ 0)
    (hsc : l.settlementComplete = false) :
    Payable rt id w l ∧ ∃ b, (w.view rt id .vault).data = .vault b := by
  obtain ⟨c, hm⟩ := mounted h hl
  obtain ⟨r, -, hi, hr, rfl, -⟩ := represented h hl
  obtain ⟨root, hroot, hph⟩ := hi.progress.of_decided hwc
  obtain ⟨winners, hdec, hpages, hstate⟩ := hi.progress.of_completed hroot hph
  obtain ⟨rest, hdraw⟩ := hstate.drawn
  have hsplit := hdec.splits hi.configured.serviceCharge ⟨rfl, rfl⟩
  have hlen : (winners.map selected).length = r.lottery.winnersCount := by
    rw [List.length_map, Contest.draw_length hdraw, hdec.winnersCount]
  have hopen : r.vaultClosed = false := by
    by_contra hcl
    have := (hi.funded.closed (by simpa using hcl)).2.2 hwc
    simp [hsc] at this
  have hvault := hi.funded.vault hopen
  rw [Round.owed, if_neg hwc] at hvault
  refine ⟨⟨?_, ?_, ?_, fun i page data hp ↦ ?_, fun i hlt ↦ ?_⟩,
    hr.vault.resolve_right fun he ↦ by simp [hopen] at he⟩
  · have hle : r.contest.target ≤ (pool r.books.ballots).length := min_le_right _ _
    have hpool : (pool r.books.ballots).length ≤ r.books.ballots.length := List.length_filter_le _ _
    have hmax := hi.books.enrolled.le
    rw [← hi.books.enrolled.length] at hmax
    have hsize : Sizes.maxParticipants < 2 ^ 32 := by decide
    rw [hdec.winnersCount]
    omega
  · have hlt : r.lottery.totalFunds < 2 ^ 64 := hi.books.enrolled.funds_lt
    exact hsplit.fee_le.trans_lt hlt
  · have hsum := hsplit.sum
    have hper : r.lottery.totalPayout / r.lottery.winnersCount = r.lottery.perWinner := rfl
    rw [hper] at hvault
    rw [hr.lamports]
    omega
  · have hpage := hpages.page i page data (hr.eq_page hp)
    have hs := (hm.typed.fits id).holds (s := .winnerPage i) (by simp [hp])
    rw [hp] at hs
    refine ⟨hs.1, hs.2.1, ?_, hs.2.2, hi.paid.agree hwc i page data (hr.eq_page hp)⟩
    rw [hpage.2.2.2.1]
    exact min_le_left _ _
  · have hat := hr.winnerAt_eq hpages i
    rw [List.getElem?_eq_getElem (by omega), winnerAt] at hat
    split at hat
    · next page data hp => exact ⟨page, data, _, hp, hat⟩
    · cases hat

theorem winners_wallets (h : (system rt).History acts (w :: ws))
    (hl : (w.view rt id .lottery).data = .lottery l) (hwc : l.winnersCount ≠ 0) :
    ∃ wallets : List K, wallets.Nodup ∧ wallets.length = l.winnersCount ∧
      (∀ k ∈ wallets, rt.Foreign k) ∧
      ∀ i, (winnerAt rt id w i).map SelectedWinner.wallet = wallets[i]? := by
  obtain ⟨r, -, hi, hr, rfl, -⟩ := represented h hl
  obtain ⟨root, hroot, hph⟩ := hi.progress.of_decided hwc
  obtain ⟨winners, hdec, hpages, hstate⟩ := hi.progress.of_completed hroot hph
  obtain ⟨rest, hdraw⟩ := hstate.drawn
  refine ⟨winners.map Ballot.wallet, Contest.draw_wallets hi.books.enrolled.wallets hdraw, ?_, ?_,
    fun i ↦ ?_⟩
  · rw [List.length_map, Contest.draw_length hdraw, hdec.winnersCount]
  · intro k hk
    obtain ⟨x, hx, rfl⟩ := List.mem_map.mp hk
    obtain ⟨p, hp, rfl⟩ := List.mem_map.mp (Contest.draw_mem hdraw hx).1
    exact hr.roster.foreign p hp
  · rw [hr.winnerAt_eq hpages, List.getElem?_map, List.getElem?_map, Option.map_map]
    rfl

theorem card_indicesOf {wallets : List K} (hnd : wallets.Nodup)
    (hat : ∀ i, (winnerAt rt id w i).map SelectedWinner.wallet = wallets[i]?) {i : ℕ} {k : K}
    (hi : wallets[i]? = some k) (s : Finset ℕ) :
    (indicesOf rt id w s k).card = if i ∈ s then 1 else 0 := by
  have hlt : i < wallets.length := (List.getElem?_eq_some_iff.mp hi).1
  have hset : indicesOf rt id w s k = s.filter fun j ↦ i = j := by
    refine Finset.filter_congr fun j _ ↦ ?_
    rw [hat, ← hi]
    constructor
    · exact fun he ↦ (List.getElem?_inj hlt hnd).mp he.symm
    · rintro rfl
      rfl
  rw [hset, Finset.filter_eq]
  split <;> rfl

theorem card_indicesOf_of_notMem {wallets : List K} {k : K} (hk : k ∉ wallets)
    (hat : ∀ i, (winnerAt rt id w i).map SelectedWinner.wallet = wallets[i]?) (s : Finset ℕ) :
    (indicesOf rt id w s k).card = 0 := by
  rw [Finset.card_eq_zero, indicesOf, Finset.filter_eq_empty_iff]
  intro i _ he
  rw [hat] at he
  exact hk (List.mem_of_getElem? he)

/-- What the payout batches of a run did for the winners, and what a batch can still do. -/
structure PaidOnce (rt : Runtime K) (id : ℕ) (acts : List (Action K)) (w : World K)
    (ws : List (World K)) (l : Lottery K) : Prop where
  winner : ∀ i < l.winnersCount, ∃ winner, winnerAt rt id w i = some winner ∧
    ((∃ a ∈ acts, a.Covers rt id i) →
      (payoutsTo rt id winner.wallet acts (w :: ws)).sum = l.perWinner) ∧
    ((∀ a ∈ acts, ¬a.Covers rt id i) → (payoutsTo rt id winner.wallet acts (w :: ws)).sum = 0)
  others : ∀ k, rt.Foreign k → (∀ i, (winnerAt rt id w i).map SelectedWinner.wallet ≠ some k) →
    (payoutsTo rt id k acts (w :: ws)).sum = 0
  agree : ∀ i < l.winnersCount, ∃ page data,
    (w.view rt id (.winnerPage (i / winnersPerPage))).data = .winnerPage page data ∧
      page.isPaid data (i % winnersPerPage) = l.isWinnerPaid i
  accepted : ∀ pre n batch winners accounts, CallsOn rt accounts id →
    processInstruction rt w pre (.settlePayoutBatch n batch winners) accounts =
      .error Error.invalidAccountData → ∃ ai, accounts[4]? = some ai ∧ ai.key ≠ default
  complete : l.settlementComplete = true ↔ ∀ i < l.winnersCount, ∃ a ∈ acts, a.Covers rt id i
  live : l.settlementComplete = false → ∀ i < l.winnersCount, l.isWinnerPaid i = false →
    ∃ a w' l', a.Covers rt id i ∧ Step rt w a w' ∧ (w'.view rt id .lottery).data = .lottery l' ∧
      l'.isWinnerPaid i = true

/-- Every winner is paid exactly once and nobody else is, and whoever is unpaid can be paid. -/
theorem winners_paid_once (h : (system rt).History acts (w :: ws))
    (hl : (w.view rt id .lottery).data = .lottery l)
    (hroot : (w.view rt id .finalizationRoot).data = .finalizationLedger root)
    (hph : root.phase = .completed) : PaidOnce rt id acts w ws l := by
  obtain ⟨c, hm⟩ := mounted h hl
  obtain ⟨r, -, hi, hr, rfl, -⟩ := represented h hl
  have hwc : r.lottery.winnersCount ≠ 0 := by
    obtain ⟨_, hdec, -, -⟩ := hi.progress.of_completed (hr.eq_ledger hroot) hph
    rw [hdec.winnersCount]
    exact hdec.target_pos.ne'
  obtain ⟨wallets, hnd, hlen, hforeign, hat⟩ := winners_wallets h hl hwc
  have hout := paidOut h hl hwc
  have hpay := fun hsc ↦ payable h hl hwc hsc
  have hwinner (i : ℕ) (hlt : i < r.lottery.winnersCount) :
      ∃ winner, winnerAt rt id w i = some winner ∧ wallets[i]? = some winner.wallet := by
    obtain ⟨winner, hw, hk⟩ := Option.map_eq_some_iff.mp
      ((hat i).trans (List.getElem?_eq_getElem (hlen.symm ▸ hlt)))
    exact ⟨winner, hw, by rw [← hat, hw]; rfl⟩
  refine ⟨fun i hlt ↦ ?_, fun k hk hno ↦ ?_, fun i hlt ↦ ?_, ?_, ?_, fun hsc i hlt hun ↦ ?_⟩
  · obtain ⟨winner, hw, hk⟩ := hwinner i hlt
    have hsum := hout.sum winner.wallet (hforeign _ (List.mem_of_getElem? hk))
    rw [card_indicesOf hnd hat hk] at hsum
    refine ⟨winner, hw, fun hcov ↦ ?_, fun hno ↦ ?_⟩
    · rw [hsum, if_pos ((hout.covered i hlt).mpr hcov), Nat.mul_one]
    · have hnot : i ∉ r.lottery.paidWinners := by
        rw [hout.covered i hlt]
        rintro ⟨a, ha, hc⟩
        exact hno a ha hc
      rw [hsum, if_neg hnot, Nat.mul_zero]
  · have hnot : k ∉ wallets := by
      intro hmem
      obtain ⟨i, hi⟩ := List.getElem?_of_mem hmem
      exact hno i ((hat i).trans hi)
    rw [hout.sum k hk, card_indicesOf_of_notMem hnot hat, Nat.mul_zero]
  · obtain ⟨winner, hw, -⟩ := hwinner i hlt
    rw [winnerAt] at hw
    split at hw
    · next page data hp =>
      have hcount := SettlePayoutBatch.winner_lt hw
      have hagree := hi.paid.agree hwc _ page data (hr.eq_page hp) _ hcount
      rw [Nat.div_add_mod'] at hagree
      exact ⟨page, data, hp, hagree⟩
    · cases hw
  · intro pre n batch winners accounts hon he
    rcases SettlePayoutBatch.process_error hm (fun _ hsc ↦ (hpay hsc).1) hon he with hb | ⟨-, hai⟩
    · exact absurd rfl hb.1
    · exact hai
  · rw [hi.paid.complete hwc, Lottery.allWinnersPaid_iff hwc, Finset.ext_iff]
    constructor
    · intro hall i hlt
      exact (hout.covered i hlt).mp ((hall i).mpr (Finset.mem_range.mpr hlt))
    · intro hall i
      refine ⟨fun hmem ↦ r.lottery.paidWinners_subset hmem, fun hmem ↦ ?_⟩
      have hlt := Finset.mem_range.mp hmem
      exact (hout.covered i hlt).mpr (hall i hlt)
  · obtain ⟨hp, b, hv⟩ := hpay hsc
    obtain ⟨page, data, winner, hd, hw⟩ := hp.winner i hlt
    obtain ⟨w', hok⟩ := SettlePayoutBatch.succeeds 0 hm hv hp hsc hlt hun hd hw
    have hs : Step rt w (.instruction [] (.settlePayoutBatch id 0
        [⟨i, winner.wallet, r.lottery.perWinner, []⟩]) (SettlePayoutBatch.accounts rt id c.authority
          (i / winnersPerPage) winner.wallet)) w' := .instruction SettlePayoutBatch.accounts_keys hok
    have hon : CallsOn rt (SettlePayoutBatch.accounts rt id c.authority (i / winnersPerPage)
        winner.wallet) id := rfl
    obtain ⟨l, authority, l', fresh, hpays⟩ := hs.paysOut h hon
    cases hpays.before.symm.trans hl
    refine ⟨_, w', l', ⟨[], _, _, _, _, rfl, hon, by simp⟩, hs, hpays.after, ?_⟩
    exact Lottery.mem_paidWinners.mp (hpays.all i (by simp) hlt)

/-- Two winners, the first of them named twice in one batch and the second still unpaid. -/
theorem winners_paid_once_sample :
    ∃ (acts : List (Action Sample.Key)) (w : World Sample.Key) (ws : List (World Sample.Key))
      (l : Lottery Sample.Key), (system Sample.rt).History acts (w :: ws) ∧
      (w.view Sample.rt 1 .lottery).data = .lottery l ∧ l.winnersCount = 2 ∧
      l.isWinnerPaid 0 = true ∧ l.isWinnerPaid 1 = false ∧
      PaidOnce Sample.rt 1 acts w ws l := by
  obtain ⟨w, ws, l, h, hl, hp⟩ := Sample.run_lottery
    [Sample.configure 1000 500 10, Sample.create 1, Sample.buy 1 20 1, Sample.buy 1 21 1,
      Sample.buy 1 22 1, .tick (1000 + 24 * 60 * 60), Sample.attest 1 20 2, Sample.attest 1 21 2,
      .tick (1000 + 72 * 60 * 60), Sample.finalize 1 0 [20, 21, 22],
      Sample.finalize 1 0 [20, 21, 22], Sample.finalize 1 0 [20, 21, 22],
      Sample.pay 1 0 1425 [(0, 21), (0, 21)]] 1
    (fun w l ↦ decide (l.winnersCount = 2 ∧ l.isWinnerPaid 0 = true ∧ l.isWinnerPaid 1 = false) &&
      (Sample.ledgerOf w 1).any fun root ↦
        decide (FinalizationLedger.phase root = FinalizationPhase.completed)) (by decide +kernel)
  obtain ⟨hl', hroot⟩ := Bool.and_eq_true_iff.mp hp
  obtain ⟨hwc, h₀, h₁⟩ := of_decide_eq_true hl'
  obtain ⟨root, hr, hph⟩ := (Option.any_eq_true _ _).mp hroot
  exact ⟨_, w, ws, l, h, hl, hwc, h₀, h₁, winners_paid_once h hl (unwrap_finalizationLedger.mp hr)
    (of_decide_eq_true hph)⟩

end DailyLottery
