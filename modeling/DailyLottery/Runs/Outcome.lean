import DailyLottery.Runs.Refunds

set_option linter.unusedSectionVars false

namespace DailyLottery

open Lib

variable {K : Type} [DecidableEq K] [Inhabited K] {rt : Runtime K} {acts : List (Action K)}
  {w w' : World K} {ws : List (World K)} {id : ℕ} {l l' : Lottery K} {r : Round K}
  {ix : Instruction K} {accounts : List (AccountInfo K)} {now : ℤ}

theorem Lottery.Change.of_settled (h : l.Change rt now ix l') (hset : l.settled = true)
    (hpaid : l.winnersCount ≠ 0 → l.settlementComplete = true) :
    ix = .claimRefund ∧ l.winnersCount = 0 ∧ l' = l.countRefund := by
  cases h with
  | buyTickets hb => simp [hb.not_settled] at hset
  | beginReveal hns => simp [hns] at hset
  | attestUploaded ha => simp [(Lottery.phase_upload ha.phase).1] at hset
  | attestReveal ha => simp [(Lottery.phase_upload ha.phase).1] at hset
  | uploadReveals hadmit => simp [(UploadReveals.checkPhase_ok hadmit).2.2.1] at hset
  | finalizeWinners hns => simp [hns] at hset
  | settlePayoutBatch hsc hwc => simp [hpaid hwc] at hsc
  | finalizeNoAttesters hns => simp [hns] at hset
  | claimRefund _ hwc => exact ⟨rfl, hwc, rfl⟩

/-- The winners, their pages and what they get are as in `w`. -/
structure SameWinners (rt : Runtime K) (id : ℕ) (w w' : World K) : Prop where
  lottery : ∀ l, (w.view rt id .lottery).data = .lottery l →
    ∃ l', (w'.view rt id .lottery).data = .lottery l' ∧ l'.winnersCount = l.winnersCount ∧
      l'.totalPayout = l.totalPayout ∧ l'.winnersMerkleRoot = l.winnersMerkleRoot
  missing : ∀ i, (w.view rt id (.winnerPage i)).data = .empty →
    (w'.view rt id (.winnerPage i)).data = .empty
  page : ∀ i page data, (w.view rt id (.winnerPage i)).data = .winnerPage page data →
    ∃ data', (w'.view rt id (.winnerPage i)).data = .winnerPage page data' ∧
      ∀ j, page.winner data' j = page.winner data j

/-- The lottery, its ledger, its pages and its tally are as in `w`, a claimed refund aside. -/
structure Still (rt : Runtime K) (id : ℕ) (w : World K) (l : Lottery K) (a : Action K)
    (w' : World K) : Prop where
  lottery : (w'.view rt id .lottery).data = .lottery l ∨
    l.winnersCount = 0 ∧ (w'.view rt id .lottery).data = .lottery l.countRefund ∧
      ∃ pre accounts, a = .instruction pre .claimRefund accounts ∧ CallsOn rt accounts id
  ledger : (w'.view rt id .finalizationRoot).data = (w.view rt id .finalizationRoot).data
  pages : ∀ i, (w'.view rt id (.winnerPage i)).data = (w.view rt id (.winnerPage i)).data
  tally : (w'.view rt id .voteTally).data = (w.view rt id .voteTally).data

/-- Settled for good, one way or the other. -/
structure Irrevocable (rt : Runtime K) (id : ℕ) (acts : List (Action K)) (w : World K)
    (ws : List (World K)) (l : Lottery K) : Prop where
  exclusive : ∀ pre accounts, .instruction pre .claimRefund accounts ∈ acts →
    CallsOn rt accounts id →
    ∀ pre' i batch winners accounts',
      .instruction pre' (.settlePayoutBatch i batch winners) accounts' ∈ acts →
      ¬CallsOn rt accounts' id
  ledger : (w.view rt id .finalizationRoot).data ≠ .empty →
    ∀ as w', (system rt).Path w as w' → ¬∃ w'', Cancels rt id w' w''
  cancelled : Cancelled rt id (w :: ws) → l.winnersCount = 0 ∧ l.totalPayout = 0
  decided : ∀ root, (w.view rt id .finalizationRoot).data = .finalizationLedger root →
    root.phase = .completed → ∀ as w', (system rt).Path w as w' → SameWinners rt id w w'
  settled : l.settled = true → ∀ a w', Step rt w a w' → Still rt id w l a w'
  status : l.getStatus = .settled ↔ l.settled = true

theorem cancelled_of_claim {pre : List (K × Bytes)} (h : (system rt).History acts (w :: ws))
    (hmem : .instruction pre .claimRefund accounts ∈ acts) (hon : CallsOn rt accounts id)
    (hl : (w.view rt id .lottery).data = .lottery l) : l.settled = true ∧ l.winnersCount = 0 := by
  obtain ⟨bs, ts, t, u, cs, hh, hs, hp⟩ := h.of_mem hmem
  have hsu : (system rt).History _ (u :: t :: ts) := hh.step hs
  cases hs with
  | instruction hsig hok =>
    obtain ⟨l₀, p, -, hon₀, -, -, -, hset, hwc, -, -, -, -, -, -, -, hv, -⟩ :=
      ClaimRefund.effect (consistent hh).typed hsig hok
    obtain rfl := hon.eq hon₀
    have hlu : (u.view rt l₀.id .lottery).data = .lottery l₀.countRefund := by rw [hv]; simp
    obtain ⟨r, hreach, -, hr, hrl, -⟩ := represented hsu hlu
    obtain ⟨ws', ds, r', -, -, hpath, -, hr'⟩ := represented_path hsu hp hr hreach
    obtain rfl := hr'.eq_lottery hl
    exact Round.cancelled_of_path hreach hpath (by rw [hrl]; exact ⟨hset, hwc⟩)

theorem winners_of_payout {pre : List (K × Bytes)} {i batch : ℕ} {winners : List (WinnerProof K)}
    (h : (system rt).History acts (w :: ws))
    (hmem : .instruction pre (.settlePayoutBatch i batch winners) accounts ∈ acts)
    (hon : CallsOn rt accounts id) (hl : (w.view rt id .lottery).data = .lottery l) :
    l.winnersCount ≠ 0 := by
  obtain ⟨bs, ts, t, u, cs, hh, hs, hp⟩ := h.of_mem hmem
  have hpath : (system rt).Path t _ w := .cons hs hp
  cases hs with
  | instruction hsig hok =>
    obtain ⟨l₀, c, hlt, hon₀, -, -, -, -, hcase⟩ :=
      SettlePayoutBatch.effect (consistent hh).typed hok
    obtain rfl := hon.eq hon₀
    obtain ⟨r, hreach, hi, hr, rfl, -⟩ := represented hh hlt
    have hwc : r.lottery.winnersCount ≠ 0 := by
      rcases hcase with ⟨hsc, -⟩ | ⟨_, _, _, _, _, _, _, _, _, hb⟩
      · exact (hi.routed.complete hsc).2
      · exact hb.winners_pos
    obtain ⟨root, hroot, hph⟩ := hi.progress.of_decided hwc
    obtain ⟨ws', ds, r', -, -, hpath', -, hr'⟩ := represented_path hh hpath hr hreach
    obtain rfl := hr'.eq_lottery hl
    rwa [(Round.SameOutcome.of_path hpath' hroot hph).winnersCount]

theorem Represents.sameWinners {acts' : List (Action K)} {ws' : List (World K)} {r' : Round K}
    (hr : Represents rt acts w ws id r) (hr' : Represents rt acts' w' ws' id r')
    (h : r.SameOutcome r') : SameWinners rt id w w' := by
  refine ⟨fun l hl ↦ ?_, fun i hi ↦ ?_, fun i page data hi ↦ ?_⟩
  · obtain rfl := hr.eq_lottery hl
    exact ⟨r'.lottery, hr'.lottery, h.winnersCount, h.totalPayout, h.winnersMerkleRoot⟩
  · have hnone : r.pages i = none := by
      cases hp : r.pages i with
      | none => rfl
      | some x => simp [hr.pages, hp] at hi
    rw [hr'.pages, h.missing i hnone]
    rfl
  · obtain ⟨data', hp', hw⟩ := h.page i page data (hr.eq_page hi)
    refine ⟨data', ?_, hw⟩
    rw [hr'.pages, hp']
    rfl

theorem Step.still {a : Action K} (h : (system rt).History acts (w :: ws)) (hs : Step rt w a w')
    (hl : (w.view rt id .lottery).data = .lottery l) (hset : l.settled = true) :
    Still rt id w l a w' := by
  have hc := consistent h
  obtain ⟨r, hreach, hi, hr, rfl, -⟩ := represented h hl
  obtain ⟨r', hst, hr'⟩ := hc.follow hs hr hi
  have hrests := hi.rests hset hst
  refine ⟨?_, ?_, fun i ↦ ?_, ?_⟩
  · by_cases hinst : ∃ pre ix accounts, a = .instruction pre ix accounts
    · obtain ⟨pre, ix, accounts, rfl⟩ := hinst
      obtain ⟨l', hl', rfl | ⟨hon, hch⟩⟩ := (hs.changes hc id).lottery _ hl
      · exact .inl hl'
      · obtain ⟨rfl, hwc, rfl⟩ := hch.of_settled hset (hi.routed.paying hset)
        exact .inr ⟨hwc, hl', pre, accounts, rfl, hon⟩
    · have hinst : ∀ pre ix accounts, a ≠ .instruction pre ix accounts := by
        rintro pre ix accounts rfl
        exact hinst ⟨pre, ix, accounts, rfl⟩
      have hd := (hs.environment hinst id .lottery).resolve_right (by simp [hr'.lottery])
      exact .inl (hd.trans hl)
  · rw [hr'.ledger, hrests.ledger, hr.ledger]
  · rw [hr'.pages, hrests.pages, hr.pages]
  · rw [hr'.tally, hrests.tally, hr.tally]

/-- Refunds and payouts exclude each other, and what is decided stays. -/
theorem outcome_irrevocable (h : (system rt).History acts (w :: ws))
    (hl : (w.view rt id .lottery).data = .lottery l) : Irrevocable rt id acts w ws l := by
  obtain ⟨r, hreach, hi, hr, rfl, -⟩ := represented h hl
  refine ⟨?_, fun hne as w' hp ↦ ?_, fun hc ↦ ?_, fun root hroot hph as w' hp ↦ ?_, ?_,
    hi.routed.status⟩
  · intro pre accounts hmem hon pre' i batch winners accounts' hmem' hon'
    exact winners_of_payout h hmem' hon' hl (cancelled_of_claim h hmem hon hl).2
  · rintro ⟨w'', hcan⟩
    obtain ⟨ws', ds, r', hh', -, hpath, hreach', hr'⟩ := represented_path h hp hr hreach
    have hledger : r'.ledger ≠ none := by
      refine (Round.Onward.of_path hreach hpath).ledger fun hnone ↦ hne ?_
      rw [hr.ledger, hnone]
      rfl
    have hseal := (Round.invariant hreach').routed.sealed_of_ledger hledger
    obtain ⟨-, -, hatt | hexp, -⟩ := hcan.guards (consistent hh').typed hr'.lottery
    · exact hseal.attested hatt
    · have hmiss := (Lottery.remediationExpired_eq_true.mp hexp).2
      have hno : r'.lottery.hasMissingAttestedReveals = false := hseal.no_missing
      simp [hno] at hmiss
  · obtain ⟨l, hl', -, hwc⟩ := hc.settled h
    obtain rfl := hr.eq_lottery hl'
    exact ⟨hwc, hi.routed.payout hwc⟩
  · obtain ⟨ws', ds, r', -, -, hpath, -, hr'⟩ := represented_path h hp hr hreach
    exact hr.sameWinners hr' (.of_path hpath (hr.eq_ledger hroot) hph)
  · exact fun hset a w' hs ↦ hs.still h hl hset

/-- Two participants, one of them attests, wins and is paid. -/
theorem outcome_irrevocable_sample :
    ∃ (acts : List (Action Sample.Key)) (w : World Sample.Key) (ws : List (World Sample.Key))
      (l : Lottery Sample.Key), (system Sample.rt).History acts (w :: ws) ∧
      (w.view Sample.rt 1 .lottery).data = .lottery l ∧ l.winnersCount = 1 ∧ l.settled = true ∧
      Irrevocable Sample.rt 1 acts w ws l := by
  obtain ⟨w, ws, l, h, hl, hp⟩ := Sample.run_lottery
    [Sample.configure 1000 500 10, Sample.create 1, Sample.buy 1 20 1, Sample.buy 1 21 1,
      .tick (1000 + 24 * 60 * 60), Sample.attest 1 20 1, .tick (1000 + 72 * 60 * 60),
      Sample.finalize 1 0 [20, 21], Sample.finalize 1 0 [20, 21], Sample.pay 1 0 1900 [(0, 20)]] 1
    (fun w l ↦ decide (l.winnersCount = 1 ∧ l.settled = true)) (by decide +kernel)
  obtain ⟨hwc, hset⟩ := of_decide_eq_true hp
  exact ⟨_, w, ws, l, h, hl, hwc, hset, outcome_irrevocable h hl⟩

end DailyLottery
