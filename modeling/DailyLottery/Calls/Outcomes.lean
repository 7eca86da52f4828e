import DailyLottery.Calls.Complete
import DailyLottery.Calls.Unfailing

set_option linter.unusedSectionVars false

namespace DailyLottery

open Lib Ballot

variable {K : Type} [DecidableEq K] [Inhabited K] {rt : Runtime K} {acts as : List (Action K)}
  {w w' : World K} {ws : List (World K)} {id : ℕ} {l : Lottery K} {r : Round K} {k : Contest K}
  {payer : K}

namespace Contest

variable (rt k) in
/-- No draw of the contest has all its nonces rejected. -/
def NoncesSuffice : Prop :=
  ∀ n < k.target, ∀ winners rest, k.draw rt n = .ok (winners, rest) →
    ∃ nonce < 2 ^ 32, rejectionFloor (total Ballot.tickets rest) ≤ drawSample rt (k.seed rt) n nonce

theorem Bounded.remaining_ne_zero (hc : k.Bounded) {n : ℕ} {winners rest : List (Ballot K)}
    (hn : n < k.target) (h : k.draw rt n = .ok (winners, rest)) :
    total Ballot.tickets rest ≠ 0 := by
  have hle := draw_left hc.tickets_pos h
  have htarget : k.target ≤ (pool k.ballots).length := min_le_right _ _
  omega

theorem Bounded.draw_ok (hc : k.Bounded) (hnonces : k.NoncesSuffice rt) {n : ℕ}
    (hn : n ≤ k.target) : ∃ winners rest, k.draw rt n = .ok (winners, rest) := by
  induction n with
  | zero => exact ⟨_, _, rfl⟩
  | succ n ih =>
    obtain ⟨winners, rest, hdraw⟩ := ih (Nat.le_of_succ_le hn)
    have hne := hc.remaining_ne_zero hn hdraw
    obtain ⟨nonce, hlt, haccept⟩ := hnonces n hn winners rest hdraw
    cases hd : drawIndex rt (k.seed rt) n (total Ballot.tickets rest) with
    | error e =>
      simp only [drawIndex, bind_eq_error, rejectIf_eq_error, rejectIf_eq_ok] at hd
      obtain ⟨hz, -⟩ | ⟨-, -, hd⟩ := hd
      · exact absurd hz hne
      · have hreject := (drawLoop_eq_error.mp hd).2 nonce hlt
        rw [Nat.zero_add] at hreject
        exact absurd haccept (Nat.not_le.mpr hreject)
    | ok d =>
      have hlt := drawIndex_lt rt hd
      obtain ⟨winner, hpick⟩ : ∃ winner, pick Ballot.tickets rest d = some winner := by
        apply Option.ne_none_iff_exists'.mp
        rw [Ne, pick_eq_none_iff]
        omega
      exact ⟨_, _, drawRounds_succ hdraw hd hpick⟩

theorem nonces_of_draw {x : List (Ballot K) × List (Ballot K)}
    (h : k.draw rt k.target = .ok x) : k.NoncesSuffice rt := by
  intro n hn winners rest hdraw
  cases hd : drawIndex rt (k.seed rt) n (total Ballot.tickets rest) with
  | error e =>
    have herr := drawRounds_error (drawRounds_succ_error hdraw hd) (Nat.succ_le_of_lt hn)
    cases h.symm.trans herr
  | ok d =>
    simp only [drawIndex, bind_eq_ok] at hd
    obtain ⟨-, -, hd⟩ := hd
    obtain ⟨nonce, hlt, -, haccept, -⟩ := drawLoop_eq_ok.mp hd
    rw [Nat.zero_add] at haccept
    exact ⟨nonce, hlt, haccept⟩

/-- The outcome in one go exists where the nonces suffice and there is a lamport for each winner. -/
theorem Bounded.outcome_iff (hc : k.Bounded) (hpool : pool k.ballots ≠ []) :
    (∃ o, k.outcome rt = .ok o) ↔
      k.NoncesSuffice rt ∧ k.target ≤ k.totalFunds - k.serviceFee := by
  constructor
  · rintro ⟨o, ho⟩
    refine ⟨?_, (outcome_ok ho).2⟩
    simp only [outcome, bind_eq_ok] at ho
    obtain ⟨x, hdraw, -⟩ := ho
    exact nonces_of_draw hdraw
  · rintro ⟨hnonces, hfunds⟩
    obtain ⟨winners, rest, hdraw⟩ := hc.draw_ok hnonces le_rfl
    have hone := hc.one_le_target hpool
    have hpass : rejectIf (k.target = 0 ∨ k.totalFunds - k.serviceFee < k.target)
        (Error.insufficientFunds : ProgramError) = .ok () := by
      rw [rejectIf_eq_ok]
      omega
    simp only [outcome, exists_bind_eq_ok]
    exact ⟨_, hdraw, _, hpass, _, rfl⟩

end Contest

theorem Sealing.outcome_iff (hk : Sealing rt id k acts (w :: ws) r) :
    (∃ o, k.outcome rt = .ok o) ↔
      k.NoncesSuffice rt ∧ k.target ≤ k.totalFunds - k.serviceFee := by
  have hi := Round.invariant hk.reachable
  rw [← hk.contest]
  exact (hi.bounded hk.sealed).outcome_iff (hi.pool_ne_nil hk.sealed)

/-- Where nobody sent lamports to an account a finalization still has to create, it can be completed
if and only if no draw runs out of nonces and there is a lamport for each winner. Then every call
with the participants that come next goes through, and those of one payer are enough; otherwise the
lottery is never settled. -/
theorem finalization_finishes_iff (h : (system rt).History acts (w :: ws))
    (hl : (w.view rt id .lottery).data = .lottery l) (hready : l.Ready w.clock)
    (hk : Contested rt id ws w l k) (hclean : ¬k.Stranded rt id w) :
    ((∃ as w' root, (system rt).Path w as w' ∧
      (w'.view rt id .finalizationRoot).data = .finalizationLedger root ∧ root.phase = .completed) ↔
      k.NoncesSuffice rt ∧ k.target ≤ k.totalFunds - k.serviceFee) ∧
    (k.NoncesSuffice rt ∧ k.target ≤ k.totalFunds - k.serviceFee →
      (∀ as w' l' a n, (system rt).Path w as w' → (w'.view rt id .lottery).data = .lottery l' →
        ¬k.Stranded rt id w' → (rootAt rt id w' l').phase ≠ .completed →
        FinalizeWinners.Serves rt w' id (rootAt rt id w' l') a →
        w'.accounts a.payer.key = ⟨n, default, .empty⟩ →
        rt.minimumBalance FinalizationLedger.size ≤ n → rt.minimumBalance WinnerPage.size ≤ n →
          ∃ w'', FinalizeWinners.process rt w' a.toList = .ok w'') ∧
      ∀ payer, rt.Foreign payer → ∃ as w' root, (system rt).Path w as w' ∧
        (∀ a ∈ as, a.Finalizing rt id payer) ∧
        (w'.view rt id .finalizationRoot).data = .finalizationLedger root ∧
        root.phase = .completed) ∧
    (¬(k.NoncesSuffice rt ∧ k.target ≤ k.totalFunds - k.serviceFee) → ∀ as w' l',
      (system rt).Path w as w' → (w'.view rt id .lottery).data = .lottery l' →
        l'.settled = false) := by
  obtain ⟨r, hseal, -⟩ := Sealing.init h hl hready hk
  have hfinish (hgood : k.NoncesSuffice rt ∧ k.target ≤ k.totalFunds - k.serviceFee) (payer : K)
      (hf : rt.Foreign payer) : ∃ as w' root, (system rt).Path w as w' ∧
        (∀ a ∈ as, a.Finalizing rt id payer) ∧
        (w'.view rt id .finalizationRoot).data = .finalizationLedger root ∧
        root.phase = .completed := by
    obtain ⟨o, ho⟩ := hseal.outcome_iff.mpr hgood
    exact hseal.complete h ho hf hclean
  refine ⟨⟨?_, fun hgood ↦ ?_⟩, fun hgood ↦ ⟨?_, hfinish hgood⟩, fun hbad as w' l' hp hl' ↦ ?_⟩
  · rintro ⟨as, w', root, hp, hroot, hph⟩
    exact hseal.outcome_iff.mp (hseal.of_completed h hp hroot hph).1
  · have hf := (consistent h).typed.foreign_authority (hseal.represents w ws rfl).config
    obtain ⟨as, w', root, hp, -, hroot, hph⟩ := hfinish hgood _ hf
    exact ⟨as, w', root, hp, hroot, hph⟩
  · intro as w' l' a n hp hl' hclean' hopen ha hpayer hledger hpage
    obtain ⟨o, ho⟩ := hseal.outcome_iff.mpr hgood
    obtain ⟨ws', r', h', hseal', -⟩ := hseal.path h hp
    have hr' := hseal'.represents w' ws' rfl
    obtain rfl := hr'.eq_lottery hl'
    have hout : r'.outstanding ≠ 0 := fun hz ↦
      hopen (rootAt_completed_iff.mpr (hseal'.completed_iff.mp hz))
    rw [hr'.rootAt_eq] at ha
    exact hseal'.serves_ok h' ho hclean' hout ha hpayer hledger hpage
  · obtain ⟨acts', ws', r', hseal', hout⟩ := hseal.stuck h
      (fun hgood ↦ hbad (hseal.outcome_iff.mp hgood.1)) hp
    obtain rfl := (hseal'.represents w' ws' rfl).eq_lottery hl'
    exact (hseal'.ready hout).not_settled

/-- Three calls find one winner among three; wallet 6 could have made them. -/
theorem finalization_finishes_iff_sample :
    ∃ (w : World Sample.Key) (l : Lottery Sample.Key) (k : Contest Sample.Key),
      (w.view Sample.rt 1 .lottery).data = .lottery l ∧ l.Ready w.clock ∧
      k.NoncesSuffice Sample.rt ∧ k.target ≤ k.totalFunds - k.serviceFee ∧
      ∃ as w' root, (system Sample.rt).Path w as w' ∧
        (∀ a ∈ as, a.Finalizing Sample.rt 1 (.wallet 6)) ∧
        (w'.view Sample.rt 1 .finalizationRoot).data = .finalizationLedger root ∧
        root.phase = .completed := by
  obtain ⟨w, ws, l, w', h, hl, hpath, hp⟩ := Sample.run_path Sample.ready Sample.chunks 1
    (fun w l w' ↦ decide (l.Ready w.clock) && Sample.completed w' 1) (by decide +kernel)
  simp only [Bool.and_eq_true, decide_eq_true_eq] at hp
  obtain ⟨hready, hdone⟩ := hp
  obtain ⟨k, hk⟩ := exists_contested h hl
  obtain ⟨root, hroot, hph⟩ := (Option.any_eq_true _ _).mp hdone
  have hroot := unwrap_finalizationLedger.mp hroot
  have hph := of_decide_eq_true hph
  obtain ⟨r, hseal, -⟩ := Sealing.init h hl hready hk
  have hclean := (hseal.of_completed h hpath hroot hph).2
  obtain ⟨hiff, hgood, -⟩ := finalization_finishes_iff h hl hready hk hclean
  have hcan := hiff.mp ⟨_, w', root, hpath, hroot, hph⟩
  exact ⟨w, l, k, hl, hready, hcan.1, hcan.2, (hgood hcan).2 _ (Sample.foreign_of_isWallet _ rfl)⟩

namespace Sample

/-- Three tickets of a lamport each, two reveals that ask for two winners, and a fee that leaves one
lamport. -/
def poor : List (Action Key) :=
  [configure 1 9999 10, create 1, buy 1 20 1, buy 1 21 1, buy 1 22 1, .tick (1000 + 24 * 60 * 60),
    attest 1 20 2, attest 1 21 2, .tick (1000 + 72 * 60 * 60), finalize 1 0 [20, 21, 22]]

end Sample

/-- Two winners and one lamport: the lottery stays as it is. -/
theorem finalization_starved :
    ∃ (acts : List (Action Sample.Key)) (w : World Sample.Key) (ws : List (World Sample.Key))
      (l : Lottery Sample.Key) (c : Config Sample.Key),
      (system Sample.rt).History acts (w :: ws) ∧
      (w.accounts Sample.rt.configKey).data = .config c ∧ c.serviceChargeBps < 10000 ∧
      1 ≤ c.maxWinnersCap ∧ c.maxWinnersCap ≤ 256 ∧
      (w.view Sample.rt 1 .lottery).data = .lottery l ∧ 0 < l.ticketPriceLamports ∧
      l.Ready w.clock ∧ ∀ as w' l', (system Sample.rt).Path w as w' →
        (w'.view Sample.rt 1 .lottery).data = .lottery l' → l'.settled = false ∧
          ∀ root, (w'.view Sample.rt 1 .finalizationRoot).data = .finalizationLedger root →
            root.phase ≠ .completed := by
  obtain ⟨w, ws, l, h, hl, hp⟩ := Sample.run_lottery Sample.poor 1
    (fun w l ↦ decide (l.Ready w.clock) && decide (0 < l.ticketPriceLamports ∧
        l.totalFunds - l.totalFunds * l.serviceChargeBps / 10000 = 1) &&
      ((AccountType.unwrap (w.accounts Sample.rt.configKey).data : Option (Config Sample.Key)).any
        fun (c : Config Sample.Key) ↦ decide (c.serviceChargeBps < 10000 ∧ 1 ≤ c.maxWinnersCap ∧
          c.maxWinnersCap ≤ 256)) &&
      (Sample.ledgerOf w 1).any fun (root : FinalizationLedger Sample.Key) ↦
        decide (root.phase = .selecting ∧ root.targetWinners = 2)) (by decide +kernel)
  simp only [Bool.and_eq_true, decide_eq_true_eq, Option.any_eq_true] at hp
  obtain ⟨⟨⟨hready, hprice, hpool⟩, c, hc, hbps, hcap, hcap'⟩, root, hroot, hph, htarget⟩ := hp
  have hroot := unwrap_finalizationLedger.mp hroot
  obtain ⟨k, hk⟩ := exists_contested h hl
  obtain ⟨r, hseal, -⟩ := Sealing.init h hl hready hk
  have hbad : ¬∃ o, k.outcome Sample.rt = .ok o := by
    intro ho
    have hfunds := (hseal.outcome_iff.mp ho).2
    rw [← (hseal.target hroot (by simp [hph])).1, htarget] at hfunds
    obtain ⟨c, ps, -, -, rfl⟩ := hk
    exact absurd (hfunds.trans_eq hpool) (by decide)
  refine ⟨_, w, ws, l, c, h, unwrap_config.mp hc, hbps, hcap, hcap', hl, hprice, hready,
    fun as w' l' hp hl' ↦ ⟨?_, fun root' hroot' hph' ↦ ?_⟩⟩
  · obtain ⟨acts', ws', r', hseal', hout⟩ := hseal.stuck h (fun hgood ↦ hbad hgood.1) hp
    obtain rfl := (hseal'.represents w' ws' rfl).eq_lottery hl'
    exact (hseal'.ready hout).not_settled
  · exact hbad (hseal.of_completed h hp hroot' hph').1

end DailyLottery
