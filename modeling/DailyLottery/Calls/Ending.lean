import DailyLottery.Calls.Settling
import DailyLottery.Runs.Winners

set_option linter.unusedSectionVars false

namespace DailyLottery

open Lib

variable {K : Type} [DecidableEq K] [Inhabited K] {rt : Runtime K} {acts as : List (Action K)}
  {w w' : World K} {ws : List (World K)} {id : ℕ} {c : Config K} {l l' : Lottery K}
  {r r' : Round K} {payer : K}

namespace Round

theorem Step.remediationStart (hs : r.Step rt r') :
    r'.lottery.remediationStartUnix = r.lottery.remediationStartUnix ∨
      r.lottery.remediationStartUnix = 0 ∧ r'.lottery.remediationStartUnix = r'.now := by
  cases hs with
  | beginReveal _ _ _ _ _ _ _ _ _ hopen =>
    obtain rfl := BeginRevealPhase.openWindow_ok hopen
    rw [BeginRevealPhase.autoComplete_eq]
    exact .inl rfl
  | attestUploaded =>
    rw [Lottery.countAttestation_eq]
    exact .inl rfl
  | attestReveal _ _ _ _ _ _ _ hrec _ _ hconc =>
    obtain ⟨-, rfl⟩ := AttestReveal.recordReveal_ok hrec
    obtain rfl := AttestReveal.conclude_ok hconc
    exact .inl rfl
  | uploadReveals hadmit _ _ hinc =>
    obtain ⟨-, -, -, -, -, -, -, rfl⟩ := UploadReveals.checkPhase_ok hadmit
    obtain ⟨-, rfl⟩ := UploadReveals.includeUploads_ok hinc
    dsimp only
    split
    · next hbegins => exact .inr ⟨hbegins.2, rfl⟩
    · exact .inl rfl
  | beginRemediation _ _ _ _ _ hz hrem =>
    obtain ⟨-, rfl⟩ | ⟨-, rfl⟩ := Lottery.beginRemediation_ok hrem
    · exact .inl rfl
    · exact .inr ⟨hz, rfl⟩
  | aggregate _ _ _ _ _ hend =>
    split at hend
    · obtain ⟨_, _, _, _, _, _, _, rfl, -⟩ := FinalizeWinners.finishAggregation_ok hend
      exact .inl rfl
    · cases hend
      exact .inl rfl
  | selectLast _ _ _ _ _ _ _ _ hnext =>
    rcases FinalizeWinners.nextRound_ok hnext with ⟨-, hcomp⟩ | ⟨-, rfl, -⟩
    · obtain ⟨_, _, -, -, -, -, -, rfl, -⟩ := FinalizeWinners.completeFinalization_ok hcomp
      exact .inl rfl
    · exact .inl rfl
  | payBatch hpays =>
    obtain ⟨old, -, hrun⟩ := hpays.page_eq
    obtain ⟨bitmap, rfl⟩ := hrun.lottery
    exact .inl rfl
  | payLast hpays _ _ hcomp =>
    obtain ⟨old, -, hrun⟩ := hpays.page_eq
    obtain ⟨bitmap, rfl⟩ := hrun.lottery
    obtain rfl := Lottery.completeSettlement_ok hcomp
    exact .inl rfl
  | _ => exact .inl rfl

theorem remediationStart_le (h : (machine rt).Reachable r)
    (hne : r.lottery.remediationStartUnix ≠ 0) : r.lottery.remediationStartUnix ≤ r.now := by
  refine reachable_invariant (P := fun r ↦ r.lottery.remediationStartUnix ≠ 0 →
    r.lottery.remediationStartUnix ≤ r.now) h (fun r hr hne ↦
      ?_) (fun r r' hreach ih hs hne ↦ ?_) hne
  · obtain ⟨_, _, _, _, _, _, _, hnew, -⟩ := hr.lottery
    obtain ⟨-, -, -, -, -, -, -, -, -, -, -, -, -, -, -, -, -, -, -, -, -, -, hz, -⟩ :=
      Lottery.new_ok hnew
    exact absurd hz hne
  · have hon := Onward.of_step (invariant hreach).books hs
    rcases hs.remediationStart with hsame | ⟨-, hnow⟩
    · rw [hsame] at hne ⊢
      exact (ih hne).trans hon.now
    · exact hnow.le

end Round

/-- Waiting, lamports for the payer, and the calls that end a lottery once its window is over: no
reveal is among them, and no signature but the payer's. -/
def Action.Closing (rt : Runtime K) (id : ℕ) (payer : K) : Action K → Prop
  | .tick _ => True
  | .outside key account => key = payer ∧ account.owner = default ∧ account.data = .empty
  | .instruction _ .finalizeWinners accounts => CallsOn rt accounts id ∧ SignedOnlyBy payer accounts
  | .instruction _ .finalizeNoAttesters accounts =>
    CallsOn rt accounts id ∧ SignedOnlyBy payer accounts
  | .instruction _ (.settlePayoutBatch ..) accounts =>
    CallsOn rt accounts id ∧ SignedOnlyBy payer accounts
  | _ => False

theorem FinalizeNoAttesters.accounts_signed {authority : K} :
    SignedOnlyBy payer (accounts rt id authority) := by
  simp [SignedOnlyBy, accounts, AccountInfo.readonly, AccountInfo.writable]

theorem SettlePayoutBatch.accounts_signed {authority recipient : K} {i : ℕ} :
    SignedOnlyBy payer (accounts rt id authority i recipient) := by
  simp [SignedOnlyBy, accounts, AccountInfo.readonly, AccountInfo.writable]

theorem Action.Finalizing.closing {a : Action K} (h : a.Finalizing rt id payer) :
    a.Closing rt id payer := by
  cases a with
  | instruction pre ix accounts =>
    cases ix with
    | finalizeWinners => exact h
    | _ => cases h
  | outside key account => exact h
  | _ => cases h

theorem Lottery.beginRemediation_succeeds {now : ℤ} (hz : l.remediationStartUnix = 0)
    (hpos : 0 < now)
    (hlt : now + Sizes.defaultRemediationWindowSecs < 2 ^ 63) :
    ∃ l', l.beginRemediation now = .ok l' := by
  have hwin : (0 : ℤ) < Sizes.defaultRemediationWindowSecs := by decide
  simp only [beginRemediation, hz, if_true, bind_eq_ok, okOr_eq_ok, addI64_eq_some, pure_eq_ok]
  exact ⟨_, _, ⟨⟨by omega, hlt⟩, rfl⟩, rfl⟩

theorem FinalizeWinners.begins_remediation {b : Vault K} (root : FinalizationLedger K) (wallet : K)
    (h : Mounted rt id w c l) (hv : (w.view rt id .vault).data = .vault b)
    (hset : l.settled = false)
    (hsc : l.settlementComplete = false) (htwo : 1 < l.participantsCount)
    (hmiss : l.hasMissingAttestedReveals = true) (hel : l.uploadElapsed w.clock = true)
    (hz : l.remediationStartUnix = 0)
    (hlt : w.clock + Sizes.defaultRemediationWindowSecs < 2 ^ 63) :
    ∃ w', process rt w (callOn rt id payer root wallet).toList = .ok w' := by
  obtain ⟨hid, -, hvk⟩ := h.lottery_eq
  have hvo := h.owner (s := .vault) (by simp [hv])
  have hl' : (w.accounts (rt.lotteryKey id)).data = .lottery l := h.lottery
  have hatt := (Lottery.hasMissing_eq_true.mp hmiss).1
  have hpos := Lottery.now_pos_of_elapsed hel
  obtain ⟨l', hbegin⟩ := Lottery.beginRemediation_succeeds hz hpos hlt
  simp only [process, callOn, Accounts.toList, exists_bind_eq_ok, requireWritable_eq_ok,
    requireSigner_eq_ok, requireKeyMatch_eq_ok, assertPdaOwned_eq_ok, exists_const]
  refine ⟨⟨rfl, h.owner_config⟩, trivial, trivial, trivial, trivial, trivial, trivial, trivial, c,
    h.read_config rfl, l, h.read_lottery rfl, b,
      Mounted.read rfl (by simp [hv]) (unwrap_vault.mpr hv),
    ⟨by rw [hid]; rfl, h.owner_lottery⟩, ⟨rfl, hvo⟩, hvk.symm, ?_⟩
  rw [if_neg (by simp [hset, hsc]), if_pos hmiss]
  simp only [processMissingReveals, exists_bind_eq_ok, rejectIf_eq_ok, exists_const, pure_eq_ok,
    writeAccountData_eq_ok]
  refine ⟨by omega, by omega, by simp [hel, hz], l', hbegin, _, ⟨?_, trivial, h.owner_lottery, rfl⟩,
    _, rfl⟩
  rw [hl']
  rfl

variable (rt id payer) in
def ClosesTo (w w' : World K) : Prop :=
  ∃ as, (system rt).Path w as w' ∧ ∀ a ∈ as, a.Closing rt id payer

namespace ClosesTo

variable {w'' : World K}

theorem refl (w : World K) : ClosesTo rt id payer w w := ⟨[], .nil w, by simp⟩

theorem one {a : Action K} (hs : Step rt w a w') (ha : a.Closing rt id payer) :
    ClosesTo rt id payer w w' := ⟨[a], .one hs, by simpa using ha⟩

theorem trans (h : ClosesTo rt id payer w w') (h' : ClosesTo rt id payer w' w'') :
    ClosesTo rt id payer w w'' := by
  obtain ⟨as, hp, has⟩ := h
  obtain ⟨bs, hp', hbs⟩ := h'
  refine ⟨as ++ bs, hp.trans hp', fun a ha ↦ ?_⟩
  exact (List.mem_append.mp ha).elim (has a) (hbs a)

end ClosesTo

variable (rt id payer) in
/-- Closing calls lead from `w` to a state where lottery `id` is settled. -/
def Ends (w : World K) : Prop :=
  ∃ w' l', ClosesTo rt id payer w w' ∧ (w'.view rt id .lottery).data = .lottery l' ∧
    l'.settled = true

theorem Ends.of_closesTo (hc : ClosesTo rt id payer w w') (he : Ends rt id payer w') :
    Ends rt id payer w := by
  obtain ⟨w'', l', hc', hl', hset⟩ := he
  exact ⟨w'', l', hc.trans hc', hl', hset⟩

theorem ends_of_refunds (h : (system rt).History acts (w :: ws))
    (hl : (w.view rt id .lottery).data = .lottery l) (hset : l.settled = false)
    (hel : l.uploadElapsed w.clock = true) (hway : l.route w.clock = .refunds) :
    Ends rt id payer w := by
  obtain ⟨c, hm⟩ := mounted h hl
  obtain ⟨r, -, hi, hr, rfl, -⟩ := represented h hl
  obtain ⟨b, hv⟩ := hr.vault.resolve_right fun he ↦ by
    simp [hi.funded.vault_open hset] at he
  obtain ⟨hpos, hlt⟩ := Lottery.uploadElapsed_eq_true.mp hel
  obtain ⟨w', hok⟩ := FinalizeNoAttesters.succeeds hm hv hset (.inr ⟨hpos, hlt.le⟩)
    (Lottery.route_refunds_iff.mp hway)
  have hcall : CallsOn rt (FinalizeNoAttesters.accounts rt id c.authority) id := rfl
  have hs : Step rt w (.instruction [] .finalizeNoAttesters _) w' :=
    .instruction FinalizeNoAttesters.accounts_keys hok
  obtain ⟨l₁, hl₁, hon, heff⟩ := FinalizeNoAttesters.effect hm.typed hok
  obtain rfl := hcall.eq hon
  cases hl.symm.trans hl₁
  obtain ⟨hset', -⟩ | ⟨-, -, -, -, hview⟩ := heff
  · simp [hset] at hset'
  · refine ⟨w', r.lottery.settle, .one hs ⟨hcall, ?_⟩, by rw [hview]; simp, rfl⟩
    exact FinalizeNoAttesters.accounts_signed

theorem ends_of_remediation (h : (system rt).History acts (w :: ws))
    (hl : (w.view rt id .lottery).data = .lottery l) (hset : l.settled = false)
    (hel : l.uploadElapsed w.clock = true) (hmiss : l.hasMissingAttestedReveals = true)
    (hpos : 0 < l.remediationDeadlineUnix) (hclock : w.clock < 2 ^ 63)
    (hroom : l.remediationDeadlineUnix + 1 < 2 ^ 63) : Ends rt id payer w := by
  have hle : w.clock ≤ max w.clock (l.remediationDeadlineUnix + 1) := le_max_left _ _
  have hs : Step rt w (.tick (max w.clock (l.remediationDeadlineUnix + 1))) _ :=
    .tick hle (max_lt hclock hroom)
  refine .of_closesTo (.one hs trivial) (ends_of_refunds (h.step hs) hl hset ?_ ?_)
  · obtain ⟨hup, hlt⟩ := Lottery.uploadElapsed_eq_true.mp hel
    exact Lottery.uploadElapsed_eq_true.mpr ⟨hup, hlt.trans_le hle⟩
  · rw [Lottery.route_refunds_iff, Lottery.remediationExpired_eq_true]
    exact .inr ⟨⟨hpos, lt_max_of_lt_right (lt_add_one _)⟩, hmiss⟩

/-- Whatever reveals are missing, a lottery can be settled once its window is over, unless none is:
then it is ready. -/
theorem ends_or_ready (h : (system rt).History acts (w :: ws))
    (hl : (w.view rt id .lottery).data = .lottery l) (htwo : 2 ≤ l.participantsCount)
    (hset : l.settled = false) (hel : l.uploadElapsed w.clock = true) (hf : rt.Foreign payer)
    (hroom : w.clock + Sizes.defaultRemediationWindowSecs + 1 < 2 ^ 63) :
    Ends rt id payer w ∨ l.Ready w.clock := by
  obtain ⟨c, hm⟩ := mounted h hl
  obtain ⟨r, hreach, hi, hr, rfl, -⟩ := represented h hl
  have hwin : (0 : ℤ) < Sizes.defaultRemediationWindowSecs := by decide
  have hpos := Lottery.now_pos_of_elapsed hel
  have hsc := hi.routed.not_complete hset
  cases hway : r.lottery.route w.clock with
  | refunds => exact .inl (ends_of_refunds h hl hset hel hway)
  | winners =>
    obtain ⟨hatt, hmiss⟩ := Lottery.route_winners_iff.mp hway
    exact .inr ⟨hset, hsc, htwo, hatt, hmiss, .inr hel⟩
  | uploads =>
    obtain ⟨hmiss, -⟩ := Lottery.route_uploads_iff.mp hway
    refine .inl ?_
    by_cases hz : r.lottery.remediationStartUnix = 0
    · -- nobody has asked for the missing reveals yet
      obtain ⟨b, hv⟩ := hr.vault.resolve_right fun he ↦ by
        simp [hi.funded.vault_open hset] at he
      obtain ⟨w', hok⟩ := FinalizeWinners.begins_remediation r.openLedger payer hm hv hset hsc htwo hmiss
        hel hz (by omega)
      have hcall : CallsOn rt (FinalizeWinners.callOn rt id payer r.openLedger payer).toList id := rfl
      have hs : Step rt w (.instruction [] .finalizeWinners _) w' :=
        .instruction (FinalizeWinners.callOn_signers hf _ _) hok
      refine .of_closesTo (.one hs ⟨hcall, FinalizeWinners.callOn_signed _ _⟩) ?_
      obtain ⟨c', l₁, -, hl₁, hon, heff⟩ :=
        FinalizeWinners.effect hm.typed (FinalizeWinners.callOn_signers hf _ _) hok
      obtain rfl := hcall.eq hon
      cases hl.symm.trans hl₁
      cases heff with
      | done _ hdone =>
        rcases hdone with hc | hs | ⟨-, -, hno, -⟩
        · simp [hsc] at hc
        · simp [hset] at hs
        · simp [hmiss] at hno
      | missing _ _ _ _ _ _ hbegin ht _ hview =>
        obtain ⟨hne, -⟩ | ⟨-, rfl⟩ := Lottery.beginRemediation_ok hbegin
        · exact absurd hz hne
        have hl' : (w'.view rt r.lottery.id .lottery).data = .lottery { r.lottery with
            remediationStartUnix := w.clock
            remediationDeadlineUnix := w.clock + Sizes.defaultRemediationWindowSecs } := by
          rw [hview]
          simp
        refine ends_of_remediation (h.step hs) hl' hset ?_ hmiss ?_ ?_ hroom
        · rw [ht.clock]
          exact hel
        · exact add_pos hpos hwin
        · rw [ht.clock]
          omega
      | chunk _ _ _ _ hno => simp [hmiss] at hno
    · obtain ⟨-, hdl, -⟩ := hi.routed.remediated hz
      have hle := Round.remediationStart_le hreach hz
      rw [hr.now] at hel hpos hroom
      refine ends_of_remediation h hl hset (hr.now ▸ hel) hmiss ?_ ?_ ?_
      all_goals have := (hi.routed.remediated hz).1
      · omega
      · rw [hr.now]
        omega
      · omega

theorem ends_of_winners (h : (system rt).History acts (w :: ws))
    (hl : (w.view rt id .lottery).data = .lottery l) (hwc : l.winnersCount ≠ 0) :
    Ends rt id payer w := by
  induction hn : l.winnersCount - l.paidWinners.card using Nat.strong_induction_on
    generalizing acts w ws l with
  | _ n ih =>
    obtain ⟨c, hm⟩ := mounted h hl
    obtain ⟨r, -, hi, hr, rfl, -⟩ := represented h hl
    by_cases hsc : r.lottery.settlementComplete = true
    · exact ⟨w, r.lottery, .refl w, hl, (hi.routed.complete hsc).1⟩
    · obtain ⟨j, hj, hun⟩ : ∃ j < r.lottery.winnersCount, j ∉ r.lottery.paidWinners := by
        by_contra hall
        push Not at hall
        refine hsc ((hi.paid.complete hwc).mpr ((Lottery.allWinnersPaid_iff hwc).mpr ?_))
        refine r.lottery.paidWinners_subset.antisymm fun j hj ↦ ?_
        exact hall j (Finset.mem_range.mp hj)
      obtain ⟨hp, b, hv⟩ := payable h hl hwc (by simpa using hsc)
      obtain ⟨page, data, winner, hd, hw⟩ := hp.winner j hj
      rw [Lottery.mem_paidWinners, Bool.not_eq_true] at hun
      obtain ⟨w', hok⟩ := SettlePayoutBatch.succeeds 0 hm hv hp (by simpa using hsc) hj hun hd hw
      have hs : Step rt w (.instruction [] (.settlePayoutBatch id 0
          [⟨j, winner.wallet, r.lottery.perWinner,
            []⟩]) (SettlePayoutBatch.accounts rt id c.authority
            (j / winnersPerPage) winner.wallet)) w' := .instruction SettlePayoutBatch.accounts_keys hok
      have hon : CallsOn rt (SettlePayoutBatch.accounts rt id c.authority (j / winnersPerPage)
          winner.wallet) id := rfl
      obtain ⟨l, authority, l', fresh, hpays⟩ := hs.paysOut h hon
      cases hpays.before.symm.trans hl
      obtain ⟨-, l'', hl'', hwc', -⟩ := hs.winnerAt h hl hwc
      cases hpays.after.symm.trans hl''
      refine .of_closesTo (.one hs ⟨hon, SettlePayoutBatch.accounts_signed⟩)
        (ih _ ?_ (h.step hs) hl'' (hwc' ▸ hwc) rfl)
      -- the batch paid one that was unpaid
      have hmem : j ∈ l'.paidWinners := hpays.all j (by simp) hj
      have hlt : r.lottery.paidWinners.card < l'.paidWinners.card := by
        refine Finset.card_lt_card ⟨hpays.paid ▸ Finset.subset_union_left, fun hsub ↦ ?_⟩
        simp [Lottery.mem_paidWinners.mp (hsub hmem)] at hun
      have := l'.card_paidWinners_le
      omega

theorem ends_of_outcome {k : Contest K} {o : Outcome K} (h : (system rt).History acts (w :: ws))
    (hl : (w.view rt id .lottery).data = .lottery l) (hready : l.Ready w.clock)
    (hk : Contested rt id ws w l k) (ho : k.outcome rt = .ok o) (hsq : ¬k.Stranded rt id w)
    (hf : rt.Foreign payer) : Ends rt id payer w := by
  obtain ⟨r, hseal, -⟩ := Sealing.init h hl hready hk
  obtain ⟨as, w', root, hp, has, hroot, hph⟩ := hseal.complete h ho hf hsq
  obtain ⟨ws', cs, r', h', -, -, hreach', hr'⟩ :=
    represented_path h hp (hseal.represents w ws rfl) hseal.reachable
  obtain ⟨winners, hdec, -, -⟩ :=
    (Round.invariant hreach').progress.of_completed (hr'.eq_ledger hroot) hph
  have hwc : r'.lottery.winnersCount ≠ 0 := by
    rw [hdec.winnersCount]
    exact hdec.target_pos.ne'
  exact .of_closesTo ⟨as, hp, fun a ha ↦ (has a ha).closing⟩ (ends_of_winners h' hr'.lottery hwc)

/-- A lottery of two participants can always be brought to its end, by anybody and without a single
reveal, unless its finalization is stuck on its draws, its funds or a stranger's lamports. -/
theorem ends_or_stuck (h : (system rt).History acts (w :: ws))
    (hl : (w.view rt id .lottery).data = .lottery l) (htwo : 2 ≤ l.participantsCount)
    (hf : rt.Foreign payer)
    (hroom : max w.clock (l.uploadDeadlineUnix + 1) + Sizes.defaultRemediationWindowSecs + 1 <
      2 ^ 63) :
    Ends rt id payer w ∨ ∃ w' acts' ws' l' k, ClosesTo rt id payer w w' ∧
      (system rt).History acts' (w' :: ws') ∧ (w'.view rt id .lottery).data = .lottery l' ∧
      l'.Ready w'.clock ∧ Contested rt id ws' w' l' k ∧
      ¬((∃ o, k.outcome rt = .ok o) ∧ ¬k.Stranded rt id w') := by
  by_cases hset : l.settled = true
  · exact .inl ⟨w, l, .refl w, hl, hset⟩
  rw [Bool.not_eq_true] at hset
  have hwin : (0 : ℤ) < Sizes.defaultRemediationWindowSecs := by decide
  have hdl : 0 < l.uploadDeadlineUnix := by
    obtain ⟨r, -, hi, -, rfl, -⟩ := represented h hl
    have htime := hi.books.timely
    exact (htime.opened (zero_lt_two.trans_le htwo)).trans htime.buy_lt
  have hs : Step rt w (.tick (max w.clock (l.uploadDeadlineUnix + 1))) _ :=
    .tick (le_max_left _ _) (by omega)
  have h' := h.step hs
  have hel : l.uploadElapsed (max w.clock (l.uploadDeadlineUnix + 1)) = true :=
    Lottery.uploadElapsed_eq_true.mpr ⟨hdl, lt_max_of_lt_right (lt_add_one _)⟩
  rcases ends_or_ready h' hl htwo hset hel hf hroom with hend | hready
  · exact .inl (.of_closesTo (.one hs trivial) hend)
  · obtain ⟨k, hk⟩ := exists_contested h' hl
    by_cases hfree : (∃ o, k.outcome rt = .ok o) ∧ ¬k.Stranded rt id
        { w with clock := max w.clock (l.uploadDeadlineUnix + 1) }
    · obtain ⟨⟨o, ho⟩, hsq⟩ := hfree
      exact .inl (.of_closesTo (.one hs trivial) (ends_of_outcome h' hl hready hk ho hsq hf))
    · exact .inr ⟨_, _, _, l, k, .one hs trivial, h', hl, hready, hk, hfree⟩

/-- The remediation ran out with a reveal missing, and anybody can have the refunds issued. -/
theorem ends_or_stuck_sample : ∃ (w : World Sample.Key) (l : Lottery Sample.Key),
    (w.view Sample.rt 1 .lottery).data = .lottery l ∧ l.settled = false ∧
    l.hasMissingAttestedReveals = true ∧ Ends Sample.rt 1 (Sample.Key.wallet 5) w := by
  obtain ⟨w, ws, l, h, hl, hp⟩ := Sample.run_lottery
    (Sample.awaiting ++ [Sample.finalize 1 0 [20], .tick (1000 + 73 * 60 * 60)]) 1
    (fun w l ↦ decide (2 ≤ l.participantsCount ∧ l.settled = false ∧ l.route w.clock = .refunds ∧
      max w.clock (l.uploadDeadlineUnix + 1) + Sizes.defaultRemediationWindowSecs + 1 < 2 ^ 63) &&
      l.uploadElapsed w.clock && l.hasMissingAttestedReveals) (by decide +kernel)
  simp only [Bool.and_eq_true, decide_eq_true_eq] at hp
  obtain ⟨⟨⟨htwo, hset, hway, hroom⟩, hel⟩, hmiss⟩ := hp
  rcases ends_or_stuck h hl htwo (Sample.foreign_of_isWallet (.wallet 5) rfl) hroom with
    hend | ⟨w', _, _, l', _, ⟨as, hpath, -⟩, -, hl', hready, -⟩
  · exact ⟨w, l, hl, hset, hmiss, hend⟩
  · exact absurd hready (not_ready_of_refunds h hl hel hway hpath hl')

end DailyLottery
