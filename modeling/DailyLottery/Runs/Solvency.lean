import DailyLottery.Runs.Winners

set_option linter.unusedSectionVars false

namespace DailyLottery

open Lib Ballot

variable {K : Type} [DecidableEq K] [Inhabited K] {rt : Runtime K} {acts : List (Action K)}
  {w w' : World K} {ws : List (World K)} {id : ℕ} {l : Lottery K}

theorem ClaimRefund.process_error {c : Config K} {accounts : List (AccountInfo K)}
    {e : ProgramError}
    (h : Mounted rt id w c l) (hon : CallsOn rt accounts id)
    (hdue : ∀ p, (w.view rt id (.participant p.wallet)).data = .participant p → l.settled = true →
      l.winnersCount = 0 → p.refundClaimed = false →
        l.ticketPriceLamports * p.ticketsBought ≤ (w.view rt id .vault).lamports)
    (he : process rt w accounts = .error e) : e ≠ Error.insufficientFunds := by
  unfold process at he
  split at he
  case h_2 =>
    cases he
    simp
  case h_1 configAi lotteryAi vaultAi participantAi walletAi _ =>
    have hlk : lotteryAi.key = rt.lotteryKey id := by simpa [CallsOn] using hon
    have hreject {P : Prop} [Decidable P] {e' : Error} (hne : e' ≠ .insufficientFunds)
        (hr : rejectIf P (e' : ProgramError) = .error e) : e ≠ Error.insufficientFunds := by
      obtain ⟨-, rfl⟩ := rejectIf_eq_error.mp hr
      simpa using hne
    simp only [bind_eq_error] at he
    rcases he with he | ⟨_, hcfg, he | ⟨_, -,
      he | ⟨_, -, he | ⟨_, -, he | ⟨_, -, he | ⟨_, -, he⟩⟩⟩⟩⟩⟩
    · exact (assertPdaOwned_error he).2
    · exact (requireWritable_error he).2
    · exact (requireWritable_error he).2
    · exact (requireWritable_error he).2
    · exact (requireWritable_error he).2
    · exact hreject (by simp) he
    rcases he with he | ⟨_, -, he | ⟨l', hl, he | ⟨_, -, he | ⟨p, hp, he | ⟨_, -, he⟩⟩⟩⟩⟩
    · exact (readAccountData_error he).2
    · exact (readAccountData_error he).2
    · exact (readAccountData_error he).2
    · exact (readAccountData_error he).2
    · exact (assertPdaOwned_error he).2
    cases (h.read_lottery hlk).symm.trans hl
    rcases he with he | ⟨_, -, he | ⟨_, hva, he | ⟨_, -, he | ⟨_, hpa, he | ⟨_, -, he⟩⟩⟩⟩⟩
    · exact hreject (by simp) he
    · exact (assertPdaOwned_error he).2
    · exact hreject (by simp) he
    · exact (assertPdaOwned_error he).2
    · exact hreject (by simp) he
    rcases he with he | ⟨_, hroute, he | ⟨_, -, he | ⟨_, hcl, he | ⟨n, hn, he⟩⟩⟩⟩
    · exact hreject (by simp) he
    · exact hreject (by simp) he
    · exact hreject (by simp) he
    · obtain ⟨-, rfl⟩ := okOr_eq_error.mp he
      simp
    have hvk : vaultAi.key = rt.slotKey id .vault := by
      rw [← (assertPdaOwned_eq_ok.mp hva).1, hlk]
      rfl
    have hpk : rt.slotKey id (.participant walletAi.key) = participantAi.key := by
      rw [← (assertPdaOwned_eq_ok.mp hpa).1, hlk]
      rfl
    obtain ⟨hpd, -, hpw, -⟩ := h.typed.readParticipant hpk hp
    simp only [rejectIf_eq_ok, not_or, not_not, ne_eq, Bool.not_eq_false,
      Bool.not_eq_true] at hroute hcl
    obtain ⟨-, rfl⟩ := checkedMul_eq_some.mp (okOr_eq_ok.mp hn)
    rcases he with he | ⟨w₁, -, he | ⟨_, -, he | ⟨_, -, he | ⟨_, -, he⟩⟩⟩⟩
    · refine (moveLamports_error ?_ he).2
      rw [hvk, World.accounts_slotKey]
      exact hdue p (by rw [hpw]; exact hpd) hroute.1 hroute.2.1 hcl
    · obtain ⟨-, rfl⟩ := okOr_eq_error.mp he
      simp
    · exact (writeAccountData_error he).2
    · exact (writeAccountData_error he).2
    · cases he

/-- What the vault of a lottery has to cover besides its rent. -/
def obligation (l : Lottery K) (ps : List (Participant K)) : ℕ :=
  if l.winnersCount ≠ 0 then
    l.totalFunds - l.paidWinners.card * (l.totalPayout / l.winnersCount)
  else if l.settled then (ps.map (Participant.refundDue l.ticketPriceLamports)).sum
  else l.totalFunds

/-- The vault of a lottery covers all that is due, and the funds are split without a rest. -/
structure Solvent (rt : Runtime K) (id : ℕ) (acts : List (Action K)) (w : World K)
    (ws : List (World K)) (l : Lottery K) : Prop where
  vault : ∃ ps, Roll rt (w :: ws) id ps ∧ (¬VaultClosed rt id acts (w :: ws) →
    rt.minimumBalance Sizes.vaultSize + obligation l ps ≤ (w.view rt id .vault).lamports)
  refunds : ∀ pre accounts, CallsOn rt accounts id →
    processInstruction rt w pre .claimRefund accounts ≠ .error Error.insufficientFunds
  payouts : ∀ pre n batch winners accounts, CallsOn rt accounts id →
    processInstruction rt w pre (.settlePayoutBatch n batch winners) accounts ≠
      .error Error.insufficientFunds
  splits : l.winnersCount ≠ 0 → l.Splits
  completing : ∀ pre n batch winners accounts w' l', CallsOn rt accounts id →
    Step rt w (.instruction pre (.settlePayoutBatch n batch winners) accounts) w' →
    (w'.view rt id .lottery).data = .lottery l' → l.settlementComplete = false →
    l'.settlementComplete = true → ∃ c fresh, (w.accounts rt.configKey).data = .config c ∧
      fresh = l'.paidWinners \ l.paidWinners ∧ (w'.view rt id .vault).lamports = 0 ∧
      (w'.accounts c.authority).lamports = (w.accounts c.authority).lamports +
        l.perWinner * (indicesOf rt id w fresh c.authority).card +
          (l.serviceFee + l.payoutRemainder + rt.minimumBalance Sizes.vaultSize +
            donatedTo (rt.slotKey id .vault) acts)

theorem Represents.obligation_le {r : Round K} (hr : Represents rt acts w ws id r)
    (hi : r.Invariant rt) (hcl : ¬VaultClosed rt id acts (w :: ws)) :
    rt.minimumBalance Sizes.vaultSize + obligation r.lottery r.participants ≤
      (w.view rt id .vault).lamports := by
  have hopen : r.vaultClosed = false := by
    by_contra hc
    exact hcl (hr.closed (by simpa using hc))
  have howed : obligation r.lottery r.participants = r.owed := by
    unfold obligation
    split
    next hwc => rw [Round.owed, if_neg hwc]
    next hwc =>
      rw [not_not] at hwc
      split
      next => rw [Round.owed, if_pos hwc]
      next hset =>
        exact (hi.funded.owed_eq hi.books hwc (by simpa using hset)).symm
  rw [hr.lamports, hi.funded.vault hopen, howed]
  omega

theorem Represents.refund_le {r : Round K} (hr : Represents rt acts w ws id r) (hi : r.Invariant rt)
    {p : Participant K} (hpd : (w.view rt id (.participant p.wallet)).data = .participant p)
    (hwc : r.lottery.winnersCount = 0) (hcl : p.refundClaimed = false) :
    r.lottery.ticketPriceLamports * p.ticketsBought ≤ (w.view rt id .vault).lamports := by
  obtain ⟨hmem, -⟩ := (hr.roll hi.books).mem_of_data hpd
  obtain ⟨hopen, hdue⟩ := hi.unclaimed hwc hmem hcl
  rw [hr.lamports, hi.funded.vault hopen]
  omega

/-- Where the funds of a lottery are, at every point of every run. -/
theorem vault_solvent (h : (system rt).History acts (w :: ws))
    (hl : (w.view rt id .lottery).data = .lottery l) :
    Solvent rt id acts w ws l ∧ ∀ (l₀ l₁ : Lottery K) root root' now, l₀.serviceChargeBps < 10000 →
      FinalizeWinners.completeFinalization l₀ root now = .ok (l₁, root') →
      l₁.Splits ∧ l₁.winnersCount = root.selectedCount := by
  obtain ⟨c, hm⟩ := mounted h hl
  obtain ⟨r, -, hi, hr, rfl, -⟩ := represented h hl
  refine ⟨⟨⟨r.participants, hr.roll hi.books, hr.obligation_le hi⟩, ?_, ?_, fun hwc ↦ ?_, ?_⟩,
    fun _ _ _ _ _ ↦ Lottery.splits_of_complete⟩
  · intro pre accounts hon he
    exact ClaimRefund.process_error hm hon
      (fun p hpd _ hwc hcl ↦ hr.refund_le hi hpd hwc hcl) he rfl
  · intro pre n batch winners accounts hon he
    rcases SettlePayoutBatch.process_error hm (fun hwc hsc ↦ (payable h hl hwc hsc).1) hon he
      with hb | ⟨hne, -⟩
    · exact hb.2 rfl
    · simp at hne
  · obtain ⟨root, hroot, hph⟩ := hi.progress.of_decided hwc
    obtain ⟨_, hdec, -, -⟩ := hi.progress.of_completed hroot hph
    exact hdec.splits hi.configured.serviceCharge ⟨rfl, rfl⟩
  · intro pre n batch winners accounts w' l' hon hs hl' hsc hsc'
    obtain ⟨l, authority, l'', fresh, hp⟩ := hs.paysOut h hon
    cases hp.before.symm.trans hl
    cases hp.after.symm.trans hl'
    obtain ⟨c', hc', rfl⟩ := hp.config
    have hforeign : rt.Foreign c'.authority := by
      cases hm.config.symm.trans hc'
      exact hm.authority
    refine ⟨c', fresh, hc', ?_, hp.closing hsc' hsc, ?_⟩
    · rw [hp.paid, Finset.union_sdiff_cancel_left hp.unpaid]
    · rw [hp.lamports _ hforeign, if_pos rfl, closingOf, if_pos ⟨hsc, hsc'⟩]

/-- One of two winners is paid, and somebody sent the vault seven lamports. -/
theorem vault_solvent_sample :
    ∃ (acts : List (Action Sample.Key)) (w : World Sample.Key) (ws : List (World Sample.Key))
      (l : Lottery Sample.Key), (system Sample.rt).History acts (w :: ws) ∧
      (w.view Sample.rt 1 .lottery).data = .lottery l ∧ l.winnersCount = 2 ∧
      l.paidWinners.card = 1 ∧ donatedTo (Sample.rt.slotKey 1 .vault) acts = 7 ∧
      Solvent Sample.rt 1 acts w ws l := by
  obtain ⟨w, ws, l, h, hl, hp⟩ := Sample.run_lottery
    [Sample.configure 1000 500 10, Sample.create 1, Sample.buy 1 20 1, Sample.buy 1 21 1,
      Sample.buy 1 22 1, .tick (1000 + 24 * 60 * 60), Sample.attest 1 20 2, Sample.attest 1 21 2,
      .deposit (.vault (Sample.lotteryKey 1)) 7, .tick (1000 + 72 * 60 * 60),
      Sample.finalize 1 0 [20, 21, 22], Sample.finalize 1 0 [20, 21, 22],
      Sample.finalize 1 0 [20, 21, 22], Sample.pay 1 0 1425 [(0, 21)]] 1
    (fun w l ↦ decide (l.winnersCount = 2 ∧ l.paidWinners.card = 1)) (by decide +kernel)
  obtain ⟨hwc, hcard⟩ := of_decide_eq_true hp
  exact ⟨_, w, ws, l, h, hl, hwc, hcard, by decide +kernel, (vault_solvent h hl).1⟩

end DailyLottery
