import DailyLottery.Calls.Chunks
import DailyLottery.Calls.Selection

set_option linter.unusedSectionVars false

namespace DailyLottery

open Lib Ballot

variable {K : Type} [DecidableEq K] [Inhabited K] {rt : Runtime K} {acts as : List (Action K)}
  {w w' : World K} {ws : List (World K)} {id : ℕ} {c : Config K} {l : Lottery K}
  {root root' : FinalizationLedger K} {r : Round K} {k : Contest K}

theorem Config.Valid.effectiveMaxWinners (h : c.Valid) {n : ℕ} (hn : 2 ≤ n) :
    c.effectiveMaxWinners n = min c.maxWinnersCap (n - 1) := by
  have hcap := h.maxWinnersCap
  simp only [Config.validateMaxWinnersCap, decide_eq_true_eq] at hcap
  unfold Config.effectiveMaxWinners
  rw [if_neg (by omega)]
  dsimp only
  omega

/-- Only a `FinalizeWinners` call on a ready lottery writes its ledger. -/
theorem Step.ready_of_ledger {a : Action K} (h : (system rt).History acts (w :: ws))
    (hl : (w.view rt id .lottery).data = .lottery l) (hs : Step rt w a w')
    (hne : (w'.view rt id .finalizationRoot).data ≠ (w.view rt id .finalizationRoot).data) :
    l.Ready w.clock := by
  have hc := consistent h
  obtain ⟨r, hreach, hi, hr, rfl, -⟩ := represented h hl
  obtain ⟨r', hst, hr'⟩ := hc.follow hs hr hi
  by_cases hfinalize : ∃ pre accounts, a = .instruction pre .finalizeWinners accounts
  · obtain ⟨pre, accounts, rfl⟩ := hfinalize
    have hon : CallsOn rt accounts id := by
      rcases hs.touches hc with hsame | ⟨j, hj, hsame⟩
      · exact absurd (by rw [hsame]) hne
      · by_contra hon
        exact hne (by rw [hsame id fun he ↦ hon (he ▸ hj)])
    cases hs with
    | instruction hsig hok =>
      obtain ⟨c, l₀, -, hl₀, hon', heff⟩ := FinalizeWinners.effect hc.typed hsig hok
      obtain rfl := hon.eq hon'
      cases hl.symm.trans hl₀
      cases heff with
      | done he => exact absurd (by rw [he]) hne
      | missing _ _ _ _ _ _ _ _ _ hv =>
        rw [hv] at hne
        simp at hne
      | chunk hset hsc htwo hatt hmiss hel => exact ⟨hset, hsc, htwo, hatt, hmiss, hel⟩
  · have ha (pre : List (K × Bytes)) (accounts : List (AccountInfo K)) :
        a ≠ .instruction pre .finalizeWinners accounts := fun he ↦ hfinalize ⟨pre, accounts, he⟩
    have hsame := hs.sameLedger hc ha hr hr' (.of_step hi.books hst)
    rw [hr.ledger, hr'.ledger, hsame] at hne
    exact absurd rfl hne

/-- Past its aggregation a ledger aims at the target of the contest. -/
theorem Sealing.target (hk : Sealing rt id k acts (w :: ws) r)
    (hroot : (w.view rt id .finalizationRoot).data = .finalizationLedger root)
    (hph : root.phase ≠ .aggregating) :
    root.targetWinners = k.target ∧ root.eligibleCount = (pool k.ballots).length := by
  have hr := hk.represents w ws rfl
  rw [← hk.contest]
  cases (Round.invariant hk.reachable).progress with
  | waiting hnone => simp [hr.eq_ledger hroot] at hnone
  | aggregating hl _ _ _ hst =>
    cases (hr.eq_ledger hroot).symm.trans hl
    exact absurd hst.phase hph
  | selecting hl _ _ _ _ _ hst =>
    cases (hr.eq_ledger hroot).symm.trans hl
    exact ⟨hst.target, hst.pooled.eligible⟩
  | completed hl _ _ hst =>
    cases (hr.eq_ledger hroot).symm.trans hl
    exact ⟨hst.target, hst.pooled.eligible⟩

theorem Round.elected_of_open (hi : r.Invariant rt) (hs : r.books.Sealed)
    (hopen : ∀ root, r.ledger = some root → root.phase = .aggregating) :
    r.lottery.selectedNumberOfWinners = r.contest.votedWinners := by
  cases hi.progress with
  | waiting _ _ _ _ he =>
    refine he hs.two_le ?_
    rw [← length_pool]
    exact (List.length_pos_iff.mpr (hi.pool_ne_nil hs)).ne'
  | aggregating _ _ _ _ _ he => exact he
  | selecting hl _ _ _ _ _ hst => exact absurd (hst.phase.symm.trans (hopen _ hl)) (by decide)
  | completed hl _ _ hst => exact absurd (hst.phase.symm.trans (hopen _ hl)) (by decide)

/-- The call that ends the aggregation fixes the target: the winners the lottery asks for then, within
the cap, and fewer than the participants and no more than the eligible. -/
theorem target_of_step {a : Action K} (h : (system rt).History acts (w :: ws))
    (hc : (w.accounts rt.configKey).data = .config c)
    (hl : (w.view rt id .lottery).data = .lottery l) (hs : Step rt w a w')
    (hopen : ∀ root, (w.view rt id .finalizationRoot).data = .finalizationLedger root →
      root.phase = .aggregating)
    (hroot' : (w'.view rt id .finalizationRoot).data = .finalizationLedger root')
    (hph' : root'.phase ≠ .aggregating) :
    root'.targetWinners = min (min (min (max l.selectedNumberOfWinners 1) c.maxWinnersCap)
      (l.participantsCount - 1)) root'.eligibleCount := by
  have hready : l.Ready w.clock := hs.ready_of_ledger h hl fun hsame ↦
    hph' (hopen _ (hsame.symm.trans hroot'))
  obtain ⟨k, hk⟩ := exists_contested h hl
  obtain ⟨r, hseal, -⟩ := Sealing.init h hl hready hk
  obtain ⟨r', -, hseal'⟩ := Step.drains h hseal hs
  obtain ⟨htarget, heligible⟩ := hseal'.target hroot' hph'
  have hr := hseal.represents w ws rfl
  cases hl.symm.trans hr.lottery
  obtain rfl := hr.eq_config hc
  have helected := Round.elected_of_open (Round.invariant hseal.reachable) hseal.sealed
    fun root hroot ↦ hopen root (by rw [hr.ledger, hroot]; rfl)
  have hmax : k.maxWinners = min r.config.maxWinnersCap (r.lottery.participantsCount - 1) := by
    rw [← hseal.contest]
    exact ((consistent h).config _ hr.config).1.effectiveMaxWinners hready.two_le
  rw [htarget, heligible, Contest.target, hmax, helected, hseal.contest,
    ← min_assoc (max k.votedWinners 1)]

/-- It stays what it is. -/
theorem target_of_path (h : (system rt).History acts (w :: ws))
    (hl : (w.view rt id .lottery).data = .lottery l)
    (hroot : (w.view rt id .finalizationRoot).data = .finalizationLedger root)
    (hph : root.phase ≠ .aggregating) (hp : (system rt).Path w as w')
    (hroot' : (w'.view rt id .finalizationRoot).data = .finalizationLedger root')
    (hph' : root'.phase ≠ .aggregating) : root'.targetWinners = root.targetWinners := by
  obtain ⟨r, hreach, hi, hr, rfl, -⟩ := represented h hl
  have hsealed := hi.routed.sealed_of_ledger (by simp [hr.eq_ledger hroot])
  have hseal : Sealing rt id r.contest acts (w :: ws) r :=
    ⟨hreach, hsealed, rfl, fun v vs he ↦ by cases he; exact hr⟩
  obtain ⟨ws', r', -, hseal', -⟩ := hseal.path h hp
  exact (hseal'.target hroot' hph').1.trans (hseal.target hroot hph).1.symm

theorem createAccount_error {payerAi newAi : AccountInfo K} {space : ℕ} {e : ProgramError}
    (h : createAccount rt w payerAi newAi space = .error e) :
    e ∈ [ProgramError.privilegeEscalation, .accountAlreadyInUse, .invalidAccountData,
      .insufficientLamports] := by
  simp only [createAccount, bind_eq_error, rejectIf_eq_error, rejectIf_eq_ok, exists_const,
    pure_ne_error, and_false, or_false] at h
  rcases h with ⟨-, rfl⟩ | ⟨-, ⟨-, rfl⟩ | ⟨-, ⟨-, rfl⟩ | ⟨-, ⟨-, rfl⟩ | ⟨-, -, rfl⟩⟩⟩⟩
  all_goals simp

/-- The errors a call can end in: the accounts could not be created, the nonces of a draw or the
money ran out. -/
theorem FinalizeWinners.Blocked.error {a : Accounts K} {e : ProgramError}
    (h : Blocked rt w id k root a e) :
    e ∈ [ProgramError.privilegeEscalation, .accountAlreadyInUse, .invalidAccountData,
      .insufficientLamports, Error.winnerSelectionFailed, Error.insufficientFunds] := by
  cases h with
  | ledger _ he => exact List.mem_append_left _ (createAccount_error he)
  | page _ _ _ he => exact List.mem_append_left _ (createAccount_error he)
  | draw => simp
  | funds => simp

/-- Selection is sound in every state it reaches, its target is fixed by the call that ends the
aggregation, and no call with the participants that come next finds nobody, or too many, or more
than its counters hold. -/
theorem selection_never_fails (h : (system rt).History acts (w :: ws))
    (hl : (w.view rt id .lottery).data = .lottery l) :
    (∀ root, (w.view rt id .finalizationRoot).data = .finalizationLedger root →
      root.phase ≠ .aggregating →
        (∃ c ps winners, (w.accounts rt.configKey).data = .config c ∧ Roll rt (w :: ws) id ps ∧
          Stores rt id w winners ∧ SelectionSound c l (tallyAt rt id w) ps root winners) ∧
        ∀ as w' root', (system rt).Path w as w' →
          (w'.view rt id .finalizationRoot).data = .finalizationLedger root' →
          root'.phase ≠ .aggregating → root'.targetWinners = root.targetWinners) ∧
    (∀ c a w' root', (w.accounts rt.configKey).data = .config c → Step rt w a w' →
      (∀ root, (w.view rt id .finalizationRoot).data = .finalizationLedger root →
        root.phase = .aggregating) →
      (w'.view rt id .finalizationRoot).data = .finalizationLedger root' →
      root'.phase ≠ .aggregating →
        root'.targetWinners = min (min (min (max l.selectedNumberOfWinners 1) c.maxWinnersCap)
          (l.participantsCount - 1)) root'.eligibleCount) ∧
    (l.Ready w.clock → ∀ a e, FinalizeWinners.Serves rt w id (rootAt rt id w l) a →
      FinalizeWinners.process rt w a.toList = .error e →
        e ∉ ([Error.winnerNotFound, Error.invalidInstruction, Error.noAttestedParticipants,
          Error.mathOverflow] : List Error).map ProgramError.custom ∧ e ≠ .panicked) := by
  refine ⟨fun root hroot hph ↦ ⟨?_, fun as w' root' hp hroot' hph' ↦
    target_of_path h hl hroot hph hp hroot' hph'⟩, fun c a w' root' hc hs hopen hroot' hph' ↦
    target_of_step h hc hl hs hopen hroot' hph', fun hready a e ha he ↦ ?_⟩
  · obtain ⟨r, -, hi, hr, rfl, -⟩ := represented h hl
    obtain ⟨winners, hst, hsound⟩ := hr.sound hi hroot hph
    exact ⟨r.config, r.participants, winners, hr.config, hr.roll hi.books, hst, hsound⟩
  · obtain ⟨r, hreach, hi, hr, rfl, -⟩ := represented h hl
    rw [hr.rootAt_eq] at ha
    rcases FinalizeWinners.process_blocked h hreach hr hready ha with ⟨w', hok⟩ | ⟨e', he', hblock⟩
    · cases he.symm.trans hok
    · cases he.symm.trans he'
      have hmem := hblock.error
      simp only [List.mem_cons, List.not_mem_nil, or_false] at hmem
      rcases hmem with rfl | rfl | rfl | rfl | rfl | rfl
      all_goals decide

/-- The call that ends the aggregation of three participants, and the selection it begins. -/
theorem selection_never_fails_sample :
    ∃ (w w' : World Sample.Key) (l l' : Lottery Sample.Key) (c c' : Config Sample.Key)
      (root' : FinalizationLedger Sample.Key) (ps : List (Participant Sample.Key))
      (winners : List (SelectedWinner Sample.Key)),
      (w.view Sample.rt 1 .finalizationRoot).data = .empty ∧
      (w'.view Sample.rt 1 .finalizationRoot).data = .finalizationLedger root' ∧
      root'.phase = .selecting ∧
      root'.targetWinners = min (min (min (max l.selectedNumberOfWinners 1) c.maxWinnersCap)
        (l.participantsCount - 1)) root'.eligibleCount ∧
      SelectionSound c' l' (tallyAt Sample.rt 1 w') ps root' winners := by
  obtain ⟨w, ws, l, w', h, hl, hpath, hp⟩ := Sample.run_path Sample.ready
    [Sample.finalize 1 0 [20, 21, 22]] 1
    (fun w _ w' ↦ (w.view Sample.rt 1 .finalizationRoot).data.isEmpty &&
      (AccountType.unwrap (w.accounts Sample.rt.configKey).data : Option
        (Config Sample.Key)).isSome &&
      (Sample.lotteryOf w' 1).isSome && (Sample.ledgerOf w' 1).any fun root ↦
        decide (FinalizationLedger.phase root = FinalizationPhase.selecting)) (by decide +kernel)
  simp only [Bool.and_eq_true, AccountData.isEmpty_eq_true, Option.any_eq_true,
    decide_eq_true_eq, Option.isSome_iff_exists] at hp
  obtain ⟨⟨⟨hempty, c, hc⟩, l', hl'⟩, root', hroot', hph⟩ := hp
  have hroot' := unwrap_finalizationLedger.mp hroot'
  have hnot : root'.phase ≠ .aggregating := by simp [hph]
  cases hpath with
  | cons hs hnil =>
    cases hnil
    obtain ⟨-, hfixed, -⟩ := selection_never_fails h hl
    have htarget := hfixed c _ w' root' (unwrap_config.mp hc) hs (fun root hroot ↦ by
      rw [hempty] at hroot
      cases hroot) hroot' hnot
    obtain ⟨⟨c', ps, winners, -, -, -, hsound⟩, -⟩ :=
      (selection_never_fails (h.step hs) (unwrap_lottery.mp hl')).1 root' hroot' hnot
    exact ⟨w, w', l, l', c, c', root', ps, winners, hempty, hroot', hph, htarget, hsound⟩

end DailyLottery
