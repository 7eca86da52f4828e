import DailyLottery.Calls.Finalize
import DailyLottery.Runs.Announced
import DailyLottery.Runs.Isolated

set_option linter.unusedSectionVars false

namespace DailyLottery

open Lib Ballot

variable {K : Type} [DecidableEq K] [Inhabited K] {rt : Runtime K} {acts : List (Action K)}
  {w w' : World K} {ws : List (World K)} {id : ℕ} {r r' : Round K}

/-- How many participants the chunks still have to visit, over all passes that are left. -/
def Contest.outstanding (k : Contest K) (root : FinalizationLedger K) : ℕ :=
  match root.phase with
  | .aggregating => k.ballots.length - root.processedCount + k.target * k.ballots.length
  | .selecting => (k.target - root.selectedCount) * k.ballots.length - root.roundProcessedCount
  | _ => 0

namespace Contest

variable {k : Contest K} {root : FinalizationLedger K} {ps : List (Participant K)}
  {winners : List (Ballot K)} {i : ℕ}

theorem Aggregating.outstanding (h : k.Aggregating rt root ps i) (hi : i ≤ k.ballots.length) :
    k.outstanding root = k.ballots.length - i + k.target * k.ballots.length := by
  rw [Contest.outstanding, h.phase]
  dsimp only
  rw [h.pooled.processed, List.length_take, min_eq_left hi]

theorem Selecting.outstanding (h : k.Selecting rt root ps winners i) :
    k.outstanding root = (k.target - winners.length) * k.ballots.length - i := by
  rw [Contest.outstanding, h.phase]
  dsimp only
  rw [h.selectedCount, h.processed]

theorem Completed.outstanding (h : k.Completed rt root winners) : k.outstanding root = 0 := by
  rw [Contest.outstanding, h.phase]

end Contest

namespace Round

variable {es : List (ℕ × Unit)} {x : Option (ℕ × SelectedWinner K)}

def outstanding (r : Round K) : ℕ := r.contest.outstanding r.openLedger

theorem outstanding_eq_zero_iff (hi : r.Invariant rt) (hs : r.books.Sealed) :
    r.outstanding = 0 ↔ ∃ root, r.ledger = some root ∧ root.phase = .completed := by
  have hopen {root : FinalizationLedger K} (hl : r.ledger = some root) : r.openLedger = root := by
    rw [openLedger, hl, Option.getD_some]
  have hn : 0 < r.contest.ballots.length := by
    have hlen : r.contest.ballots.length = r.lottery.participantsCount := hi.books.enrolled.length
    have := hs.two_le
    simp only [books] at this
    omega
  constructor
  · intro hz
    cases hph : r.openLedger.phase with
    | aggregating =>
      obtain ⟨k, hst, hlt, -⟩ := hi.progress.of_aggregating hi.books hs hph
      have hlt : k < r.contest.ballots.length := hlt
      rw [outstanding, hst.outstanding hlt.le] at hz
      omega
    | selecting =>
      obtain ⟨winners, k, hst, hlt, hlt', -⟩ := hi.progress.of_selecting hph
      have hlt : k < r.contest.ballots.length := hlt
      rw [outstanding, hst.outstanding] at hz
      have := Nat.le_mul_of_pos_left r.contest.ballots.length (Nat.sub_pos_of_lt hlt')
      omega
    | completed =>
      cases hl : r.ledger with
      | none =>
        rw [openLedger, hl] at hph
        cases hph
      | some root => exact ⟨root, rfl, hopen hl ▸ hph⟩
    | unknown =>
      cases hi.progress with
      | waiting hl =>
        rw [openLedger, hl] at hph
        cases hph
      | aggregating hl _ _ _ hst => simp [hopen hl, hst.phase] at hph
      | selecting hl _ _ _ _ _ hst => simp [hopen hl, hst.phase] at hph
      | completed hl _ _ hst => simp [hopen hl, hst.phase] at hph
  · rintro ⟨root, hl, hph⟩
    rw [outstanding, hopen hl, Contest.outstanding, hph]

end Round

open Round

theorem FinalizeWinners.Turn.outstanding {es : List (ℕ × Unit)} {x : Option (ℕ × SelectedWinner K)}
    (ht : Turn rt r es x r') (hi : r.Invariant rt) :
    r'.outstanding + es.length = r.outstanding := by
  have hfin : r.Finalizable := by
    cases ht <;> assumption
  have hs := hfin.sealed
  have hix : Indexed r.contest.ballots := hi.books.enrolled.index
  have hc : r'.contest = r.contest := contest_eq_of_frozen (hs.step hi.books ht.step.books).2
  rw [Round.outstanding, hc]
  cases ht with
  | @aggregate ps root root' l _ hph _ hsweep hle hend =>
    obtain ⟨k, hst, hlt, -, -, hel⟩ := hi.progress.of_aggregating hi.books hs hph
    have hlt : k < r.contest.ballots.length := hlt
    obtain ⟨-, hle', hst'⟩ := hst.chunk hlt.le hix rfl hsweep
    have hproc := hst'.pooled.processed
    rw [List.length_take, min_eq_left hle'] at hproc
    rw [Round.outstanding, hst.outstanding hlt.le]
    change r.contest.outstanding root' + _ = _
    rw [hproc, hst'.rooted.required] at hend
    split at hend
    · next hfull =>
      rw [hfull] at hst'
      obtain ⟨hsel, -, -⟩ := hst'.finish rfl rfl hel rfl hend
      rw [hsel.outstanding, List.length_nil]
      simp only [Nat.sub_zero]
      omega
    · cases hend
      rw [hst'.outstanding hle']
      omega
  | @select ps root _ hph _ hsweep hlt =>
    obtain ⟨winners, k, hst, hlt, hlt', -⟩ := hi.progress.of_selecting hph
    have hlt : k < r.contest.ballots.length := hlt
    obtain ⟨-, hle', hst'⟩ := hst.chunk hlt.le hix rfl hsweep
    rw [Round.outstanding, hst.outstanding]
    change r.contest.outstanding root + _ = _
    rw [hst'.outstanding]
    have := Nat.le_mul_of_pos_left r.contest.ballots.length (Nat.sub_pos_of_lt hlt')
    omega
  | @selectLast ps root root₁ root' winner page data l _ hph _ hsweep hfull hwin _ hrec hnext =>
    obtain ⟨winners, k, hst, hlt, hlt', -⟩ := hi.progress.of_selecting hph
    have hlt : k < r.contest.ballots.length := hlt
    obtain ⟨-, hle', hst'⟩ := hst.chunk hlt.le hix rfl hsweep
    rw [hst'.processed, hst'.rooted.required] at hfull
    rw [hfull] at hst'
    rw [Round.outstanding, hst.outstanding]
    change r.contest.outstanding root' + _ = _
    have hpass : (r.contest.target - winners.length) * r.contest.ballots.length =
        (r.contest.target - (winners.length + 1)) * r.contest.ballots.length +
          r.contest.ballots.length := by
      rw [← Nat.succ_mul]
      congr 1
      omega
    obtain ⟨y, -, ⟨-, -, hsel⟩ | ⟨heq, hdone, -⟩⟩ := hst'.next hix.nodup hwin hrec hnext
    · rw [hsel.outstanding, List.length_append, List.length_singleton]
      omega
    · rw [hdone.outstanding]
      rw [heq, Nat.sub_self, Nat.zero_mul] at hpass
      omega

namespace FinalizeWinners

variable {accounts : List (AccountInfo K)}

theorem process_ok_of_sealed (hw : WellTyped rt w) (hsig : SignersAreKeys rt accounts)
    (hon : CallsOn rt accounts r.lottery.id) (hr : Represents rt acts w ws r.lottery.id r)
    (hs : r.books.Sealed) (h : process rt w accounts = .ok w') :
    (w' = w ∧ (r.lottery.settlementComplete = true ∨ r.lottery.settled = true ∨
      ∃ root, r.ledger = some root ∧ root.phase = .completed)) ∨
    ∃ a : Accounts K, a.toList = accounts ∧ r.lottery.Ready r.now ∧ ∃ root w₁ w₂ l' root',
      Chunk rt w w' r.config r.lottery root a.lottery a.payer a.winnerPage a.participants w₁ w₂ l'
        root' := by
  unfold process at h
  split at h
  · next configAi lotteryAi vaultAi payerAi systemProgramAi rootAi pageAi participantAccounts =>
    simp only [bind_eq_ok, assertPdaOwned_eq_ok, requireSigner_eq_ok, requireWritable_eq_ok,
      requireKeyMatch_eq_ok, exists_const] at h
    obtain ⟨⟨hck, -⟩, -, -, hsign, -, -, -, -, c, hc, l, hl, b, hb, ⟨hpda, -⟩, -, -, h⟩ := h
    have hf : rt.Foreign payerAi.key := hsig payerAi (by simp) hsign
    obtain rfl := hr.eq_config (hw.readConfig hck hc).1
    obtain ⟨hlk, hld, -, -⟩ := hw.readLottery hpda hl
    have hid : l.id = r.lottery.id := by
      have hk : lotteryAi.key = rt.lotteryKey r.lottery.id := Option.some.inj hon
      exact rt.lotteryKey_inj.mp (hlk.symm.trans hk)
    rw [hid] at hlk hld
    obtain rfl := hr.eq_lottery hld
    split at h
    · next hdone => exact .inl ⟨(pure_eq_ok.mp h).symm, hdone.imp_right .inl⟩
    · next hdone =>
      simp only [not_or, Bool.not_eq_true] at hdone
      simp only [bind_eq_ok, rejectIf_eq_ok, exists_const, not_le] at h
      obtain ⟨hpc, hatt, h⟩ := h
      have hmiss : r.lottery.hasMissingAttestedReveals = false := hs.no_missing
      rw [hmiss] at h
      simp only [Bool.false_eq_true, if_false, bind_eq_ok, rejectIf_eq_ok, exists_const,
        not_and_or, Bool.not_eq_false] at h
      obtain ⟨hel, h⟩ := h
      rw [hr.now] at hel
      rcases processChunk_ok hw hf hlk h with ⟨rfl, root, hroot, hph⟩ | hchunk
      · exact .inl ⟨rfl, .inr (.inr ⟨root, hr.eq_ledger hroot, hph⟩)⟩
      · exact .inr ⟨⟨configAi, lotteryAi, vaultAi, payerAi, systemProgramAi, rootAi, pageAi,
          participantAccounts⟩, rfl, ⟨hdone.2, hdone.1, hpc, hatt, hmiss, hel⟩, hchunk⟩
  · cases h

end FinalizeWinners

/-- How many participants of lottery `id` an action has `FinalizeWinners` visit. -/
def Action.visits (rt : Runtime K) (id : ℕ) : Action K → ℕ
  | .instruction _ .finalizeWinners accounts =>
    if accounts[1]?.map AccountInfo.key = some (rt.lotteryKey id) then accounts.length - 7 else 0
  | _ => 0

theorem Round.outstanding_eq (hl : r'.ledger = r.ledger) (hc : r'.contest = r.contest) :
    r'.outstanding = r.outstanding := by
  rw [Round.outstanding, Round.outstanding, hc, openLedger, openLedger, hl]
  cases r.ledger <;> rfl

theorem Round.Routed.decided (h : r.Routed) (hs : r.books.Sealed)
    (hset : r.lottery.settlementComplete = true ∨ r.lottery.settled = true) :
    r.lottery.winnersCount ≠ 0 := by
  rcases hset with hset | hset
  · exact (h.complete hset).2
  · intro hw
    have hmiss : r.lottery.hasMissingAttestedReveals = false := hs.no_missing
    rcases h.refunded hset hw with ha | hm
    · exact hs.attested ha
    · simp [hmiss] at hm

/-- A round of lottery `id` with its books sealed, deciding the contest `k`. -/
structure Sealing (rt : Runtime K) (id : ℕ) (k : Contest K) (acts : List (Action K))
    (ws : List (World K)) (r : Round K) : Prop where
  reachable : (Round.machine rt).Reachable r
  sealed : r.books.Sealed
  contest : r.contest = k
  represents : ∀ w ws', ws = w :: ws' → Represents rt acts w ws' id r

theorem Sealing.step {k : Contest K} {a : Action K} (h : Sealing rt id k acts (w :: ws) r)
    (hst : r.Step rt r') (hr' : Represents rt (a :: acts) w' (w :: ws) id r') :
    Sealing rt id k (a :: acts) (w' :: w :: ws) r' := by
  have hi := Round.invariant h.reachable
  obtain ⟨hseal, hfrozen⟩ := h.sealed.step hi.books hst.books
  refine ⟨h.reachable.step (a := ()) hst, hseal, (contest_eq_of_frozen hfrozen).trans h.contest, ?_⟩
  intro v vs he
  cases he
  exact hr'

theorem Step.drains {k : Contest K} {a : Action K} (h : (system rt).History acts (w :: ws))
    (hk : Sealing rt id k acts (w :: ws) r) (hs : Step rt w a w') :
    ∃ r', r'.outstanding = r.outstanding - a.visits rt id ∧
      Sealing rt id k (a :: acts) (w' :: w :: ws) r' := by
  have hc := consistent h
  have hi := Round.invariant hk.reachable
  have hr := hk.represents w ws rfl
  have hidle (hv : a.visits rt id = 0 ∨ r.outstanding = 0)
      (hl : ∀ r', r.Step rt r' → Represents rt (a :: acts) w' (w :: ws) id r' →
        r'.ledger = r.ledger) :
      ∃ r', r'.outstanding = r.outstanding - a.visits rt id ∧
        Sealing rt id k (a :: acts) (w' :: w :: ws) r' := by
    obtain ⟨r', hst, hr'⟩ := hc.follow hs hr hi
    have hnext := hk.step hst hr'
    have hsame := outstanding_eq (hl r' hst hr') (hnext.contest.trans hk.contest.symm)
    exact ⟨r', by omega, hnext⟩
  have hview (hd : (w'.view rt id .finalizationRoot).data = (w.view rt id .finalizationRoot).data)
      (r' : Round K) (hr' : Represents rt (a :: acts) w' (w :: ws) id r') :
        r'.ledger = r.ledger := by
    rw [hr.ledger, hr'.ledger] at hd
    cases hl : r.ledger <;> cases hl' : r'.ledger <;> simp_all
  by_cases hfinalize : ∃ pre accounts, a = .instruction pre .finalizeWinners accounts
  · obtain ⟨pre, accounts, rfl⟩ := hfinalize
    by_cases hon : CallsOn rt accounts id
    · have hvisits : Action.visits rt id (.instruction pre .finalizeWinners accounts) =
          accounts.length - 7 := if_pos hon
      have hrid : r.lottery.id = id := by
        obtain ⟨_, hm⟩ := mounted h hr.lottery
        exact hm.lottery_eq.1
      subst hrid
      cases hs with
      | instruction hsig hok =>
        rcases FinalizeWinners.process_ok_of_sealed hc.typed hsig hon hr hk.sealed hok with
          ⟨rfl, hdone⟩ | ⟨ac, rfl, hready, root, w₁, w₂, l', root', hchunk⟩
        · refine hidle (.inr ((outstanding_eq_zero_iff hi hk.sealed).mpr ?_)) fun r' _ ↦
            hview rfl r'
          rcases hdone with hset | hset | hroot
          · exact hi.progress.of_decided (hi.routed.decided hk.sealed (.inl hset))
          · exact hi.progress.of_decided (hi.routed.decided hk.sealed (.inr hset))
          · exact hroot
        · rw [← hr.now] at hready
          obtain ⟨-, -, es, x, r', hturn, hnames, -, -, -, -, hr'⟩ := hchunk.simulated hc.typed hr
            hready.not_settled hready.not_complete hready.two_le hready.attested hready.no_missing
            hready.elapsed pre .finalizeWinners ac.toList
          refine ⟨r', ?_, hk.step hturn.step hr'⟩
          have hlen : es.length = ac.toList.length - 7 := hnames.length_eq.symm
          have := hturn.outstanding hi
          omega
    · refine hidle (.inl (if_neg hon)) fun r' _ ↦ hview ?_ r'
      rcases hs.touches hc with hsame | ⟨j, hj, hsame⟩
      · rw [hsame]
      · rw [hsame id fun he ↦ hon (he ▸ hj)]
  · have ha (pre : List (K × Bytes)) (accounts : List (AccountInfo K)) :
        a ≠ .instruction pre .finalizeWinners accounts := fun he ↦ hfinalize ⟨pre, accounts, he⟩
    have hzero : a.visits rt id = 0 := by
      unfold Action.visits
      split
      · exact absurd rfl (ha _ _)
      · rfl
    exact hidle (.inl hzero) fun r' hst hr' ↦ hs.sameLedger hc ha hr hr' (.of_step hi.books hst)

theorem Sealing.init {l : Lottery K} {k : Contest K} (h : (system rt).History acts (w :: ws))
    (hl : (w.view rt id .lottery).data = .lottery l) (hready : l.Ready w.clock)
    (hk : Contested rt id ws w l k) :
    ∃ r, Sealing rt id k acts (w :: ws) r ∧ r.outstanding = k.outstanding (rootAt rt id w l) := by
  obtain ⟨r, hreach, hi, hr, rfl, -⟩ := represented h hl
  obtain rfl := hr.eq_contest hi.books hk
  rw [hr.now] at hready
  refine ⟨r, ⟨hreach, (FinalizeWinners.finalizable hi hready).sealed, rfl, ?_⟩, ?_⟩
  · intro v vs he
    cases he
    exact hr
  · rw [hr.rootAt_eq]
    rfl

theorem rootAt_completed_iff {l : Lottery K} : (rootAt rt id w l).phase = .completed ↔
    ∃ root, (w.view rt id .finalizationRoot).data = .finalizationLedger root ∧
      root.phase = .completed := by
  rw [rootAt]
  constructor
  · intro hph
    cases hroot : (AccountType.unwrap (w.view rt id .finalizationRoot).data :
        Option (FinalizationLedger K)) with
    | none =>
      rw [hroot] at hph
      cases hph
    | some root =>
      rw [hroot, Option.getD_some] at hph
      exact ⟨root, unwrap_finalizationLedger.mp hroot, hph⟩
  · rintro ⟨root, hroot, hph⟩
    rw [unwrap_finalizationLedger.mpr hroot, Option.getD_some, hph]

theorem Sealing.completed_iff {k : Contest K} (hk : Sealing rt id k acts (w :: ws) r) :
    r.outstanding = 0 ↔ ∃ root, (w.view rt id .finalizationRoot).data = .finalizationLedger root ∧
      root.phase = .completed := by
  have hr := hk.represents w ws rfl
  rw [outstanding_eq_zero_iff (Round.invariant hk.reachable) hk.sealed]
  refine exists_congr fun root ↦ and_congr_left fun _ ↦ ⟨fun hroot ↦ ?_, hr.eq_ledger⟩
  rw [hr.ledger, hroot]
  rfl

theorem Sealing.path {k : Contest K} {as : List (Action K)} (hk : Sealing rt id k acts (w :: ws) r)
    (h : (system rt).History acts (w :: ws)) (hp : (system rt).Path w as w') :
    ∃ ws' r', (system rt).History (as.reverse ++ acts) (w' :: ws') ∧
      Sealing rt id k (as.reverse ++ acts) (w' :: ws') r' ∧
      r'.outstanding = r.outstanding - (as.map (Action.visits rt id)).sum :=
  hp.drain h (fun _ _ _ _ _ _ hh hR hs ↦ Step.drains hh hR hs) hk

theorem Sealing.counted {k : Contest K} {as : List (Action K)}
    (h : (system rt).History acts (w :: ws)) (hk : Sealing rt id k acts (w :: ws) r)
    (hp : (system rt).Path w as w') :
    ∃ l', (w'.view rt id .lottery).data = .lottery l' ∧
      k.outstanding (rootAt rt id w' l') =
        r.outstanding - (as.map (Action.visits rt id)).sum ∧
      ((rootAt rt id w' l').phase = .completed ↔
        r.outstanding ≤ (as.map (Action.visits rt id)).sum) := by
  obtain ⟨ws', r', -, hk', hsize⟩ := hk.path h hp
  have hr' := hk'.represents w' ws' rfl
  refine ⟨r'.lottery, hr'.lottery, ?_, ?_⟩
  · rw [← hsize, hr'.rootAt_eq, ← hk'.contest]
    rfl
  · rw [rootAt_completed_iff, ← hk'.completed_iff, hsize, Nat.sub_eq_zero_iff_le]

/-- In every run from where a lottery is ready, what is outstanding goes down by the participants
the calls visit, and the finalization is complete once they visited enough. -/
theorem chunks_counted {l : Lottery K} {k : Contest K} {as : List (Action K)}
    (h : (system rt).History acts (w :: ws)) (hl : (w.view rt id .lottery).data = .lottery l)
    (hready : l.Ready w.clock) (hk : Contested rt id ws w l k) (hp : (system rt).Path w as w') :
    ∃ l', (w'.view rt id .lottery).data = .lottery l' ∧
      k.outstanding (rootAt rt id w' l') =
        k.outstanding (rootAt rt id w l) - (as.map (Action.visits rt id)).sum ∧
      ((rootAt rt id w' l').phase = .completed ↔
        k.outstanding (rootAt rt id w l) ≤ (as.map (Action.visits rt id)).sum) := by
  obtain ⟨r, hseal, hsize⟩ := Sealing.init h hl hready hk
  rw [← hsize]
  exact hseal.counted h hp

namespace Sample

theorem run_path (acts as : List (Action Key)) (id : ℕ)
    (p : World Key → Lottery Key → World Key → Bool)
    (h : (execAll Sample.rt Key.isWallet acts genesis).any (fun w ↦ (lotteryOf w id).any fun l ↦
      (execAll Sample.rt Key.isWallet as w).any (p w l)) = true) :
    ∃ w ws l w', (system Sample.rt).History acts.reverse (w :: ws) ∧
      (w.view Sample.rt id .lottery).data = .lottery l ∧ (system Sample.rt).Path w as w' ∧
      p w l w' = true := by
  obtain ⟨w, ws, l, hh, hl, hp⟩ := run_lottery acts id
    (fun w l ↦ (execAll Sample.rt Key.isWallet as w).any (p w l)) h
  obtain ⟨w', hw', hp⟩ := (Option.any_eq_true _ _).mp hp
  exact ⟨w, ws, l, w', hh, hl, execAll_path foreign_of_isWallet hw', hp⟩

/-- The calls that find one winner among three participants. -/
def chunks : List (Action Key) := [finalize 1 0 [20, 21], finalize 1 0 [22],
    finalize 1 0 [20, 21, 22]]

def completed (w : World Key) (id : ℕ) : Bool :=
  (ledgerOf w id).any fun root ↦ decide (root.phase = .completed)

end Sample

/-- Six visits for one winner among three. -/
theorem chunks_counted_sample :
    ∃ (w w' : World Sample.Key) (l l' : Lottery Sample.Key) (k : Contest Sample.Key),
      l.Ready w.clock ∧ (system Sample.rt).Path w Sample.chunks w' ∧
      (w'.view Sample.rt 1 .lottery).data = .lottery l' ∧
      k.outstanding (rootAt Sample.rt 1 w' l') = k.outstanding (rootAt Sample.rt 1 w l) -
        (Sample.chunks.map (Action.visits Sample.rt 1)).sum ∧
      ((rootAt Sample.rt 1 w' l').phase = .completed ↔
        k.outstanding (rootAt Sample.rt 1 w l) ≤
          (Sample.chunks.map (Action.visits Sample.rt 1)).sum) := by
  obtain ⟨w, ws, l, w', h, hl, hpath, hready⟩ := Sample.run_path Sample.ready Sample.chunks 1
    (fun w l _ ↦ decide (l.Ready w.clock)) (by decide +kernel)
  obtain ⟨k, hk⟩ := exists_contested h hl
  have hready := of_decide_eq_true hready
  obtain ⟨l', hl', hcount⟩ := chunks_counted h hl hready hk hpath
  exact ⟨w, w', l, l', k, hready, hpath, hl', hcount⟩

/-- The accounts of lottery `id` hold the outcome `o`. -/
structure Outcome.StoredIn (o : Outcome K) (rt : Runtime K) (id : ℕ) (w : World K) (l : Lottery K)
    (root : FinalizationLedger K) : Prop where
  processedCount : root.processedCount = o.processedCount
  eligibleCount : root.eligibleCount = o.eligibleCount
  totalEligibleTickets : root.totalEligibleTickets = o.totalEligibleTickets
  participantsCommitment : root.participantsCommitment = o.participantsCommitment
  seed : root.seed = o.seed
  targetWinners : root.targetWinners = o.targetWinners
  selectedCount : root.selectedCount = o.selectedCount
  selectedTicketsTotal : root.selectedTicketsTotal = o.selectedTicketsTotal
  winnersCommitment : root.winnersCommitment = o.winnersCommitment
  pages : Stores rt id w o.winners
  winnersCount : l.winnersCount = o.winnersCount
  totalPayout : l.totalPayout = o.totalPayout
  winnersMerkleRoot : l.winnersMerkleRoot = o.winnersMerkleRoot

/-- A completed finalization is the outcome in one go. -/
theorem Represents.outcome_stored {root : FinalizationLedger K} (hr : Represents rt acts w ws id r)
    (hi : r.Invariant rt) (hroot : (w.view rt id .finalizationRoot).data = .finalizationLedger root)
    (hph : root.phase = .completed) :
    ∃ o, r.contest.outcome rt = .ok o ∧ o.StoredIn rt id w r.lottery root := by
  obtain ⟨winners, hdec, hpages, hst⟩ := hi.progress.of_completed (hr.eq_ledger hroot) hph
  obtain ⟨rest, hdraw⟩ := hst.drawn
  have hpass : rejectIf (r.contest.target = 0 ∨
      r.contest.totalFunds - r.contest.serviceFee < r.contest.target)
      (Error.insufficientFunds : ProgramError) = .ok () := by
    rw [rejectIf_eq_ok, not_or, not_lt]
    exact ⟨hdec.target_pos.ne', hdec.target_le⟩
  obtain ⟨o, ho⟩ : ∃ o, r.contest.outcome rt = .ok o := by
    simp only [Contest.outcome, exists_bind_eq_ok]
    exact ⟨_, hdraw, _, hpass, _, rfl⟩
  refine ⟨o, ho, ?_⟩
  simp only [Contest.outcome, hdraw, ok_bind, hpass, pure_eq_ok] at ho
  subst ho
  exact ⟨hst.pooled.processed, hst.pooled.eligible, hst.pooled.tickets, hst.pooled.commitment,
    hst.seed, hst.target, hst.selectedCount, hst.selectedTickets, hst.commitment,
    hr.winnerAt_eq hpages, hdec.winnersCount, hdec.totalPayout,
    hdec.winnersMerkleRoot.trans hst.commitment⟩

theorem Sealing.outcome_of_path {l' : Lottery K} {k : Contest K} {root : FinalizationLedger K}
    {as : List (Action K)} (h : (system rt).History acts (w :: ws))
    (hk : Sealing rt id k acts (w :: ws) r) (hp : (system rt).Path w as w')
    (hl' : (w'.view rt id .lottery).data = .lottery l')
    (hroot : (w'.view rt id .finalizationRoot).data = .finalizationLedger root)
    (hph : root.phase = .completed) :
    ∃ o, k.outcome rt = .ok o ∧ o.StoredIn rt id w' l' root := by
  obtain ⟨ws', r', h', hk', -⟩ := hk.path h hp
  have hr' := hk'.represents w' ws' rfl
  obtain rfl := hr'.eq_lottery hl'
  rw [← hk'.contest]
  exact hr'.outcome_stored (Round.invariant hk'.reachable) hroot hph

/-- However a finalization is cut into calls, and whatever else happens meanwhile, it ends with the
outcome of the contest in one go. -/
theorem chunks_refine_outcome {l l' : Lottery K} {k : Contest K} {root : FinalizationLedger K}
    {as : List (Action K)} (h : (system rt).History acts (w :: ws))
    (hl : (w.view rt id .lottery).data = .lottery l) (hready : l.Ready w.clock)
    (hk : Contested rt id ws w l k) (hp : (system rt).Path w as w')
    (hl' : (w'.view rt id .lottery).data = .lottery l')
    (hroot : (w'.view rt id .finalizationRoot).data = .finalizationLedger root)
    (hph : root.phase = .completed) :
    ∃ o, k.outcome rt = .ok o ∧ o.StoredIn rt id w' l' root := by
  obtain ⟨r, hseal, -⟩ := Sealing.init h hl hready hk
  exact hseal.outcome_of_path h hp hl' hroot hph

/-- One winner among three, found in three calls. -/
theorem chunks_refine_outcome_sample :
    ∃ (w w' : World Sample.Key) (l' : Lottery Sample.Key) (k : Contest Sample.Key)
      (root : FinalizationLedger Sample.Key) (o : Outcome Sample.Key),
      (system Sample.rt).Path w Sample.chunks w' ∧
      (w'.view Sample.rt 1 .finalizationRoot).data = .finalizationLedger root ∧
      k.outcome Sample.rt = .ok o ∧ o.StoredIn Sample.rt 1 w' l' root := by
  obtain ⟨w, ws, l, w', h, hl, hpath, hp⟩ := Sample.run_path Sample.ready Sample.chunks 1
    (fun w l w' ↦ decide (l.Ready w.clock) && (Sample.lotteryOf w' 1).isSome &&
      Sample.completed w' 1) (by decide +kernel)
  simp only [Bool.and_eq_true, decide_eq_true_eq, Option.isSome_iff_exists] at hp
  obtain ⟨⟨hready, l', hl'⟩, hdone⟩ := hp
  obtain ⟨k, hk⟩ := exists_contested h hl
  obtain ⟨root, hroot, hph⟩ := (Option.any_eq_true _ _).mp hdone
  have hroot := unwrap_finalizationLedger.mp hroot
  obtain ⟨o, ho, hst⟩ := chunks_refine_outcome h hl hready hk hpath (unwrap_lottery.mp hl') hroot
    (of_decide_eq_true hph)
  exact ⟨w, w', l', k, root, o, hpath, hroot, ho, hst⟩

theorem FinalizeWinners.in_order_of_step {l : Lottery K} {pre : List (K × Bytes)}
    {accounts : List (AccountInfo K)}
    (h : (system rt).History acts (w :: ws)) (hl : (w.view rt id .lottery).data = .lottery l)
    (hready : l.Ready w.clock) (hph : (rootAt rt id w l).phase ≠ .completed)
    (hon : CallsOn rt accounts id) (hs : Step rt w
      (.instruction pre .finalizeWinners accounts) w') :
    7 < accounts.length ∧
      (rootAt rt id w l).nextIndex + (accounts.length - 7) ≤ l.participantsCount ∧
      ∀ i ai, (accounts.drop 7)[i]? = some ai → ∃ p, (w.accounts ai.key).data = .participant p ∧
        ai.key = rt.slotKey id (.participant p.wallet) ∧
        p.participantIndex = (rootAt rt id w l).nextIndex + i := by
  have hc := consistent h
  obtain ⟨r, hreach, hi, hr, rfl, hid⟩ := represented h hl
  subst hid
  rw [hr.rootAt_eq] at hph ⊢
  have hseal := (FinalizeWinners.finalizable hi (hr.now ▸ hready)).sealed
  cases hs with
  | instruction hsig hok =>
    rcases FinalizeWinners.process_ok_of_sealed hc.typed hsig hon hr hseal hok with
      ⟨-, hset | hset | ⟨root, hroot, hdone⟩⟩ | ⟨ac, rfl, -, root, w₁, w₂, l', root', hchunk⟩
    · simp [hready.not_complete] at hset
    · simp [hready.not_settled] at hset
    · rw [openLedger, hroot] at hph
      exact absurd hdone hph
    · obtain ⟨-, -, es, x, r', hturn, hnames, -⟩ := hchunk.simulated hc.typed hr
        hready.not_settled hready.not_complete hready.two_le hready.attested hready.no_missing
        hready.elapsed pre .finalizeWinners ac.toList
      obtain ⟨hpos, hle⟩ := hturn.positions hi.progress hi.books hseal
      have hlen : es.length = ac.participants.length := hnames.length_eq.symm
      have hcount : r.participants.length = r.lottery.participantsCount :=
        (List.length_map _).symm.trans hi.books.enrolled.length
      rw [hlen, hcount, Round.cursor_eq] at hle
      refine ⟨?_, hle, fun i ai hai ↦ ?_⟩
      · have := List.length_pos_iff.mpr hchunk.nonempty
        simp only [FinalizeWinners.Accounts.toList, List.length_cons]
        omega
      · have hai : ac.participants[i]? = some ai := hai
        obtain ⟨hlt, rfl⟩ := List.getElem?_eq_some_iff.mp hai
        have hlt' : i < es.length := hlen.symm ▸ hlt
        obtain ⟨wallet, hwallet, hk⟩ := hnames.get hlt hlt'
        rw [List.get_eq_getElem] at hk
        have hfst : (es.get ⟨i, hlt'⟩).1 = r.openLedger.nextIndex + i := by
          have hget := congrArg (·[i]?) hpos
          simp only [List.getElem?_map, List.getElem?_eq_getElem hlt', Option.map_some,
            List.getElem?_range' hlt', one_mul, Option.some.injEq] at hget
          rw [List.get_eq_getElem, hget, Round.cursor_eq]
        rw [hfst, List.getElem?_map, Option.map_eq_some_iff] at hwallet
        obtain ⟨p, hp, rfl⟩ := hwallet
        refine ⟨p, ?_, hk, hi.books.enrolled.index _ p.ballot (Round.ballots_get hp)⟩
        rw [hk]
        refine (hr.stored hi.routed (List.mem_of_getElem? hp)).resolve_right fun hs ↦ ?_
        simp [hready.not_settled] at hs

/-- A call that goes through before the finalization is complete names just the participants that
come next: one that skips, repeats or reorders participants, or names too many, fails. -/
theorem chunks_in_order {l : Lottery K} {pre : List (K × Bytes)} {accounts : List (AccountInfo K)}
    (h : (system rt).History acts (w :: ws)) (hl : (w.view rt id .lottery).data = .lottery l)
    (hready : l.Ready w.clock) (hph : (rootAt rt id w l).phase ≠ .completed)
    (hon : CallsOn rt accounts id) (hs : Step rt w
      (.instruction pre .finalizeWinners accounts) w') :
    7 < accounts.length ∧
      (rootAt rt id w l).nextIndex + (accounts.length - 7) ≤ l.participantsCount ∧
      ∀ i ai, (accounts.drop 7)[i]? = some ai → ∃ p, (w.accounts ai.key).data = .participant p ∧
        ai.key = rt.slotKey id (.participant p.wallet) ∧
        p.participantIndex = (rootAt rt id w l).nextIndex + i :=
  FinalizeWinners.in_order_of_step h hl hready hph hon hs

/-- The second call of the aggregation pass. -/
theorem chunks_in_order_sample :
    ∃ (w w' : World Sample.Key) (l : Lottery Sample.Key),
      l.Ready w.clock ∧ Step Sample.rt w (Sample.finalize 1 0 [21, 22]) w' ∧
      ∃ p, (w.accounts (Sample.participantKey 1 21)).data = .participant p ∧
        p.participantIndex = (rootAt Sample.rt 1 w l).nextIndex := by
  obtain ⟨w, ws, l, h, hl, hp⟩ := Sample.run_lottery (Sample.ready ++ [Sample.finalize 1 0 [20]]) 1
    (fun w l ↦ decide (l.Ready w.clock) && decide ((rootAt Sample.rt 1 w l).phase ≠ .completed) &&
      (exec Sample.rt Sample.Key.isWallet w (Sample.finalize 1 0 [21, 22])).any fun _ ↦ true)
    (by decide +kernel)
  simp only [Bool.and_eq_true, decide_eq_true_eq] at hp
  obtain ⟨⟨hready, hph⟩, hstep⟩ := hp
  obtain ⟨w', hs, -⟩ := Sample.step_ok hstep
  have hon : CallsOn Sample.rt (Sample.finalizeAccounts 1 0 [21, 22]).toList 1 := rfl
  obtain ⟨-, -, hnext⟩ := chunks_in_order h hl hready hph hon hs
  obtain ⟨p, hd, -, hidx⟩ := hnext 0 _ rfl
  exact ⟨w, w', l, hready, hs, p, hd, hidx⟩

/-- The passes of a ready lottery may be cut into calls in any way, by anybody and with anything in
between. Once all visits are made, and only then, the accounts hold what one fold and one draw for
each winner give; and a call that does not name the participants that come next fails. -/
theorem cuts_refine_reference {l : Lottery K} {k : Contest K}
    (h : (system rt).History acts (w :: ws))
    (hl : (w.view rt id .lottery).data = .lottery l) (hready : l.Ready w.clock)
    (hk : Contested rt id ws w l k) :
    (∀ as w', (system rt).Path w as w' → ∃ l', (w'.view rt id .lottery).data = .lottery l' ∧
      ((∃ root, (w'.view rt id .finalizationRoot).data = .finalizationLedger root ∧
          root.phase = .completed) ↔
        k.outstanding (rootAt rt id w l) ≤ (as.map (Action.visits rt id)).sum) ∧
      ∀ root, (w'.view rt id .finalizationRoot).data = .finalizationLedger root →
        root.phase = .completed → ∃ o, k.outcome rt = .ok o ∧ o.StoredIn rt id w' l' root) ∧
    (∀ a, FinalizeWinners.Serves rt w id (rootAt rt id w l) a →
      (∃ w', FinalizeWinners.process rt w a.toList = .ok w') ∨
        ∃ e, FinalizeWinners.process rt w a.toList = .error e ∧
          FinalizeWinners.Blocked rt w id k (rootAt rt id w l) a e) ∧
    ((rootAt rt id w l).phase ≠ .completed → ∀ pre accounts w',
      Step rt w (.instruction pre .finalizeWinners accounts) w' → CallsOn rt accounts id →
        7 < accounts.length ∧
        (rootAt rt id w l).nextIndex + (accounts.length - 7) ≤ l.participantsCount ∧
        ∀ i ai, (accounts.drop 7)[i]? = some ai → ∃ p,
          (w.accounts ai.key).data = .participant p ∧
          ai.key = rt.slotKey id (.participant p.wallet) ∧
          p.participantIndex = (rootAt rt id w l).nextIndex + i) := by
  obtain ⟨r, hseal, hsize⟩ := Sealing.init h hl hready hk
  refine ⟨fun as w' hp ↦ ?_, fun a ha ↦ ?_, fun hph pre accounts w' hs hon ↦
    FinalizeWinners.in_order_of_step h hl hready hph hon hs⟩
  · obtain ⟨l', hl', -, hiff⟩ := hseal.counted h hp
    rw [rootAt_completed_iff, hsize] at hiff
    exact ⟨l', hl', hiff, fun root hroot hph ↦ hseal.outcome_of_path h hp hl' hroot hph⟩
  · have hr := hseal.represents w ws rfl
    obtain rfl := hr.eq_lottery hl
    rw [hr.rootAt_eq] at ha ⊢
    rw [← hseal.contest]
    exact FinalizeWinners.process_blocked h hseal.reachable hr hready ha

/-- Six visits in three calls, and the outcome is there. -/
theorem cuts_refine_reference_sample :
    ∃ (w w' : World Sample.Key) (l' : Lottery Sample.Key) (k : Contest Sample.Key)
      (root : FinalizationLedger Sample.Key) (o : Outcome Sample.Key),
      (system Sample.rt).Path w Sample.chunks w' ∧
      (w'.view Sample.rt 1 .finalizationRoot).data = .finalizationLedger root ∧
      root.phase = .completed ∧ k.outcome Sample.rt = .ok o ∧
      o.StoredIn Sample.rt 1 w' l' root := by
  obtain ⟨w, ws, l, w', h, hl, hpath, hp⟩ := Sample.run_path Sample.ready Sample.chunks 1
    (fun w l w' ↦ decide (l.Ready w.clock) && Sample.completed w' 1) (by decide +kernel)
  simp only [Bool.and_eq_true, decide_eq_true_eq] at hp
  obtain ⟨hready, hdone⟩ := hp
  obtain ⟨k, hk⟩ := exists_contested h hl
  obtain ⟨root, hroot, hph⟩ := (Option.any_eq_true _ _).mp hdone
  have hroot := unwrap_finalizationLedger.mp hroot
  have hph := of_decide_eq_true hph
  obtain ⟨hcuts, -, -⟩ := cuts_refine_reference h hl hready hk
  obtain ⟨l', -, -, hout⟩ := hcuts _ w' hpath
  obtain ⟨o, ho, hst⟩ := hout root hroot hph
  exact ⟨w, w', l', k, root, o, hpath, hroot, hph, ho, hst⟩

end DailyLottery
