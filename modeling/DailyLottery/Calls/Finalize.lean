import DailyLottery.Round.Advance
import DailyLottery.Runs.Turns
import DailyLottery.Runs.Ready
import DailyLottery.Execute

set_option linter.unusedSectionVars false

namespace DailyLottery

open Lib Ballot

variable {K : Type} [DecidableEq K] [Inhabited K] {rt : Runtime K} {w w' : World K} {id : ℕ}

/-- The index of the participant the next chunk has to begin with. -/
def FinalizationLedger.nextIndex (root : FinalizationLedger K) : ℕ :=
  match root.phase with
  | .aggregating => root.processedCount
  | _ => root.roundProcessedCount

theorem Round.cursor_eq (r : Round K) : r.cursor = r.openLedger.nextIndex := by
  unfold Round.cursor FinalizationLedger.nextIndex
  cases r.openLedger.phase <;> rfl

/-- Every attested reveal is in, nobody can attest any more, and the lottery is not settled. -/
structure Lottery.Ready (l : Lottery K) (now : ℤ) : Prop where
  not_settled : l.settled = false
  not_complete : l.settlementComplete = false
  two_le : 1 < l.participantsCount
  attested : l.attestedCount ≠ 0
  no_missing : l.hasMissingAttestedReveals = false
  elapsed : l.uploadsComplete = true ∨ l.uploadElapsed now = true

/-- What the outcome of a lottery is a function of, read off its accounts. -/
def contestOf (c : Config K) (l : Lottery K) (tally : Option (VoteTally K))
    (ps : List (Participant K)) : Contest K where
  lotteryId := l.id
  aggregate := l.pocAggregateHash
  totalFunds := l.totalFunds
  serviceChargeBps := l.serviceChargeBps
  maxWinners := c.effectiveMaxWinners l.participantsCount
  votedWinners := tally.elim 1 fun t ↦ t.selectedWinners l.participantsCount
  ballots := ps.map Participant.ballot

def tallyAt (rt : Runtime K) (id : ℕ) (w : World K) : Option (VoteTally K) :=
  AccountType.unwrap (w.view rt id .voteTally).data

/-- The ledger a call works on: the one in the account, or a new one. -/
def rootAt (rt : Runtime K) (id : ℕ) (w : World K) (l : Lottery K) : FinalizationLedger K :=
  (AccountType.unwrap (w.view rt id .finalizationRoot).data).getD
    (.new (rt.lotteryKey id) l.participantsCount w.clock)

/-- The contest lottery `id` decides. -/
def Contested (rt : Runtime K) (id : ℕ) (ws : List (World K)) (w : World K) (l : Lottery K)
    (k : Contest K) : Prop :=
  ∃ c ps, (w.accounts rt.configKey).data = .config c ∧ Roll rt (w :: ws) id ps ∧
    k = contestOf c l (tallyAt rt id w) ps

namespace Represents

variable {acts : List (Action K)} {ws : List (World K)} {r : Round K}

theorem tallyAt_eq (hr : Represents rt acts w ws id r) : tallyAt rt id w = r.tally := by
  rw [tallyAt, hr.tally]
  cases r.tally <;> rfl

theorem rootAt_eq (hr : Represents rt acts w ws id r) :
    rootAt rt id w r.lottery = r.openLedger := by
  rw [rootAt, Round.openLedger, hr.ledger, hr.key, hr.now]
  cases r.ledger <;> rfl

theorem eq_roll (hr : Represents rt acts w ws id r) (hb : r.books.Sound) {ps : List (Participant K)}
    (h : Roll rt (w :: ws) id ps) : ps = r.participants := by
  have hroll := hr.roll hb
  refine List.ext_getElem? fun i ↦ Option.ext fun p ↦ ?_
  have hof {ps qs : List (Participant K)} (hps : Roll rt (w :: ws) id ps)
      (hqs : Roll rt (w :: ws) id qs) (hp : ps[i]? = some p) : qs[i]? = some p := by
    obtain ⟨hq, -⟩ := (hqs.mem_iff p.wallet p).mp
      ((hps.mem_iff p.wallet p).mpr ⟨List.mem_of_getElem? hp, rfl⟩)
    obtain ⟨j, hj⟩ := List.getElem?_of_mem hq
    rwa [← hps.getElem_index hp, hqs.getElem_index hj]
  exact ⟨hof h hroll, hof hroll h⟩

theorem contested (hr : Represents rt acts w ws id r) (hb : r.books.Sound) :
    Contested rt id ws w r.lottery r.contest := by
  refine ⟨r.config, r.participants, hr.config, hr.roll hb, ?_⟩
  rw [hr.tallyAt_eq]
  rfl

theorem eq_contest (hr : Represents rt acts w ws id r) (hb : r.books.Sound) {k : Contest K}
    (h : Contested rt id ws w r.lottery k) : k = r.contest := by
  obtain ⟨c, ps, hc, hps, rfl⟩ := h
  obtain rfl := hr.eq_config hc
  rw [hr.eq_roll hb hps, hr.tallyAt_eq]
  rfl

end Represents

theorem createAccount_error_congr {payer new : AccountInfo K} {space : ℕ} {e : ProgramError}
    (hp : w'.accounts payer.key = w.accounts payer.key)
    (hn : w'.accounts new.key = w.accounts new.key)
    (h : createAccount rt w' payer new space = .error e) :
    createAccount rt w payer new space = .error e := by
  simp only [createAccount, bind_eq_error, rejectIf_eq_error, rejectIf_eq_ok, exists_const,
    pure_ne_error, and_false, or_false, hp, hn] at h ⊢
  exact h

namespace FinalizeWinners

structure Accounts (K : Type) where
  config : AccountInfo K
  lottery : AccountInfo K
  vault : AccountInfo K
  payer : AccountInfo K
  systemProgram : AccountInfo K
  finalizationRoot : AccountInfo K
  winnerPage : AccountInfo K
  participants : List (AccountInfo K)

def Accounts.toList (a : Accounts K) : List (AccountInfo K) :=
  a.config :: a.lottery :: a.vault :: a.payer :: a.systemProgram :: a.finalizationRoot ::
    a.winnerPage :: a.participants

/-- The call names the accounts of lottery `id`, the page of the next winner and the participants
that come next. -/
structure Serves (rt : Runtime K) (w : World K) (id : ℕ) (root : FinalizationLedger K)
    (a : Accounts K) : Prop where
  config : a.config.key = rt.configKey
  lottery : a.lottery.key = rt.lotteryKey id ∧ a.lottery.isWritable = true
  vault : a.vault.key = rt.slotKey id .vault ∧ a.vault.isWritable = true
  payer : a.payer.isSigner = true ∧ a.payer.isWritable = true ∧ rt.Foreign a.payer.key
  systemProgram : a.systemProgram.key = default
  finalizationRoot : a.finalizationRoot.key = rt.slotKey id .finalizationRoot ∧
    a.finalizationRoot.isWritable = true
  winnerPage : a.winnerPage.key = rt.slotKey id
    (.winnerPage (root.selectedCount / winnersPerPage)) ∧
    a.winnerPage.isWritable = true
  nonempty : a.participants ≠ []
  next : ∀ i ai, a.participants[i]? = some ai → ai.isWritable = true ∧
    ∃ p, (w.accounts ai.key).data = .participant p ∧
      ai.key = rt.slotKey id (.participant p.wallet) ∧ p.participantIndex = root.nextIndex + i

section Loop

variable {lotteryAi : AccountInfo K} {l : Lottery K} {ps : List (Participant K)}
  {past : K → Option (Participant K)} {root : FinalizationLedger K}

/-- The accounts are those of the participants from `k` on. -/
def FromIndex (rt : Runtime K) (id : ℕ) (wallets : List K) (k : ℕ)
    (accounts : List (AccountInfo K)) :
    Prop :=
  ∀ i ai, accounts[i]? = some ai → ai.isWritable = true ∧
    ∃ wallet, wallets[k + i]? = some wallet ∧ ai.key = rt.slotKey id (.participant wallet)

theorem FromIndex.tail {wallets : List K} {k : ℕ} {ai : AccountInfo K}
    {accounts : List (AccountInfo K)}
    (h : FromIndex rt id wallets k (ai :: accounts)) :
      FromIndex rt id wallets (k + 1) accounts := by
  intro i ai' hi
  obtain ⟨hwr, wallet, hw, hk⟩ := h (i + 1) ai' hi
  exact ⟨hwr, wallet, by rw [← hw]; congr 1; omega, hk⟩

theorem participantLoop_succeeds {body : FinalizationLedger K → Participant K →
      Result (FinalizationLedger K × Option (Participant K))}
    {P : List (Participant K) → FinalizationLedger K → ℕ → Prop}
    (hkeeps : ∀ root p root' updated, body root p = .ok (root', updated) →
      Keeps rt p root root' updated)
    (hstep : ∀ ps root k p, P ps root k → ps[k]? = some p → (∃ x, body root p = .ok x) ∧
      ∀ root' updated, body root p = .ok (root', updated) →
        P (ps.set k (updated.getD p)) root' (k + 1))
    (hlk : lotteryAi.key = rt.lotteryKey id) (hncl : ∀ q, ¬l.Closable q)
    (hp : Passes rt id past l w w ps) {k : ℕ} (hP : P ps root k) {accounts : List (AccountInfo K)}
    (hnext : FromIndex rt id (ps.map Participant.wallet) k accounts) :
    ∃ x, participantLoop rt body lotteryAi accounts w root = .ok x := by
  induction accounts generalizing w root ps k with
  | nil => exact ⟨_, rfl⟩
  | cons ai accounts ih =>
    obtain ⟨hwr, wallet, hwallet, hk⟩ := hnext 0 ai rfl
    rw [Nat.add_zero, List.getElem?_map, Option.map_eq_some_iff] at hwallet
    obtain ⟨p, hi, rfl⟩ := hwallet
    have hd : (w.view rt id (.participant p.wallet)).data = .participant p :=
      ((hp.roster.stored p (List.mem_of_getElem? hi)).resolve_right fun he ↦ hncl p he.2).1
    obtain ⟨howner, hlot, -, -⟩ : (w.view rt id (.participant p.wallet)).owner = rt.programId ∧
        p.lottery = rt.lotteryKey id ∧ p.wallet = p.wallet ∧ rt.Foreign p.wallet := by
      rcases hp.fits p.wallet with ⟨he, -⟩ | ⟨ho, hs⟩
      · rw [hd] at he
        cases he
      · rw [hd] at hs
        exact ⟨ho, hs⟩
    have hne : (w.view rt id (.participant p.wallet)).data ≠ .empty := by simp [hd]
    have hread : readValidParticipant rt w lotteryAi ai = .ok p := by
      have hok : readAccountData rt w (Participant K) ai = .ok p := by
        apply readAccountData_ok <;> rw [hk]
        · exact hne
        · exact unwrap_participant.mpr hd
      simp only [readValidParticipant, bind_eq_ok, rejectIf_eq_ok, assertPdaOwned_eq_ok, pure_eq_ok,
        exists_const]
      exact ⟨p, hok, fun hn ↦ hn (hlot.trans hlk.symm), ⟨by rw [hk, hlk]; rfl, hk ▸ howner⟩, rfl⟩
    obtain ⟨⟨⟨root₁, updated⟩, hbody⟩, hafter⟩ := hstep ps root k p hP hi
    have hpass : ∃ w₁, writeUpdated rt w ai updated = .ok w₁ ∧
        Passes rt id past l w w₁ (ps.set k (updated.getD p)) := by
      cases updated with
      | none =>
        refine ⟨w, rfl, ?_⟩
        rw [Option.getD_none]
        obtain ⟨hi', rfl⟩ := List.getElem?_eq_some_iff.mp hi
        rwa [List.set_getElem_self]
      | some p' =>
        obtain ⟨hpl, hpw⟩ := (hkeeps _ _ _ _ hbody).updated p' rfl
        refine ⟨_, writeAccountData_eq_ok.mpr ⟨?_, hwr, hk ▸ howner, rfl⟩, ?_⟩
        · rw [hk, AccountData.isEmpty_eq_false]
          exact hne
        · rw [hk]
          exact hp.write p' hi hd hpl hpw fun h ↦ absurd h (hncl p)
    obtain ⟨w₁, hwrite, hpass⟩ := hpass
    have hwallets : (ps.set k (updated.getD p)).map Participant.wallet =
      ps.map Participant.wallet := by
      refine map_set_same hi ?_
      cases updated with
      | none => rfl
      | some p' => exact ((hkeeps _ _ _ _ hbody).updated p' rfl).2
    have hrest := hnext.tail
    rw [← hwallets] at hrest
    obtain ⟨x, hx⟩ := ih (.refl hpass.fits hpass.roster) (hafter _ _ hbody) hrest
    refine ⟨x, ?_⟩
    simp only [participantLoop, bind_eq_ok, requireWritable_eq_ok, exists_const, Prod.exists]
    exact ⟨hwr, p, hread, root₁, updated, hbody, w₁, hwrite, hx⟩

theorem participantLoop_frame {body : FinalizationLedger K → Participant K →
      Result (FinalizationLedger K × Option (Participant K))} {root' : FinalizationLedger K}
    {accounts : List (AccountInfo K)}
    (h : participantLoop rt body lotteryAi accounts w root = .ok (w', root')) {k : K}
    (hk : ∀ ai ∈ accounts, k ≠ ai.key) : w'.accounts k = w.accounts k := by
  induction accounts generalizing w root with
  | nil =>
    simp only [participantLoop, Except.ok.injEq, Prod.mk.injEq] at h
    rw [h.1]
  | cons ai accounts ih =>
    simp only [participantLoop, bind_eq_ok, Prod.exists] at h
    obtain ⟨-, -, p, -, root₁, updated, -, w₁, hwrite, h⟩ := h
    rw [ih h fun ai hai ↦ hk ai (List.mem_cons_of_mem _ hai)]
    cases updated with
    | none =>
      cases hwrite
      rfl
    | some p' =>
      simp only [writeUpdated, writeAccountData_eq_ok] at hwrite
      obtain ⟨-, -, -, rfl⟩ := hwrite
      exact World.accounts_setAccount_of_ne _ _ (hk ai List.mem_cons_self)

end Loop

section Chunks

variable {r : Round K} {past : K → Option (Participant K)}
    {lotteryAi payerAi pageAi : AccountInfo K}
  {participantAccounts : List (AccountInfo K)} {e : ProgramError}

theorem processAggregationChunk_error (hi : r.Invariant rt) (hfin : r.Finalizable)
    (hph : r.openLedger.phase = .aggregating) (hlk : lotteryAi.key = rt.lotteryKey id)
    (hp : Passes rt id past r.lottery w w r.participants)
    (hnext : FromIndex rt id (r.participants.map Participant.wallet) r.cursor participantAccounts)
    (he : processAggregationChunk rt w lotteryAi r.config r.lottery r.openLedger
      participantAccounts = .error e) :
    e = Error.winnerSelectionFailed ∧ r.contest.draw rt 1 = .error e := by
  have hs := hfin.sealed
  have hc := hi.bounded hs
  have hncl (q : Participant K) : ¬r.lottery.Closable q := by
    simp [Lottery.Closable, hfin.not_settled, hfin.not_complete]
  obtain ⟨k, hst, hlt, -, -, hel⟩ := hi.progress.of_aggregating hi.books hs hph
  have hk : k < r.contest.ballots.length := hlt
  have hcursor : r.cursor = k := by
    rw [Round.cursor, hph]
    dsimp only
    rw [hst.pooled.processed, List.length_take, min_eq_left hk.le]
  rw [hcursor] at hnext
  have hstep (ps : List (Participant K)) (root : FinalizationLedger K) (k : ℕ) (p : Participant K)
      (h : ps.map Participant.ballot = r.contest.ballots ∧ k ≤ r.contest.ballots.length ∧
        r.contest.Aggregating rt root ps k) (hp : ps[k]? = some p) :
      (∃ x, aggregateParticipant rt root p = .ok x) ∧
        ∀ root' updated, aggregateParticipant rt root p = .ok (root', updated) →
          (ps.set k (updated.getD p)).map Participant.ballot = r.contest.ballots ∧
            k + 1 ≤ r.contest.ballots.length ∧
            r.contest.Aggregating rt root' (ps.set k (updated.getD p)) (k + 1) := by
    obtain ⟨hps, hk, hst⟩ := h
    refine ⟨hst.accepts hc hps hp, fun root' updated hv ↦ ?_⟩
    have hvisit : Round.PassVisit (aggregateParticipant rt) root () p root' (updated.getD p) :=
      ⟨updated, hv, rfl⟩
    obtain ⟨-, hlt, hst'⟩ := hst.visit hk hc.index hps hp hvisit
    refine ⟨?_, hlt, hst'⟩
    rw [map_set_same hp (Round.ballot_of_unmarked
      (Round.unmarked_aggregateParticipant hvisit)), hps]
  simp only [processAggregationChunk, bind_eq_error, rejectIf_eq_error, rejectIf_eq_ok,
    exists_const, Prod.exists] at he
  obtain hloop | ⟨w₁, root₁, hloop, he⟩ := he
  · obtain ⟨x, hx⟩ := participantLoop_succeeds
      (P := fun ps root k ↦ ps.map Participant.ballot = r.contest.ballots ∧
        k ≤ r.contest.ballots.length ∧ r.contest.Aggregating rt root ps k)
      (fun _ _ _ _ ↦ aggregateParticipant_keeps) hstep hlk hncl hp ⟨rfl, hk.le, hst⟩ hnext
    cases hloop.symm.trans hx
  · obtain ⟨es, ps', -, hsweep, -⟩ :=
      participantLoop_ok (fun _ _ _ _ ↦ aggregateParticipant_keeps) hlk hncl hp hloop
    obtain ⟨-, hle, hst'⟩ := hst.chunk hk.le hc.index rfl hsweep
    have hproc : root₁.processedCount = k + es.length := by
      rw [hst'.pooled.processed, List.length_take, min_eq_left hle]
    have hreq := hst'.rooted.required
    obtain ⟨hbad, -⟩ | ⟨-, hend⟩ := he
    · omega
    · split at hend
      · next hfull =>
        rw [hproc, hreq] at hfull
        rw [hfull] at hst'
        simp only [bind_eq_error, pure_ne_error, and_false, exists_false, or_false] at hend
        exact hst'.finish_error hc rfl rfl hel rfl hi.books.enrolled.length.symm
          (hi.pool_ne_nil hs) hend
      · cases hend

theorem loadOrCreateWinnerPage_error {g i : ℕ}
    (hfits : (w.view rt id (.winnerPage i)).Fits rt (.winnerPage (rt.lotteryKey id) i))
    (hgen : ∀ page data, (w.view rt id (.winnerPage i)).data = .winnerPage page data →
      page.generation = g)
    (hlk : lotteryAi.key = rt.lotteryKey id) (hpk : pageAi.key = rt.slotKey id (.winnerPage i))
    (he : loadOrCreateWinnerPage rt w lotteryAi payerAi pageAi g i = .error e) :
    (w.view rt id (.winnerPage i)).data = .empty ∧
      createAccount rt w payerAi pageAi WinnerPage.size = .error e := by
  have hkey : assertWinnerPageKey rt lotteryAi pageAi i = .ok () := by
    rw [assertWinnerPageKey, assertPdaKey_eq_ok, hlk, hpk]
    rfl
  rw [loadOrCreateWinnerPage, hkey, dataIsEmpty, hpk, World.accounts_slotKey] at he
  by_cases hempty : (w.view rt id (.winnerPage i)).data = .empty
  · refine ⟨hempty, ?_⟩
    rw [hempty] at he
    obtain he | ⟨_, -, he⟩ := bind_eq_error.mp he
    · cases he
    · obtain he | ⟨_, -, he⟩ := bind_eq_error.mp he
      · exact he
      · cases he
  · exfalso
    rw [← AccountData.isEmpty_eq_true] at hempty
    rw [if_neg hempty] at he
    rw [AccountData.isEmpty_eq_true] at hempty
    rcases hfits with ⟨hd, -⟩ | ⟨howner, hs⟩
    · exact hempty hd
    · obtain ⟨page, data, hd⟩ : ∃ page data, (w.view rt id (.winnerPage i)).data =
          .winnerPage page data := by
        cases hd : (w.view rt id (.winnerPage i)).data with
        | winnerPage page data => exact ⟨page, data, rfl⟩
        | empty => exact absurd hd hempty
        | _ => simp [hd, Holds] at hs
      rw [hd] at hs
      have hread : readAccountData rt w (WinnerPage K) pageAi = .ok page := by
        apply readAccountData_ok <;> rw [hpk]
        · exact hempty
        · exact unwrap_winnerPage.mpr ⟨data, hd⟩
      simp only [bind_eq_error, assertPdaOwned, rejectIf_eq_error, rejectIf_eq_ok,
        exists_const, hread, hpk, hlk, World.accounts_slotKey, howner] at he
      simp [Runtime.slotKey, Slot.seeds] at he
      obtain ⟨hl, hi, -⟩ := hs
      rcases he.1 with h | h | h
      · exact h hl
      · exact h (hgen page data hd)
      · exact h hi

theorem appendWinner_succeeds {i : ℕ} {page page' : WinnerPage K} {data' : PageData K}
    {winner : SelectedWinner K} (hpk : pageAi.key = rt.slotKey id (.winnerPage i))
    (hwr : pageAi.isWritable = true) (hne : (w.view rt id (.winnerPage i)).data ≠ .empty)
    (howner : (w.view rt id (.winnerPage i)).owner = rt.programId)
    (happ : page.append (w.view rt id (.winnerPage i)).data.pageData winner = .ok (page', data')) :
    ∃ w', appendWinner rt w pageAi page winner = .ok w' := by
  simp only [appendWinner, exists_bind_eq_ok, writeAccountData_eq_ok, hpk, World.accounts_slotKey]
  exact ⟨_, happ, _, ⟨AccountData.isEmpty_eq_false.mpr hne, hwr, howner, rfl⟩, _, rfl⟩

/-- The end of a selection pass fails at the creation of a page, at the next draw, or when the pool
is too small for its winners. -/
theorem finishRound_error {root : FinalizationLedger K} {ps : List (Participant K)}
    {winners : List (Ballot K)} {now : ℤ} (hc : r.contest.Bounded)
    (hst : r.contest.Selecting rt root ps winners r.contest.ballots.length)
    (hlt : winners.length < r.contest.target) (hpages : Paged r.key r.pages (winners.map selected))
    (hset : r.lottery.settlementComplete = false)
    (hbitmap : (Sizes.maxWinners + 7) / 8 ≤ r.lottery.paidWinnersBitmap.length)
    (hview : ∀ i, (w.view rt id (.winnerPage i)).data =
      (r.pages i).elim .empty fun x ↦ .winnerPage x.1 x.2)
    (hfits : (w.view rt id (.winnerPage (root.selectedCount / winnersPerPage))).Fits rt
      (.winnerPage (rt.lotteryKey id) (root.selectedCount / winnersPerPage)))
    (hrk : r.key = rt.lotteryKey id) (hlk : lotteryAi.key = rt.lotteryKey id)
    (hpk : pageAi.key = rt.slotKey id (.winnerPage (root.selectedCount / winnersPerPage)))
    (hwr : pageAi.isWritable = true) (hf : rt.Foreign payerAi.key)
    (he : finishRound rt w lotteryAi payerAi pageAi r.lottery root now = .error e) :
    ((w.view rt id (.winnerPage (root.selectedCount / winnersPerPage))).data = .empty ∧
        createAccount rt w payerAi pageAi WinnerPage.size = .error e) ∨
      (e = Error.winnerSelectionFailed ∧ winners.length + 1 < r.contest.target ∧
        r.contest.draw rt (winners.length + 2) = .error e) ∨
      e = Error.insufficientFunds ∧ winners.length + 1 = r.contest.target ∧
        r.contest.totalFunds - r.contest.serviceFee < r.contest.target := by
  obtain ⟨x, hx, hwinner⟩ := hst.winner hc
  obtain ⟨root₁, hrec⟩ := hst.record hc hlt hx
  have hgen := hst.rooted.generation
  have hindex : root.selectedCount / winnersPerPage =
      (winners.map selected).length / winnersPerPage := by
    rw [hst.selectedCount, List.length_map]
  have hstored {i : ℕ} {page : WinnerPage K} {data : PageData K}
      (hd : (w.view rt id (.winnerPage i)).data = .winnerPage page data) :
      r.pages i = some (page, data) := by
    rw [hview] at hd
    cases hp : r.pages i with
    | none => simp [hp] at hd
    | some x =>
      rw [hp] at hd
      obtain ⟨rfl, rfl⟩ := AccountData.winnerPage.inj hd
      rfl
  simp only [finishRound, bind_eq_error, hwinner, hrec, reduceCtorEq, false_or, Except.ok.injEq,
    exists_eq_left', Prod.exists, pure_ne_error, and_false, exists_false, or_false] at he
  obtain hload | ⟨w₁, page, hload, happend | ⟨w₂, -, hnext⟩⟩ := he
  · refine .inl (loadOrCreateWinnerPage_error hfits (fun page data hd ↦ ?_) hlk hpk hload)
    rw [hgen]
    exact (hpages.page _ page data (hstored hd)).2.1
  · exfalso
    obtain ⟨data, -, hfind, -, hopen, hdata⟩ := loadOrCreateWinnerPage_ok hfits hf hlk hload
    have hpage : (page, data) = (r.pages (root.selectedCount / winnersPerPage)).getD
        (WinnerPage.new r.key 1 (root.selectedCount / winnersPerPage), .zeroed) := by
      rcases hfind with hd | ⟨hd, hnew⟩
      · rw [hstored hd]
        rfl
      · rw [hview] at hd
        cases hp : r.pages (root.selectedCount / winnersPerPage) with
        | none => rw [hnew, hgen, hrk, Option.getD_none]
        | some x => simp [hp] at hd
    obtain ⟨⟨page', data'⟩, hroom⟩ := hpages.room hindex hpage x.selected
    have howner : (w₁.view rt id (.winnerPage (root.selectedCount / winnersPerPage))).owner =
        rt.programId := by
      rcases hopen with ⟨hv, hne⟩ | ⟨-, n, space, -, hv⟩
      · rw [hv]
        exact (hfits.resolve_left fun he ↦ hne he.1).1
      · rw [hv]
        simp
    obtain ⟨w', hok⟩ := appendWinner_succeeds hpk hwr hopen.data_ne_empty howner
      (hdata.symm ▸ hroom)
    cases happend.symm.trans hok
  · exact .inr (hst.next_error hc hlt rfl rfl hset hbitmap hwinner hrec hnext)

theorem processSelectionChunk_error (hi : r.Invariant rt) (hspare : r.Spare) (hfin : r.Finalizable)
    (hph : r.openLedger.phase = .selecting) (hlk : lotteryAi.key = rt.lotteryKey id)
    (hp : Passes rt id past r.lottery w w r.participants)
    (hview : ∀ i, (w.view rt id (.winnerPage i)).data =
      (r.pages i).elim .empty fun x ↦ .winnerPage x.1 x.2)
    (hfits : (w.view rt id).Fits rt id) (hrk : r.key = rt.lotteryKey id)
    (hnext : FromIndex rt id (r.participants.map Participant.wallet) r.cursor participantAccounts)
    (hpk : pageAi.key = rt.slotKey id (.winnerPage (r.openLedger.selectedCount / winnersPerPage)))
    (hwr : pageAi.isWritable = true) (hf : rt.Foreign payerAi.key)
    (he : processSelectionChunk rt w lotteryAi payerAi pageAi r.lottery r.openLedger
      participantAccounts r.now = .error e) :
    r.cursor + participantAccounts.length = r.participants.length ∧
      (((w.view rt id (.winnerPage (r.openLedger.selectedCount / winnersPerPage))).data = .empty ∧
          createAccount rt w payerAi pageAi WinnerPage.size = .error e) ∨
        (e = Error.winnerSelectionFailed ∧ r.openLedger.selectedCount + 1 < r.contest.target ∧
          r.contest.draw rt (r.openLedger.selectedCount + 2) = .error e) ∨
        e = Error.insufficientFunds ∧ r.openLedger.selectedCount + 1 = r.contest.target ∧
          r.contest.totalFunds - r.contest.serviceFee < r.contest.target) := by
  have hs := hfin.sealed
  have hc := hi.bounded hs
  have hncl (q : Participant K) : ¬r.lottery.Closable q := by
    simp [Lottery.Closable, hfin.not_settled, hfin.not_complete]
  obtain ⟨winners, k, hst, hlt, hlt', hpages⟩ := hi.progress.of_selecting hph
  have hk : k < r.contest.ballots.length := hlt
  have hcount : r.openLedger.selectedCount = winners.length := hst.selectedCount
  have hcursor : r.cursor = k := by
    rw [Round.cursor, hph]
    exact hst.processed
  rw [hcursor] at hnext ⊢
  have hstep (ps : List (Participant K)) (root : FinalizationLedger K) (k : ℕ) (p : Participant K)
      (h : ps.map Participant.ballot = r.contest.ballots ∧
        r.contest.Selecting rt root ps winners k) (hp : ps[k]? = some p) :
      (∃ x, selectParticipant root p = .ok x) ∧
        ∀ root' updated, selectParticipant root p = .ok (root', updated) →
          (ps.set k (updated.getD p)).map Participant.ballot = r.contest.ballots ∧
            r.contest.Selecting rt root' (ps.set k (updated.getD p)) winners (k + 1) := by
    obtain ⟨hps, hst⟩ := h
    refine ⟨hst.accepts hc hps hp, fun root' updated hv ↦ ?_⟩
    have hvisit : Round.PassVisit selectParticipant root () p root' (updated.getD p) :=
      ⟨updated, hv, rfl⟩
    obtain ⟨-, -, hst'⟩ := hst.visit hc.index hps hp hvisit
    refine ⟨?_, hst'⟩
    rw [map_set_same hp (Round.ballot_of_unmarked (Round.unmarked_selectParticipant hvisit)), hps]
  simp only [processSelectionChunk, bind_eq_error, rejectIf_eq_error, rejectIf_eq_ok, exists_const,
    Prod.exists] at he
  obtain hloop | ⟨w₁, root₁, hloop, he⟩ := he
  · obtain ⟨x, hx⟩ := participantLoop_succeeds
      (P := fun ps root k ↦ ps.map Participant.ballot = r.contest.ballots ∧
        r.contest.Selecting rt root ps winners k)
      (fun _ _ _ _ ↦ selectParticipant_keeps) hstep hlk hncl hp ⟨rfl, hst⟩ hnext
    cases hloop.symm.trans hx
  · obtain ⟨es, ps', hnames, hsweep, hpass, -⟩ :=
      participantLoop_ok (fun _ _ _ _ ↦ selectParticipant_keeps) hlk hncl hp hloop
    obtain ⟨-, hle, hst'⟩ := hst.chunk hk.le hc.index rfl hsweep
    have hlen : es.length = participantAccounts.length := hnames.length_eq.symm
    have hballots : r.contest.ballots.length = r.participants.length := List.length_map _
    have hproc := hst'.processed
    have hreq := hst'.rooted.required
    have hcount' : root₁.selectedCount = winners.length := hst'.selectedCount
    obtain ⟨hbad, -⟩ | ⟨-, hend⟩ := he
    · omega
    · split at hend
      · next hfull =>
        rw [hproc, hreq] at hfull
        rw [hfull] at hst'
        have hother (i : ℕ) : w₁.view rt id (.winnerPage i) = w.view rt id (.winnerPage i) :=
          hpass.others _ (by simp)
        rw [hcount, ← hcount'] at hpk ⊢
        have hround := finishRound_error hc hst' hlt' hpages hfin.not_complete
          (hspare (by
            cases hi.progress with
            | waiting _ hw => exact hw
            | aggregating _ hw => exact hw
            | selecting _ hw => exact hw
            | completed hl _ _ hst => simp [Round.openLedger, hl, hst.phase] at hph)).ge
          (fun i ↦ by rw [hother]; exact hview i) (by rw [hother]; exact hfits _) hrk hlk hpk hwr hf
          hend
        refine ⟨by omega, ?_⟩
        rcases hround with ⟨hempty, hcreate⟩ | hfunds
        · -- neither account takes part in the pass
          have hframe {k : K} (hkey : ∀ wallet, k ≠ rt.slotKey id (.participant wallet)) :
              w₁.accounts k = w.accounts k := by
            refine participantLoop_frame hloop fun ai hai ↦ ?_
            obtain ⟨i, hi⟩ := List.getElem?_of_mem hai
            obtain ⟨-, wallet, -, hkk⟩ := hnext i ai hi
            rw [hkk]
            exact hkey wallet
          refine .inl ⟨by rw [← hother]; exact hempty, ?_⟩
          exact createAccount_error_congr (hframe fun wallet ↦ hf.ne_slotKey rt id _)
            (hframe fun wallet ↦ by rw [hpk]; simp) hcreate
        · rw [hcount']
          exact .inr hfunds
      · cases hend

theorem loadOrCreateRoot_error {rootAi : AccountInfo K} {l : Lottery K} {now : ℤ}
    (hfits : (w.view rt id .finalizationRoot).Fits rt (.finalizationRoot (rt.lotteryKey id)))
    (hroot : ∀ root, (w.view rt id .finalizationRoot).data = .finalizationLedger root →
      root.protocolVersion = finalizationProtocolVersion ∧ root.requiredCount = l.participantsCount)
    (hlk : lotteryAi.key = rt.lotteryKey id) (hrk : rootAi.key = rt.slotKey id .finalizationRoot)
    (he : loadOrCreateRoot rt w lotteryAi payerAi rootAi l now = .error e) :
    (w.view rt id .finalizationRoot).data = .empty ∧
      createAccount rt w payerAi rootAi FinalizationLedger.size = .error e := by
  have hkey : assertPdaKey rt rootAi (.finalizationRoot lotteryAi.key) = .ok () := by
    rw [assertPdaKey_eq_ok, hlk, hrk]
    rfl
  rw [loadOrCreateRoot, hkey, ok_bind, dataIsEmpty, hrk, World.accounts_slotKey] at he
  by_cases hempty : (w.view rt id .finalizationRoot).data = .empty
  · refine ⟨hempty, ?_⟩
    rw [hempty] at he
    obtain he | ⟨_, -, he⟩ := bind_eq_error.mp he
    · exact he
    · cases he
  · exfalso
    rw [← AccountData.isEmpty_eq_true] at hempty
    rw [if_neg hempty] at he
    rw [AccountData.isEmpty_eq_true] at hempty
    obtain ⟨howner, hs⟩ := hfits.resolve_left fun hd ↦ hempty hd.1
    obtain ⟨root, hd⟩ : ∃ root, (w.view rt id .finalizationRoot).data =
      .finalizationLedger root := by
      cases hd : (w.view rt id .finalizationRoot).data with
      | finalizationLedger root => exact ⟨root, rfl⟩
      | empty => exact absurd hd hempty
      | _ => simp [hd, Holds] at hs
    rw [hd] at hs
    have hread : readAccountData rt w (FinalizationLedger K) rootAi = .ok root := by
      apply readAccountData_ok <;> rw [hrk]
      · exact hempty
      · exact unwrap_finalizationLedger.mpr hd
    have howned : assertPdaOwned rt w rootAi (.finalizationRoot lotteryAi.key) = .ok () := by
      rw [assertPdaOwned_eq_ok, hlk, hrk]
      exact ⟨rfl, howner⟩
    rw [howned, ok_bind, hread, ok_bind] at he
    obtain he | ⟨_, -, he⟩ := bind_eq_error.mp he
    · obtain ⟨hversion, hrequired⟩ := hroot root hd
      rw [rejectIf_eq_error, hs.1, hlk, hversion, hrequired] at he
      simp at he
    · cases he

theorem storeChunk_succeeds {rootAi : AccountInfo K} {l : Lottery K} {root : FinalizationLedger K}
    (hlk : lotteryAi.key = rt.slotKey id .lottery ∧ lotteryAi.isWritable = true)
    (hrk : rootAi.key = rt.slotKey id .finalizationRoot ∧ rootAi.isWritable = true)
    (hlottery : (w.view rt id .lottery).data ≠ .empty ∧
      (w.view rt id .lottery).owner = rt.programId)
    (hroot : (w.view rt id .finalizationRoot).data ≠ .empty ∧
      (w.view rt id .finalizationRoot).owner = rt.programId) :
    ∃ w', storeChunk rt w lotteryAi rootAi l root = .ok w' := by
  have hother : (w.setData (rt.slotKey id .finalizationRoot) (.finalizationLedger root)).view rt id
      .lottery = w.view rt id .lottery := by simp
  simp only [storeChunk, exists_bind_eq_ok, writeAccountData_eq_ok, hlk, hrk,
    World.accounts_slotKey]
  refine ⟨_, ⟨AccountData.isEmpty_eq_false.mpr hroot.1, trivial, hroot.2, rfl⟩, _, ?_,
    trivial, ?_, rfl⟩
  · rw [AccountData.isEmpty_eq_false]
    exact hother.symm ▸ hlottery.1
  · exact hother.symm ▸ hlottery.2

end Chunks

section Calls

variable {acts : List (Action K)} {ws : List (World K)} {r : Round K} {a : Accounts K}
  {e : ProgramError}

/-- What can keep a call that names the right accounts from doing its part. -/
inductive Blocked (rt : Runtime K) (w : World K) (id : ℕ) (k : Contest K)
    (root : FinalizationLedger K) (a : Accounts K) : ProgramError → Prop
  | ledger {e : ProgramError} : (w.view rt id .finalizationRoot).data = .empty →
      createAccount rt w a.payer a.finalizationRoot FinalizationLedger.size = .error e →
      Blocked rt w id k root a e
  | page {e : ProgramError} : root.phase = .selecting →
      root.nextIndex + a.participants.length = k.ballots.length →
      (w.view rt id (.winnerPage (root.selectedCount / winnersPerPage))).data = .empty →
      createAccount rt w a.payer a.winnerPage WinnerPage.size = .error e →
      Blocked rt w id k root a e
  | draw {n : ℕ} : n ≤ k.target → k.draw rt n = .error Error.winnerSelectionFailed →
      Blocked rt w id k root a Error.winnerSelectionFailed
  | funds : root.phase = .selecting → root.nextIndex + a.participants.length = k.ballots.length →
      root.selectedCount + 1 = k.target → k.totalFunds - k.serviceFee < k.target →
      Blocked rt w id k root a Error.insufficientFunds

theorem Serves.fromIndex {root : FinalizationLedger K} (ha : Serves rt w id root a)
    (hr : Represents rt acts w ws id r) (hb : r.books.Sound) :
    FromIndex rt id (r.participants.map Participant.wallet) root.nextIndex a.participants := by
  intro i ai hi
  obtain ⟨hwr, p, hd, hk, hidx⟩ := ha.next i ai hi
  rw [hk] at hd
  obtain ⟨j, hj⟩ := hr.roster.getElem_of_data hd
  have hjx : p.participantIndex = j := hb.enrolled.index j p.ballot (Round.ballots_get hj)
  refine ⟨hwr, p.wallet, ?_, hk⟩
  rw [← hidx, hjx, List.getElem?_map, hj]
  rfl

theorem rooted (hi : r.Invariant rt) {root : FinalizationLedger K} (hl : r.ledger = some root) :
    root.Rooted r.contest.ballots.length := by
  cases hi.progress with
  | waiting hnone => simp [hnone] at hl
  | aggregating hl' _ _ _ hst =>
    cases hl'.symm.trans hl
    exact hst.rooted
  | selecting hl' _ _ _ _ _ hst =>
    cases hl'.symm.trans hl
    exact hst.rooted
  | completed hl' _ _ hst =>
    cases hl'.symm.trans hl
    exact hst.rooted

/-- With the right accounts a chunk fails for one of four reasons only. -/
theorem processChunk_error (hw : WellTyped rt w) (hr : Represents rt acts w ws id r)
    (hi : r.Invariant rt) (hspare : r.Spare) (hfin : r.Finalizable)
    (ha : Serves rt w id r.openLedger a)
    (he : processChunk rt w a.lottery a.payer a.finalizationRoot a.winnerPage r.config r.lottery
      a.participants = .error e) : Blocked rt w id r.contest r.openLedger a e := by
  have hlk := ha.lottery.1
  have hf := ha.payer.2.2
  have hlen : r.contest.ballots.length = r.lottery.participantsCount := hi.books.enrolled.length
  have hnext := ha.fromIndex hr hi.books
  rw [← Round.cursor_eq] at hnext
  have hpagekey : assertWinnerPageKey rt a.lottery a.winnerPage
      (r.openLedger.selectedCount / winnersPerPage) = .ok () := by
    rw [assertWinnerPageKey, assertPdaKey_eq_ok, hlk, ha.winnerPage.1]
    rfl
  obtain he | ⟨-, -, he⟩ := bind_eq_error.mp he
  · exact absurd (rejectIf_eq_error.mp he).1 ha.nonempty
  obtain he | ⟨⟨w₁, root⟩, hroot, he⟩ := bind_eq_error.mp he
  · obtain ⟨hempty, hcreate⟩ := loadOrCreateRoot_error (hw _) (fun root hd ↦ by
      have hrooted := rooted hi (hr.eq_ledger hd)
      exact ⟨hrooted.version, hrooted.required.trans hlen⟩) hlk ha.finalizationRoot.1 he
    exact .ledger hempty hcreate
  obtain ⟨-, hfind, htouch, hopen, hsame⟩ := loadOrCreateRoot_ok hw hf hlk hroot
  have hroot_eq : root = r.openLedger := by
    rw [hr.now] at hfind
    exact (hfind.openLedger hr).1.symm
  subst hroot_eq
  have hp₁ : Passes rt id ((w.view rt id).lastIn (pastOf rt ws id)) r.lottery w₁ w₁
      r.participants := by
    refine .refl (fun wallet ↦ ?_) (hr.roster.push.opened hopen (by simp))
    rw [hopen.apply_of_ne (by simp)]
    exact hw.fits _ _
  have hncl (q : Participant K) : ¬r.lottery.Closable q := by
    simp [Lottery.Closable, hfin.not_settled, hfin.not_complete]
  have hstore {w₂ : World K} {x : LotteryEvent K} {l' : Lottery K} {root' : FinalizationLedger K}
      (hs : ∀ s, (∀ wallet, s ≠ .participant wallet) → (∀ i, s ≠ .winnerPage i) →
        w₂.view rt id s = w₁.view rt id s) :
      ∃ w', storeChunk rt (w₂.emit x) a.lottery a.finalizationRoot l' root' = .ok w' := by
    have hlottery := hs .lottery (by simp) (by simp)
    have hledger := hs .finalizationRoot (by simp) (by simp)
    rw [hopen.apply_of_ne (by simp)] at hlottery
    refine storeChunk_succeeds ⟨hlk, ha.lottery.2⟩ ha.finalizationRoot ?_ ?_
    · rw [World.view_emit, hlottery]
      have hne : (w.view rt id .lottery).data ≠ .empty := by simp [hr.lottery]
      exact ⟨hne, (hw.fits id).owner hne⟩
    · rw [World.view_emit, hledger]
      refine ⟨hopen.data_ne_empty, ?_⟩
      rcases hopen with ⟨hv, hne⟩ | ⟨-, n, space, -, hv⟩
      · rw [hv]
        exact (hw.fits id).owner hne
      · rw [hv]
        simp
  dsimp only at he
  rw [hpagekey, ok_bind] at he
  split at he
  · next hph =>
    obtain he | ⟨⟨w₂, l', root'⟩, hpass, he⟩ := bind_eq_error.mp he
    · obtain ⟨rfl, hd⟩ := processAggregationChunk_error hi hfin hph hlk hp₁ hnext he
      exact .draw ((hi.bounded hfin.sealed).one_le_target (hi.pool_ne_nil hfin.sealed)) hd
    · exfalso
      simp only [processAggregationChunk, bind_eq_ok, rejectIf_eq_ok, exists_const,
        Prod.exists] at hpass
      obtain ⟨wm, root₁, hloop, -, hpass⟩ := hpass
      obtain ⟨_, _, -, -, hp, -⟩ :=
        participantLoop_ok (fun _ _ _ _ ↦ aggregateParticipant_keeps) hlk hncl hp₁ hloop
      have hwm : wm = w₂ := by
        split at hpass
        · simp only [bind_eq_ok, pure_eq_ok, Prod.mk.injEq, Prod.exists] at hpass
          obtain ⟨_, _, -, hwm, -⟩ := hpass
          exact hwm
        · simp only [pure_eq_ok, Prod.mk.injEq] at hpass
          exact hpass.1
      subst hwm
      obtain ⟨w', hok⟩ := hstore fun s hs _ ↦ hp.others s hs
      cases he.symm.trans hok
  · next hph =>
    -- a ledger in its selection passes is an old one
    have hold : w₁ = w := by
      refine hsame fun hempty ↦ ?_
      have hledger := hr.ledger
      cases hl : r.ledger with
      | none =>
        rw [Round.openLedger, hl] at hph
        cases hph
      | some root =>
        rw [hl, hempty] at hledger
        cases hledger
    subst hold
    rw [hr.now] at he
    obtain he | ⟨⟨w₂, l', root'⟩, hpass, he⟩ := bind_eq_error.mp he
    · obtain ⟨hend, ⟨hempty, hcreate⟩ | ⟨rfl, hlt, hd⟩ | ⟨rfl, heq, hsmall⟩⟩ :=
        processSelectionChunk_error hi hspare hfin hph hlk hp₁ hr.pages (hw.fits id) hr.key hnext
          ha.winnerPage.1 ha.winnerPage.2 hf he
      all_goals
        have hballots : r.contest.ballots.length = r.participants.length := List.length_map _
        rw [Round.cursor_eq, ← hballots] at hend
      · exact .page hph hend hempty hcreate
      · exact .draw hlt hd
      · exact .funds hph hend heq hsmall
    · exfalso
      simp only [processSelectionChunk, bind_eq_ok, rejectIf_eq_ok, exists_const,
        Prod.exists] at hpass
      obtain ⟨wm, root₁, hloop, -, hpass⟩ := hpass
      obtain ⟨_, _, -, -, hp, -⟩ :=
        participantLoop_ok (fun _ _ _ _ ↦ selectParticipant_keeps) hlk hncl hp₁ hloop
      have hframe : ∀ s, (∀ wallet, s ≠ .participant wallet) → (∀ i, s ≠ .winnerPage i) →
          w₂.view rt id s = w₁.view rt id s := by
        intro s hs hi
        split at hpass
        · obtain ⟨_, _, _, _, _, _, v, -, -, -, -, -, -, hopen', hv⟩ := finishRound_ok (by
            rw [hp.others _ (by simp)]
            exact hw.fits id _) hf hlk hpass
          rw [hv, View.setData_apply, if_neg (hi _), hopen'.apply_of_ne (hi _), hp.others s hs]
        · simp only [pure_eq_ok, Prod.mk.injEq] at hpass
          obtain ⟨rfl, -, -⟩ := hpass
          exact hp.others s hs
      obtain ⟨w', hok⟩ := hstore hframe
      cases he.symm.trans hok
  · cases he
  · next hph =>
    cases hl : r.ledger with
    | none =>
      rw [Round.openLedger, hl] at hph
      cases hph
    | some root =>
      rw [Round.openLedger, hl, Option.getD_some] at hph
      cases hi.progress with
      | waiting hnone => simp [hnone] at hl
      | aggregating hl' _ _ _ hst =>
        cases hl'.symm.trans hl
        simp [hst.phase] at hph
      | selecting hl' _ _ _ _ _ hst =>
        cases hl'.symm.trans hl
        simp [hst.phase] at hph
      | completed hl' _ _ hst =>
        cases hl'.symm.trans hl
        simp [hst.phase] at hph

theorem process_eq {c : Config K} {l : Lottery K} {b : Vault K} {root : FinalizationLedger K}
    (hm : Mounted rt id w c l) (hv : (w.view rt id .vault).data = .vault b) (hl : l.Ready w.clock)
    (ha : Serves rt w id root a) : process rt w a.toList =
      processChunk rt w a.lottery a.payer a.finalizationRoot a.winnerPage c l a.participants := by
  obtain ⟨hid, -, hvk⟩ := hm.lottery_eq
  have hconfig : assertPdaOwned rt w a.config .config = .ok () := by
    rw [assertPdaOwned_eq_ok, ha.config]
    exact ⟨rfl, hm.owner_config⟩
  have hlottery : assertPdaOwned rt w a.lottery (.lottery a.config.key l.id) = .ok () := by
    rw [assertPdaOwned_eq_ok, ha.config, ha.lottery.1, hid]
    exact ⟨rfl, hm.owner_lottery⟩
  have hvault : assertPdaOwned rt w a.vault (.vault a.lottery.key) = .ok () := by
    rw [assertPdaOwned_eq_ok, ha.lottery.1, ha.vault.1]
    exact ⟨rfl, hm.owner (by simp [hv])⟩
  have hread : readAccountData rt w (Vault K) a.vault = .ok b :=
    Mounted.read ha.vault.1 (by simp [hv]) (unwrap_vault.mpr hv)
  have hwritable {ai : AccountInfo K} (h : ai.isWritable = true) : requireWritable ai = .ok () :=
    requireWritable_eq_ok.mpr h
  have hsigner : requireSigner a.payer = .ok () := requireSigner_eq_ok.mpr ha.payer.1
  have hsystem : requireKeyMatch a.systemProgram default = .ok () :=
    requireKeyMatch_eq_ok.mpr ha.systemProgram
  have hkv : requireKeyMatch a.vault l.vault = .ok () :=
    requireKeyMatch_eq_ok.mpr (ha.vault.1.trans hvk.symm)
  have hpc : rejectIf (l.participantsCount ≤ 1)
    (Error.invalidInstruction : ProgramError) = .ok () :=
    rejectIf_eq_ok.mpr (not_le.mpr hl.two_le)
  have hatt : rejectIf (l.attestedCount = 0)
    (Error.noAttestedParticipants : ProgramError) = .ok () :=
    rejectIf_eq_ok.mpr hl.attested
  have hel : rejectIf (l.uploadsComplete = false ∧ l.uploadElapsed w.clock = false)
      (Error.invalidInstruction : ProgramError) = .ok () := by
    rw [rejectIf_eq_ok, not_and_or, Bool.not_eq_false, Bool.not_eq_false]
    exact hl.elapsed
  simp only [process, Accounts.toList, hconfig, hwritable ha.lottery.2,
    hwritable ha.vault.2, hsigner,
    hwritable ha.payer.2.1, hwritable ha.finalizationRoot.2, hwritable ha.winnerPage.2, hsystem,
    hm.read_config ha.config, hm.read_lottery ha.lottery.1, hread, hlottery, hvault, hkv,
    hl.not_settled, hl.not_complete, hl.no_missing, hpc, hatt, hel, ok_bind, Bool.false_eq_true,
    or_self, if_false]

theorem finalizable (hi : r.Invariant rt) (hl : r.lottery.Ready r.now) : r.Finalizable :=
  ⟨hl.not_settled, hl.not_complete, hl.two_le, hl.attested, hl.no_missing, hl.elapsed,
    fun _ hroot ↦ (rooted hi hroot).required.trans hi.books.enrolled.length⟩

/-- A call with the right accounts goes through or is blocked. -/
theorem process_blocked (h : (system rt).History acts (w :: ws))
    (hreach : (Round.machine rt).Reachable r)
    (hr : Represents rt acts w ws id r) (hl : r.lottery.Ready w.clock)
    (ha : Serves rt w id r.openLedger a) :
    (∃ w', process rt w a.toList = .ok w') ∨
      ∃ e, process rt w a.toList = .error e ∧ Blocked rt w id r.contest r.openLedger a e := by
  have hi := Round.invariant hreach
  obtain ⟨c, hm⟩ := mounted h hr.lottery
  obtain rfl := hr.eq_config hm.config
  have hopen := hi.funded.vault_open hl.not_settled
  obtain ⟨b, hb⟩ := hr.vault.resolve_right fun hcl ↦ by simp [hopen] at hcl
  rw [process_eq hm hb hl ha]
  rw [hr.now] at hl
  cases hres : processChunk rt w a.lottery a.payer a.finalizationRoot a.winnerPage r.config r.lottery
      a.participants with
  | ok w' => exact .inl ⟨w', rfl⟩
  | error e =>
    exact .inr ⟨e, rfl, processChunk_error hm.typed hr hi (Round.spare hreach) (finalizable hi hl)
      ha hres⟩

/-- In every reachable state of a ready lottery, a call that names the right accounts goes through
unless an account cannot be created, a draw runs out of nonces, or the last winner leaves less than
a lamport for each. -/
theorem chunks_unblocked {l : Lottery K} {k : Contest K}
    (h : (system rt).History acts (w :: ws)) (hlot : (w.view rt id .lottery).data = .lottery l)
    (hl : l.Ready w.clock) (hk : Contested rt id ws w l k)
    (ha : Serves rt w id (rootAt rt id w l) a) :
    (∃ w', process rt w a.toList = .ok w') ∨
      ∃ e, process rt w a.toList = .error e ∧ Blocked rt w id k (rootAt rt id w l) a e := by
  obtain ⟨r, hreach, hi, hr, rfl, -⟩ := represented h hlot
  obtain rfl := hr.eq_contest hi.books hk
  rw [hr.rootAt_eq] at ha ⊢
  exact process_blocked h hreach hr hl ha

end Calls

end FinalizeWinners

theorem exists_contested {acts : List (Action K)} {ws : List (World K)} {l : Lottery K}
    (h : (system rt).History acts (w :: ws)) (hl : (w.view rt id .lottery).data = .lottery l) :
    ∃ k, Contested rt id ws w l k := by
  obtain ⟨r, -, hi, hr, rfl, -⟩ := represented h hl
  exact ⟨_, hr.contested hi.books⟩

instance (l : Lottery K) (now : ℤ) : Decidable (l.Ready now) :=
  decidable_of_iff (l.settled = false ∧ l.settlementComplete = false ∧ 1 < l.participantsCount ∧
    l.attestedCount ≠ 0 ∧ l.hasMissingAttestedReveals = false ∧
    (l.uploadsComplete = true ∨ l.uploadElapsed now = true))
    ⟨fun ⟨h₁, h₂, h₃, h₄, h₅, h₆⟩ ↦ ⟨h₁, h₂, h₃, h₄, h₅, h₆⟩,
      fun h ↦ ⟨h.1, h.2, h.3, h.4, h.5, h.6⟩⟩

namespace Sample

def finalizeAccounts (id page : ℕ) (ns : List ℕ) : FinalizeWinners.Accounts Key where
  config := writable .config
  lottery := writable (lotteryKey id)
  vault := writable (.vault (lotteryKey id))
  payer := signer (.wallet 5)
  systemProgram := writable default
  finalizationRoot := writable (.finalizationRoot (lotteryKey id))
  winnerPage := writable (.winnerPage (lotteryKey id) page)
  participants := ns.map fun n ↦ writable (participantKey id n)

/-- The participants stand in line, the first of them at index `i`. -/
def inLine (w : World Key) (id : ℕ) : ℕ → List ℕ → Bool
  | _, [] => true
  | i, n :: ns =>
    (AccountType.unwrap (w.accounts (participantKey id n)).data).any (fun p : Participant Key ↦
      p.wallet = .wallet n && p.participantIndex = i) && inLine w id (i + 1) ns

theorem get_of_inLine {w : World Key} {id i : ℕ} {ns : List ℕ} (h : inLine w id i ns = true) {j : ℕ}
    {ai : AccountInfo Key} (hj : (ns.map fun n ↦ writable (participantKey id n))[j]? = some ai) :
    ai.isWritable = true ∧ ∃ p, (w.accounts ai.key).data = .participant p ∧
      ai.key = Sample.rt.slotKey id (.participant p.wallet) ∧ p.participantIndex = i + j := by
  induction ns generalizing i j with
  | nil => simp at hj
  | cons n ns ih =>
    simp only [inLine, Bool.and_eq_true, Option.any_eq_true, decide_eq_true_eq] at h
    obtain ⟨⟨p, hp, hwallet, hindex⟩, hrest⟩ := h
    cases j with
    | zero =>
      cases hj
      refine ⟨rfl, p, unwrap_participant.mp hp, ?_, hindex⟩
      rw [hwallet]
      rfl
    | succ j =>
      obtain ⟨hwr, p', hd, hk, hidx⟩ := ih hrest hj
      exact ⟨hwr, p', hd, hk, by omega⟩

theorem serves {w : World Key} {root : FinalizationLedger Key} {id page : ℕ} {ns : List ℕ}
    (hpage : page = root.selectedCount / winnersPerPage) (hne : ns ≠ [])
    (h : inLine w id root.nextIndex ns = true) :
    FinalizeWinners.Serves Sample.rt w id root (finalizeAccounts id page ns) := by
  refine ⟨rfl, ⟨rfl, rfl⟩, ⟨rfl, rfl⟩, ⟨rfl, rfl, foreign_of_isWallet _ rfl⟩, rfl, ⟨rfl, rfl⟩,
    ⟨?_, rfl⟩, ?_, fun i ai hi ↦ get_of_inLine h hi⟩
  · rw [← hpage]
    rfl
  · simpa [finalizeAccounts] using hne

/-- Three participants of whom one attested, the attestations over. -/
def ready : List (Action Key) :=
  [configure 1000 500 10, create 1, buy 1 20 1, buy 1 21 1, buy 1 22 1, .tick (1000 + 24 * 60 * 60),
    attest 1 20 2, .tick (1000 + 72 * 60 * 60)]

end Sample

/-- The first call on a lottery of three goes through. -/
theorem FinalizeWinners.chunks_unblocked_sample :
    ∃ (w w' : World Sample.Key) (l : Lottery Sample.Key) (k : Contest Sample.Key) (ws : List _),
      (w.view Sample.rt 1 .lottery).data = .lottery l ∧ l.Ready w.clock ∧
      Contested Sample.rt 1 ws w l k ∧
      process Sample.rt w (Sample.finalizeAccounts 1 0 [20, 21, 22]).toList = .ok w' := by
  obtain ⟨w, ws, l, h, hl, hp⟩ := Sample.run_lottery Sample.ready 1
    (fun w l ↦ decide (l.Ready w.clock) &&
      decide ((rootAt Sample.rt 1 w l).selectedCount / winnersPerPage = 0) &&
      Sample.inLine w 1 (rootAt Sample.rt 1 w l).nextIndex [20, 21, 22] &&
      (process Sample.rt w (Sample.finalizeAccounts 1 0 [20, 21, 22]).toList).isOk)
    (by decide +kernel)
  simp only [Bool.and_eq_true, decide_eq_true_eq] at hp
  obtain ⟨⟨⟨hready, hpage⟩, hline⟩, hok⟩ := hp
  obtain ⟨k, hk⟩ := exists_contested h hl
  rcases chunks_unblocked h hl hready hk (Sample.serves hpage.symm (by simp) hline) with
    ⟨w', hw'⟩ | ⟨e, he, -⟩
  · exact ⟨w, w', l, k, ws, hl, hready, hk, hw'⟩
  · rw [he] at hok
    cases hok

end DailyLottery
