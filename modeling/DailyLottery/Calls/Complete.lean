import DailyLottery.Calls.Chunks
import DailyLottery.Calls.Squatted

set_option linter.unusedSectionVars false

namespace DailyLottery

open Lib Ballot

variable {K : Type} [DecidableEq K] [Inhabited K] {rt : Runtime K} {acts : List (Action K)}
  {w w' : World K} {ws : List (World K)} {id : ℕ} {r r' : Round K} {k : Contest K} {payer : K}

/-- The accounts a finalization creates where they do not exist yet. -/
def Contest.Needs (k : Contest K) : Slot K → Prop
  | .finalizationRoot => True
  | .winnerPage i => i * winnersPerPage < k.target
  | _ => False

/-- Lamports were sent to an account the finalization still has to create. -/
def Contest.Stranded (k : Contest K) (rt : Runtime K) (id : ℕ) (w : World K) : Prop :=
  ∃ s, k.Needs s ∧ (w.view rt id s).Squatted

theorem Sealing.ready (hk : Sealing rt id k acts (w :: ws) r) (hout : r.outstanding ≠ 0) :
    r.lottery.Ready w.clock := by
  have hi := Round.invariant hk.reachable
  have hr := hk.represents w ws rfl
  have hopen (hset : r.lottery.settlementComplete = true ∨ r.lottery.settled = true) : False :=
    hout ((Round.outstanding_eq_zero_iff hi hk.sealed).mpr
      (hi.progress.of_decided (hi.routed.decided hk.sealed hset)))
  refine ⟨?_, ?_, hk.sealed.two_le, hk.sealed.attested, hk.sealed.no_missing, ?_⟩
  · exact Bool.eq_false_iff.mpr fun hs ↦ hopen (.inr hs)
  · exact Bool.eq_false_iff.mpr fun hs ↦ hopen (.inl hs)
  · rw [hr.now]
    exact hk.sealed.ended

theorem Round.next_of_outstanding (hi : r.Invariant rt) (hs : r.books.Sealed)
    (hout : r.outstanding ≠ 0) : r.openLedger.nextIndex < r.participants.length ∧
      (r.openLedger.phase = .selecting → r.openLedger.selectedCount < r.contest.target) := by
  have hballots : r.contest.ballots.length = r.participants.length := List.length_map _
  have hcursor := r.cursor_eq
  cases hph : r.openLedger.phase with
  | aggregating =>
    obtain ⟨k, hst, hlt, -⟩ := hi.progress.of_aggregating hi.books hs hph
    have hlt : k < r.contest.ballots.length := hlt
    refine ⟨?_, nofun⟩
    rw [← hcursor, Round.cursor, hph]
    dsimp only
    rw [hst.pooled.processed, List.length_take]
    omega
  | selecting =>
    obtain ⟨winners, k, hst, hlt, hlt', -⟩ := hi.progress.of_selecting hph
    have hlt : k < r.contest.ballots.length := hlt
    refine ⟨?_, fun _ ↦ ?_⟩
    · rw [← hcursor, Round.cursor, hph]
      dsimp only
      rw [hst.processed]
      omega
    · rw [hst.selectedCount]
      exact hlt'
  | completed =>
    rw [Round.outstanding, Contest.outstanding, hph] at hout
    exact absurd rfl hout
  | unknown =>
    rw [Round.outstanding, Contest.outstanding, hph] at hout
    exact absurd rfl hout

theorem Contest.outcome_ok {o : Outcome K} (h : k.outcome rt = .ok o) :
    (∀ n ≤ k.target, ∀ e, k.draw rt n ≠ .error e) ∧ k.target ≤ k.totalFunds - k.serviceFee := by
  simp only [Contest.outcome, bind_eq_ok, rejectIf_eq_ok, exists_const, not_or, not_lt,
    Prod.exists] at h
  obtain ⟨winners, rest, hdraw, ⟨-, hfunds⟩, -⟩ := h
  refine ⟨fun n hn e he ↦ ?_, hfunds⟩
  cases hdraw.symm.trans (drawRounds_error he hn)

theorem createAccount_succeeds {payerAi newAi : AccountInfo K} {space : ℕ} {n : ℕ}
    (hp : payerAi.isSigner = true ∧ payerAi.isWritable = true) (hn : newAi.isWritable = true)
    (hpayer : w.accounts payerAi.key = ⟨n, default, .empty⟩) (hle : rt.minimumBalance space ≤ n)
    (hdata : (w.accounts newAi.key).data = .empty) (howner : (w.accounts newAi.key).owner = default)
    (hsq : ¬(w.accounts newAi.key).Squatted) :
    ∃ w', createAccount rt w payerAi newAi space = .ok w' := by
  have hunused : w.accounts newAi.key = .unused := by
    have hz : (w.accounts newAi.key).lamports = 0 := by
      by_contra hne
      exact hsq ⟨Nat.pos_of_ne_zero hne, howner, hdata⟩
    rw [Account.unused, ← hz, ← howner, ← hdata]
  refine ⟨_, createAccount_eq_ok.mpr ⟨⟨hp.1, hp.2, hn⟩, hunused, ?_, ?_, ?_, rfl⟩⟩
  all_goals rw [hpayer]
  · rfl
  · exact hle

/-- No signature but that of `payer`. -/
def SignedOnlyBy (payer : K) (accounts : List (AccountInfo K)) : Prop :=
  ∀ ai ∈ accounts, ai.isSigner = true → ai.key = payer

/-- Lamports for the payer, and calls on the lottery that it alone signs. -/
def Action.Finalizing (rt : Runtime K) (id : ℕ) (payer : K) : Action K → Prop
  | .outside key account => key = payer ∧ account.owner = default ∧ account.data = .empty
  | .instruction _ .finalizeWinners accounts => CallsOn rt accounts id ∧ SignedOnlyBy payer accounts
  | _ => False

namespace FinalizeWinners

def callOn (rt : Runtime K) (id : ℕ) (payer : K) (root : FinalizationLedger K) (wallet : K) :
    Accounts K where
  config := ⟨rt.configKey, false, false⟩
  lottery := ⟨rt.lotteryKey id, false, true⟩
  vault := ⟨rt.slotKey id .vault, false, true⟩
  payer := ⟨payer, true, true⟩
  systemProgram := ⟨default, false, false⟩
  finalizationRoot := ⟨rt.slotKey id .finalizationRoot, false, true⟩
  winnerPage := ⟨rt.slotKey id (.winnerPage (root.selectedCount / winnersPerPage)), false, true⟩
  participants := [⟨rt.slotKey id (.participant wallet), false, true⟩]

theorem callOn_signed (root : FinalizationLedger K) (wallet : K) :
    SignedOnlyBy payer (callOn rt id payer root wallet).toList := by
  intro ai hai hsig
  simp only [callOn, Accounts.toList, List.mem_cons, List.not_mem_nil, or_false] at hai
  rcases hai with rfl | rfl | rfl | rfl | rfl | rfl | rfl | rfl
  case inr.inr.inr.inl => rfl
  all_goals cases hsig

theorem callOn_signers (hf : rt.Foreign payer) (root : FinalizationLedger K) (wallet : K) :
    SignersAreKeys rt (callOn rt id payer root wallet).toList := by
  intro ai hai hsig
  rw [callOn_signed root wallet ai hai hsig]
  exact hf

theorem callOn_serves (hr : Represents rt acts w ws id r) (hi : r.Invariant rt)
    (hset : r.lottery.settled = false) (hf : rt.Foreign payer) {p : Participant K}
    (hp : r.participants[r.openLedger.nextIndex]? = some p) :
    Serves rt w id r.openLedger (callOn rt id payer r.openLedger p.wallet) := by
  refine ⟨rfl, ⟨rfl, rfl⟩, ⟨rfl, rfl⟩, ⟨rfl, rfl, hf⟩, rfl, ⟨rfl, rfl⟩, ⟨rfl, rfl⟩,
    by simp [callOn], ?_⟩
  intro i ai hai
  obtain ⟨rfl, rfl⟩ : i = 0 ∧ ai = ⟨rt.slotKey id (.participant p.wallet), false, true⟩ := by
    cases i with
    | zero => exact ⟨rfl, (Option.some.inj hai).symm⟩
    | succ i => simp [callOn] at hai
  refine ⟨rfl, p, ?_, rfl, hi.books.enrolled.index _ p.ballot (Round.ballots_get hp)⟩
  refine (hr.stored hi.routed (List.mem_of_getElem? hp)).resolve_right fun hs ↦ ?_
  simp [hset] at hs

theorem not_blocked {o : Outcome K} {n : ℕ} {a : Accounts K} {e : ProgramError}
    (hw : WellTyped rt w) (ha : Serves rt w id r.openLedger a) (ho : r.contest.outcome rt = .ok o)
    (hpayer : w.accounts a.payer.key = ⟨n, default, .empty⟩)
    (hledger : rt.minimumBalance FinalizationLedger.size ≤ n)
    (hpage : rt.minimumBalance WinnerPage.size ≤ n) (hsq : ¬r.contest.Stranded rt id w)
    (hcount : r.openLedger.phase = .selecting → r.openLedger.selectedCount < r.contest.target) :
    ¬Blocked rt w id r.contest r.openLedger a e := by
  obtain ⟨hdraws, hfunds⟩ := Contest.outcome_ok ho
  have hslot {s : Slot K} (hneeds : r.contest.Needs s) : ¬(w.view rt id s).Squatted := fun h ↦
    hsq ⟨s, hneeds, h⟩
  intro hb
  cases hb with
  | ledger hempty herr =>
    obtain ⟨hk, hwr⟩ := ha.finalizationRoot
    obtain ⟨w', hok⟩ : ∃ w',
        createAccount rt w a.payer a.finalizationRoot FinalizationLedger.size = .ok w' :=
      createAccount_succeeds ⟨ha.payer.1, ha.payer.2.1⟩ hwr hpayer hledger (hk ▸ hempty)
        (hk ▸ (hw.fits id).owner_empty hempty) (hk ▸ hslot trivial)
    cases herr.symm.trans hok
  | page hph _ hempty herr =>
    obtain ⟨hk, hwr⟩ := ha.winnerPage
    have hneeds : r.contest.Needs (.winnerPage (r.openLedger.selectedCount / winnersPerPage)) :=
      (Nat.div_mul_le_self _ _).trans_lt (hcount hph)
    obtain ⟨w', hok⟩ : ∃ w', createAccount rt w a.payer a.winnerPage WinnerPage.size = .ok w' :=
      createAccount_succeeds ⟨ha.payer.1, ha.payer.2.1⟩ hwr hpayer hpage (hk ▸ hempty)
        (hk ▸ (hw.fits id).owner_empty hempty) (hk ▸ hslot hneeds)
    cases herr.symm.trans hok
  | draw hle herr => exact hdraws _ hle _ herr
  | funds _ _ _ hlt => exact absurd hfunds (not_le.mpr hlt)

theorem squatted_of_ok {accounts : List (AccountInfo K)} {key : K}
    (h : process rt w accounts = .ok w') (hsq : (w'.accounts key).Squatted) :
    (w.accounts key).Squatted := by
  have hlaw := (acts w' h).lawful
  obtain ⟨howner, hdata⟩ := hlaw.plain hsq.owner hsq.data
  refine ⟨Nat.pos_of_ne_zero fun hz ↦ ?_, howner, hdata⟩
  rcases hlaw.credit key (hz.symm ▸ hsq.funded) with ⟨-, -, hne⟩ | hk | hk
  · exact hne hsq.data
  · simp at hk
  · simp at hk

end FinalizeWinners

open FinalizeWinners

/-- With an outcome ahead and no stray lamports, the participants that come next and a payer with the
rents are all a call needs. -/
theorem Sealing.serves_ok {o : Outcome K} {a : FinalizeWinners.Accounts K} {n : ℕ}
    (h : (system rt).History acts (w :: ws)) (hk : Sealing rt id k acts (w :: ws) r)
    (ho : k.outcome rt = .ok o) (hsq : ¬k.Stranded rt id w) (hout : r.outstanding ≠ 0)
    (ha : Serves rt w id r.openLedger a) (hpayer : w.accounts a.payer.key = ⟨n, default, .empty⟩)
    (hledger : rt.minimumBalance FinalizationLedger.size ≤ n)
    (hpage : rt.minimumBalance WinnerPage.size ≤ n) :
    ∃ w', FinalizeWinners.process rt w a.toList = .ok w' := by
  have hr := hk.represents w ws rfl
  obtain ⟨-, hcount⟩ := Round.next_of_outstanding (Round.invariant hk.reachable) hk.sealed hout
  rcases process_blocked h hk.reachable hr (hk.ready hout) ha with hok | ⟨e, -, hblocked⟩
  · exact hok
  · refine absurd hblocked (not_blocked (consistent h).typed ha (hk.contest ▸ ho) hpayer hledger
      hpage ?_ hcount)
    rw [hk.contest]
    exact hsq

theorem Sealing.advance {o : Outcome K} (h : (system rt).History acts (w :: ws))
    (hk : Sealing rt id k acts (w :: ws) r) (ho : k.outcome rt = .ok o) (hf : rt.Foreign payer)
    (hsq : ¬k.Stranded rt id w) (hout : r.outstanding ≠ 0) :
    ∃ as w' ws' r', (system rt).Path w as w' ∧ (∀ a ∈ as, a.Finalizing rt id payer) ∧
      (system rt).History (as.reverse ++ acts) (w' :: ws') ∧
      Sealing rt id k (as.reverse ++ acts) (w' :: ws') r' ∧ r'.outstanding < r.outstanding ∧
      ¬k.Stranded rt id w' := by
  obtain ⟨n, hn⟩ : ∃ n, n = rt.minimumBalance FinalizationLedger.size +
    rt.minimumBalance WinnerPage.size := ⟨_, rfl⟩
  have hs₁ : Step rt w (.outside payer ⟨n, default, .empty⟩) (w.setAccount payer ⟨n,
    default, .empty⟩) :=
    .outside _ hf
  have hview := w.view_setAccount_of_ne rt (hf.ne_slotKey rt id) ⟨n, default, .empty⟩
  have h₁ := h.step hs₁
  obtain ⟨r₁, hout₁, hk₁⟩ := Step.drains h hk hs₁
  have hout₁ : r₁.outstanding = r.outstanding := hout₁
  have hi₁ := Round.invariant hk₁.reachable
  have hr₁ := hk₁.represents _ _ rfl
  have hready := hk₁.ready (hout₁ ▸ hout)
  obtain ⟨hlt, -⟩ := Round.next_of_outstanding hi₁ hk₁.sealed (hout₁ ▸ hout)
  have hserves := callOn_serves hr₁ hi₁ hready.not_settled hf (List.getElem?_eq_getElem hlt)
  have hpayer := w.accounts_setAccount_self payer ⟨n, default, .empty⟩
  have hsq₁ : ¬k.Stranded rt id (w.setAccount payer ⟨n, default, .empty⟩) := by
    rintro ⟨s, hneeds, hs⟩
    rw [hview] at hs
    exact hsq ⟨s, hneeds, hs⟩
  obtain ⟨w₂, hok⟩ := hk₁.serves_ok h₁ ho hsq₁ (hout₁ ▸ hout) hserves hpayer (by omega) (by omega)
  have hs₂ : Step rt _ (.instruction [] .finalizeWinners _) w₂ :=
    .instruction (callOn_signers hf _ _) hok
  obtain ⟨r₂, hout₂, hk₂⟩ := Step.drains h₁ hk₁ hs₂
  have hvisits : r₂.outstanding = r₁.outstanding - 1 := hout₂.trans (congrArg _ (if_pos rfl))
  refine ⟨_, w₂, _, r₂, .cons hs₁ (.one hs₂), ?_, h₁.step hs₂, hk₂, by omega, ?_⟩
  · intro a ha
    simp only [List.mem_cons, List.not_mem_nil, or_false] at ha
    rcases ha with rfl | rfl
    · exact ⟨rfl, rfl, rfl⟩
    · exact ⟨rfl, callOn_signed _ _⟩
  · rintro ⟨s, hneeds, hsq₂⟩
    exact hsq₁ ⟨s, hneeds, squatted_of_ok hok hsq₂⟩

theorem Sealing.complete {o : Outcome K} (h : (system rt).History acts (w :: ws))
    (hk : Sealing rt id k acts (w :: ws) r) (ho : k.outcome rt = .ok o) (hf : rt.Foreign payer)
    (hsq : ¬k.Stranded rt id w) :
    ∃ as w' root, (system rt).Path w as w' ∧ (∀ a ∈ as, a.Finalizing rt id payer) ∧
      (w'.view rt id .finalizationRoot).data = .finalizationLedger root ∧
      root.phase = .completed := by
  induction hn : r.outstanding using Nat.strong_induction_on generalizing acts w ws r with
  | _ n ih =>
    by_cases hz : r.outstanding = 0
    · obtain ⟨root, hroot, hph⟩ := hk.completed_iff.mp hz
      exact ⟨[], w, root, .nil w, by simp, hroot, hph⟩
    · obtain ⟨as, w₁, ws₁, r₁, hp, has, h₁, hk₁, hlt, hsq₁⟩ := hk.advance h ho hf hsq hz
      obtain ⟨bs, w', root, hp', hbs, hroot, hph⟩ := ih _ (hn ▸ hlt) h₁ hk₁ hsq₁ rfl
      refine ⟨as ++ bs, w', root, hp.trans hp', fun a ha ↦ ?_, hroot, hph⟩
      exact (List.mem_append.mp ha).elim (has a) (hbs a)

theorem Contest.outcome_winners {o : Outcome K} (h : k.outcome rt = .ok o) :
    o.winners.length = k.target := by
  simp only [Contest.outcome, bind_eq_ok, Prod.exists, pure_eq_ok] at h
  obtain ⟨winners, rest, hdraw, -, -, rfl⟩ := h
  rw [List.length_map]
  exact draw_length hdraw

/-- A finalization that was completed had an outcome, and no lamports stood in its way. -/
theorem Sealing.of_completed {as : List (Action K)} {root : FinalizationLedger K}
    (h : (system rt).History acts (w :: ws)) (hk : Sealing rt id k acts (w :: ws) r)
    (hp : (system rt).Path w as w')
    (hroot : (w'.view rt id .finalizationRoot).data = .finalizationLedger root)
    (hph : root.phase = .completed) : (∃ o, k.outcome rt = .ok o) ∧ ¬k.Stranded rt id w := by
  obtain ⟨ws', r', h', hk', -⟩ := hk.path h hp
  obtain ⟨o, ho, hst⟩ := (hk'.represents w' ws' rfl).outcome_stored
    (Round.invariant hk'.reachable) hroot hph
  rw [hk'.contest] at ho
  refine ⟨⟨o, ho⟩, ?_⟩
  rintro ⟨s, hneeds, hsq⟩
  have hsq' : (w'.view rt id s).Squatted :=
    hp.invariant (P := fun w ↦ (w.view rt id s).Squatted) (fun _ _ _ _ h hs ↦
      (Step.squatted hs h).1) hsq
  cases s with
  | finalizationRoot =>
    rw [hsq'.data] at hroot
    cases hroot
  | winnerPage i =>
    have hlt : i * winnersPerPage < o.winners.length := by
      rw [Contest.outcome_winners ho]
      exact hneeds
    have hat := hst.pages (i * winnersPerPage)
    rw [winnerAt, Nat.mul_div_cancel _ (by decide), hsq'.data, List.getElem?_eq_getElem hlt] at hat
    cases hat
  | lottery => exact hneeds
  | vault => exact hneeds
  | participant wallet => exact hneeds
  | voteTally => exact hneeds

theorem WellTyped.foreign_authority {c : Config K} (h : WellTyped rt w)
    (hc : (w.accounts rt.configKey).data = .config c) : rt.Foreign c.authority := by
  have hc : (w.accounts (rt.address .config)).data = .config c := hc
  have hholds := (h .config).resolve_left fun he ↦ by simp [hc] at he
  rw [hc] at hholds
  exact hholds.2

/-- From where a lottery is ready, its finalization can be completed if and only if its draws and
its funds allow it and nobody sent lamports to an account it still has to create. Anybody can do it
then: calls that one payer signs are enough. -/
theorem finalization_completes_iff {l : Lottery K} (h : (system rt).History acts (w :: ws))
    (hl : (w.view rt id .lottery).data = .lottery l) (hready : l.Ready w.clock)
    (hk : Contested rt id ws w l k) :
    ((∃ as w' root, (system rt).Path w as w' ∧
      (w'.view rt id .finalizationRoot).data = .finalizationLedger root ∧ root.phase = .completed) ↔
    (∃ o, k.outcome rt = .ok o) ∧ ¬k.Stranded rt id w) ∧
    ((∃ o, k.outcome rt = .ok o) ∧ ¬k.Stranded rt id w → ∀ payer, rt.Foreign payer →
      ∃ as w' root, (system rt).Path w as w' ∧ (∀ a ∈ as, a.Finalizing rt id payer) ∧
        (w'.view rt id .finalizationRoot).data = .finalizationLedger root ∧
        root.phase = .completed) := by
  obtain ⟨r, hseal, -⟩ := Sealing.init h hl hready hk
  have hcalls : (∃ o, k.outcome rt = .ok o) ∧ ¬k.Stranded rt id w → ∀ payer, rt.Foreign payer →
      ∃ as w' root, (system rt).Path w as w' ∧ (∀ a ∈ as, a.Finalizing rt id payer) ∧
        (w'.view rt id .finalizationRoot).data = .finalizationLedger root ∧
        root.phase = .completed := by
    rintro ⟨⟨o, ho⟩, hsq⟩ payer hf
    exact hseal.complete h ho hf hsq
  refine ⟨⟨?_, fun hgood ↦ ?_⟩, hcalls⟩
  · rintro ⟨as, w', root, hp, hroot, hph⟩
    exact hseal.of_completed h hp hroot hph
  · -- the authority is one who can sign
    have hf : rt.Foreign r.config.authority :=
      (consistent h).typed.foreign_authority (hseal.represents w ws rfl).config
    obtain ⟨as, w', root, hp, -, hroot, hph⟩ := hcalls hgood _ hf
    exact ⟨as, w', root, hp, hroot, hph⟩

/-- The draws and the funds allow it, as three calls show; so wallet 6 can do it too. -/
theorem finalization_completes_iff_sample :
    ∃ (w : World Sample.Key) (l : Lottery Sample.Key) (k : Contest Sample.Key),
      (w.view Sample.rt 1 .lottery).data = .lottery l ∧ l.Ready w.clock ∧
      (∃ o, k.outcome Sample.rt = .ok o) ∧ ¬k.Stranded Sample.rt 1 w ∧
      ∃ as w' root, (system Sample.rt).Path w as w' ∧
        (∀ a ∈ as, a.Finalizing Sample.rt 1 (.wallet 6)) ∧
        (w'.view Sample.rt 1 .finalizationRoot).data = .finalizationLedger root ∧
        root.phase = .completed := by
  obtain ⟨w, ws, l, w', h, hl, hpath, hp⟩ := Sample.run_path Sample.ready Sample.chunks 1
    (fun w l w' ↦ decide (l.Ready w.clock) && Sample.completed w' 1) (by decide +kernel)
  simp only [Bool.and_eq_true, decide_eq_true_eq] at hp
  obtain ⟨hready, hdone⟩ := hp
  obtain ⟨k, hk⟩ := exists_contested h hl
  obtain ⟨root, hroot, hph⟩ := (Option.any_eq_true _ _).mp hdone
  have hroot := unwrap_finalizationLedger.mp hroot
  obtain ⟨hiff, hcalls⟩ := finalization_completes_iff h hl hready hk
  have hgood := hiff.mp ⟨_, w', root, hpath, hroot, of_decide_eq_true hph⟩
  exact ⟨w, l, k, hl, hready, hgood.1, hgood.2,
    hcalls hgood _ (Sample.foreign_of_isWallet _ rfl)⟩

theorem Sealing.stuck {as : List (Action K)} (h : (system rt).History acts (w :: ws))
    (hk : Sealing rt id k acts (w :: ws) r)
    (hdead : ¬((∃ o, k.outcome rt = .ok o) ∧ ¬k.Stranded rt id w)) (hp : (system rt).Path w as w') :
    ∃ acts' ws' r', Sealing rt id k acts' (w' :: ws') r' ∧ r'.outstanding ≠ 0 := by
  obtain ⟨ws', r', h', hk', -⟩ := hk.path h hp
  refine ⟨_, ws', r', hk', fun hz ↦ ?_⟩
  obtain ⟨root, hroot, hph⟩ := hk'.completed_iff.mp hz
  exact hdead (hk.of_completed h hp hroot hph)

/-- Where it cannot be completed the lottery is never settled either: its money stays where it is. -/
theorem finalization_dead_end {l : Lottery K} {as : List (Action K)}
    (h : (system rt).History acts (w :: ws)) (hl : (w.view rt id .lottery).data = .lottery l)
    (hready : l.Ready w.clock) (hk : Contested rt id ws w l k)
    (hdead : ¬((∃ o, k.outcome rt = .ok o) ∧ ¬k.Stranded rt id w)) (hp : (system rt).Path w as w') :
    ∃ l', (w'.view rt id .lottery).data = .lottery l' ∧ l'.Ready w'.clock ∧
      l'.totalFunds = l.totalFunds ∧ l.totalFunds ≤ (w'.view rt id .vault).lamports := by
  obtain ⟨r, hseal, -⟩ := Sealing.init h hl hready hk
  obtain ⟨acts', ws', r', hseal', hopen⟩ := hseal.stuck h hdead hp
  have hi' := Round.invariant hseal'.reachable
  have hr' := hseal'.represents w' ws' rfl
  have hready' := hseal'.ready hopen
  have hfunds : r'.lottery.totalFunds = l.totalFunds := by
    obtain ⟨c, ps, -, -, rfl⟩ := hk
    exact congrArg Contest.totalFunds hseal'.contest
  refine ⟨r'.lottery, hr'.lottery, hready', hfunds, ?_⟩
  have hwinners : r'.lottery.winnersCount = 0 := by
    by_contra hne
    exact hopen ((Round.outstanding_eq_zero_iff hi' hseal'.sealed).mpr
      (hi'.progress.of_decided hne))
  have hvault := hi'.funded.vault (hi'.funded.vault_open hready'.not_settled)
  rw [hi'.funded.owed_eq hi'.books hwinners hready'.not_settled, hfunds, ← hr'.lamports] at hvault
  omega

/-- One lamport at the address of the ledger holds the money of a lottery for good. -/
theorem finalization_dead_end_sample :
    ∃ (w w' : World Sample.Key) (l l' : Lottery Sample.Key), (system Sample.rt).Path w
      [.tick (1000 + 240 * 60 * 60)] w' ∧
      (w'.view Sample.rt 1 .lottery).data = .lottery l' ∧ l'.Ready w'.clock ∧
      l.totalFunds ≤ (w'.view Sample.rt 1 .vault).lamports := by
  obtain ⟨w, ws, l, w', h, hl, hpath, hp⟩ := Sample.run_path
    (Sample.ready ++ [.deposit (Sample.rt.slotKey 1 .finalizationRoot) 1])
    [.tick (1000 + 240 * 60 * 60)] 1
    (fun w l _ ↦ decide (l.Ready w.clock) &&
      decide (0 < (w.view Sample.rt 1 .finalizationRoot).lamports) &&
      decide ((w.view Sample.rt 1 .finalizationRoot).owner = default) &&
      (w.view Sample.rt 1 .finalizationRoot).data.isEmpty) (by decide +kernel)
  simp only [Bool.and_eq_true, decide_eq_true_eq, AccountData.isEmpty_eq_true] at hp
  obtain ⟨⟨⟨hready, hfunded⟩, howner⟩, hdata⟩ := hp
  obtain ⟨k, hk⟩ := exists_contested h hl
  obtain ⟨l', hl', hready', -, hle⟩ := finalization_dead_end h hl hready hk
    (fun hd ↦ hd.2 ⟨.finalizationRoot, trivial, hfunded, howner, hdata⟩) hpath
  exact ⟨w, w', l, l', hpath, hl', hready', hle⟩

end DailyLottery
