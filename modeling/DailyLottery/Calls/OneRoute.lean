import DailyLottery.Calls.Admission

set_option linter.unusedSectionVars false

namespace DailyLottery

open Lib Ballot AccountInfo

variable {K : Type} [DecidableEq K] [Inhabited K] {rt : Runtime K} {acts as : List (Action K)}
  {w w' : World K} {ws : List (World K)} {id : ℕ} {c : Config K} {l l' : Lottery K}
  {p : Participant K} {r r' : Round K} {payer : K}

variable (rt) in
/-- The money can go back, and nothing else can happen. -/
structure RefundsOpen (id : ℕ) (w : World K) : Prop where
  cancel : ∃ w', Cancels rt id w w'
  no_reveals : ∀ pre entries accounts w',
    Step rt w (.instruction pre (.uploadReveals entries) accounts) w' → ¬CallsOn rt accounts id
  no_winners : ∀ pre accounts w', Step rt w (.instruction pre .finalizeWinners accounts) w' →
    CallsOn rt accounts id →
      (w'.view rt id .finalizationRoot).data = (w.view rt id .finalizationRoot).data

variable (rt) in
/-- Reveals can be brought. At most a call begins the remediation besides. -/
structure UploadsOpen (id : ℕ) (w : World K) (l : Lottery K) : Prop where
  reveal : ∃ uploader entries w', entries ≠ [] ∧
    (∀ e ∈ entries, e.2.length ≤ maxRevealPlaintextBytes ∧
      ∃ p, Answers rt id (w.view rt id) e p) ∧
    Step rt w (UploadReveals.call rt id uploader entries) w'
  no_cancel : ∀ w', ¬Cancels rt id w w'
  no_winners : ∀ pre accounts w', Step rt w (.instruction pre .finalizeWinners accounts) w' →
    CallsOn rt accounts id → l.remediationStartUnix = 0 ∧ ∃ l',
      l.beginRemediation w.clock = .ok l' ∧
      w'.view rt id = (w.view rt id).setData .lottery (.lottery l')

variable (rt) in
/-- The winners can be looked for: `FinalizeWinners`, with the participants that come next, gets to
work on them. -/
structure WinnersOpen (id : ℕ) (w : World K) (l : Lottery K) : Prop where
  guards : l.Ready w.clock
  served : ∃ a, FinalizeWinners.Serves rt w id (rootAt rt id w l) a
  chunk : ∀ c a, (w.accounts rt.configKey).data = .config c →
    FinalizeWinners.Serves rt w id (rootAt rt id w l) a →
      FinalizeWinners.process rt w a.toList = FinalizeWinners.processChunk rt w a.lottery a.payer
        a.finalizationRoot a.winnerPage c l a.participants
  no_cancel : ∀ w', ¬Cancels rt id w w'
  no_reveals : ∀ pre entries accounts w', entries ≠ [] →
    Step rt w (.instruction pre (.uploadReveals entries) accounts) w' → ¬CallsOn rt accounts id

variable (rt) in
def Opens (id : ℕ) (w : World K) (l : Lottery K) : Route → Prop
  | .refunds => RefundsOpen rt id w
  | .uploads => UploadsOpen rt id w l
  | .winners => WinnersOpen rt id w l

variable (rt) in
/-- Somebody can pay for the tally where there is none, and can begin the remediation where it has
to. -/
def Uploadable (id : ℕ) (w : World K) (c : Config K) (l : Lottery K) : Prop :=
  ∃ uploader, rt.Foreign uploader ∧
    TallyReady rt id w uploader (c.effectiveMaxWinners l.participantsCount) ∧
    (uploader = c.authority ∨ (l.remediationStartUnix = 0 →
      w.clock + Sizes.defaultRemediationWindowSecs < 2 ^ 63))

theorem elapsed_of_late (h : (system rt).History acts (w :: ws))
    (hl : (w.view rt id .lottery).data = .lottery l) (htwo : 2 ≤ l.participantsCount)
    (hlate : l.uploadDeadlineUnix < w.clock) : l.uploadElapsed w.clock = true := by
  obtain ⟨r, hreach, -, hr, rfl, -⟩ := represented h hl
  rw [hr.now] at hlate ⊢
  exact Round.elapsed_of_late hreach htwo hlate

theorem refundsOpen_iff (h : (system rt).History acts (w :: ws))
    (hl : (w.view rt id .lottery).data = .lottery l)
    (hset : l.settled = false) (hel : l.uploadElapsed w.clock = true) :
    RefundsOpen rt id w ↔ l.route w.clock = .refunds := by
  constructor
  · intro hopen
    obtain ⟨w', hcancel⟩ := hopen.cancel
    obtain ⟨-, -, hcase, -⟩ := hcancel.guards (consistent h).typed hl
    exact Lottery.route_refunds_iff.mpr hcase
  · intro hway
    have hcase := Lottery.route_refunds_iff.mp hway
    obtain ⟨hpos, hlt⟩ := Lottery.uploadElapsed_eq_true.mp hel
    obtain ⟨w', hcancel, -⟩ := cancels_of_guards h hl hset (.inr ⟨hpos, hlt.le⟩) hcase
    refine ⟨⟨w', hcancel⟩, fun pre entries accounts w' hs hon ↦ ?_, fun pre accounts w' hs hon ↦ ?_⟩
    · cases hs with
      | instruction hsig hok =>
        obtain ⟨c, l₀, isAuthority, l₁, -, -, -, -, -, -, -, -, -, -, hl₀, hon₀, -, -, hcheck, -⟩ :=
          UploadReveals.effect (consistent h).typed hsig hok
        obtain rfl := hon.eq hon₀
        cases hl.symm.trans hl₀
        obtain ⟨hexp, -, -, -, -, -, hatt, -⟩ := UploadReveals.checkPhase_ok hcheck
        rcases hcase with hz | he
        · exact hatt hz
        · exact absurd (hexp.symm.trans he) (by decide)
    · by_contra hne
      have := FinalizeWinners.route_of_step h hl hs hon hne
      rw [hway] at this
      cases this

/-- A call that goes through shows that its uploader could pay and could begin the remediation. -/
theorem uploadable_of_step {entries : List (K × Bytes)} (hw : WellTyped rt w)
    (hc : (w.accounts rt.configKey).data = .config c)
    (hl : (w.view rt id .lottery).data = .lottery l)
    (hs : Step rt w (UploadReveals.call rt id payer entries) w') : Uploadable rt id w c l := by
  obtain ⟨hf, ⟨l₁, hcheck⟩, hready⟩ :=
    UploadReveals.Admits.ready ⟨[], entries, _, w', hs, rfl, rfl⟩ hw hc hl
  refine ⟨payer, hf, hready, ?_⟩
  by_cases hauth : payer = c.authority
  · exact .inl hauth
  · refine .inr fun hz ↦ ?_
    obtain ⟨-, hwho, -⟩ := UploadReveals.checkPhase_ok hcheck
    have hcan := hwho.resolve_left (by simp [hauth])
    simp only [UploadReveals.checkPhase, bind_eq_ok, hcan, hz, and_self, if_true,
      Lottery.beginRemediation, okOr_eq_ok, addI64_eq_some] at hcheck
    obtain ⟨-, -, -, -, -, ⟨-, ⟨⟨-, hlt⟩, -⟩, -⟩, -⟩ := hcheck
    exact hlt

theorem UploadReveals.exists_of_uploadable (h : (system rt).History acts (w :: ws))
    (hc : (w.accounts rt.configKey).data = .config c)
    (hl : (w.view rt id .lottery).data = .lottery l) (htwo : 2 ≤ l.participantsCount)
    (hset : l.settled = false) (hel : l.uploadElapsed w.clock = true)
    (hway : l.route w.clock = .uploads) (hready : Uploadable rt id w c l)
    (hknown : ∀ wallet p, (w.view rt id (.participant wallet)).data = .participant p →
      p.attestedUploaded = true → ∃ plaintext, rt.sha256 plaintext = p.proofOfChanceHash ∧
        plaintext.length ≤ maxRevealPlaintextBytes) :
    ∃ uploader entries w', entries ≠ [] ∧ (∀ e ∈ entries, e.2.length ≤ maxRevealPlaintextBytes ∧
      ∃ p, Answers rt id (w.view rt id) e p) ∧
      Step rt w (UploadReveals.call rt id uploader entries) w' := by
  obtain ⟨uploader, hf, htally, hroom⟩ := hready
  obtain ⟨r, -, hi, hr, rfl, -⟩ := represented h hl
  obtain ⟨hmiss, -⟩ := Lottery.route_uploads_iff.mp hway
  obtain ⟨p, hp, hatt, hno⟩ : ∃ p ∈ r.participants, p.attestedUploaded = true ∧
      p.revealIncluded = false := by
    -- fewer reveals are in than receipts
    by_contra hall
    push Not at hall
    obtain ⟨-, hlt⟩ := Lottery.hasMissing_eq_true.mp hmiss
    refine absurd hlt (not_lt.mpr ?_)
    have hle : attestedOf r.books.ballots ≤ includedOf r.books.ballots := by
      apply List.countP_mono_left
      intro x hx hatt
      obtain ⟨p, hp, rfl⟩ := List.mem_map.mp hx
      exact Bool.eq_true_of_not_eq_false (hall p hp hatt)
    exact hi.books.balanced.attested.trans_le (hle.trans hi.books.balanced.included.ge)
  have hdata := hr.stored_of_open ⟨hset, hi.routed.not_complete hset⟩ hp
  obtain ⟨plaintext, hhash, hlen⟩ := hknown _ p hdata hatt
  have hans : Answers rt id (w.view rt id) (rt.slotKey id (.participant p.wallet), plaintext) p :=
    ⟨rfl, hdata, hatt, hno, hhash⟩
  obtain ⟨l₁, hcheck⟩ : ∃ l₁, checkPhase r.lottery (decide (uploader = c.authority)) w.clock =
      .ok l₁ :=
    exists_checkPhase hi htwo hset hel hway (hroom.imp_left decide_eq_true)
  have hnd : ([(rt.slotKey id (.participant p.wallet), plaintext)].map Prod.fst).Nodup :=
    List.nodup_singleton _
  obtain ⟨w', hok⟩ := admitted h ⟨(consistent h).typed, hc, hl⟩ htwo hcheck htally hf hnd
    (List.forall_mem_singleton.mpr hlen) (List.forall_mem_singleton.mpr ⟨p, hans⟩)
  exact ⟨uploader, _, w', List.cons_ne_nil _ _, List.forall_mem_singleton.mpr ⟨hlen, p, hans⟩,
    step_of_succeeds hf hok⟩

theorem uploadsOpen_iff (h : (system rt).History acts (w :: ws))
    (hc : (w.accounts rt.configKey).data = .config c)
    (hl : (w.view rt id .lottery).data = .lottery l) (htwo : 2 ≤ l.participantsCount)
    (hset : l.settled = false) (hel : l.uploadElapsed w.clock = true)
    (hknown : ∀ wallet p, (w.view rt id (.participant wallet)).data = .participant p →
      p.attestedUploaded = true → ∃ plaintext, rt.sha256 plaintext = p.proofOfChanceHash ∧
        plaintext.length ≤ maxRevealPlaintextBytes) :
    UploadsOpen rt id w l ↔ l.route w.clock = .uploads ∧ Uploadable rt id w c l := by
  constructor
  · intro hopen
    obtain ⟨uploader, entries, w', hne, -, hs⟩ := hopen.reveal
    exact ⟨UploadReveals.route_of_step h hl htwo hel hs rfl hne,
      uploadable_of_step (consistent h).typed hc hl hs⟩
  · rintro ⟨hway, hready⟩
    obtain ⟨hmiss, -⟩ := Lottery.route_uploads_iff.mp hway
    refine ⟨UploadReveals.exists_of_uploadable h hc hl htwo hset hel hway hready hknown,
      fun w' hcancel ↦ ?_, fun pre accounts w' hs hon ↦ ?_⟩
    · obtain ⟨-, -, hcase, -⟩ := hcancel.guards (consistent h).typed hl
      have := Lottery.route_refunds_iff.mpr hcase
      rw [hway] at this
      cases this
    · cases hs with
      | instruction hsig hok =>
        obtain ⟨c₀, l₀, -, hl₀, hon₀, heff⟩ := FinalizeWinners.effect (consistent h).typed hsig hok
        obtain rfl := hon.eq hon₀
        cases hl.symm.trans hl₀
        cases heff with
        | done _ hdone =>
          obtain ⟨r, -, hi, -, rfl, -⟩ := represented h hl
          rcases hdone with hsc | hst | ⟨-, -, hno, -⟩
          · exact absurd (hsc.symm.trans (hi.routed.not_complete hset)) (by decide)
          · exact absurd (hst.symm.trans hset) (by decide)
          · exact absurd (hno.symm.trans hmiss) (by decide)
        | missing _ _ _ _ _ hz hbegin _ _ hv => exact ⟨hz, _, hbegin, hv⟩
        | chunk _ _ _ _ hno => exact absurd (hno.symm.trans hmiss) (by decide)

/-- A finalization that has not fixed the winners waits for a participant. -/
theorem Round.exists_next (hi : r.Invariant rt) (hready : r.lottery.Ready r.now)
    (hwc : r.lottery.winnersCount = 0) :
    ∃ p, r.participants[r.openLedger.nextIndex]? = some p := by
  have hseal := (FinalizeWinners.finalizable hi hready).sealed
  have hopen : r.outstanding ≠ 0 := by
    intro hz
    obtain ⟨root, hroot, hph⟩ := (Round.outstanding_eq_zero_iff hi hseal).mp hz
    obtain ⟨winners, hdec, -, -⟩ := hi.progress.of_completed hroot hph
    exact hdec.target_pos.ne' (hdec.winnersCount.symm.trans hwc)
  obtain ⟨hlt, -⟩ := Round.next_of_outstanding hi hseal hopen
  exact ⟨_, List.getElem?_eq_getElem hlt⟩

theorem winnersOpen_iff (h : (system rt).History acts (w :: ws))
    (hl : (w.view rt id .lottery).data = .lottery l) (htwo : 2 ≤ l.participantsCount)
    (hset : l.settled = false) (hwc : l.winnersCount = 0) (hel : l.uploadElapsed w.clock = true) :
    WinnersOpen rt id w l ↔ l.route w.clock = .winners := by
  constructor
  · intro hopen
    exact Lottery.route_winners_iff.mpr ⟨hopen.guards.attested, hopen.guards.no_missing⟩
  · intro hway
    obtain ⟨hatt, hmiss⟩ := Lottery.route_winners_iff.mp hway
    obtain ⟨r, hreach, hi, hr, rfl, -⟩ := represented h hl
    have hready : r.lottery.Ready w.clock :=
      ⟨hset, hi.routed.not_complete hset, htwo, hatt, hmiss, .inr hel⟩
    have hm : Mounted rt id w r.config r.lottery := ⟨(consistent h).typed, hr.config, hl⟩
    obtain ⟨b, hv⟩ := hr.vault.resolve_right fun he ↦ by
      simp [hi.funded.vault_open hset] at he
    refine ⟨hready, ?_, fun c a hc hserves ↦ ?_, fun w' hcancel ↦ ?_, ?_⟩
    · obtain ⟨p, hp⟩ := Round.exists_next hi (hr.now ▸ hready) hwc
      exact ⟨_, hr.rootAt_eq ▸ FinalizeWinners.callOn_serves hr hi hset
        ((consistent h).typed.foreign_authority hr.config) hp⟩
    · obtain rfl := hr.eq_config hc
      exact FinalizeWinners.process_eq hm hv hready hserves
    · obtain ⟨-, -, hcase, -⟩ := hcancel.guards hm.typed hl
      exact absurd (Lottery.route_refunds_iff.mpr hcase) (by simp [hway])
    · intro pre entries accounts w' hne hs hon
      have := UploadReveals.route_of_step h hl htwo hel hs hon hne
      rw [hway] at this
      cases this

theorem opens_iff {way : Route} (h : (system rt).History acts (w :: ws))
    (hc : (w.accounts rt.configKey).data = .config c)
    (hl : (w.view rt id .lottery).data = .lottery l) (htwo : 2 ≤ l.participantsCount)
    (hset : l.settled = false) (hwc : l.winnersCount = 0) (hel : l.uploadElapsed w.clock = true)
    (hknown : ∀ wallet p, (w.view rt id (.participant wallet)).data = .participant p →
      p.attestedUploaded = true → ∃ plaintext, rt.sha256 plaintext = p.proofOfChanceHash ∧
        plaintext.length ≤ maxRevealPlaintextBytes) :
    Opens rt id w l way ↔
      l.route w.clock = way ∧ (way = .uploads → Uploadable rt id w c l) := by
  cases way with
  | refunds => simpa [Opens] using refundsOpen_iff h hl hset hel
  | uploads => simpa [Opens] using uploadsOpen_iff h hc hl htwo hset hel hknown
  | winners => simpa [Opens] using winnersOpen_iff h hl htwo hset hwc hel

theorem Round.remediationStart_of_path {cs : List Unit} (hp : (machine rt).Path r cs r')
    (hne : r.lottery.remediationStartUnix ≠ 0) :
    r'.lottery.remediationStartUnix = r.lottery.remediationStartUnix := by
  induction hp with
  | nil => rfl
  | cons hs _ ih =>
    have hsame := hs.remediationStart.resolve_right fun hz ↦ hne hz.1
    exact (ih (hsame ▸ hne)).trans hsame

/-- After the window of an unsettled lottery without winners exactly one way on is open, unless
reveals are due and nobody can bring them: the tally has no account yet, and nobody can create one
at its address. -/
theorem routes_exclusive (h : (system rt).History acts (w :: ws))
    (hc : (w.accounts rt.configKey).data = .config c)
    (hl : (w.view rt id .lottery).data = .lottery l) (htwo : 2 ≤ l.participantsCount)
    (hset : l.settled = false) (hwc : l.winnersCount = 0) (hlate : l.uploadDeadlineUnix < w.clock)
    (hknown : ∀ wallet p, (w.view rt id (.participant wallet)).data = .participant p →
      p.attestedUploaded = true → ∃ plaintext, rt.sha256 plaintext = p.proofOfChanceHash ∧
        plaintext.length ≤ maxRevealPlaintextBytes) :
    ((∃! way, Opens rt id w l way) ↔ (l.route w.clock = .uploads → Uploadable rt id w c l)) ∧
    (RefundsOpen rt id w ↔ l.attestedCount = 0 ∨ l.remediationExpired w.clock = true) ∧
    ∀ as w' l', (system rt).Path w as w' → (w'.view rt id .lottery).data = .lottery l' →
      l.remediationStartUnix ≠ 0 → l'.remediationStartUnix = l.remediationStartUnix := by
  have hel := elapsed_of_late h hl htwo hlate
  have hopens {way : Route} : Opens rt id w l way ↔
      l.route w.clock = way ∧ (way = .uploads → Uploadable rt id w c l) :=
    opens_iff h hc hl htwo hset hwc hel hknown
  refine ⟨⟨?_, fun hready ↦ ?_⟩, ?_, fun as w' l' hp hl' hne ↦ ?_⟩
  · rintro ⟨way, hopen, -⟩ hway
    obtain ⟨hroute, hready⟩ := hopens.mp hopen
    exact hready (hroute.symm.trans hway)
  · refine ⟨_, hopens.mpr ⟨rfl, hready⟩, fun way hopen ↦ ?_⟩
    exact (hopens.mp hopen).1.symm
  · rw [refundsOpen_iff h hl hset hel]
    exact Lottery.route_refunds_iff
  · obtain ⟨r, hreach, -, hr, rfl, -⟩ := represented h hl
    obtain ⟨ws', cs, r', -, -, hpath, -, hr'⟩ := represented_path h hp hr hreach
    cases hr'.lottery.symm.trans hl'
    exact Round.remediationStart_of_path hpath hne

namespace Sample

/-- The reveal of wallet 20 is due and nothing else is. -/
def due (w : World Key) (l : Lottery Key) : Bool :=
  decide (2 ≤ l.participantsCount ∧ l.settled = false ∧ l.winnersCount = 0 ∧
    l.uploadDeadlineUnix < w.clock ∧ l.route w.clock = .uploads ∧ l.attestedCount = 1) &&
  missing w 20

theorem due_known {acts : List (Action Key)} {w : World Key} {ws : List (World Key)}
    {l : Lottery Key} (h : (system Sample.rt).History acts (w :: ws))
    (hl : (w.view Sample.rt 1 .lottery).data = .lottery l) (hone : l.attestedCount = 1)
    (hmiss : missing w 20 = true) (wallet : Key) (p : Participant Key)
    (hp : (w.view Sample.rt 1 (.participant wallet)).data = .participant p)
    (hatt : p.attestedUploaded = true) : ∃ plaintext,
      Sample.rt.sha256 plaintext = p.proofOfChanceHash ∧
        plaintext.length ≤ maxRevealPlaintextBytes := by
  obtain ⟨q, hans⟩ := answers_of_missing hmiss
  rw [eq_of_one_receipt h hl hone hans.data hans.attested hp hatt]
  exact ⟨reveal 20, hans.hash, by decide⟩

end Sample

/-- Wallet 5 can bring the reveal that is due. -/
theorem routes_exclusive_sample : ∃ (w : World Sample.Key) (l : Lottery Sample.Key),
    (w.view Sample.rt 1 .lottery).data = .lottery l ∧ UploadsOpen Sample.rt 1 w l ∧
    ∃! way, Opens Sample.rt 1 w l way := by
  obtain ⟨w, ws, l, h, hl, hp⟩ := Sample.run_lottery Sample.awaiting 1
    (fun w l ↦ Sample.due w l && decide (w.clock + Sizes.defaultRemediationWindowSecs < 2 ^ 63) &&
      ((AccountType.unwrap (w.accounts Sample.rt.configKey).data : Option (Config Sample.Key)).any
        fun (c : Config Sample.Key) ↦ Sample.funds w c 5 l.participantsCount)) (by decide +kernel)
  simp only [Sample.due, Bool.and_eq_true, decide_eq_true_eq, Option.any_eq_true] at hp
  obtain ⟨⟨⟨⟨htwo, hset, hwc, hlate, hway, hone⟩, hmiss⟩, hroom⟩, c, hc, hfunds⟩ := hp
  have hknown := Sample.due_known h hl hone hmiss
  obtain ⟨hiff, -, -⟩ := routes_exclusive h (unwrap_config.mp hc) hl htwo hset hwc hlate hknown
  have hready : Uploadable Sample.rt 1 w c l :=
    ⟨.wallet 5, Sample.foreign_of_isWallet _ rfl, Sample.tallyReady_of_funds hfunds,
      .inr fun _ ↦ hroom⟩
  have hopen := (uploadsOpen_iff h (unwrap_config.mp hc) hl htwo hset
    (elapsed_of_late h hl htwo hlate) hknown).mpr ⟨hway, hready⟩
  exact ⟨w, l, hl, hopen, hiff.mpr fun _ ↦ hready⟩

/-- One lamport at the address of the tally, and no way is open. -/
theorem no_route_open :
    ∃ (acts : List (Action Sample.Key)) (w : World Sample.Key) (ws : List (World Sample.Key))
      (l : Lottery Sample.Key),
      (system Sample.rt).History acts (w :: ws) ∧
      (w.view Sample.rt 1 .lottery).data = .lottery l ∧ 2 ≤ l.participantsCount ∧
      l.settled = false ∧ l.winnersCount = 0 ∧ l.uploadDeadlineUnix < w.clock ∧
      (∀ wallet p, (w.view Sample.rt 1 (.participant wallet)).data = .participant p →
        p.attestedUploaded = true → ∃ plaintext,
          Sample.rt.sha256 plaintext = p.proofOfChanceHash ∧
          plaintext.length ≤ maxRevealPlaintextBytes) ∧
      ∀ way, ¬Opens Sample.rt 1 w l way := by
  obtain ⟨w, ws, l, h, hl, hp⟩ := Sample.run_lottery
    (Sample.awaiting ++ [.deposit (Sample.rt.slotKey 1 .voteTally) 1]) 1
    (fun w l ↦ Sample.due w l && decide (0 < (w.view Sample.rt 1 .voteTally).lamports) &&
      decide ((w.view Sample.rt 1 .voteTally).owner = default) &&
      (w.view Sample.rt 1 .voteTally).data.isEmpty) (by decide +kernel)
  simp only [Sample.due, Bool.and_eq_true, decide_eq_true_eq, AccountData.isEmpty_eq_true] at hp
  obtain ⟨⟨⟨⟨⟨htwo, hset, hwc, hlate, hway, hone⟩, hmiss⟩, hfunded⟩, howner⟩, hdata⟩ := hp
  have hknown := Sample.due_known h hl hone hmiss
  refine ⟨_, w, ws, l, h, hl, htwo, hset, hwc, hlate, hknown, fun way hopen ↦ ?_⟩
  obtain ⟨c, hm⟩ := mounted h hl
  obtain ⟨hroute, hready⟩ :=
    (opens_iff h hm.config hl htwo hset hwc (elapsed_of_late h hl htwo hlate) hknown).mp hopen
  obtain ⟨uploader, -, htally, -⟩ := hready (hroute.symm.trans hway)
  exact (htally hdata).1 ⟨hfunded, howner, hdata⟩

end DailyLottery
