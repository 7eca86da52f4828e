import DailyLottery.Calls.Ending

set_option linter.unusedSectionVars false

namespace DailyLottery

open Lib AccountInfo

variable {K : Type} [DecidableEq K] [Inhabited K] {rt : Runtime K} {acts : List (Action K)}
  {w w' : World K} {ws : List (World K)} {id : ℕ} {c : Config K} {l l' : Lottery K} {payer : K}

namespace VoteTally

theorem scan_count (t : VoteTally K) (counts : List ℕ) (b : Best) :
    (t.scan counts b).count = b.count ∨ (t.scan counts b).count ∈ counts := by
  induction counts generalizing b with
  | nil => exact .inl rfl
  | cons n counts ih =>
    simp only [scan]
    split
    · exact .inl rfl
    · split
      · exact (ih b).imp_right (List.mem_cons_of_mem _)
      · split
        · rcases ih ⟨n, t.weights.getD n 0, t.firstSeen.getD n i64Max⟩ with h | h
          · exact .inr (h ▸ List.mem_cons_self)
          · exact .inr (List.mem_cons_of_mem _ h)
        · exact (ih b).imp_right (List.mem_cons_of_mem _)

theorem selectedWinners_range (t : VoteTally K) {n : ℕ} (hn : 2 ≤ n) :
    1 ≤ t.selectedWinners n ∧ t.selectedWinners n ≤ n - 1 := by
  have hscan := t.scan_count (List.range' 1 (min t.maxWinners (n - 1))) ⟨1, 0, i64Max⟩
  rw [List.mem_range'_1] at hscan
  rw [selectedWinners, if_neg (by omega)]
  dsimp only at hscan ⊢
  split
  · omega
  · omega

end VoteTally

theorem Lottery.setSelectedWinners_succeeds (t : VoteTally K) (hn : 2 ≤ l.participantsCount) :
    ∃ l', l.setSelectedWinners (t.selectedWinners l.participantsCount) = .ok l' := by
  obtain ⟨hpos, hle⟩ := t.selectedWinners_range hn
  simp only [setSelectedWinners, exists_bind_eq_ok, rejectIf_eq_ok, exists_const, pure_eq_ok]
  exact ⟨by omega, by omega, by omega, _, rfl⟩

/-- The tally is there, or `payer` can create it. -/
def TallyReady (rt : Runtime K) (id : ℕ) (w : World K) (payer : K) (maxWinners : ℕ) : Prop :=
  (w.view rt id .voteTally).data = .empty → ¬(w.view rt id .voteTally).Squatted ∧
    ∃ n, w.accounts payer = ⟨n, default, .empty⟩ ∧
      rt.minimumBalance (VoteTally.accountSizeFor maxWinners) ≤ n

/-- A tally that exists is the one the lottery's votes are counted in. -/
def TallyFitting (rt : Runtime K) (id : ℕ) (w : World K) (maxWinners : ℕ) : Prop :=
  (w.view rt id .voteTally).data = .empty ∨ ∃ t : VoteTally K,
    (w.view rt id .voteTally).data = .voteTally t ∧ t.maxWinners = maxWinners

theorem TallyReady.create {mw : ℕ} (h : TallyReady rt id w payer mw) (hw : WellTyped rt w)
    (he : (w.view rt id .voteTally).data = .empty) : ∃ w', createAccount rt w ⟨payer, true, true⟩
      (writable (rt.slotKey id .voteTally)) (VoteTally.accountSizeFor mw) = .ok w' := by
  obtain ⟨hsq, n, hpayer, hle⟩ := h he
  exact createAccount_succeeds ⟨rfl, rfl⟩ rfl hpayer hle he ((hw.fits id).owner_empty he) hsq

theorem loadVoteTally_succeeds {lotteryAi : AccountInfo K} {t : VoteTally K} (hw : WellTyped rt w)
    (hlk : lotteryAi.key = rt.lotteryKey id) (ht : (w.view rt id .voteTally).data = .voteTally t) :
    loadVoteTally rt w (writable (rt.slotKey id .voteTally)) lotteryAi = .ok t ∧
      t.lottery = lotteryAi.key := by
  have hne : (w.view rt id .voteTally).data ≠ .empty := by simp [ht]
  have hholds := (hw.fits id).holds hne
  rw [ht] at hholds
  refine ⟨?_, hholds.trans hlk.symm⟩
  simp only [loadVoteTally, bind_eq_ok, assertPdaOwned_eq_ok, exists_const]
  refine ⟨⟨?_, (hw.fits id).owner hne⟩, Mounted.read rfl hne (unwrap_voteTally.mpr ht)⟩
  rw [hlk]
  rfl

theorem Represents.tallyFitting {r : Round K} (hr : Represents rt acts w ws id r)
    (hi : r.Invariant rt) :
    TallyFitting rt id w (r.config.effectiveMaxWinners r.lottery.participantsCount) := by
  unfold TallyFitting
  rw [hr.tally]
  cases ht : r.tally with
  | none => exact .inl rfl
  | some t => exact .inr ⟨t, rfl, (hi.books.balanced.tallied t ht).2.1⟩

/-- An entry with the plaintext of a receipt whose reveal is missing. -/
structure Answers (rt : Runtime K) (id : ℕ) (v : View K) (e : K × Bytes) (p : Participant K) :
    Prop where
  key : e.1 = rt.slotKey id (.participant p.wallet)
  data : (v (.participant p.wallet)).data = .participant p
  attested : p.attestedUploaded = true
  missing : p.revealIncluded = false
  hash : rt.sha256 e.2 = p.proofOfChanceHash

namespace UploadReveals

def accounts (rt : Runtime K) (id : ℕ) (uploader : K) (entries : List (K × Bytes)) :
    List (AccountInfo K) :=
  readonly rt.configKey :: writable (rt.lotteryKey id) :: ⟨uploader, true, true⟩ ::
    readonly default :: writable (rt.slotKey id .voteTally) :: entries.map fun e ↦ writable e.1

theorem accounts_signed {entries : List (K × Bytes)} :
    SignedOnlyBy payer (accounts rt id payer entries) := by
  intro ai hai hsig
  simp only [accounts, List.mem_cons, List.mem_map] at hai
  rcases hai with rfl | rfl | rfl | rfl | rfl | ⟨e, -, rfl⟩
  case inr.inr.inl => rfl
  all_goals cases hsig

theorem accounts_keys {entries : List (K × Bytes)} (hf : rt.Foreign payer) :
    SignersAreKeys rt (accounts rt id payer entries) := by
  intro ai hai hsig
  rw [accounts_signed ai hai hsig]
  exact hf

theorem loadOrCreateTally_succeeds {mw : ℕ} {lotteryAi : AccountInfo K}
    (hw : WellTyped rt w) (hlk : lotteryAi.key = rt.lotteryKey id)
    (hfit : TallyFitting rt id w mw) (hready : TallyReady rt id w payer mw) :
    ∃ x, loadOrCreateTally rt w l mw ⟨payer, true, true⟩ (writable (rt.slotKey id .voteTally))
      lotteryAi = .ok x := by
  unfold loadOrCreateTally dataIsEmpty
  simp only [writable, World.accounts_slotKey]
  by_cases he : (w.view rt id .voteTally).data = .empty
  · obtain ⟨w', hcreate⟩ := hready.create hw he
    obtain ⟨-, -, -, -, -, rfl⟩ := createAccount_eq_ok.mp hcreate
    simp only [AccountData.isEmpty_eq_true.mpr he, if_true, exists_bind_eq_ok,
      requireWritable_eq_ok, exists_const, pure_eq_ok, writeAccountData_eq_ok]
    refine ⟨trivial, _, hcreate, _, ⟨?_, trivial, ?_, rfl⟩, _, rfl⟩
    all_goals simp [World.setAccount, writable, AccountData.isEmpty]
  · obtain ⟨t, ht, hmw⟩ := hfit.resolve_left he
    obtain ⟨hload, hlot⟩ := loadVoteTally_succeeds hw hlk ht
    have hne : (w.view rt id .voteTally).data.isEmpty = false := by
      rw [Bool.eq_false_iff, ne_eq, AccountData.isEmpty_eq_true]
      exact he
    simp only [hne, Bool.false_eq_true, if_false, rejectIf_eq_ok, exists_const,
      pure_eq_ok, bind_eq_ok]
    exact ⟨(w, t), t, hload, not_not.mpr hlot, not_not.mpr hmw, rfl⟩

theorem loadOrCreateTally_emit {mw : ℕ} {begins : Prop} [Decidable begins] {e : LotteryEvent K}
    (hw : WellTyped rt w) (hf : rt.Foreign payer) (hfit : TallyFitting rt id w mw)
    (hready : TallyReady rt id w payer mw) : ∃ x, loadOrCreateTally rt
      (if begins then w.emit e else w) l mw ⟨payer, true, true⟩
        (writable (rt.slotKey id .voteTally)) (writable (rt.lotteryKey id)) = .ok x ∧
      (x.1.view rt id).Fits rt id ∧ (x.1.view rt id .voteTally).data ≠ .empty ∧
      ∀ s, s ≠ .voteTally → x.1.view rt id s = w.view rt id s := by
  obtain ⟨w₀, hw₀, hacc⟩ : ∃ w₀, (if begins then w.emit e else w) = w₀ ∧ w₀.accounts = w.accounts :=
    ⟨_, rfl, World.accounts_ite_emit _ _ _⟩
  have hview : w₀.view rt id = w.view rt id := by
    funext s
    exact congrFun hacc _
  have htyped : WellTyped rt w₀ := by
    intro s
    rw [hacc]
    exact hw s
  rw [hw₀]
  obtain ⟨⟨w₁, t⟩, hx⟩ : ∃ x, loadOrCreateTally rt w₀ l mw ⟨payer, true, true⟩
      (writable (rt.slotKey id .voteTally)) (writable (rt.lotteryKey id)) = .ok x := by
    apply loadOrCreateTally_succeeds htyped rfl
    · rwa [TallyFitting, hview]
    · rwa [TallyReady, hview, hacc]
  obtain ⟨hfind, -, v, hopen, hv⟩ := loadOrCreateTally_ok htyped hf rfl rfl hx
  rw [hview] at hfind hopen
  refine ⟨(w₁, t), hx, ?_, by simp [hv], fun s hs ↦ ?_⟩
  · rw [hv]
    exact hopen.fits_setData (hw.fits _) (hfind.holds (hw.fits _))
  · rw [hv, View.setData_apply, if_neg hs, hopen.apply_of_ne hs]

theorem includeReveal_succeeds {v : View K} {e : K × Bytes} {p : Participant K} (mw : ℕ)
    (t : VoteTally K) (h : Answers rt id v e p) : ∃ t' p' digest,
      includeReveal rt mw t p e.2 = .ok (t', p', digest) ∧ p'.lottery = p.lottery ∧
        p'.wallet = p.wallet := by
  have hinc : ∃ x, includeReveal rt mw t p e.2 = .ok x := by
    simp only [includeReveal, exists_bind_eq_ok, rejectIf_eq_ok, exists_const, pure_eq_ok]
    exact ⟨by simp [h.missing], by simp [h.attested], by simp [h.hash], _, rfl⟩
  obtain ⟨⟨t', p', digest⟩, hok⟩ := hinc
  obtain ⟨-, -, -, -, -, rfl⟩ := includeReveal_ok hok
  exact ⟨t', _, digest, hok, rfl, rfl⟩

theorem processEntries_succeeds {mw : ℕ} {lotteryAi : AccountInfo K} {rest : List (AccountInfo K)}
    {entries : List (K × Bytes)} {t : VoteTally K} {ds : List Bytes32}
    (hlk : lotteryAi.key = rt.lotteryKey id) (hfits : (w.view rt id).Fits rt id)
    (hwr : ∀ ai ∈ rest, ai.isWritable = true) (hrest : ∀ e ∈ entries, ∃ ai ∈ rest, ai.key = e.1)
    (hnd : (entries.map Prod.fst).Nodup)
    (hans : ∀ e ∈ entries, ∃ p, Answers rt id (w.view rt id) e p) :
    ∃ x, processEntries rt mw lotteryAi rest entries w t ds = .ok x ∧
      ∀ s, (∀ wallet, s ≠ .participant wallet) → x.1.view rt id s = w.view rt id s := by
  induction entries generalizing w t ds with
  | nil => exact ⟨_, rfl, fun _ _ ↦ rfl⟩
  | cons e entries ih =>
    obtain ⟨p, hp⟩ := hans e List.mem_cons_self
    obtain ⟨ai, hfind⟩ : ∃ ai, rest.find? (fun ai ↦ ai.key = e.1) = some ai := by
      obtain ⟨ai, hmem, hk⟩ := hrest e List.mem_cons_self
      exact Option.isSome_iff_exists.mp (List.find?_isSome.mpr ⟨ai, hmem, by simpa using hk⟩)
    have hk : ai.key = rt.slotKey id (.participant p.wallet) := by
      rw [← hp.key]
      simpa using List.find?_some hfind
    have hne : (w.view rt id (.participant p.wallet)).data ≠ .empty := by simp [hp.data]
    have howner := hfits.owner hne
    have hlot : p.lottery = rt.lotteryKey id := by
      have hholds := hfits.holds hne
      rw [hp.data] at hholds
      exact hholds.1
    obtain ⟨t', p', digest, hinc, hl', hw'⟩ := includeReveal_succeeds mw t hp
    rw [List.map_cons, List.nodup_cons] at hnd
    -- the entries after this one are of other participants
    have hthere : ∀ e' ∈ entries, ∃ q, Answers rt id
        ((w.view rt id).setData (.participant p.wallet) (.participant p')) e' q := by
      intro e' he'
      obtain ⟨q, hq⟩ := hans e' (List.mem_cons_of_mem _ he')
      have hqp : q.wallet ≠ p.wallet := by
        intro hqp
        refine hnd.1 (List.mem_map.mpr ⟨e', he', ?_⟩)
        rw [hq.key, hp.key, hqp]
      refine ⟨q, hq.key, ?_, hq.attested, hq.missing, hq.hash⟩
      simpa [hqp] using hq.data
    obtain ⟨x, hx, hothers⟩ := @ih (w.setData (rt.slotKey id (.participant p.wallet))
      (.participant p')) t' (ds ++ [digest])
      (by rw [World.view_setData]; exact hfits.setParticipant p' hp.data hl' hw')
      (fun e' he' ↦ hrest e' (List.mem_cons_of_mem _ he')) hnd.2
      (by rw [World.view_setData]; exact hthere)
    refine ⟨x, ?_, fun s hs ↦ ?_⟩
    · simp only [processEntries, bind_eq_ok, okOr_eq_ok, requireWritable_eq_ok,
        assertPdaOwned_eq_ok, rejectIf_eq_ok, exists_const, writeAccountData_eq_ok]
      refine ⟨ai, hfind, hwr ai (List.mem_of_find?_eq_some hfind), p,
        Mounted.read hk hne (unwrap_participant.mpr hp.data), ⟨?_, ?_⟩, ?_,
          (t', p', digest), hinc, _,
        ⟨?_, hwr ai (List.mem_of_find?_eq_some hfind), ?_, rfl⟩, ?_⟩
      · rw [hk, hlk]
        rfl
      · rw [hk]
        exact howner
      · rw [hlk]
        exact not_not.mpr hlot
      · rw [hk, Bool.eq_false_iff, ne_eq, AccountData.isEmpty_eq_true]
        exact hne
      · rw [hk]
        exact howner
      · rw [hk]
        exact hx
    · rw [hothers s hs, World.view_setData, View.setData_apply, if_neg (hs p.wallet)]

theorem validateEntries_succeeds {entries : List (K × Bytes)} {seen : List K}
    (hnd : (entries.map Prod.fst).Nodup) (hseen : ∀ e ∈ entries, e.1 ∉ seen)
    (hlen : ∀ e ∈ entries, e.2.length ≤ maxRevealPlaintextBytes) :
    validateEntries entries seen = .ok () := by
  induction entries generalizing seen with
  | nil => rfl
  | cons e entries ih =>
    rw [List.map_cons, List.nodup_cons] at hnd
    simp only [validateEntries, bind_eq_ok, rejectIf_eq_ok, exists_const, not_lt]
    refine ⟨hseen e List.mem_cons_self, hlen e List.mem_cons_self, ih hnd.2 ?_ ?_⟩
    · intro e' he' hmem
      rcases List.mem_cons.mp hmem with heq | hmem
      · exact hnd.1 (List.mem_map.mpr ⟨e', he', heq⟩)
      · exact hseen e' (List.mem_cons_of_mem _ he') hmem
    · exact fun e' he' ↦ hlen e' (List.mem_cons_of_mem _ he')

theorem checkPhase_succeeds {isAuthority : Bool} {now : ℤ} (hel : l.uploadElapsed now = true)
    (hway : l.route now = .uploads) (hset : l.settled = false) (hsc : l.settlementComplete = false)
    (huc : l.uploadsComplete = false) (hroom : isAuthority = true ∨ (l.remediationStartUnix = 0 →
      now + Sizes.defaultRemediationWindowSecs < 2 ^ 63)) :
    ∃ l', checkPhase l isAuthority now = .ok l' := by
  obtain ⟨hmiss, hexp⟩ := Lottery.route_uploads_iff.mp hway
  have hatt := (Lottery.hasMissing_eq_true.mp hmiss).1
  have hpos := Lottery.now_pos_of_elapsed hel
  have hcan : canRemediate l isAuthority now = !isAuthority := by
    simp [canRemediate, hel, hmiss, hexp]
  obtain ⟨l₁, hl₁, hsame⟩ : ∃ l₁, (if canRemediate l isAuthority now = true ∧
      l.remediationStartUnix = 0 then l.beginRemediation now else pure l) = .ok l₁ ∧
      l₁.settled = l.settled ∧ l₁.settlementComplete = l.settlementComplete ∧
      l₁.uploadsComplete = l.uploadsComplete ∧ l₁.attestedCount = l.attestedCount := by
    split
    · next hbegin =>
      have hstranger : ¬isAuthority = true := by simpa [hcan] using hbegin.1
      obtain ⟨l₁, hl₁⟩ := Lottery.beginRemediation_succeeds hbegin.2 hpos
        (hroom.resolve_left hstranger hbegin.2)
      obtain ⟨-, rfl⟩ | ⟨-, rfl⟩ := Lottery.beginRemediation_ok hl₁
      · exact ⟨_, hl₁, rfl, rfl, rfl, rfl⟩
      · exact ⟨_, hl₁, rfl, rfl, rfl, rfl⟩
    · exact ⟨l, rfl, rfl, rfl, rfl, rfl⟩
  obtain ⟨hset₁, hsc₁, huc₁, hatt₁⟩ := hsame
  simp only [checkPhase, exists_bind_eq_ok, rejectIf_eq_ok, exists_const, pure_eq_ok]
  refine ⟨by simp [hexp], by simp [hcan], l₁, hl₁, ?_, by simp [hel], ?_, _, rfl⟩
  · simp [hset₁, hsc₁, huc₁, hset, hsc, huc]
  · split <;> simp only [hatt₁] <;> omega

/-- An uploader that the phase checks let through can upload the plaintexts of missing reveals, all or
some of them at once. -/
theorem admitted {entries : List (K × Bytes)} {l₁ : Lottery K}
    (h : (system rt).History acts (w :: ws)) (hm : Mounted rt id w c l)
    (htwo : 2 ≤ l.participantsCount)
    (hcheck : checkPhase l (decide (payer = c.authority)) w.clock = .ok l₁)
    (hready : TallyReady rt id w payer (c.effectiveMaxWinners l.participantsCount))
    (hf : rt.Foreign payer) (hnd : (entries.map Prod.fst).Nodup)
    (hlen : ∀ e ∈ entries, e.2.length ≤ maxRevealPlaintextBytes)
    (hans : ∀ e ∈ entries, ∃ p, Answers rt id (w.view rt id) e p) :
    ∃ w', process rt w (accounts rt id payer entries) entries = .ok w' := by
  obtain ⟨hid, hcfg, -⟩ := hm.lottery_eq
  obtain ⟨r, -, hi, hr, rfl, -⟩ := represented h hm.lottery
  obtain rfl := hr.eq_config hm.config
  have hfit := hr.tallyFitting hi
  have hpc : l₁.participantsCount = r.lottery.participantsCount := by
    obtain ⟨-, -, -, -, -, -, -, rfl⟩ := checkPhase_ok hcheck
    rfl
  have hlot : (w.accounts (rt.lotteryKey id)).data = .lottery r.lottery := hm.lottery
  simp only [process, accounts, exists_bind_eq_ok, requireWritable_eq_ok, requireSigner_eq_ok,
    requireKeyMatch_eq_ok, assertPdaOwned_eq_ok, assertPdaKey_eq_ok, rejectIf_eq_ok, exists_const,
    writeAccountData_eq_ok, readonly, writable]
  refine ⟨⟨rfl, hm.owner_config⟩, trivial, trivial, trivial, trivial, ?_, ?_, r.config,
    hm.read_config rfl, r.lottery, hm.read_lottery rfl, ⟨by rw [hid]; rfl, hm.owner_lottery⟩,
    by simp [hcfg], l₁, hcheck, rfl, ?_⟩
  · rw [validateAccountDiscriminator, hm.config]
    simp [AccountType.unwrap]
  · rw [validateAccountDiscriminator, hlot]
    simp [AccountType.unwrap]
  refine Exists.elim (loadOrCreateTally_emit hm.typed hf hfit hready) fun x hx ↦ ⟨x, hpc ▸ hx.1, ?_⟩
  obtain ⟨w₁, t⟩ := x
  obtain ⟨-, hfits₁, htally, hsame⟩ := hx
  have hin {e : K × Bytes} (he : e ∈ provided rt entries) : e ∈ entries := mem_provided.mp he
  have hrest : ∀ e ∈ provided rt entries, ∃ ai ∈ entries.map (fun e ↦ writable e.1), ai.key = e.1 :=
    fun e he ↦ ⟨_, List.mem_map.mpr ⟨e, hin he, rfl⟩, rfl⟩
  have hwr : ∀ ai ∈ entries.map (fun e ↦ writable e.1), ai.isWritable = true := by
    intro ai hai
    obtain ⟨e, -, rfl⟩ := List.mem_map.mp hai
    rfl
  have hnd' : ((provided rt entries).map Prod.fst).Nodup :=
    ((List.mergeSort_perm entries _).map Prod.fst).nodup_iff.mpr hnd
  have hans' : ∀ e ∈ provided rt entries, ∃ p, Answers rt id (w₁.view rt id) e p := by
    intro e he
    obtain ⟨p, hp⟩ := hans e (hin he)
    exact ⟨p, hp.key, (congrArg Account.data (hsame _ (by simp))).trans hp.data, hp.attested,
      hp.missing, hp.hash⟩
  obtain ⟨⟨w₂, t', ds⟩, hloop, hothers⟩ := @processEntries_succeeds _ _ _ _ w₁ id
    (r.config.effectiveMaxWinners r.lottery.participantsCount) (writable (rt.lotteryKey id))
    (entries.map fun e ↦ writable e.1) (provided rt entries)
    { t with totalAttested := l₁.attestedCount } [] rfl hfits₁ hwr hrest hnd' hans'
  obtain ⟨l', hl'⟩ : ∃ l', includeUploads l₁ { t' with
      processedCount := saturatingAdd 64 t'.processedCount ds.length } ds = .ok l' :=
    Lottery.setSelectedWinners_succeeds _ (hpc ▸ htwo)
  -- what is written at the end was there before
  have hlottery : w₂.view rt id .lottery = w.view rt id .lottery :=
    (hothers _ (by simp)).trans (hsame _ (by simp))
  have htally₂ : w₂.view rt id .voteTally = w₁.view rt id .voteTally := hothers _ (by simp)
  have hkeys : rt.slotKey id .lottery ≠ rt.slotKey id .voteTally := by simp
  refine ⟨_, validateEntries_succeeds hnd (by simp) hlen, (w₂, t', ds), hpc ▸ hloop, l', hl', _,
    ⟨?_, trivial, ?_, rfl⟩, _, ⟨?_, trivial, ?_, rfl⟩⟩
  · rw [World.accounts_ite_emit, World.accounts_slotKey, htally₂, Bool.eq_false_iff, ne_eq,
      AccountData.isEmpty_eq_true]
    exact htally
  · rw [World.accounts_ite_emit, World.accounts_slotKey, htally₂]
    exact hfits₁.owner htally
  · rw [← Runtime.slotKey_lottery, World.accounts_slotKey, World.view_emit, World.view_setData,
      View.setData_apply, if_neg (by simp), World.view_ite_emit, hlottery, hm.lottery]
    rfl
  · rw [← Runtime.slotKey_lottery, World.accounts_slotKey, World.view_emit, World.view_setData,
      View.setData_apply, if_neg (by simp), World.view_ite_emit, hlottery]
    exact hm.owner_lottery

theorem exists_checkPhase {r : Round K} {isAuthority : Bool} {now : ℤ} (hi : r.Invariant rt)
    (htwo : 2 ≤ r.lottery.participantsCount) (hset : r.lottery.settled = false)
    (hel : r.lottery.uploadElapsed now = true) (hway : r.lottery.route now = .uploads)
    (hroom : isAuthority = true ∨ (r.lottery.remediationStartUnix = 0 →
      now + Sizes.defaultRemediationWindowSecs < 2 ^ 63)) :
    ∃ l', checkPhase r.lottery isAuthority now = .ok l' := by
  obtain ⟨hmiss, -⟩ := Lottery.route_uploads_iff.mp hway
  refine checkPhase_succeeds hel hway hset (hi.routed.not_complete hset) ?_ hroom
  rw [Bool.eq_false_iff]
  intro huc
  have hlt := (Lottery.hasMissing_eq_true.mp hmiss).2
  have hatt : r.lottery.attestedCount = _ := hi.books.balanced.attested
  have hinc : r.lottery.providerUploadedCount = _ := hi.books.balanced.included
  rcases hi.books.balanced.complete huc with hone | heq
  · have hpc : r.lottery.participantsCount = 1 := hone
    omega
  · omega

theorem succeeds {entries : List (K × Bytes)} (h : (system rt).History acts (w :: ws))
    (hm : Mounted rt id w c l) (htwo : 2 ≤ l.participantsCount) (hset : l.settled = false)
    (hel : l.uploadElapsed w.clock = true) (hway : l.route w.clock = .uploads)
    (hroom : l.remediationStartUnix = 0 →
      w.clock + Sizes.defaultRemediationWindowSecs < 2 ^ 63)
    (hready : TallyReady rt id w payer (c.effectiveMaxWinners l.participantsCount))
    (hf : rt.Foreign payer) (hnd : (entries.map Prod.fst).Nodup)
    (hlen : ∀ e ∈ entries, e.2.length ≤ maxRevealPlaintextBytes)
    (hans : ∀ e ∈ entries, ∃ p, Answers rt id (w.view rt id) e p) :
    ∃ w', process rt w (accounts rt id payer entries) entries = .ok w' := by
  obtain ⟨r, -, hi, -, rfl, -⟩ := represented h hm.lottery
  obtain ⟨l₁, hcheck⟩ : ∃ l₁, checkPhase r.lottery
    (decide (payer = c.authority)) w.clock = .ok l₁ :=
    exists_checkPhase hi htwo hset hel hway (.inr hroom)
  exact admitted h hm htwo hcheck hready hf hnd hlen hans

end UploadReveals

def includedIn (rt : Runtime K) (id : ℕ) (w : World K) : Set K :=
  {wallet | ∃ p, (w.view rt id (.participant wallet)).data = .participant p ∧
    p.revealIncluded = true}

theorem Represents.mem_includedIn {r : Round K} (hr : Represents rt acts w ws id r)
    (hfits : (w.view rt id).Fits rt id)
    (hopen : r.lottery.settled = false ∧ r.lottery.settlementComplete = false) {wallet : K} :
    wallet ∈ includedIn rt id w ↔
      ∃ p ∈ r.participants, p.wallet = wallet ∧ p.revealIncluded = true := by
  constructor
  · rintro ⟨p, hp, hinc⟩
    have hholds := hfits.holds (s := .participant wallet) (by simp [hp])
    rw [hp] at hholds
    exact ⟨p, hr.roster.mem_of_data hp, hholds.2.1, hinc⟩
  · rintro ⟨p, hp, rfl, hinc⟩
    exact ⟨p, hr.stored_of_open hopen hp, hinc⟩

namespace UploadReveals

theorem Uploads.included_iff {isAuthority : Bool} {entries : List (K × Bytes)} {r : Round K}
    {es : List (ℕ × Bytes)} {t : VoteTally K} {ps : List (Participant K)}
    {digests : List Bytes32} {wallet : K} (h :
      Uploads rt id isAuthority entries r es l t ps digests l') :
    (∃ p ∈ ps, p.wallet = wallet ∧ p.revealIncluded = true) ↔
      (∃ p ∈ r.participants, p.wallet = wallet ∧ p.revealIncluded = true) ∨
        rt.slotKey id (.participant wallet) ∈ entries.map Prod.fst := by
  have hlen := h.sweep.length_eq
  constructor
  · rintro ⟨p', hp', rfl, hinc⟩
    obtain ⟨i, hi⟩ := List.mem_iff_getElem?.mp hp'
    have hlt : i < r.participants.length := hlen ▸ (List.getElem?_eq_some_iff.mp hi).1
    rcases h.row (List.getElem?_eq_getElem hlt) with ⟨-, hsame⟩ | ⟨plaintext, -, -, -,
      -, hmem, hrow⟩
    · cases hi.symm.trans hsame
      exact .inl ⟨_, List.getElem_mem hlt, rfl, hinc⟩
    · cases hi.symm.trans hrow
      exact .inr (List.mem_map.mpr ⟨_, hmem, rfl⟩)
  · rintro (⟨p, hp, rfl, hinc⟩ | hmem)
    · obtain ⟨i, hi⟩ := List.mem_iff_getElem?.mp hp
      rcases h.row hi with ⟨-, hsame⟩ | ⟨plaintext, -, hno, -⟩
      · exact ⟨p, List.mem_of_getElem? hsame, rfl, hinc⟩
      · simp [hno] at hinc
    · obtain ⟨⟨key, plaintext⟩, he, rfl⟩ := List.mem_map.mp hmem
      obtain ⟨i, p, hi, rfl, hes⟩ := h.named he
      rcases h.row hi with ⟨hni, -⟩ | ⟨plaintext', -, -, -, -, -, hrow⟩
      · exact absurd (List.mem_map.mpr ⟨_, hes, rfl⟩) hni
      · refine ⟨_, List.mem_of_getElem? hrow, rfl, ?_⟩
        simp [Participant.includeVerifiedReveal]

theorem Uploads.complete {isAuthority : Bool} {entries : List (K × Bytes)} {r : Round K}
    {es : List (ℕ × Bytes)} {t : VoteTally K} {ps : List (Participant K)} {digests : List Bytes32}
    (h : Uploads rt id isAuthority entries r es l t ps digests l')
    (hr : Represents rt acts w ws id r)
    (hall : ∀ p ∈ r.participants, p.attestedUploaded = true → p.revealIncluded = false →
      rt.slotKey id (.participant p.wallet) ∈ entries.map Prod.fst) {p' : Participant K}
    (hp' : p' ∈ ps) (hatt : p'.attestedUploaded = true) : p'.revealIncluded = true := by
  obtain ⟨i, hi⟩ := List.mem_iff_getElem?.mp hp'
  have hlt : i < r.participants.length :=
    h.sweep.length_eq ▸ (List.getElem?_eq_some_iff.mp hi).1
  have hp := List.getElem?_eq_getElem hlt
  rcases h.row hp with ⟨hni, hsame⟩ | ⟨plaintext, -, -, -, -, -, hrow⟩
  · obtain rfl := Option.some.inj (hsame.symm.trans hi)
    by_contra hno
    obtain ⟨⟨key, plaintext⟩, he, hk⟩ :=
      List.mem_map.mp (hall _ (List.getElem_mem hlt) hatt (by simpa using hno))
    obtain rfl : key = _ := hk
    obtain ⟨j, q, hj, hq, hes⟩ := h.named he
    obtain rfl : j = i := by
      by_contra hne
      exact hr.roster.wallet_ne hp hj hne hq
    exact hni (List.mem_map.mpr ⟨_, hes, rfl⟩)
  · cases hi.symm.trans hrow
    simp [Participant.includeVerifiedReveal]

theorem of_step {pre : List (K × Bytes)} {entries : List (K × Bytes)}
    {accounts : List (AccountInfo K)} {r : Round K} (hw : WellTyped rt w)
    (hr : Represents rt acts w ws id r) (hreach : (Round.machine rt).Reachable r)
    (hs : Step rt w (.instruction pre (.uploadReveals entries) accounts) w')
    (hon : CallsOn rt accounts id) : ∃ isAuthority es l t ps digests l' r',
      (accounts[2]?.map AccountInfo.key = some r.config.authority ↔ isAuthority = true) ∧
      Uploads rt id isAuthority entries r es l t ps digests l' ∧
      r'.participants = ps ∧ r'.lottery = l' ∧ (Round.machine rt).Reachable r' ∧
      Represents rt (.instruction pre (.uploadReveals entries) accounts :: acts) w'
        (w :: ws) id r' ∧
      (w'.view rt id).Fits rt id ∧ w'.clock = w.clock := by
  cases hs with
  | instruction hsig hok =>
    obtain ⟨id', -, hon', -, hall⟩ := follow hw hsig hok pre (.uploadReveals entries)
    obtain rfl := hon.eq hon'
    obtain ⟨ht, hfits, isAuthority, es, l, t, ps, digests, l', hwho, hup, hr'⟩ := hall _ _ r hr
    exact ⟨isAuthority, es, l, t, ps, digests, l', _, hwho, hup, rfl, rfl,
      hreach.step (a := ()) (.uploadReveals hup.phase hup.fits hup.sweep hup.included), hr',
        hfits, ht.clock⟩

theorem step_of_succeeds {entries : List (K × Bytes)} (hf : rt.Foreign payer)
    (hok : process rt w (accounts rt id payer entries) entries = .ok w') :
    Step rt w (.instruction [] (.uploadReveals entries) (accounts rt id payer entries)) w' :=
  .instruction (accounts_keys hf) hok

end UploadReveals

namespace Sample

def missing (w : World Key) (n : ℕ) : Bool :=
  (AccountType.unwrap (w.view Sample.rt 1 (.participant (.wallet n))).data :
    Option (Participant Key)).any fun (p : Participant Key) ↦ decide (p.wallet = .wallet n ∧
      p.attestedUploaded = true ∧ p.revealIncluded = false ∧
      Sample.rt.sha256 (reveal n) = p.proofOfChanceHash)

theorem answers_of_missing {w : World Key} {n : ℕ} (h : missing w n = true) :
    ∃ p, Answers Sample.rt 1 (w.view Sample.rt 1) (participantKey 1 n, reveal n) p := by
  simp only [missing, Option.any_eq_true, decide_eq_true_eq] at h
  obtain ⟨p, hp, hwallet, hatt, hno, hhash⟩ := h
  refine ⟨p, ?_, ?_, hatt, hno, hhash⟩
  · rw [hwallet]
    rfl
  · rw [hwallet]
    exact unwrap_participant.mp hp

/-- Whether wallet `n` can create the tally of a lottery with `count` participants. -/
def funds (w : World Key) (c : Config Key) (n count : ℕ) : Bool :=
  decide ((w.view Sample.rt 1 .voteTally).lamports = 0 ∧ (w.accounts (.wallet n)).owner = default ∧
    Sample.rt.minimumBalance (VoteTally.accountSizeFor (c.effectiveMaxWinners count)) ≤
      (w.accounts (.wallet n)).lamports) &&
  (w.accounts (.wallet n)).data.isEmpty

theorem tallyReady_of_funds {w : World Key} {c : Config Key} {n count : ℕ}
    (h : funds w c n count = true) :
    TallyReady Sample.rt 1 w (.wallet n) (c.effectiveMaxWinners count) := by
  simp only [funds, Bool.and_eq_true, decide_eq_true_eq, AccountData.isEmpty_eq_true] at h
  obtain ⟨⟨hz, howner, hle⟩, hempty⟩ := h
  refine fun _ ↦ ⟨fun hsq ↦ hsq.funded.ne' hz, _, ?_, hle⟩
  rw [← howner, ← hempty]

theorem awaiting_reveal : ∃ (w : World Key) (ws : List (World Key)) (l : Lottery Key)
    (c : Config Key) (p : Participant Key), (system Sample.rt).History awaiting.reverse (w :: ws) ∧
    (w.accounts Sample.rt.configKey).data = .config c ∧
    (w.view Sample.rt 1 .lottery).data = .lottery l ∧ (2 ≤ l.participantsCount ∧ l.settled = false ∧
      l.uploadElapsed w.clock = true ∧ l.route w.clock = .uploads ∧ l.attestedCount = 1) ∧
    w.clock + Sizes.defaultRemediationWindowSecs < 2 ^ 63 ∧
    TallyReady Sample.rt 1 w (.wallet 5) (c.effectiveMaxWinners l.participantsCount) ∧
    Answers Sample.rt 1 (w.view Sample.rt 1) (participantKey 1 20, reveal 20) p := by
  obtain ⟨w, ws, l, h, hl, hp⟩ := run_lottery awaiting 1 (fun w l ↦
    decide (2 ≤ l.participantsCount ∧ l.settled = false ∧ l.uploadElapsed w.clock = true ∧
      l.route w.clock = .uploads ∧ l.attestedCount = 1) &&
    decide (w.clock + Sizes.defaultRemediationWindowSecs < 2 ^ 63) && missing w 20 &&
    ((AccountType.unwrap (w.accounts Sample.rt.configKey).data : Option (Config Key)).any
      fun (c : Config Key) ↦ funds w c 5 l.participantsCount)) (by decide +kernel)
  simp only [Bool.and_eq_true, decide_eq_true_eq, Option.any_eq_true] at hp
  obtain ⟨⟨⟨hlot, hclock⟩, hmiss⟩, c, hc, hfunds⟩ := hp
  obtain ⟨p, hans⟩ := answers_of_missing hmiss
  exact ⟨w, ws, l, c, p, h, unwrap_config.mp hc, hl, hlot, hclock, tallyReady_of_funds hfunds, hans⟩

end Sample

theorem UploadReveals.taken {entries : List (K × Bytes)} (h : (system rt).History acts (w :: ws))
    (hc : (w.accounts rt.configKey).data = .config c)
    (hl : (w.view rt id .lottery).data = .lottery l) (htwo : 2 ≤ l.participantsCount)
    (hset : l.settled = false) (hel : l.uploadElapsed w.clock = true)
    (hway : l.route w.clock = .uploads)
    (hroom : l.remediationStartUnix = 0 →
      w.clock + Sizes.defaultRemediationWindowSecs < 2 ^ 63)
    (hf : rt.Foreign payer)
    (hready : TallyReady rt id w payer (c.effectiveMaxWinners l.participantsCount))
    (hnd : (entries.map Prod.fst).Nodup)
    (hlen : ∀ e ∈ entries, e.2.length ≤ maxRevealPlaintextBytes)
    (hans : ∀ e ∈ entries, ∃ p, Answers rt id (w.view rt id) e p) :
    ∃ w' l', Step rt w (.instruction [] (.uploadReveals entries)
        (UploadReveals.accounts rt id payer entries)) w' ∧
      (w'.view rt id .lottery).data = .lottery l' ∧
      includedIn rt id w' = includedIn rt id w ∪
        {wallet | rt.slotKey id (.participant wallet) ∈ entries.map Prod.fst} ∧
      l'.remediationStartUnix = if payer ≠ c.authority ∧ l.remediationStartUnix = 0 then w.clock
        else l.remediationStartUnix := by
  have htyped := (consistent h).typed
  obtain ⟨w', hok⟩ :=
    UploadReveals.succeeds h ⟨htyped, hc, hl⟩ htwo hset hel hway hroom hready hf hnd hlen hans
  have hs := UploadReveals.step_of_succeeds hf hok
  obtain ⟨r, hreach, -, hr, rfl, -⟩ := represented h hl
  obtain rfl := hr.eq_config hc
  obtain ⟨isAuthority, es, l₁, t, ps, digests, l', r', hwho, hup, rfl, rfl, -, hr', hfits, -⟩ :=
    UploadReveals.of_step htyped hr hreach hs rfl
  obtain ⟨-, -, hopen₁, hopen₂, -, -, -, hl₁⟩ := UploadReveals.checkPhase_ok hup.phase
  obtain ⟨-, hl'⟩ := UploadReveals.includeUploads_ok hup.included
  obtain ⟨hmiss, hexp⟩ := Lottery.route_uploads_iff.mp hway
  refine ⟨w', r'.lottery, hs, hr'.lottery, ?_, ?_⟩
  · ext wallet
    rw [hr'.mem_includedIn hfits ?_, hup.included_iff, Set.mem_union,
      hr.mem_includedIn (htyped.fits id) ⟨hopen₁, hopen₂⟩, Set.mem_ofPred_eq]
    rw [hl', hl₁]
    exact ⟨hopen₁, hopen₂⟩
  · have hwho : payer = r.config.authority ↔ isAuthority = true := by
      rw [← hwho]
      simp [UploadReveals.accounts]
    rw [hr.now] at hel hexp ⊢
    rw [hl', hl₁]
    simp only [UploadReveals.canRemediate, hel, hmiss, hexp, Bool.and_true, Bool.not_false, ne_eq,
      hwho, Bool.not_eq_true', Bool.not_eq_true]

/-- Once the window is over, whoever holds plaintexts of missing reveals can have exactly these
included, and starts the remediation with it unless it is the authority or has begun before. -/
theorem reveals_taken {entries : List (K × Bytes)} (h : (system rt).History acts (w :: ws))
    (hc : (w.accounts rt.configKey).data = .config c)
    (hl : (w.view rt id .lottery).data = .lottery l) (htwo : 2 ≤ l.participantsCount)
    (hset : l.settled = false) (hel : l.uploadElapsed w.clock = true)
    (hway : l.route w.clock = .uploads)
    (hroom : l.remediationStartUnix = 0 →
      w.clock + Sizes.defaultRemediationWindowSecs < 2 ^ 63)
    (hf : rt.Foreign payer)
    (hready : TallyReady rt id w payer (c.effectiveMaxWinners l.participantsCount))
    (hnd : (entries.map Prod.fst).Nodup)
    (hlen : ∀ e ∈ entries, e.2.length ≤ maxRevealPlaintextBytes)
    (hans : ∀ e ∈ entries, ∃ p, Answers rt id (w.view rt id) e p) :
    ∃ w' l', Step rt w (.instruction [] (.uploadReveals entries)
        (UploadReveals.accounts rt id payer entries)) w' ∧
      (w'.view rt id .lottery).data = .lottery l' ∧
      includedIn rt id w' = includedIn rt id w ∪
        {wallet | rt.slotKey id (.participant wallet) ∈ entries.map Prod.fst} ∧
      l'.remediationStartUnix = if payer ≠ c.authority ∧ l.remediationStartUnix = 0 then w.clock
        else l.remediationStartUnix :=
  UploadReveals.taken h hc hl htwo hset hel hway hroom hf hready hnd hlen hans

/-- One reveal is missing, and anybody can bring it. -/
theorem reveals_taken_sample : ∃ (w w' : World Sample.Key) (l' : Lottery Sample.Key),
    Step Sample.rt w (.instruction [] (.uploadReveals [(Sample.participantKey 1 20,
      Sample.reveal 20)])
      (UploadReveals.accounts Sample.rt 1 (.wallet 5)
        [(Sample.participantKey 1 20, Sample.reveal 20)])) w' ∧
    (w'.view Sample.rt 1 .lottery).data = .lottery l' ∧
    Sample.Key.wallet 20 ∈ includedIn Sample.rt 1 w' := by
  obtain ⟨w, ws, l, c, p, h, hc, hl, ⟨htwo, hset, hel, hway, -⟩, hroom, hready, hans⟩ :=
    Sample.awaiting_reveal
  have hone : ([(Sample.participantKey 1 20, Sample.reveal 20)].map Prod.fst).Nodup :=
    List.nodup_singleton _
  obtain ⟨w', l', hs, hl', hinc, -⟩ := reveals_taken h hc hl htwo hset hel hway (fun _ ↦ hroom)
    (Sample.foreign_of_isWallet _ rfl) hready hone
    (List.forall_mem_singleton.mpr
      (by decide : (Sample.reveal 20).length ≤ maxRevealPlaintextBytes))
    (List.forall_mem_singleton.mpr ⟨p, hans⟩)
  refine ⟨w, w', l', hs, hl', ?_⟩
  rw [hinc]
  exact .inr (by simp; rfl)

def Round.missingEntries (rt : Runtime K) (id : ℕ) (known : K → Bytes) (r : Round K) :
    List (K × Bytes) :=
  (r.participants.filter fun p ↦ p.attestedUploaded && !p.revealIncluded).map fun p ↦
    (rt.slotKey id (.participant p.wallet), known p.wallet)

theorem Round.mem_missingEntries {known : K → Bytes} {r : Round K} {e : K × Bytes} :
    e ∈ r.missingEntries rt id known ↔ ∃ p ∈ r.participants, p.attestedUploaded = true ∧
      p.revealIncluded = false ∧ (rt.slotKey id (.participant p.wallet), known p.wallet) = e := by
  simp only [missingEntries, List.mem_map, List.mem_filter, Bool.and_eq_true, Bool.not_eq_true',
    and_assoc]

theorem Represents.nodup_missingEntries {known : K → Bytes} {r : Round K}
    (hr : Represents rt acts w ws id r) :
    ((r.missingEntries rt id known).map Prod.fst).Nodup := by
  have hwallets : ((r.participants.filter fun p ↦ p.attestedUploaded && !p.revealIncluded).map
      Participant.wallet).Nodup := hr.roster.nodup.sublist (List.filter_sublist.map _)
  have hinj : Function.Injective fun wallet ↦ rt.slotKey id (.participant wallet) := by
    intro a b hab
    simpa using hab
  have hmap := hwallets.map hinj
  rw [List.map_map] at hmap
  rw [Round.missingEntries, List.map_map]
  exact hmap

namespace UploadReveals

theorem exists_step {known : K → Bytes} {r : Round K} (h : (system rt).History acts (w :: ws))
    (hr : Represents rt acts w ws id r) (hi : r.Invariant rt)
    (htwo : 2 ≤ r.lottery.participantsCount)
    (hset : r.lottery.settled = false) (hel : r.lottery.uploadElapsed w.clock = true)
    (hway : r.lottery.route w.clock = .uploads)
    (hroom : r.lottery.remediationStartUnix = 0 →
      w.clock + Sizes.defaultRemediationWindowSecs < 2 ^ 63)
    (hf : rt.Foreign payer)
    (hready : TallyReady rt id w payer (r.config.effectiveMaxWinners r.lottery.participantsCount))
    (hknown : ∀ wallet p, (w.view rt id (.participant wallet)).data = .participant p →
      p.attestedUploaded = true → p.revealIncluded = false →
        rt.sha256 (known wallet) = p.proofOfChanceHash ∧
        (known wallet).length ≤ maxRevealPlaintextBytes) :
    ∃ w', Step rt w (.instruction [] (.uploadReveals (r.missingEntries rt id known))
      (accounts rt id payer (r.missingEntries rt id known))) w' := by
  have hmem {e : K × Bytes} (he : e ∈ r.missingEntries rt id known) :
      e.2.length ≤ maxRevealPlaintextBytes ∧ ∃ p, Answers rt id (w.view rt id) e p := by
    obtain ⟨p, hp, hatt, hno, rfl⟩ := Round.mem_missingEntries.mp he
    have hd := hr.stored_of_open ⟨hset, hi.routed.not_complete hset⟩ hp
    obtain ⟨hhash, hlen⟩ := hknown _ p hd hatt hno
    exact ⟨hlen, p, rfl, hd, hatt, hno, hhash⟩
  obtain ⟨w', hok⟩ := succeeds h ⟨(consistent h).typed, hr.config,
    hr.lottery⟩ htwo hset hel hway hroom
    hready hf hr.nodup_missingEntries (fun e he ↦ (hmem he).1) (fun e he ↦ (hmem he).2)
  exact ⟨w', step_of_succeeds hf hok⟩

/-- What an upload of all missing reveals leaves. -/
structure Completes (rt : Runtime K) (id : ℕ) (w w' : World K) (l' : Lottery K) : Prop where
  lottery : (w'.view rt id .lottery).data = .lottery l'
  ready : l'.Ready w'.clock
  rows : ∀ wallet p, (w.view rt id (.participant wallet)).data = .participant p →
    ∃ p', (w'.view rt id (.participant wallet)).data = .participant p' ∧
      p'.attestedUploaded = p.attestedUploaded ∧ p'.votedWinners = p.votedWinners ∧
      (p.attestedUploaded = true → p'.revealIncluded = true)

theorem completes {known : K → Bytes} {r : Round K} (hw : WellTyped rt w)
    (hr : Represents rt acts w ws id r) (hreach : (Round.machine rt).Reachable r)
    (htwo : 2 ≤ r.lottery.participantsCount) (hel : r.lottery.uploadElapsed w.clock = true)
    (hs : Step rt w (.instruction [] (.uploadReveals (r.missingEntries rt id known))
      (accounts rt id payer (r.missingEntries rt id known))) w') :
    ∃ l', Completes rt id w w' l' := by
  obtain ⟨isAuthority, es, l₁, t, ps, digests, l', r', -, hup, rfl, rfl, hreach', hr', -, hclock⟩ :=
    of_step hw hr hreach hs rfl
  obtain ⟨-, -, hset, hsc, -, -, hatt, hl₁⟩ := checkPhase_ok hup.phase
  obtain ⟨-, hl'⟩ := includeUploads_ok hup.included
  have hopen : r'.lottery.settled = false ∧ r'.lottery.settlementComplete = false := by
    rw [hl', hl₁]
    exact ⟨hset, hsc⟩
  -- every receipt has its reveal now
  have hall : ∀ p ∈ r'.participants, p.attestedUploaded = true → p.revealIncluded = true := by
    intro p' hp' hatt'
    refine hup.complete hr (fun p hp hatt hno ↦ ?_) hp' hatt'
    exact List.mem_map.mpr ⟨_, Round.mem_missingEntries.mpr ⟨p, hp, hatt, hno, rfl⟩, rfl⟩
  have hbal := (Round.invariant hreach').books.balanced
  have hcounts : r'.lottery.attestedCount = r'.lottery.providerUploadedCount := by
    refine hbal.attested.trans (Eq.trans ?_ hbal.included.symm)
    refine List.countP_congr fun x hx ↦ ⟨fun hatt ↦ ?_, (hbal.valid x hx).attested⟩
    obtain ⟨p, hp, rfl⟩ := List.mem_map.mp hx
    exact hall p hp hatt
  have hmiss : r'.lottery.hasMissingAttestedReveals = false := by
    rw [Bool.eq_false_iff]
    intro hmiss
    have := (Lottery.hasMissing_eq_true.mp hmiss).2
    omega
  refine ⟨r'.lottery, hr'.lottery, ?_, fun wallet p hp ↦ ?_⟩
  · rw [hclock]
    refine ⟨hopen.1, hopen.2, ?_, ?_, hmiss, .inr ?_⟩
    all_goals
      rw [hl', hl₁]
      assumption
  · have hholds := (hw.fits id).holds (s := .participant wallet) (by simp [hp])
    rw [hp] at hholds
    obtain rfl := hholds.2.1
    obtain ⟨i, hi⟩ := hr.roster.getElem_of_data hp
    rcases hup.row hi with ⟨-, hsame⟩ | ⟨plaintext, -, -, hatt, -, -, hrow⟩
    · have hmem := List.mem_of_getElem? hsame
      exact ⟨p, hr'.stored_of_open hopen hmem, rfl, rfl, hall p hmem⟩
    · have hmem := List.mem_of_getElem? hrow
      have hd := hr'.stored_of_open hopen hmem
      refine ⟨_, hd, rfl, ?_, fun hatt ↦ hall _ hmem hatt⟩
      exact Participant.votedWinners_markRevealIncluded _

end UploadReveals

/-- Who knows the plaintexts of all missing reveals can make the lottery ready in one call. -/
theorem plaintexts_make_ready {known : K → Bytes} (h : (system rt).History acts (w :: ws))
    (hc : (w.accounts rt.configKey).data = .config c)
    (hl : (w.view rt id .lottery).data = .lottery l) (htwo : 2 ≤ l.participantsCount)
    (hset : l.settled = false) (hel : l.uploadElapsed w.clock = true)
    (hway : l.route w.clock = .uploads)
    (hroom : l.remediationStartUnix = 0 →
      w.clock + Sizes.defaultRemediationWindowSecs < 2 ^ 63)
    (hf : rt.Foreign payer)
    (hready : TallyReady rt id w payer (c.effectiveMaxWinners l.participantsCount))
    (hknown : ∀ wallet p, (w.view rt id (.participant wallet)).data = .participant p →
      p.attestedUploaded = true → p.revealIncluded = false →
        rt.sha256 (known wallet) = p.proofOfChanceHash ∧
        (known wallet).length ≤ maxRevealPlaintextBytes) :
    ∃ entries w' l', Step rt w (.instruction [] (.uploadReveals entries)
        (UploadReveals.accounts rt id payer entries)) w' ∧
      (w'.view rt id .lottery).data = .lottery l' ∧ l'.Ready w'.clock := by
  obtain ⟨r, hreach, hi, hr, rfl, -⟩ := represented h hl
  obtain rfl := hr.eq_config hc
  obtain ⟨w', hs⟩ := UploadReveals.exists_step h hr hi htwo hset hel hway hroom hf hready hknown
  obtain ⟨l', hcomp⟩ := UploadReveals.completes (consistent h).typed hr hreach htwo hel hs
  exact ⟨_, w', l', hs, hcomp.lottery, hcomp.ready⟩

theorem eq_of_one_receipt {wallet wallet' : K} {q : Participant K}
    (h : (system rt).History acts (w :: ws)) (hl : (w.view rt id .lottery).data = .lottery l)
    (hone : l.attestedCount = 1) (hp : (w.view rt id (.participant wallet')).data = .participant p)
    (hpatt : p.attestedUploaded = true)
    (hq : (w.view rt id (.participant wallet)).data = .participant q)
    (hatt : q.attestedUploaded = true) : q = p := by
  obtain ⟨r, -, hi, hr, rfl, -⟩ := represented h hl
  have hlist := hi.books.balanced.attested.symm.trans hone
  rw [Ballot.attestedOf, List.countP_eq_length_filter, List.length_eq_one_iff] at hlist
  obtain ⟨x, hx⟩ := hlist
  have hballot {q : Participant K} {wallet : K}
      (hq : (w.view rt id (.participant wallet)).data = .participant q)
      (hatt : q.attestedUploaded = true) : q.ballot = x := by
    rw [← List.mem_singleton, ← hx, List.mem_filter]
    exact ⟨List.mem_map.mpr ⟨q, hr.roster.mem_of_data hq, rfl⟩, hatt⟩
  have hwallets : q.wallet = p.wallet :=
    congrArg Ballot.wallet ((hballot hq hatt).trans (hballot hp hpatt).symm)
  have hholds := ((consistent h).typed.fits id).holds (s := .participant wallet) (by simp [hq])
  rw [hq] at hholds
  have hholds' := ((consistent h).typed.fits id).holds (s := .participant wallet') (by simp [hp])
  rw [hp] at hholds'
  rw [← hholds.2.1, hwallets, hholds'.2.1, hp] at hq
  exact (AccountData.participant.inj hq).symm

/-- One call of wallet 5 and the lottery is ready. -/
theorem plaintexts_make_ready_sample : ∃ (w w' : World Sample.Key) (l l' : Lottery Sample.Key)
    (entries : List (Sample.Key × Bytes)), l.route w.clock = .uploads ∧
    Step Sample.rt w (.instruction [] (.uploadReveals entries)
      (UploadReveals.accounts Sample.rt 1 (.wallet 5) entries)) w' ∧
    (w'.view Sample.rt 1 .lottery).data = .lottery l' ∧ l'.Ready w'.clock := by
  obtain ⟨w, ws, l, c, p, h, hc, hl, ⟨htwo, hset, hel, hway, hone⟩, hroom, hready, hans⟩ :=
    Sample.awaiting_reveal
  have hknown (wallet : Sample.Key) (q : Participant Sample.Key)
      (hq : (w.view Sample.rt 1 (.participant wallet)).data = .participant q)
      (hatt : q.attestedUploaded = true) (_ : q.revealIncluded = false) :
      Sample.rt.sha256 (Sample.reveal 20) = q.proofOfChanceHash ∧
        (Sample.reveal 20).length ≤ maxRevealPlaintextBytes := by
    rw [eq_of_one_receipt h hl hone hans.data hans.attested hq hatt]
    exact ⟨hans.hash, by decide⟩
  obtain ⟨entries, w', l', hs, hl', hready'⟩ := plaintexts_make_ready h hc hl htwo hset hel hway
    (fun _ ↦ hroom) (Sample.foreign_of_isWallet _ rfl) hready hknown
  exact ⟨w, w', l, l', entries, hway, hs, hl', hready'⟩

end DailyLottery
