import DailyLottery.Refinement.Participation

set_option linter.unusedSectionVars false

namespace DailyLottery.UploadReveals

open Lib

variable {K : Type} [DecidableEq K] [Inhabited K] {rt : Runtime K} {w w' : World K}
  {accounts : List (AccountInfo K)}

theorem loadOrCreateTally_ok {id mw : ℕ} {l : Lottery K} {t : VoteTally K}
    {uploaderAi voteTallyAi lotteryAi : AccountInfo K} (hw : WellTyped rt w)
    (hf : rt.Foreign uploaderAi.key) (hlk : lotteryAi.key = rt.lotteryKey id)
    (hvk : voteTallyAi.key = rt.slotKey id .voteTally)
    (h : loadOrCreateTally rt w l mw uploaderAi voteTallyAi lotteryAi = .ok (w', t)) :
    FindsTally rt (w.view rt id) id mw l.attestedCount t ∧ Touches rt id w w' ∧
      ∃ v, (w.view rt id).Opened rt .voteTally v ∧
        w'.view rt id = v.setData .voteTally (.voteTally t) := by
  unfold loadOrCreateTally dataIsEmpty at h
  rw [hvk, World.accounts_slotKey] at h
  split at h
  · next he =>
    rw [AccountData.isEmpty_eq_true] at he
    simp only [bind_eq_ok, hlk, pure_eq_ok, Prod.mk.injEq, writeAccountData_eq_ok, exists_const,
      requireWritable_eq_ok] at h
    obtain ⟨-, w₁, hcreate, _, ⟨-, -, -, rfl⟩, rfl, rfl⟩ := h
    obtain ⟨ht, hopen⟩ := createAccount_opened hf hvk hcreate
    rw [hvk]
    exact ⟨.inr ⟨he, rfl⟩, ht.setData _ _, _, hopen, World.view_setData _ _ _ _ _⟩
  · next he =>
    simp only [bind_eq_ok, rejectIf_eq_ok, exists_const, pure_eq_ok, Prod.mk.injEq, not_not,
      ne_eq] at h
    obtain ⟨t', ht', -, hmw, rfl, rfl⟩ := h
    have hd := loadVoteTally_ok hw hvk ht'
    exact ⟨.inl ⟨hd, hmw⟩, .refl _ _, _, .inl ⟨rfl, by simp [hd]⟩, (View.setData_self hd).symm⟩

/-- The position of a participant and a plaintext stand for an entry with that participant's
address. -/
def Names (rt : Runtime K) (id : ℕ) (ps : List (Participant K)) (e : ℕ × Bytes)
    (entry : K × Bytes) :
    Prop :=
  entry.2 = e.2 ∧ ∃ p, ps[e.1]? = some p ∧ entry.1 = rt.slotKey id (.participant p.wallet)

theorem Names.of_set {id i : ℕ} {ps : List (Participant K)} {p p' : Participant K} {e : ℕ × Bytes}
    {entry : K × Bytes} (h : Names rt id (ps.set i p') e entry) (hp : ps[i]? = some p)
    (hw : p'.wallet = p.wallet) : Names rt id ps e entry := by
  obtain ⟨hpt, q, hq, hk⟩ := h
  refine ⟨hpt, ?_⟩
  rw [List.getElem?_set] at hq
  split at hq
  · next hi =>
    obtain rfl := Option.some.inj (Option.ite_none_right_eq_some.mp hq).2
    exact ⟨p, hi ▸ hp, by rw [hk, hw]⟩
  · exact ⟨q, hq, hk⟩

theorem processEntries_ok {id mw : ℕ} {lotteryAi : AccountInfo K} {rest : List (AccountInfo K)}
    {entries : List (K × Bytes)} {t t' : VoteTally K} {ds ds' : List Bytes32}
    {past : K → Option (Participant K)} {l : Lottery K} {ps : List (Participant K)}
    (hlk : lotteryAi.key = rt.lotteryKey id) (hncl : ∀ q, ¬l.Closable q)
    (hp : Passes rt id past l w w ps)
    (h : processEntries rt mw lotteryAi rest entries w t ds = .ok (w', t', ds')) :
    ∃ es ps', List.Forall₂ (Names rt id ps) es entries ∧
      Sweep (Round.IncludeVisit rt mw) ps (t, ds) es ps' (t', ds') ∧
      Passes rt id past l w w' ps' ∧ t'.lottery = t.lottery := by
  induction entries generalizing w t ds ps with
  | nil =>
    simp only [processEntries, Except.ok.injEq, Prod.mk.injEq] at h
    obtain ⟨rfl, rfl, rfl⟩ := h
    exact ⟨[], ps, .nil, .nil _ _, hp, rfl⟩
  | cons e entries ih =>
    obtain ⟨pk, plaintext⟩ := e
    simp only [processEntries, bind_eq_ok, requireWritable_eq_ok, assertPdaOwned_eq_ok,
      rejectIf_eq_ok, exists_const, writeAccountData_eq_ok, Prod.exists] at h
    obtain ⟨ai, hai, -, p, hread, ⟨hk, -⟩, -, t₁, p₁, digest, hinc, w₁, ⟨-, -, -, rfl⟩, h⟩ := h
    have hk : ai.key = rt.slotKey id (.participant p.wallet) := by rw [← hk, hlk]; rfl
    have hpk : ai.key = pk := by simpa using List.find?_some (okOr_eq_ok.mp hai)
    obtain ⟨hd, -⟩ := (hp.fits p.wallet).readParticipant hk.symm hread
    obtain ⟨i, hi⟩ := hp.roster.getElem_of_data hd
    obtain ⟨-, -, -, -, ht₁, hp₁⟩ := includeReveal_ok hinc
    have htl : t₁.lottery = t.lottery := by
      rw [ht₁]
      split <;> simp
    have hpw : p₁.wallet = p.wallet := by rw [hp₁]; rfl
    have hwrite := hp.write p₁ hi hd (by rw [hp₁]; rfl) hpw fun h ↦ absurd h (hncl p)
    rw [← hk] at hwrite
    obtain ⟨es, ps', hes, hsweep, hpass, htl'⟩ := ih (.refl hwrite.fits hwrite.roster) h
    refine ⟨(i, plaintext) :: es, ps', .cons ⟨rfl, p, hi,
      hpk ▸ hk⟩ (hes.imp fun _ _ hn ↦ hn.of_set hi hpw), ?_, hwrite.trans hpass, htl'.trans htl⟩
    exact .cons hi ⟨digest, hinc, rfl⟩ hsweep

/-- The call as far as the loop over its entries, and what it stores after it. -/
theorem effect {entries : List (K × Bytes)} (hw : WellTyped rt w)
    (hs : SignersAreKeys rt accounts) (h : process rt w accounts entries = .ok w') :
    ∃ c l isAuthority l₁ l' t t' ds lotteryAi rest w₁ w₂ v,
      (w.accounts rt.configKey).data = .config c ∧
      (w.view rt l.id .lottery).data = .lottery l ∧ CallsOn rt accounts l.id ∧
      (accounts[2]?.map AccountInfo.key = some c.authority ↔ isAuthority = true) ∧
      validateEntries entries [] = .ok () ∧ checkPhase l isAuthority w.clock = .ok l₁ ∧
      FindsTally rt (w.view rt l.id) l.id (c.effectiveMaxWinners l.participantsCount)
        l₁.attestedCount t ∧
      Touches rt l.id w w₁ ∧ (w.view rt l.id).Opened rt .voteTally v ∧
      w₁.view rt l.id = v.setData .voteTally (.voteTally t) ∧
      lotteryAi.key = rt.lotteryKey l.id ∧
      processEntries rt (c.effectiveMaxWinners l.participantsCount) lotteryAi rest
        (provided rt entries) w₁ { t with totalAttested := l₁.attestedCount } [] =
          .ok (w₂, t', ds) ∧
      includeUploads l₁ { t' with processedCount := saturatingAdd 64 t'.processedCount ds.length } ds =
        .ok l' ∧
      Touches rt l.id w₂ w' ∧
      w'.view rt l.id = ((w₂.view rt l.id).setData .voteTally (.voteTally { t' with
        processedCount := saturatingAdd 64 t'.processedCount ds.length })).setData
          .lottery (.lottery l') := by
  unfold process at h
  split at h
  · next configAi lotteryAi uploaderAi _ voteTallyAi rest =>
    simp only [bind_eq_ok, assertPdaOwned_eq_ok, assertPdaKey_eq_ok, requireSigner_eq_ok,
      requireWritable_eq_ok, requireKeyMatch_eq_ok, rejectIf_eq_ok, exists_const,
      writeAccountData_eq_ok, Prod.exists, not_not, ne_eq] at h
    obtain ⟨⟨hck, -⟩, -, hsign, -, -, -, -, c, hc, l, hl, ⟨hlk, -⟩, -, l₁, hadmit, hvk,
      w₁, t, h₁, _, hvalid, w₂, t', ds, h₂, l', hl', _, ⟨-, -, -, rfl⟩, -, -, -, rfl⟩ := h
    have hf : rt.Foreign uploaderAi.key := hs uploaderAi (by simp) hsign
    obtain ⟨hlk, hld, -, -⟩ := hw.readLottery hlk hl
    have hvk : voteTallyAi.key = rt.slotKey l.id .voteTally := by rw [← hvk, hlk]; rfl
    obtain ⟨w₀, hw₀, ht₀, hv₀⟩ : ∃ w₀, WellTyped rt w₀ ∧ Touches rt l.id w w₀ ∧
        w₀.view rt l.id = w.view rt l.id ∧
        loadOrCreateTally rt w₀ l₁ (c.effectiveMaxWinners l₁.participantsCount) uploaderAi
          voteTallyAi lotteryAi = .ok (w₁, t) := by
      refine ⟨_, ?_, (Touches.refl _ _).ite_emit _ _, World.view_ite_emit _ _ _ _ _, h₁⟩
      intro s
      rw [World.accounts_ite_emit]
      exact hw s
    obtain ⟨hv₀, h₁⟩ := hv₀
    obtain ⟨hfind, ht₁, v, hopen, hv₁⟩ := loadOrCreateTally_ok hw₀ hf hlk hvk h₁
    rw [hv₀] at hfind hopen
    have hpc : l₁.participantsCount = l.participantsCount := by
      rw [(checkPhase_ok hadmit).2.2.2.2.2.2.2]
    rw [hpc] at hfind h₂
    refine ⟨c, l, _, l₁, l', t, t', ds, lotteryAi, rest, w₁, w₂, v, (hw.readConfig hck hc).1, hld,
      congrArg some hlk, by simp, hvalid, hadmit, hfind, ht₀.trans ht₁, hopen, hv₁, hlk, h₂,
        hl', ?_, ?_⟩
    · rw [hlk, hvk]
      exact ((((Touches.refl _ _).ite_emit _ _).setData _ _).emit _).setData _ _
    · rw [hlk, hvk]
      simp only [World.view_emit, World.view_setData, World.view_ite_emit, AccountType.wrap]
  · cases h

theorem validateEntries_ok {entries : List (K × Bytes)} {seen : List K}
    (h : validateEntries entries seen = .ok ()) : (entries.map Prod.fst).Nodup ∧
      ∀ e ∈ entries, e.1 ∉ seen ∧ e.2.length ≤ maxRevealPlaintextBytes := by
  induction entries generalizing seen with
  | nil => simp
  | cons e entries ih =>
    obtain ⟨pk, plaintext⟩ := e
    simp only [validateEntries, bind_eq_ok, rejectIf_eq_ok, exists_const, not_lt] at h
    obtain ⟨hseen, hlen, h⟩ := h
    obtain ⟨hnd, hall⟩ := ih h
    refine ⟨?_, ?_⟩
    · rw [List.map_cons, List.nodup_cons]
      refine ⟨fun hmem ↦ ?_, hnd⟩
      obtain ⟨e, he, rfl⟩ := List.mem_map.mp hmem
      exact (hall e he).1 List.mem_cons_self
    · intro e he
      rcases List.mem_cons.mp he with rfl | he
      · exact ⟨hseen, hlen⟩
      · exact ⟨fun hs ↦ (hall e he).1 (List.mem_cons_of_mem _ hs), (hall e he).2⟩

theorem mem_provided {entries : List (K × Bytes)} {e : K × Bytes} :
    e ∈ provided rt entries ↔ e ∈ entries := List.mem_mergeSort

/-- What an upload does to the round of its lottery. -/
structure Uploads (rt : Runtime K) (id : ℕ) (isAuthority : Bool) (entries : List (K × Bytes))
    (r : Round K) (es : List (ℕ × Bytes)) (l : Lottery K) (t : VoteTally K)
    (ps : List (Participant K)) (digests : List Bytes32) (l' : Lottery K) : Prop where
  phase : checkPhase r.lottery isAuthority r.now = .ok l
  fits : r.TallyFits
  names : List.Forall₂ (Names rt id r.participants) es (provided rt entries)
  sweep : Sweep (Round.IncludeVisit rt (r.config.effectiveMaxWinners r.lottery.participantsCount))
    r.participants ({ r.openTally l.attestedCount with totalAttested := l.attestedCount }, []) es ps
    (t, digests)
  included : includeUploads l { t with
    processedCount := saturatingAdd 64 t.processedCount digests.length } digests = .ok l'

theorem Uploads.row {id i : ℕ} {isAuthority : Bool} {entries : List (K × Bytes)} {r : Round K}
    {es : List (ℕ × Bytes)} {l l' : Lottery K} {t : VoteTally K} {ps : List (Participant K)}
    {digests : List Bytes32} {p : Participant K}
    (h : Uploads rt id isAuthority entries r es l t ps digests l')
    (hp : r.participants[i]? = some p) :
    (i ∉ es.map Prod.fst ∧ ps[i]? = some p) ∨
      ∃ plaintext, (i, plaintext) ∈ es ∧ p.revealIncluded = false ∧ p.attestedUploaded = true ∧
        rt.sha256 plaintext = p.proofOfChanceHash ∧
        (rt.slotKey id (.participant p.wallet), plaintext) ∈ entries ∧
        ps[i]? = some ({ p with revealScore := revealScore plaintext }.includeVerifiedReveal
          (computeRevealDigest rt p.wallet plaintext)) := by
  have hrows := (h.sweep.once (P := fun p ↦ p.revealIncluded = true) ?_).2 i p hp
  · refine hrows.imp_right ?_
    rintro ⟨plaintext, s, s', p', hmem, ⟨digest, hinc, -⟩, hp'⟩
    obtain ⟨hni, hatt, hhash, rfl, -, rfl⟩ := includeReveal_ok hinc
    refine ⟨plaintext, hmem, hni, hatt, hhash, ?_, hp'⟩
    obtain ⟨j, hj, hje⟩ := List.getElem_of_mem hmem
    have hj' : j < (provided rt entries).length := h.names.length_eq ▸ hj
    obtain ⟨hpt, q, hq, hk⟩ := List.forall₂_iff_get.mp h.names |>.2 j hj hj'
    simp only [List.get_eq_getElem, hje] at hpt hq hk
    obtain rfl : p = q := Option.some.inj (hp.symm.trans hq)
    rw [← mem_provided, ← hk, ← hpt]
    exact List.getElem_mem hj'
  · rintro s plaintext p s' p' ⟨digest, hinc, -⟩
    obtain ⟨hni, -, -, -, -, rfl⟩ := includeReveal_ok hinc
    exact ⟨by simp [hni], by simp [Participant.includeVerifiedReveal]⟩

theorem Uploads.named {id : ℕ} {isAuthority : Bool} {entries : List (K × Bytes)} {r : Round K}
    {es : List (ℕ × Bytes)} {l l' : Lottery K} {t : VoteTally K} {ps : List (Participant K)}
    {digests : List Bytes32} {wallet : K} {plaintext : Bytes}
    (h : Uploads rt id isAuthority entries r es l t ps digests l')
    (hmem : (rt.slotKey id (.participant wallet), plaintext) ∈ entries) :
    ∃ i p, r.participants[i]? = some p ∧ p.wallet = wallet ∧ (i, plaintext) ∈ es := by
  have hprov : _ ∈ provided rt entries := mem_provided.mpr hmem
  obtain ⟨j, hj, hje⟩ := List.getElem_of_mem hprov
  have hj' : j < es.length := h.names.length_eq ▸ hj
  obtain ⟨hpt, p, hp, hk⟩ := List.forall₂_iff_get.mp h.names |>.2 j hj' hj
  simp only [List.get_eq_getElem, hje] at hpt hp hk
  refine ⟨es[j].1, p, hp, ?_, ?_⟩
  · simpa [eq_comm] using hk
  · rw [hpt]
    exact List.getElem_mem hj'

theorem follow {entries : List (K × Bytes)} (hw : WellTyped rt w)
    (hs : SignersAreKeys rt accounts) (h : process rt w accounts entries = .ok w')
    (pre : List (K × Bytes)) (ix : Instruction K) :
    ∃ id, (w.view rt id .lottery).data ≠ .empty ∧ CallsOn rt accounts id ∧
      validateEntries entries [] = .ok () ∧ ∀ acts ws r, Represents rt acts w ws id r →
        Touches rt id w w' ∧ (w'.view rt id).Fits rt id ∧ ∃ isAuthority es l t ps digests l',
          (accounts[2]?.map AccountInfo.key = some r.config.authority ↔ isAuthority = true) ∧
          Uploads rt id isAuthority entries r es l t ps digests l' ∧
          Represents rt (.instruction pre ix accounts :: acts) w' (w :: ws) id { r with
            lottery := l', participants := ps
            tally := some { t with
              processedCount := saturatingAdd 64 t.processedCount digests.length } } := by
  obtain ⟨c, l, isAuthority, l₁, l', t, t', ds, lotteryAi, rest, w₁, w₂, v, hc, hl, hon,
    hwho, hvalid, hcheck, hfind, ht₁, hopen, hv₁, hlk, hloop, hl', ht₂, hv₂⟩ := effect hw hs h
  refine ⟨l.id, by simp [hl], hon, hvalid, fun acts ws r hr ↦ ?_⟩
  obtain rfl := hr.eq_lottery hl
  obtain rfl := hr.eq_config hc
  obtain ⟨-, -, hset, hsc, -, -, -, hl₁⟩ := checkPhase_ok hcheck
  have hncl (q : Participant K) : ¬r.lottery.Closable q := by simp [Lottery.Closable, hset, hsc]
  have hf₁ : (w₁.view rt r.lottery.id).Fits rt r.lottery.id := by
    rw [hv₁]
    exact hopen.fits_setData (hw.fits _) (hfind.holds (hw.fits _))
  have ha₁ : (w₁.view rt r.lottery.id).Alive := by
    rw [hv₁]
    exact (hopen.alive hr.alive).setData hopen.data_ne_empty _
  have hr₁ : Roster rt (w₁.view rt r.lottery.id)
      ((w.view rt r.lottery.id).lastIn (pastOf rt ws r.lottery.id)) r.lottery r.participants := by
    rw [hv₁]
    exact (hr.roster.push.opened hopen (by simp)).setOther (by simp) _
  obtain ⟨es, ps', hnames, hsweep, hpass, htl⟩ :=
    processEntries_ok hlk hncl (.refl (fun wallet ↦ hf₁ (.participant wallet)) hr₁) hloop
  have hothers (s : Slot K) (hsp : ∀ wallet, s ≠ .participant wallet) (hst : s ≠ .voteTally) :
      w₂.view rt r.lottery.id s = w.view rt r.lottery.id s := by
    rw [hpass.others s hsp, hv₁, View.setData_apply, if_neg hst, hopen.apply_of_ne hst]
  have htally : (w₂.view rt r.lottery.id .voteTally).data ≠ .empty := by
    rw [hpass.others _ (by simp), hv₁]
    simp
  have hlot : (w₂.view rt r.lottery.id .lottery).data = .lottery r.lottery := by
    rw [hothers _ (by simp) (by simp)]
    exact hl
  have hsame : l'.id = r.lottery.id ∧ l'.config = r.lottery.config ∧
    l'.vault = r.lottery.vault := by
    rw [(includeUploads_ok hl').2, hl₁]
    exact ⟨rfl, rfl, rfl⟩
  have ht : Touches rt r.lottery.id w w' := (ht₁.trans hpass.touches).trans ht₂
  obtain ⟨rfl, hfits⟩ := hfind.openTally hr
  rw [hr.now] at hcheck
  refine ⟨ht, ?_, isAuthority, es, l₁, t', ps', ds, l', hwho,
    ⟨hcheck, hfits, hnames, hsweep, hl'⟩, ?_⟩
  · rw [hv₂]
    refine ((hpass.view_fits hf₁).setData htally ?_).setLottery (l := r.lottery) l' ?_ hsame.1
      hsame.2.1 hsame.2.2
    · exact htl.trans (hfind.holds (hw.fits _))
    · simpa using hlot
  · refine hr.next ht hv₂ (fun _ ↦ rfl) ⟨rfl, rfl, rfl,
      rfl⟩ (by simp) ?_ ?_ .inl ?_ (by simp) ?_ ?_ ?_
    · simpa [hothers] using hr.vault
    · simp [hothers, hr.lamports]
    · refine (hpass.roster.setOther (s := .voteTally) (by simp) _).setLottery l' fun q _ h ↦
        absurd h (hncl q)
    · simp [hothers, hr.ledger]
    · simp [hothers, hr.pages]
    · exact ((hpass.alive ha₁).setData htally _).setData (by simp [hlot]) _

theorem simulated {entries : List (K × Bytes)} (hw : WellTyped rt w)
    (hs : SignersAreKeys rt accounts) (h : process rt w accounts entries = .ok w')
    (pre : List (K × Bytes)) (ix : Instruction K) :
    Simulated rt (.instruction pre ix accounts) w w' := by
  obtain ⟨id, hne, -, -, hall⟩ := follow hw hs h pre ix
  refine ⟨id, hne, fun acts ws r _ hr ↦ ?_⟩
  obtain ⟨ht, hf, isAuthority, es, l, t, ps, digests, l', -, hup, hr'⟩ := hall acts ws r hr
  exact ⟨ht, hf, _, .uploadReveals hup.phase hup.fits hup.sweep hup.included, hr'⟩

end DailyLottery.UploadReveals
