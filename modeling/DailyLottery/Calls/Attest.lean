import DailyLottery.Calls.Reveals

set_option linter.unusedSectionVars false

namespace DailyLottery

open Lib AccountInfo

variable {K : Type} [DecidableEq K] [Inhabited K] {rt : Runtime K} {acts : List (Action K)}
  {w w' : World K} {ws : List (World K)} {id : ℕ} {c : Config K} {l l' : Lottery K}
  {p p' : Participant K} {wallet payer : K} {vote : ℕ} {plaintext : Bytes}

theorem View.Opened.owner {v v' : View K} {s : Slot K} (h : v.Opened rt s v') (hf : v.Fits rt id) :
    (v' s).owner = rt.programId := by
  obtain ⟨rfl, hne⟩ | ⟨-, n, space, -, rfl⟩ := h
  · exact hf.owner hne
  · simp

namespace AttestReveal

def accounts (rt : Runtime K) (id : ℕ) (wallet : K) : List (AccountInfo K) :=
  [readonly rt.configKey, writable (rt.lotteryKey id),
    writable (rt.slotKey id (.participant wallet)),
    signer wallet, writable (rt.slotKey id .voteTally), readonly default]

theorem accounts_signed : SignedOnlyBy wallet (accounts rt id wallet) := by
  simp [SignedOnlyBy, accounts, readonly, writable, signer]

theorem accounts_keys (hf : rt.Foreign wallet) : SignersAreKeys rt (accounts rt id wallet) := by
  simpa [SignersAreKeys, accounts, readonly, writable, signer, Runtime.Foreign] using hf

theorem loadOrCreateTally_succeeds {mw : ℕ} (hw : WellTyped rt w) (hfit : TallyFitting rt id w mw)
    (hready : TallyReady rt id w wallet mw) : ∃ x, loadOrCreateTally rt w l mw (signer wallet)
      (writable (rt.slotKey id .voteTally)) (writable (rt.lotteryKey id)) = .ok x := by
  unfold loadOrCreateTally dataIsEmpty
  by_cases he : (w.view rt id .voteTally).data = .empty
  · obtain ⟨w', hcreate⟩ := hready.create hw he
    have hempty : (w.accounts (writable (rt.slotKey id .voteTally)).key).data.isEmpty = true :=
      AccountData.isEmpty_eq_true.mpr he
    simp only [hempty, if_true, exists_bind_eq_ok, pure_eq_ok]
    exact ⟨w', hcreate, _, rfl⟩
  · obtain ⟨t, ht, hmw⟩ := hfit.resolve_left he
    obtain ⟨hload, hlot⟩ : loadVoteTally rt w (writable (rt.slotKey id .voteTally))
        (writable (rt.lotteryKey id)) = .ok t ∧ t.lottery = rt.lotteryKey id :=
      loadVoteTally_succeeds hw rfl ht
    have hne : (w.accounts (writable (rt.slotKey id .voteTally)).key).data.isEmpty = false := by
      rw [Bool.eq_false_iff, ne_eq, AccountData.isEmpty_eq_true]
      exact he
    simp only [hne, Bool.false_eq_true, if_false, rejectIf_eq_ok, exists_const,
      pure_eq_ok, bind_eq_ok]
    exact ⟨(w, t), t, hload, not_or.mpr ⟨not_not.mpr hlot, not_not.mpr hmw⟩, rfl⟩

theorem attestParticipant_succeeds {now : ℤ} {digest : Bytes32}
    (hfresh : p.attestedUploaded = false) :
    attestParticipant p vote now digest =
      .ok ((p.attest vote now).includeVerifiedReveal digest) := by
  obtain ⟨p', hp'⟩ : ∃ p', attestParticipant p vote now digest = .ok p' := by
    simp only [attestParticipant, Participant.setVoteNumberOfWinners,
      Participant.attestUpload, hfresh, rejectIf_eq_ok, exists_const, pure_eq_ok, bind_eq_ok]
    exact ⟨_, _, ⟨Bool.false_ne_true, rfl⟩, _, ⟨Bool.false_ne_true, rfl⟩, rfl⟩
  rw [hp', attestParticipant_ok hp']

theorem recordReveal_succeeds {digest : Bytes32} (hlt : l.attestedCount + 1 < 2 ^ 64) :
    ∃ l', recordReveal l digest = .ok l' := by
  simp only [recordReveal, Lottery.addAttestation, bind_eq_ok, okOr_eq_ok, checkedAdd_eq_some,
    pure_eq_ok]
  exact ⟨_, _, ⟨_, ⟨hlt, rfl⟩, rfl⟩, rfl⟩

theorem tallyParticipant_succeeds {t : VoteTally K} (hlt : t.processedCount + 1 < 2 ^ 64) :
    ∃ t', tallyParticipant t l p = .ok t' := by
  simp only [tallyParticipant, exists_bind_eq_ok, okOr_eq_ok, checkedAdd_eq_some, pure_eq_ok]
  exact ⟨_, ⟨by simpa using hlt, rfl⟩, _, rfl⟩

theorem conclude_succeeds {t : VoteTally K} {now : ℤ} : ∃ l', conclude l t now = .ok l' := by
  by_cases hone : 1 < l.participantsCount
  · obtain ⟨l', hl'⟩ := Lottery.setSelectedWinners_succeeds (l := l) t hone
    exact ⟨updatePhase l' now, by simp [conclude, hone, hl']⟩
  · exact ⟨updatePhase l now, by simp [conclude, hone]⟩

theorem succeeds (h : (system rt).History acts (w :: ws)) (hm : Mounted rt id w c l)
    (hp : (w.view rt id (.participant p.wallet)).data = .participant p)
    (hphase : l.phase w.clock = .upload) (hfresh : p.attestedUploaded = false) (hvote : 1 ≤ vote)
    (hle : vote ≤ c.effectiveMaxWinners l.participantsCount) (hne : plaintext ≠ [])
    (hlen : plaintext.length ≤ maxRevealPlaintextBytes)
    (hhash : rt.sha256 plaintext = p.proofOfChanceHash)
    (hready : TallyReady rt id w p.wallet (c.effectiveMaxWinners l.participantsCount)) :
    ∃ w', process rt w (accounts rt id p.wallet) vote plaintext = .ok w' := by
  obtain ⟨hid, hcfg, -⟩ := hm.lottery_eq
  obtain ⟨r, -, hi, hr, rfl, -⟩ := represented h hm.lottery
  obtain rfl := hr.eq_config hm.config
  have hpn : (w.view rt id (.participant p.wallet)).data ≠ .empty := by simp [hp]
  have hpo := hm.owner hpn
  have hholds := (hm.typed.fits id).holds hpn
  rw [hp] at hholds
  obtain ⟨hpl, -, hf⟩ := hholds
  have hmem := hr.roster.mem_of_data hp
  have hballot : p.ballot ∈ r.books.ballots := List.mem_map.mpr ⟨p, hmem, rfl⟩
  -- the invariants rule the other rejections out
  have htickets : p.hasTickets = true := decide_eq_true (hi.books.enrolled.tickets_pos _ hballot)
  have hno : p.revealIncluded = false := by
    rw [Bool.eq_false_iff]
    intro hinc
    have := (hi.books.balanced.valid _ hballot).attested hinc
    simp [Participant.ballot, hfresh] at this
  have hmax : Sizes.maxParticipants < 2 ^ 63 := by decide
  have hcounts : r.lottery.attestedCount ≤ Sizes.maxParticipants ∧
      Ballot.includedOf r.books.ballots ≤ Sizes.maxParticipants := by
    have hatt : r.lottery.attestedCount = _ := hi.books.balanced.attested
    have := hi.books.balanced.included_le
    have := Ballot.attestedOf_le r.books.ballots
    have := hi.books.enrolled.length
    have := hi.books.enrolled.le
    omega
  obtain ⟨l₁, hl₁⟩ : ∃ l₁, recordReveal r.lottery
    (computeRevealDigest rt p.wallet plaintext) = .ok l₁ :=
    recordReveal_succeeds (by omega)
  obtain ⟨⟨w₁, t⟩, hload⟩ : ∃ x, loadOrCreateTally rt w l₁
      (r.config.effectiveMaxWinners r.lottery.participantsCount) (signer p.wallet)
      (writable (rt.slotKey id .voteTally)) (writable (rt.lotteryKey id)) = .ok x :=
    loadOrCreateTally_succeeds hm.typed (hr.tallyFitting hi) hready
  obtain ⟨hfind, -, hopen⟩ := loadOrCreateTally_ok hm.typed hf rfl rfl hload
  have hproc : t.processedCount + 1 < 2 ^ 64 := by
    rcases hfind with ⟨ht, -⟩ | ⟨-, rfl⟩
    · rw [(hi.books.balanced.tallied t (hr.eq_tally ht)).2.2]
      omega
    · simp [VoteTally.new]
  obtain ⟨t', ht'⟩ : ∃ t', tallyParticipant t l₁ ((p.attest vote w.clock).includeVerifiedReveal
    (computeRevealDigest rt p.wallet plaintext)) = .ok t' := tallyParticipant_succeeds hproc
  obtain ⟨l', hl'⟩ : ∃ l', conclude l₁ t' w.clock = .ok l' := conclude_succeeds
  -- what is written at the end was there before
  have hpart : w₁.view rt id (.participant p.wallet) = w.view rt id (.participant p.wallet) :=
    hopen.apply_of_ne (by simp)
  have hlot : w₁.view rt id .lottery = w.view rt id .lottery := hopen.apply_of_ne (by simp)
  simp only [process, accounts, exists_bind_eq_ok, assertPdaOwned_eq_ok, assertPdaKey_eq_ok,
    requireSigner_eq_ok, requireWritable_eq_ok, requireKeyMatch_eq_ok, rejectIf_eq_ok, exists_const,
    writeAccountData_eq_ok, pure_eq_ok, readonly, writable, signer]
  refine ⟨⟨rfl, hm.owner_config⟩, trivial, trivial, trivial, trivial, trivial, trivial,
    by simp [hne, hlen], r.config, hm.read_config rfl, r.lottery, hm.read_lottery rfl, p,
    Mounted.read rfl hpn (unwrap_participant.mpr hp), ⟨by rw [hid]; rfl, hm.owner_lottery⟩,
    by simp [hcfg], ⟨rfl, hpo⟩, by simp [hpl], by simp [htickets], by simp [hfresh], by simp [hno],
    by simp [hphase], by omega, by omega, by simp [hhash], _,
    attestParticipant_succeeds hfresh, l₁, hl₁, rfl, (w₁, t), hload, t', ht', l', hl', _,
    ⟨?_, trivial, ?_, rfl⟩, _, ⟨?_, trivial, ?_, rfl⟩, _, ⟨?_, trivial, ?_, rfl⟩, _, rfl⟩
  all_goals
    simp only [← Runtime.slotKey_lottery, World.accounts_slotKey, World.view_setData,
      View.setData_apply, reduceCtorEq, if_false]
  · rw [hpart, hp]
    rfl
  · rw [hpart]
    exact hpo
  · rw [hlot, hm.lottery]
    rfl
  · rw [hlot]
    exact hm.owner_lottery
  · rw [Bool.eq_false_iff, ne_eq, AccountData.isEmpty_eq_true]
    exact hopen.data_ne_empty
  · exact hopen.owner (hm.typed.fits id)

/-- What a reveal by the wallet of `p` brings about. -/
structure Attests (rt : Runtime K) (id : ℕ) (w w' : World K) (p : Participant K) (vote : ℕ)
    (l l' : Lottery K) : Prop where
  lottery : (w'.view rt id .lottery).data = .lottery l'
  participant : ∃ p', (w'.view rt id (.participant p.wallet)).data = .participant p' ∧
    p'.attestedUploaded = true ∧ p'.revealIncluded = true ∧ p'.votedWinners = vote
  attested : l'.attestedCount = l.attestedCount + 1
  uploaded : l'.providerUploadedCount = l.providerUploadedCount + 1
  count : l'.participantsCount = l.participantsCount
  settled : l'.settled = l.settled
  window : l'.uploadStartUnix = l.uploadStartUnix ∧ l'.uploadDeadlineUnix = l.uploadDeadlineUnix
  others : ∀ s, s ≠ .lottery → s ≠ .voteTally → s ≠ .participant p.wallet →
    w'.view rt id s = w.view rt id s
  tally : (w'.view rt id .voteTally).data ≠ .empty
  clock : w'.clock = w.clock
  config : w'.accounts rt.configKey = w.accounts rt.configKey

theorem attests (h : (system rt).History acts (w :: ws))
    (hl : (w.view rt id .lottery).data = .lottery l)
    (hf : rt.Foreign p.wallet)
    (hok : process rt w (accounts rt id p.wallet) vote plaintext = .ok w')
    (hp : (w.view rt id (.participant p.wallet)).data = .participant p) :
    ∃ l', Attests rt id w w' p vote l l' := by
  obtain ⟨c₀, l₀, q, q', l₁, l', t, t', v, -, hl₀, hon, hwho, hq, hcan, -, -, -, -, hl₁, -,
    hq', -, hl', ht, hopen, hv⟩ := effect (consistent h).typed (accounts_keys hf) hok
  have hon' : CallsOn rt (accounts rt id p.wallet) id := rfl
  obtain rfl : id = l₀.id := hon'.eq hon
  cases hl.symm.trans hl₀
  have hwq : p.wallet = q.wallet := by simpa [accounts, signer] using hwho
  rw [← hwq] at hq
  cases hp.symm.trans hq
  obtain ⟨-, hl₁⟩ := recordReveal_ok hl₁
  have hl' := conclude_ok hl'
  have hprov : l.providerUploadedCount + 1 < 2 ^ 64 := by
    obtain ⟨r, -, hi, -, rfl, -⟩ := represented h hl
    have hatt : r.lottery.attestedCount = _ := hi.books.balanced.attested
    have hinc : r.lottery.providerUploadedCount = _ := hi.books.balanced.included
    have := hi.books.balanced.included_le
    have := hcan.count_lt
    omega
  refine ⟨l', by simp [hv], ⟨q', by simp [hv], ?_, ?_, ?_⟩, ?_, ?_, ?_, ?_, ?_,
    fun s hsl hst hsp ↦ ?_, by simp [hv], ht.clock, ?_⟩
  · rw [hq']
    rfl
  · rw [hq']
    simp [Participant.includeVerifiedReveal]
  · rw [hq', Participant.includeVerifiedReveal, Participant.votedWinners_markRevealIncluded]
    exact p.votedWinners_attest (Round.vote_lt hcan) w.clock
  · rw [hl', hl₁]
  · rw [hl', hl₁]
    exact saturatingAdd_of_lt hprov
  · rw [hl', hl₁]
  · rw [hl', hl₁]
  · rw [hl', hl₁]
    exact ⟨rfl, rfl⟩
  · rw [hv, View.setData_apply, if_neg hsl, View.setData_apply, if_neg hsp, View.setData_apply,
      if_neg hst, hopen.apply_of_ne hst]
  · exact ht.derived .config fun s ↦ by cases s <;> simp [Runtime.slotKey, Slot.seeds]

theorem exists_step (h : (system rt).History acts (w :: ws))
    (hc : (w.accounts rt.configKey).data = .config c)
    (hl : (w.view rt id .lottery).data = .lottery l)
    (hp : (w.view rt id (.participant p.wallet)).data = .participant p)
    (hphase : l.phase w.clock = .upload) (hfresh : p.attestedUploaded = false) (hvote : 1 ≤ vote)
    (hle : vote ≤ c.effectiveMaxWinners l.participantsCount) (hne : plaintext ≠ [])
    (hlen : plaintext.length ≤ maxRevealPlaintextBytes)
    (hhash : rt.sha256 plaintext = p.proofOfChanceHash)
    (hready : TallyReady rt id w p.wallet (c.effectiveMaxWinners l.participantsCount)) :
    ∃ w' l', Step rt w (.instruction [] (.attestReveal vote plaintext)
      (accounts rt id p.wallet)) w' ∧
      Attests rt id w w' p vote l l' := by
  have htyped := (consistent h).typed
  have hf : rt.Foreign p.wallet := by
    have hholds := (htyped.fits id).holds (s := .participant p.wallet) (by simp [hp])
    rw [hp] at hholds
    exact hholds.2.2
  obtain ⟨w', hok⟩ := succeeds h ⟨htyped, hc, hl⟩ hp hphase hfresh hvote hle hne hlen hhash hready
  obtain ⟨l', hatt⟩ := attests h hl hf hok hp
  exact ⟨w', l', .instruction (accounts_keys hf) hok, hatt⟩

end AttestReveal

/-- A call by which the participant it is for attests and reveals, and which it signs alone. -/
def Action.Revealing (rt : Runtime K) (id : ℕ) : Action K → Prop
  | .instruction _ (.attestReveal ..) accounts => CallsOn rt accounts id ∧
    ∃ wallet, accounts[3]?.map AccountInfo.key = some wallet ∧ SignedOnlyBy wallet accounts
  | _ => False

/-- An upload that `uploader` signs alone. -/
def Action.UploadsBy (rt : Runtime K) (id : ℕ) (uploader : K) : Action K → Prop
  | .instruction _ (.uploadReveals _) accounts =>
    CallsOn rt accounts id ∧ SignedOnlyBy uploader accounts
  | _ => False

/-- The upload window is open, and `known` are the plaintexts of the reveals still out. -/
structure Pending (rt : Runtime K) (id : ℕ) (known : K → Bytes) (w : World K) (c : Config K)
    (l : Lottery K) : Prop where
  config : (w.accounts rt.configKey).data = .config c
  lottery : (w.view rt id .lottery).data = .lottery l
  two_le : 2 ≤ l.participantsCount
  not_settled : l.settled = false
  window : 0 < l.uploadStartUnix ∧ l.uploadStartUnix ≤ w.clock ∧ w.clock ≤ l.uploadDeadlineUnix
  known : ∀ wallet p, (w.view rt id (.participant wallet)).data = .participant p →
    p.revealIncluded = false → rt.sha256 (known wallet) = p.proofOfChanceHash ∧
      known wallet ≠ [] ∧ (known wallet).length ≤ maxRevealPlaintextBytes
  funded : ∀ wallet p, (w.view rt id (.participant wallet)).data = .participant p →
    TallyReady rt id w wallet (c.effectiveMaxWinners l.participantsCount)

/-- Who had attested keeps its vote, the others attest with the vote of their own. -/
def VotesKept (rt : Runtime K) (id : ℕ) (vote : K → ℕ) (w w' : World K) : Prop :=
  ∀ wallet p, (w.view rt id (.participant wallet)).data = .participant p →
    ∃ p', (w'.view rt id (.participant wallet)).data = .participant p' ∧
      (p.attestedUploaded = true → p'.attestedUploaded = true) ∧
      (p'.attestedUploaded = true →
        p'.votedWinners = if p.attestedUploaded = true then p.votedWinners else vote wallet)

namespace VotesKept

variable {votes : K → ℕ} {w'' : World K}

theorem refl (w : World K) : VotesKept rt id votes w w :=
  fun _ p hp ↦ ⟨p, hp, fun h ↦ h, fun h ↦ by rw [if_pos h]⟩

theorem trans (h : VotesKept rt id votes w w') (h' : VotesKept rt id votes w' w'') :
    VotesKept rt id votes w w'' := by
  intro wallet p hp
  obtain ⟨p', hp', hmono, hvote⟩ := h wallet p hp
  obtain ⟨p'', hp'', hmono', hvote'⟩ := h' wallet p' hp'
  refine ⟨p'', hp'', fun hatt ↦ hmono' (hmono hatt), fun hatt ↦ ?_⟩
  rw [hvote' hatt]
  by_cases hp'a : p'.attestedUploaded = true
  · rw [if_pos hp'a, hvote hp'a]
  · rw [if_neg hp'a, if_neg (mt hmono hp'a)]

end VotesKept

namespace Pending

variable {known : K → Bytes} {votes : K → ℕ}

theorem phase (hb : Pending rt id known w c l) (h : (system rt).History acts (w :: ws))
    (hlt : l.attestedCount < l.participantsCount) : l.phase w.clock = .upload := by
  obtain ⟨r, -, hi, hr, rfl, -⟩ := represented h hb.lottery
  have hnot : ¬r.lottery.uploadElapsed r.now = true := by
    rw [Lottery.uploadElapsed_eq_true, ← hr.now]
    have := hb.window
    omega
  have htwo := hb.two_le
  refine (Lottery.phase_upload_iff (by omega)).mpr ⟨hb.not_settled, ?_, ?_, hb.window⟩
  · rw [Bool.eq_false_iff]
    intro hact
    have hne : r.lottery.remediationStartUnix ≠ 0 := by
      simp only [Lottery.remediationActive, Bool.and_eq_true, decide_eq_true_eq] at hact
      omega
    exact hnot (hi.routed.remediated hne).2.2.2
  · intro hss
    obtain ⟨-, -, heq | hel⟩ := hi.books.timely.settling hss.ne'
    · have heq : r.lottery.attestedCount = r.lottery.participantsCount := heq
      omega
    · exact hnot hel

theorem advance (hb : Pending rt id known w c l) (h : (system rt).History acts (w :: ws))
    (hvotes : ∀ wallet, 1 ≤ votes wallet ∧ votes wallet ≤ c.effectiveMaxWinners l.participantsCount)
    (hlt : l.attestedCount < l.participantsCount) : ∃ a w' l', Step rt w a w' ∧ a.Revealing rt id ∧
      Pending rt id known w' c l' ∧ VotesKept rt id votes w w' ∧
      l'.attestedCount = l.attestedCount + 1 ∧ l'.participantsCount = l.participantsCount ∧
      l'.uploadDeadlineUnix = l.uploadDeadlineUnix := by
  have hphase := hb.phase h hlt
  obtain ⟨p, hp, hfresh, hno⟩ : ∃ p : Participant K,
      (w.view rt id (.participant p.wallet)).data = .participant p ∧ p.attestedUploaded = false ∧
        p.revealIncluded = false := by
    obtain ⟨r, -, hi, hr, rfl, -⟩ := represented h hb.lottery
    obtain ⟨x, hx, hfresh⟩ : ∃ x ∈ r.books.ballots, ¬x.attested = true := by
      by_contra hall
      push Not at hall
      have hatt : r.lottery.attestedCount = _ := hi.books.balanced.attested
      have hlen : r.books.ballots.length = r.lottery.participantsCount := hi.books.enrolled.length
      have : Ballot.attestedOf r.books.ballots = r.books.ballots.length :=
        List.countP_eq_length.mpr hall
      omega
    obtain ⟨p, hp, rfl⟩ := List.mem_map.mp hx
    have hsc := hi.routed.not_complete hb.not_settled
    refine ⟨p, hr.stored_of_open ⟨hb.not_settled, hsc⟩ hp, Bool.eq_false_iff.mpr hfresh, ?_⟩
    rw [Bool.eq_false_iff]
    exact fun hinc ↦ hfresh ((hi.books.balanced.valid _ hx).attested hinc)
  obtain ⟨hhash, hne, hlen⟩ := hb.known _ p hp hno
  obtain ⟨w', l', hs, hatt⟩ := AttestReveal.exists_step h hb.config hb.lottery hp hphase hfresh
    (hvotes p.wallet).1 (hvotes p.wallet).2 hne hlen hhash (hb.funded _ p hp)
  obtain ⟨p', hp', hatt', hinc', hvote'⟩ := hatt.participant
  have hother {wallet : K} (hw : wallet ≠ p.wallet) :
      w'.view rt id (.participant wallet) = w.view rt id (.participant wallet) :=
    hatt.others _ (by simp) (by simp) (by simpa using hw)
  refine ⟨_, w', l', hs, ⟨rfl, p.wallet, rfl, AttestReveal.accounts_signed⟩,
    ⟨by rw [hatt.config, hb.config], hatt.lottery, hatt.count ▸ hb.two_le,
    hatt.settled ▸ hb.not_settled, ?_, ?_, fun _ _ _ he ↦ absurd he hatt.tally⟩, ?_, hatt.attested,
    hatt.count, hatt.window.2⟩
  · rw [hatt.window.1, hatt.window.2, hatt.clock]
    exact hb.window
  · intro wallet q hq hno
    by_cases hw : wallet = p.wallet
    · rw [hw, hp'] at hq
      cases hq
      simp [hinc'] at hno
    · rw [hother hw] at hq
      exact hb.known wallet q hq hno
  · intro wallet q hq
    by_cases hw : wallet = p.wallet
    · rw [hw, hp] at hq
      cases hq
      exact ⟨p', hw ▸ hp', fun _ ↦ hatt', fun _ ↦ by simp [hvote', hfresh, hw]⟩
    · exact ⟨q, by rw [hother hw, hq], fun hq ↦ hq, fun hq ↦ by rw [if_pos hq]⟩

theorem attest_all (hb : Pending rt id known w c l) (h : (system rt).History acts (w :: ws))
    (hvotes : ∀ wallet, 1 ≤ votes wallet ∧
      votes wallet ≤ c.effectiveMaxWinners l.participantsCount) :
    ∃ as w' l' ws', (system rt).Path w as w' ∧ (∀ a ∈ as, a.Revealing rt id) ∧
      as.length = l.participantsCount - l.attestedCount ∧
      (system rt).History (as.reverse ++ acts) (w' :: ws') ∧ Pending rt id known w' c l' ∧
      VotesKept rt id votes w w' ∧ l'.attestedCount = l'.participantsCount ∧
      l'.participantsCount = l.participantsCount ∧
      l'.uploadDeadlineUnix = l.uploadDeadlineUnix := by
  induction hn : l.participantsCount - l.attestedCount generalizing acts w ws l with
  | zero =>
    have hle : l.attestedCount ≤ l.participantsCount := by
      obtain ⟨r, -, hi, -, rfl, -⟩ := represented h hb.lottery
      have hatt : r.lottery.attestedCount = _ := hi.books.balanced.attested
      have hlen : r.books.ballots.length = r.lottery.participantsCount := hi.books.enrolled.length
      have := Ballot.attestedOf_le r.books.ballots
      omega
    exact ⟨[], w, l, ws, .nil w, by simp, rfl, h, hb, .refl w, by omega, rfl, rfl⟩
  | succ n ih =>
    obtain ⟨a, w₁, l₁, hs, ha, hb₁, hv₁, hatt₁, hpc₁, hdl₁⟩ := hb.advance h hvotes (by omega)
    obtain ⟨as, w', l', ws', hpath, has, hlen, h', hb', hv', hall, hpc, hdl⟩ :=
      ih hb₁ (h.step hs) (by rwa [hpc₁]) (by omega)
    refine ⟨a :: as, w', l', ws', .cons hs hpath, ?_, ?_, by simpa using h', hb',
      hv₁.trans hv', hall, hpc.trans hpc₁, hdl.trans hdl₁⟩
    · intro b hb
      rcases List.mem_cons.mp hb with rfl | hb
      · exact ha
      · exact has b hb
    · rw [List.length_cons]
      omega

end Pending

theorem Represents.of_count {r : Round K} (hr : Represents rt acts w ws id r) (hi : r.Invariant rt)
    {g : Ballot K → Bool} (hcount : r.books.ballots.countP g = r.lottery.participantsCount)
    (hp : (w.view rt id (.participant wallet)).data = .participant p) : g p.ballot = true := by
  have hlen : r.books.ballots.length = r.lottery.participantsCount := hi.books.enrolled.length
  exact List.countP_eq_length.mp (hcount.trans hlen.symm) _
    (List.mem_map.mpr ⟨p, hr.roster.mem_of_data hp, rfl⟩)

/-- From the upload phase on the participants can bring the lottery to its finalization by
themselves: each that has not attested does so with the vote it wants, they wait, one of them uploads
what is missing, if anything, and all reveals are in. -/
theorem participants_make_ready {known : K → Bytes} {votes : K → ℕ}
    (h : (system rt).History acts (w :: ws)) (hb : Pending rt id known w c l)
    (hvotes : ∀ wallet, 1 ≤ votes wallet ∧ votes wallet ≤ c.effectiveMaxWinners l.participantsCount)
    (hroom : l.uploadDeadlineUnix + 1 + Sizes.defaultRemediationWindowSecs < 2 ^ 63) :
    ∃ as t bs w' l', (system rt).Path w (as ++ .tick t :: bs) w' ∧ (∀ a ∈ as, a.Revealing rt id) ∧
      as.length = l.participantsCount - l.attestedCount ∧
      (bs = [] ∨ ∃ a wallet p, bs = [a] ∧ a.UploadsBy rt id wallet ∧
        (w.view rt id (.participant wallet)).data = .participant p) ∧
      (w'.view rt id .lottery).data = .lottery l' ∧ l'.Ready w'.clock ∧
      ∀ wallet p, (w.view rt id (.participant wallet)).data = .participant p →
        ∃ p', (w'.view rt id (.participant wallet)).data = .participant p' ∧
          p'.revealIncluded = true ∧
          p'.votedWinners = if p.attestedUploaded = true then p.votedWinners else votes wallet := by
  have hwin : (0 : ℤ) < Sizes.defaultRemediationWindowSecs := by decide
  obtain ⟨as, w₁, l₁, ws₁, hpath, has, hlen, h₁, hb₁, hkept, hall, -, hdl⟩ := hb.attest_all h hvotes
  have hwindow := hb₁.window
  have htwo := hb₁.two_le
  have hs : Step rt w₁ (.tick (l₁.uploadDeadlineUnix + 1))
      { w₁ with clock := l₁.uploadDeadlineUnix + 1 } :=
    .tick (by omega) (by omega)
  have h₂ := h₁.step hs
  obtain ⟨r, hreach, hi, hr, rfl, -⟩ := represented h₂ hb₁.lottery
  have hel : r.lottery.uploadElapsed (r.lottery.uploadDeadlineUnix + 1) = true :=
    Lottery.uploadElapsed_eq_true.mpr ⟨by omega, lt_add_one _⟩
  have hset := hb₁.not_settled
  have hatt : r.lottery.attestedCount = _ := hi.books.balanced.attested
  have hinc : r.lottery.providerUploadedCount = _ := hi.books.balanced.included
  have hle := hi.books.balanced.included_le
  -- a participant that was there has attested with its vote
  have hrows (wallet : K) (p : Participant K)
      (hp : (w.view rt id (.participant wallet)).data = .participant p) :
      ∃ p₁, (w₁.view rt id (.participant wallet)).data = .participant p₁ ∧
        p₁.attestedUploaded = true ∧
        p₁.votedWinners = if p.attestedUploaded = true then p.votedWinners else votes wallet := by
    obtain ⟨p₁, hp₁, -, hvote⟩ := hkept wallet p hp
    have hatt₁ : p₁.attestedUploaded = true := hr.of_count hi (hatt.symm.trans hall) hp₁
    exact ⟨p₁, hp₁, hatt₁, hvote hatt₁⟩
  by_cases hmiss : r.lottery.hasMissingAttestedReveals = true
  · -- one of them uploads what is missing
    obtain ⟨p₀, hp₀, hf⟩ : ∃ p₀ : Participant K,
        (w.view rt id (.participant p₀.wallet)).data = .participant p₀ ∧ rt.Foreign p₀.wallet := by
      obtain ⟨r₀, -, hi₀, hr₀, hl₀, -⟩ := represented h hb.lottery
      have hlen₀ : r₀.participants.length = r₀.lottery.participantsCount := by
        simpa [Round.books] using hi₀.books.enrolled.length
      have htwo₀ := hl₀ ▸ hb.two_le
      have hset₀ := hl₀ ▸ hb.not_settled
      have hmem := List.getElem_mem (hlen₀ ▸ zero_lt_two.trans_le htwo₀)
      exact ⟨_, hr₀.stored_of_open ⟨hset₀, hi₀.routed.not_complete hset₀⟩ hmem,
        hr₀.roster.foreign _ hmem⟩
    obtain ⟨p₁, hp₁, -⟩ := hrows _ p₀ hp₀
    have hdead : r.lottery.remediationDeadlineUnix = 0 := by
      obtain ⟨r₁, -, hi₁, hr₁, hl₁, -⟩ := represented h₁ hb₁.lottery
      rw [← hl₁]
      refine hi₁.routed.unremediated ?_
      by_contra hne
      have hel₁ := Lottery.uploadElapsed_eq_true.mp (hi₁.routed.remediated hne).2.2.2
      rw [hl₁, ← hr₁.now] at hel₁
      omega
    have hway : r.lottery.route (r.lottery.uploadDeadlineUnix + 1) = .uploads := by
      refine Lottery.route_uploads_iff.mpr ⟨hmiss, ?_⟩
      rw [Bool.eq_false_iff, ne_eq, Lottery.remediationExpired_eq_true, hdead]
      omega
    obtain rfl := hr.eq_config hb₁.config
    obtain ⟨w', hs'⟩ := UploadReveals.exists_step h₂ hr hi htwo hset hel hway
      (fun _ ↦ by dsimp only; omega)
      hf (hb₁.funded _ p₁ hp₁)
      fun wallet p hp _ hno ↦ ⟨(hb₁.known wallet p hp hno).1, (hb₁.known wallet p hp hno).2.2⟩
    obtain ⟨l', hcomp⟩ := UploadReveals.completes (consistent h₂).typed hr hreach htwo hel hs'
    refine ⟨as, _, [_], w', l', hpath.trans (.cons hs (.one hs')), has, hlen,
      .inr ⟨_, p₀.wallet, p₀, rfl, ⟨rfl, UploadReveals.accounts_signed⟩, hp₀⟩, hcomp.lottery,
      hcomp.ready, ?_⟩
    · intro wallet p hp
      obtain ⟨p₁, hp₁, hatt₁, hvote⟩ := hrows wallet p hp
      obtain ⟨p₂, hp₂, -, hvote₂, hinc₂⟩ := hcomp.rows wallet p₁ hp₁
      exact ⟨p₂, hp₂, hinc₂ hatt₁, hvote₂.trans hvote⟩
  · have hready : r.lottery.Ready (r.lottery.uploadDeadlineUnix + 1) :=
      ⟨hset, hi.routed.not_complete hset, htwo, by omega, by simpa using hmiss, .inr hel⟩
    refine ⟨as, _, [], _, r.lottery, hpath.trans (.one hs), has, hlen, .inl rfl,
      hb₁.lottery, hready, ?_⟩
    · intro wallet p hp
      obtain ⟨p₁, hp₁, -, hvote⟩ := hrows wallet p hp
      refine ⟨p₁, hp₁, ?_, hvote⟩
      rw [Lottery.hasMissing_eq_true] at hmiss
      have hcount : Ballot.includedOf r.books.ballots = r.lottery.participantsCount := by omega
      exact hr.of_count (g := Ballot.included) hi hcount hp₁

namespace Sample

/-- Two participants, at the start of the upload phase. -/
def bought : List (Action Key) :=
  [configure 1000 500 10, create 1, buy 1 20 1, buy 1 21 2, .tick (1000 + 24 * 60 * 60)]

/-- What the state holds for participant `n`: its commitment, and lamports for a tally. -/
def commits (w : World Key) (c : Config Key) (n : ℕ) : Bool :=
  (AccountType.unwrap (w.view Sample.rt 1 (.participant (.wallet n))).data :
    Option (Participant Key)).any (fun (p : Participant Key) ↦ decide (p.wallet = .wallet n ∧
      Sample.rt.sha256 (reveal n) = p.proofOfChanceHash)) &&
  decide ((w.accounts (.wallet n)).owner = default ∧ Sample.rt.minimumBalance
    (VoteTally.accountSizeFor (c.effectiveMaxWinners 2)) ≤ (w.accounts (.wallet n)).lamports) &&
  (w.accounts (.wallet n)).data.isEmpty

theorem commits_ok {w : World Key} {c : Config Key} {n : ℕ} (h : commits w c n = true)
    (hz : (w.view Sample.rt 1 .voteTally).lamports = 0) : ∃ p : Participant Key,
    (w.view Sample.rt 1 (.participant (.wallet n))).data = .participant p ∧ p.wallet = .wallet n ∧
      Sample.rt.sha256 (reveal n) = p.proofOfChanceHash ∧
      TallyReady Sample.rt 1 w (.wallet n) (c.effectiveMaxWinners 2) := by
  simp only [commits, Bool.and_eq_true, decide_eq_true_eq, Option.any_eq_true,
    AccountData.isEmpty_eq_true] at h
  obtain ⟨⟨⟨p, hp, hwallet, hhash⟩, howner, hle⟩, hempty⟩ := h
  refine ⟨p, unwrap_participant.mp hp, hwallet, hhash,
    fun _ ↦ ⟨fun hsq ↦ hsq.funded.ne' hz, _, ?_, hle⟩⟩
  rw [← howner, ← hempty]

theorem bought_pending : ∃ (w : World Key) (ws : List (World Key)) (l : Lottery Key)
    (c : Config Key), (system Sample.rt).History bought.reverse (w :: ws) ∧
    Pending Sample.rt 1 (fun k ↦ if k = .wallet 20 then reveal 20 else reveal 21) w c l ∧
    1 ≤ c.effectiveMaxWinners l.participantsCount ∧
    l.uploadDeadlineUnix + 1 + Sizes.defaultRemediationWindowSecs < 2 ^ 63 := by
  obtain ⟨w, ws, l, h, hl, hp⟩ := run_lottery bought 1 (fun w l ↦
    decide (l.participantsCount = 2 ∧ l.settled = false ∧
      l.uploadDeadlineUnix + 1 + Sizes.defaultRemediationWindowSecs < 2 ^ 63) &&
    decide (0 < l.uploadStartUnix ∧ l.uploadStartUnix ≤ w.clock ∧ w.clock ≤ l.uploadDeadlineUnix) &&
    decide ((w.view Sample.rt 1 .voteTally).lamports = 0) &&
    ((AccountType.unwrap (w.accounts Sample.rt.configKey).data : Option (Config Key)).any
      fun (c : Config Key) ↦ decide (1 ≤ c.effectiveMaxWinners 2) && commits w c 20 &&
        commits w c 21)) (by decide +kernel)
  simp only [Bool.and_eq_true, decide_eq_true_eq, Option.any_eq_true] at hp
  obtain ⟨⟨⟨⟨hpc, hset, hroom⟩, hwindow⟩, hz⟩, c, hc, ⟨heff, h20⟩, h21⟩ := hp
  obtain ⟨p₀, hp₀, hw₀, hhash₀, hready₀⟩ := commits_ok h20 hz
  obtain ⟨p₁, hp₁, hw₁, hhash₁, hready₁⟩ := commits_ok h21 hz
  -- there are no participants but these two
  have honly (wallet : Key) (p : Participant Key)
      (hp : (w.view Sample.rt 1 (.participant wallet)).data = .participant p) :
      (wallet = .wallet 20 ∧ p = p₀) ∨ (wallet = .wallet 21 ∧ p = p₁) := by
    have hholds := ((consistent h).typed.fits 1).holds (s := .participant wallet) (by simp [hp])
    rw [hp] at hholds
    obtain ⟨r, -, hi, hr, rfl, -⟩ := represented h hl
    have hlen : r.participants.length = 2 := by
      rw [← hpc]
      simpa [Round.books] using hi.books.enrolled.length
    obtain ⟨a, b, hab⟩ := List.length_eq_two.mp hlen
    have hm := hr.roster.mem_of_data hp
    have hm₀ := hr.roster.mem_of_data hp₀
    have hm₁ := hr.roster.mem_of_data hp₁
    have hne : p₀ ≠ p₁ := by
      rintro rfl
      rw [hw₀] at hw₁
      cases hw₁
    rw [hab, List.mem_pair] at hm hm₀ hm₁
    have hcase : p = p₀ ∨ p = p₁ := by grind
    rcases hcase with rfl | rfl
    · exact .inl ⟨hholds.2.1.symm.trans hw₀, rfl⟩
    · exact .inr ⟨hholds.2.1.symm.trans hw₁, rfl⟩
  refine ⟨w, ws, l, c, h, ⟨unwrap_config.mp hc, hl, hpc ▸ le_rfl, hset, hwindow, ?_,
    ?_⟩, hpc ▸ heff, hroom⟩
  · intro wallet p hp _
    rcases honly wallet p hp with ⟨rfl, rfl⟩ | ⟨rfl, rfl⟩
    · exact ⟨hhash₀, by decide, by decide⟩
    · exact ⟨hhash₁, by decide, by decide⟩
  · intro wallet p hp
    rw [hpc]
    rcases honly wallet p hp with ⟨rfl, -⟩ | ⟨rfl, -⟩
    · exact hready₀
    · exact hready₁

end Sample

/-- Both vote for one winner. -/
theorem participants_make_ready_sample : ∃ (w w' : World Sample.Key) (l l' : Lottery Sample.Key)
    (as bs : List (Action Sample.Key)) (t : ℤ), (w.view Sample.rt 1 .lottery).data = .lottery l ∧
    (system Sample.rt).Path w (as ++ .tick t :: bs) w' ∧ (∀ a ∈ as, a.Revealing Sample.rt 1) ∧
    as.length = l.participantsCount - l.attestedCount ∧ bs.length ≤ 1 ∧
    (w'.view Sample.rt 1 .lottery).data = .lottery l' ∧ l'.Ready w'.clock := by
  obtain ⟨w, ws, l, c, h, hb, heff, hroom⟩ := Sample.bought_pending
  have hvotes (wallet : Sample.Key) : 1 ≤ 1 ∧ 1 ≤ c.effectiveMaxWinners l.participantsCount :=
    ⟨le_rfl, heff⟩
  obtain ⟨as, t, bs, w', l', hpath, has, hlen, hbs, hl', hready, -⟩ :=
    participants_make_ready h hb hvotes hroom
  refine ⟨w, w', l, l', as, bs, t, hb.lottery, hpath, has, hlen, ?_, hl', hready⟩
  rcases hbs with rfl | ⟨a, -, -, rfl, -⟩
  · exact zero_le_one
  · exact le_rfl

end DailyLottery
