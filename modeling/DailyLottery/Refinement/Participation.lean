import DailyLottery.Refinement.Represents

set_option linter.unusedSectionVars false

namespace DailyLottery

open Lib

variable {K : Type} [DecidableEq K] [Inhabited K] {rt : Runtime K} {w w' : World K}
  {accounts : List (AccountInfo K)}

namespace BuyTickets

theorem loadOrCreateParticipant_ok {id : ℕ} {l l' : Lottery K} {p : Participant K}
    {lotteryAi participantAi buyerAi : AccountInfo K} {provided : Option Bytes32}
    (hw : WellTyped rt w) (hf : rt.Foreign buyerAi.key) (hlk : lotteryAi.key = rt.lotteryKey id)
    (hpk : participantAi.key = rt.slotKey id (.participant buyerAi.key))
    (h : loadOrCreateParticipant rt w l lotteryAi participantAi buyerAi provided = .ok
      (w', p, l')) :
    (w' = w ∧ l' = l ∧ p.wallet = buyerAi.key ∧
        (w.view rt id (.participant buyerAi.key)).data = .participant p) ∨
      w.view rt id (.participant buyerAi.key) = .unused ∧
        l.participantsCount < Sizes.maxParticipants ∧
        l' = { l with participantsCount := l.participantsCount + 1 } ∧
        (∃ hash, p = .new (rt.lotteryKey id) buyerAi.key hash 0 l.participantsCount) ∧
        Touches rt id w w' ∧ w'.view rt id = (w.view rt id).setAccount (.participant buyerAi.key)
          ⟨rt.minimumBalance Sizes.participantSize, rt.programId,
            .zeroed Sizes.participantSize⟩ := by
  unfold loadOrCreateParticipant at h
  split at h
  · simp only [bind_eq_ok, rejectIf_eq_ok, exists_const, pure_eq_ok, Prod.mk.injEq, not_or,
      not_not, ne_eq] at h
    obtain ⟨q, hq, ⟨-, hqw⟩, -, rfl, rfl, rfl⟩ := h
    exact .inl ⟨rfl, rfl, hqw, (hw.readParticipant hpk.symm hq).1⟩
  · simp only [bind_eq_ok, rejectIf_eq_ok, exists_const, okOr_eq_ok, Lottery.addParticipant,
      checkedAdd_eq_some, pure_eq_ok, Prod.mk.injEq, not_le, hlk] at h
    obtain ⟨hmax, _, hcreate, hash, -, _, ⟨_, ⟨-, rfl⟩, rfl⟩, rfl, rfl, rfl⟩ := h
    obtain ⟨hu, ht, hv⟩ := createAccount_ok hf hpk hcreate
    exact .inr ⟨hu, hmax, rfl, ⟨hash, rfl⟩, ht, hv⟩

theorem effect {hash : Option Bytes32} {count : ℕ} (hw : WellTyped rt w)
    (hs : SignersAreKeys rt accounts) (h : process rt w accounts hash count = .ok w') :
    ∃ l, (w.view rt l.id .lottery).data = .lottery l ∧ CallsOn rt accounts l.id ∧
      l.CanBuy w.clock count ∧
      (∃ b, (w.view rt l.id .vault).data = .vault b) ∧ Touches rt l.id w w' ∧
      ((∃ p, (w.view rt l.id (.participant p.wallet)).data = .participant p ∧
        p.ticketsBought + count < 2 ^ 64 ∧
        w'.view rt l.id = (((w.view rt l.id).setLamports .vault
            ((w.view rt l.id .vault).lamports + l.ticketPriceLamports * count)).setData
          (.participant p.wallet)
            (.participant { p with ticketsBought := p.ticketsBought + count })).setData
          .lottery (.lottery (l.sell count))) ∨
      ∃ wallet proof, rt.Foreign wallet ∧ w.view rt l.id (.participant wallet) = .unused ∧
        l.participantsCount < Sizes.maxParticipants ∧ count < 2 ^ 64 ∧
        w'.view rt l.id = (((w.view rt l.id).setLamports .vault
            ((w.view rt l.id .vault).lamports + l.ticketPriceLamports * count)).setAccount
          (.participant wallet) ⟨rt.minimumBalance Sizes.participantSize, rt.programId,
            .participant (.new (rt.lotteryKey l.id) wallet proof count l.participantsCount)⟩).setData
          .lottery (.lottery { l.sell count with participantsCount := l.participantsCount + 1 })) := by
  unfold process at h
  split at h
  · next configAi lotteryAi vaultAi participantAi buyerAi _ _ =>
    simp only [bind_eq_ok, assertPdaOwned_eq_ok, assertPdaKey_eq_ok, requireSigner_eq_ok,
      requireWritable_eq_ok, requireKeyMatch_eq_ok, validateTicketCount_eq_ok, rejectIf_eq_ok,
      exists_const, okOr_eq_ok, checkedMul_eq_some, Prod.exists] at h
    obtain ⟨hcount, -, hsign, -, -, -, -, -, _, -, l, hl, b, hb, ⟨hlk, -⟩, -, ⟨hvk, -⟩, -, hstart,
      hwin, hpk, _, ⟨hcost, rfl⟩, w₁, p₁, l₁, h₁, h⟩ := h
    have hf : rt.Foreign buyerAi.key := hs buyerAi (by simp) hsign
    obtain ⟨hlk, hld, -, -⟩ := hw.readLottery hlk hl
    have hvk : vaultAi.key = rt.slotKey l.id .vault := by rw [← hvk, hlk]; rfl
    have hpk : participantAi.key = rt.slotKey l.id (.participant buyerAi.key) := by
      rw [← hpk, hlk]; rfl
    have hne : buyerAi.key ≠ vaultAi.key := by rw [hvk]; exact hf.ne_slotKey rt _ _
    simp only [bind_eq_ok, Participant.addTickets, Lottery.addTickets, okOr_eq_ok,
      checkedAdd_eq_some, systemTransfer_eq_ok hne, writeAccountData_eq_ok, pure_eq_ok] at h
    obtain ⟨_, ⟨_, ⟨hpt, rfl⟩, rfl⟩, _, ⟨-, -, -, -, rfl⟩, _, ⟨_, ⟨htt, rfl⟩, _, ⟨htf, rfl⟩, rfl⟩,
      _, ⟨-, -, -, rfl⟩, _, ⟨-, -, -, rfl⟩, rfl⟩ := h
    simp only [not_or, Bool.not_eq_false] at hwin
    have hbuy (htt : l.totalTickets + count < 2 ^ 64)
        (htf : l.totalFunds + l.ticketPriceLamports * count < 2 ^ 64) : l.CanBuy w.clock count :=
      ⟨Nat.pos_of_ne_zero hcount, hstart, hwin.1, hwin.2, hcost, htt, htf⟩
    rw [hlk, hpk, hvk]
    obtain ⟨rfl, rfl, hpw, hpd⟩ | ⟨hu, hmax, rfl, ⟨proof, rfl⟩, ht, hv⟩ :=
      loadOrCreateParticipant_ok hw hf hlk hpk h₁
    · refine ⟨l₁, hld, congrArg some hlk, hbuy htt htf, ⟨b, hw.readVault hvk.symm hb⟩, ?_,
        .inl ⟨p₁, ?_, hpt, ?_⟩⟩
      · exact (((((Touches.refl _ _).setLamports_foreign hf _).setLamports _ _).setData _ _).setData
          _ _).emit _
      · rw [hpw]
        exact hpd
      · rw [hpw]
        simp only [World.view_emit, World.view_setData, World.view_setLamports,
          World.view_setLamports_foreign rt _ hf, World.accounts_slotKey, AccountType.wrap,
          Lottery.sell]
    · refine ⟨l, hld, congrArg some hlk, hbuy htt htf, ⟨b, hw.readVault hvk.symm hb⟩, ?_,
        .inr ⟨buyerAi.key, proof, hf, hu, hmax, ?_, ?_⟩⟩
      · exact ((((ht.setLamports_foreign hf _).setLamports _ _).setData _ _).setData _ _).emit _
      · simpa [Participant.new] using hpt
      · simp only [World.view_emit, World.view_setData, World.view_setLamports,
          World.view_setLamports_foreign rt _ hf, World.accounts_slotKey, AccountType.wrap,
          hv, Lottery.sell, Participant.new, Nat.zero_add]
        congr 1
        funext s
        by_cases hsp : s = .participant buyerAi.key
        · subst hsp
          simp
        · by_cases hsv : s = .vault <;> simp [hsp, hsv]
  · cases h

theorem simulated {hash : Option Bytes32} {count : ℕ} (hw : WellTyped rt w)
    (hs : SignersAreKeys rt accounts) (h : process rt w accounts hash count = .ok w')
    (pre : List (K × Bytes)) (ix : Instruction K) :
    Simulated rt (.instruction pre ix accounts) w w' := by
  obtain ⟨l, hl, -, hbuy, ⟨b, hb⟩, ht, ⟨p, hp, hpt, hv⟩ | ⟨wallet, proof, hf, hu, hmax, hct, hv⟩⟩ :=
    effect hw hs h
  · refine .intro l.id (by simp [hl]) ht ?_ ?_
    · rw [hv]
      refine (((hw.fits l.id).setLamports _ _).setParticipant (p := p)
        { p with ticketsBought := p.ticketsBought + count } ?_ rfl rfl).setLottery (l := l)
        (l.sell count) ?_ rfl rfl rfl
      · simpa using hp
      · simpa using hl
    · intro acts ws r _ hr
      obtain rfl := hr.eq_lottery hl
      obtain ⟨i, hi⟩ := hr.roster.getElem_of_data hp
      rw [hr.now] at hbuy
      refine ⟨_, .buyMore hbuy hi hpt, ?_⟩
      refine hr.next ht hv (fun _ ↦ rfl) ⟨rfl, rfl, rfl, rfl⟩ (by simp) (.inl ⟨b, by simp [hb]⟩)
        (by simp [hr.lamports]) .inl ?_ (by simp [hr.tally]) (by simp [hr.ledger])
        (by simp [hr.pages]) ?_
      · refine ((hr.roster.push.setVault _).set { p with ticketsBought := p.ticketsBought + count }
          hi rfl ?_ fun h ↦ h).setLottery (r.lottery.sell count) fun _ _ h ↦ h
        simpa using hp
      · exact ((hr.alive.setVault _).setParticipant _ _).setData (by simp [hl]) _
  · refine .intro l.id (by simp [hl]) ht ?_ ?_
    · rw [hv]
      refine (((hw.fits l.id).setLamports _ _).newParticipant (p := .new (rt.lotteryKey l.id) wallet
        proof count l.participantsCount) rfl hf _).setLottery (l := l) _ ?_ rfl rfl rfl
      simpa using hl
    · intro acts ws r hcons hr
      obtain rfl := hr.eq_lottery hl
      rw [hr.now] at hbuy
      have hns : r.lottery.settled = false := hbuy.not_settled
      have hncl (p : Participant K) : ¬r.lottery.Closable p := by
        rintro (⟨hset, -⟩ | ⟨hsc, -⟩)
        · simp [hns] at hset
        · simp [hns] at hcons
          simp [hcons] at hsc
      -- an address without data belongs to no participant, as none could be closed yet
      have hnew : wallet ∉ r.participants.map Participant.wallet := by
        intro hmem
        obtain ⟨p, hp, rfl⟩ := List.mem_map.mp hmem
        rcases hr.roster.stored p hp with ⟨hd, -⟩ | ⟨-, hcl⟩
        · rw [hu] at hd
          cases hd
        · exact hncl p hcl
      refine ⟨_, @Round.Step.buyFirst K _ _ rt r wallet proof count hbuy hnew hmax hct, ?_⟩
      refine hr.next ht hv (fun _ ↦ rfl) ⟨rfl, rfl, rfl, rfl⟩ (by simp) (.inl ⟨b, by simp [hb]⟩)
        (by simp [hr.lamports]) .inl ?_ (by simp [hr.tally]) (by simp [hr.ledger])
        (by simp [hr.pages]) ?_
      · rw [hr.key]
        exact ((hr.roster.push.setVault _).append
          (p := .new (rt.lotteryKey r.lottery.id) wallet proof
          count r.lottery.participantsCount) hnew hf rfl (rt.minimumBalance_pos _)).setLottery _
          fun p _ h ↦ absurd h (hncl p)
      · exact ((hr.alive.setVault _).setParticipant _ _).setData (by simp [hl]) _

end BuyTickets

namespace AttestUploaded

theorem effect {pre : List (K × Bytes)} {vote : ℕ} (hw : WellTyped rt w)
    (h : process rt w pre accounts vote = .ok w') :
    ∃ c l p, (w.accounts rt.configKey).data = .config c ∧
      (w.view rt l.id .lottery).data = .lottery l ∧ CallsOn rt accounts l.id ∧
      accounts[3]?.map AccountInfo.key = some p.wallet ∧
      (w.view rt l.id (.participant p.wallet)).data = .participant p ∧
      providerSigOk rt pre c.authority
        (expectedMessage rt (rt.lotteryKey l.id) p.wallet p.proofOfChanceHash vote) = true ∧
      l.CanAttest c w.clock p vote ∧ Touches rt l.id w w' ∧
      w'.view rt l.id = ((w.view rt l.id).setData (.participant p.wallet)
        (.participant (p.attest vote w.clock))).setData .lottery
          (.lottery (l.countAttestation w.clock)) := by
  unfold process at h
  split at h
  · next configAi lotteryAi participantAi walletAi _ _ =>
    simp only [bind_eq_ok, assertPdaOwned_eq_ok, requireSigner_eq_ok, requireWritable_eq_ok,
      rejectIf_eq_ok, exists_const, writeAccountData_eq_ok, pure_eq_ok, Bool.not_eq_false,
      Bool.not_eq_true, Lottery.addAttestation, okOr_eq_ok, checkedAdd_eq_some, not_not, ne_eq,
      not_lt] at h
    obtain ⟨⟨hck, -⟩, -, -, -, -, c, hc, l, hl, p, hp, ⟨hlk, -⟩, ⟨hpk, -⟩, hpw, htk, hph, hv0, hvle,
      hatt, hsig, p₁, h₁, p₂, h₂, _, ⟨_, ⟨hlt, rfl⟩, rfl⟩, _, ⟨-, -, -, rfl⟩, _, ⟨-, -, -, rfl⟩,
      rfl⟩ := h
    obtain rfl := Participant.attest_eq h₁ h₂
    obtain ⟨hlk, hld, -, -⟩ := hw.readLottery hlk hl
    have hpk : participantAi.key = rt.slotKey l.id (.participant p.wallet) := by
      rw [← hpk, hlk, hpw]; rfl
    have hpd := (hw.readParticipant hpk.symm hp).1
    rw [hlk, ← hpw] at hsig
    refine ⟨c, l, p, (hw.readConfig hck hc).1, hld, congrArg some hlk,
      congrArg some hpw.symm, hpd, hsig,
      ⟨htk, hph, Nat.pos_of_ne_zero hv0, hvle, hatt, hlt⟩, ?_, ?_⟩
    · rw [hlk, hpk]
      exact ((((Touches.refl _ _).setData _ _).setData _ _).emit _).ite_emit _ _
    · rw [hlk, hpk, World.view_ite_emit]
      simp only [World.view_emit, World.view_setData, AccountType.wrap]
      rfl
  · cases h

theorem countAttestation_fields (l : Lottery K) (now : ℤ) :
    (l.countAttestation now).id = l.id ∧ (l.countAttestation now).config = l.config ∧
      (l.countAttestation now).vault = l.vault := by
  unfold Lottery.countAttestation
  dsimp only
  split <;> exact ⟨rfl, rfl, rfl⟩

theorem simulated {pre : List (K × Bytes)} {vote : ℕ} (hw : WellTyped rt w)
    (h : process rt w pre accounts vote = .ok w') (ix : Instruction K) :
    Simulated rt (.instruction pre ix accounts) w w' := by
  obtain ⟨c, l, p, hc, hl, -, -, hp, -, hcan, ht, hv⟩ := effect hw h
  obtain ⟨hid, hcfg, hvault⟩ := countAttestation_fields l w.clock
  refine .intro l.id (by simp [hl]) ht ?_ ?_
  · rw [hv]
    refine ((hw.fits l.id).setParticipant (p := p) (p.attest vote w.clock) hp rfl rfl).setLottery
      (l := l) _ ?_ hid hcfg hvault
    simpa using hl
  · intro acts ws r hcons hr
    obtain rfl := hr.eq_lottery hl
    obtain rfl := hr.eq_config hc
    obtain ⟨i, hi⟩ := hr.roster.getElem_of_data hp
    have hncl := hcan.not_closable hcons
    rw [hr.now] at hcan hv
    refine ⟨_, .attestUploaded hi hcan, ?_⟩
    refine hr.next ht hv (fun _ ↦ rfl) ⟨rfl, rfl, rfl, rfl⟩ (by simp) (by simpa using hr.vault)
      (by simp [hr.lamports]) .inl ?_ (by simp [hr.tally]) (by simp [hr.ledger])
      (by simp [hr.pages]) ?_
    · exact (hr.roster.push.set (p.attest vote r.now) hi rfl hp fun h ↦
        absurd h (hncl p)).setLottery
        _ fun q _ h ↦ absurd h (hncl q)
    · exact (hr.alive.setParticipant _ _).setData (by simp [hl]) _

end AttestUploaded

/-- The tally a reveal is counted in: the one stored, which must fit, or a new one. -/
def FindsTally (rt : Runtime K) (v : View K) (id maxWinners attestedCount : ℕ) (t : VoteTally K) :
    Prop :=
  ((v .voteTally).data = .voteTally t ∧ t.maxWinners = maxWinners) ∨
    (v .voteTally).data = .empty ∧ t = .new (rt.lotteryKey id) maxWinners attestedCount

theorem FindsTally.openTally {acts : List (Action K)} {ws : List (World K)} {id n : ℕ}
    {r : Round K} {t : VoteTally K} (hr : Represents rt acts w ws id r)
    (h : FindsTally rt (w.view rt id) id
      (r.config.effectiveMaxWinners r.lottery.participantsCount) n t) :
    r.openTally n = t ∧ r.TallyFits := by
  unfold Round.openTally Round.TallyFits
  rcases h with ⟨ht, hmw⟩ | ⟨ht, rfl⟩
  · rw [hr.eq_tally ht]
    refine ⟨rfl, fun t' ht' ↦ ?_⟩
    obtain rfl : t = t' := by simpa using ht'
    exact hmw
  · have hnone : r.tally = none := by
      have htally := hr.tally
      rw [ht] at htally
      cases hrt : r.tally with
      | none => rfl
      | some t => simp [hrt] at htally
    rw [hnone, ← hr.key]
    exact ⟨rfl, by simp⟩

theorem FindsTally.holds {v : View K} {id mw n : ℕ} {t : VoteTally K}
    (h : FindsTally rt v id mw n t)
    (hf : v.Fits rt id) : t.lottery = rt.lotteryKey id := by
  rcases h with ⟨ht, -⟩ | ⟨-, rfl⟩
  · have := hf.holds (s := .voteTally) (by simp [ht])
    rw [ht] at this
    exact this
  · rfl

theorem loadVoteTally_ok {id : ℕ} {t : VoteTally K} {voteTallyAi lotteryAi : AccountInfo K}
    (hw : WellTyped rt w) (hvk : voteTallyAi.key = rt.slotKey id .voteTally)
    (h : loadVoteTally rt w voteTallyAi lotteryAi = .ok t) :
    (w.view rt id .voteTally).data = .voteTally t := by
  simp only [loadVoteTally, bind_eq_ok] at h
  obtain ⟨_, -, h⟩ := h
  exact hw.readTally hvk.symm h

namespace AttestReveal

theorem loadOrCreateTally_ok {id mw : ℕ} {l : Lottery K} {t : VoteTally K}
    {walletAi voteTallyAi lotteryAi : AccountInfo K} (hw : WellTyped rt w)
    (hf : rt.Foreign walletAi.key) (hlk : lotteryAi.key = rt.lotteryKey id)
    (hvk : voteTallyAi.key = rt.slotKey id .voteTally)
    (h : loadOrCreateTally rt w l mw walletAi voteTallyAi lotteryAi = .ok (w', t)) :
    FindsTally rt (w.view rt id) id mw l.attestedCount t ∧ Touches rt id w w' ∧
      (w.view rt id).Opened rt .voteTally (w'.view rt id) := by
  unfold loadOrCreateTally dataIsEmpty at h
  rw [hvk, World.accounts_slotKey] at h
  split at h
  · next he =>
    rw [AccountData.isEmpty_eq_true] at he
    simp only [bind_eq_ok, hlk, pure_eq_ok, Prod.mk.injEq] at h
    obtain ⟨_, hcreate, rfl, rfl⟩ := h
    exact ⟨.inr ⟨he, rfl⟩, createAccount_opened hf hvk hcreate⟩
  · next he =>
    simp only [bind_eq_ok, rejectIf_eq_ok, exists_const, pure_eq_ok, Prod.mk.injEq, not_or,
      not_not, ne_eq] at h
    obtain ⟨t', ht', ⟨-, hmw⟩, rfl, rfl⟩ := h
    exact ⟨.inl ⟨loadVoteTally_ok hw hvk ht', hmw⟩, .refl _ _,
      .inl ⟨rfl, by simpa [AccountData.isEmpty_eq_true] using he⟩⟩

theorem effect {vote : ℕ} {plaintext : Bytes} (hw : WellTyped rt w)
    (hs : SignersAreKeys rt accounts) (h : process rt w accounts vote plaintext = .ok w') :
    ∃ c l p p' l₁ l' t t' v, (w.accounts rt.configKey).data = .config c ∧
      (w.view rt l.id .lottery).data = .lottery l ∧ CallsOn rt accounts l.id ∧
      accounts[3]?.map AccountInfo.key = some p.wallet ∧
      (w.view rt l.id (.participant p.wallet)).data = .participant p ∧
      l.CanAttest c w.clock p vote ∧ p.revealIncluded = false ∧
      plaintext ≠ [] ∧ plaintext.length ≤ maxRevealPlaintextBytes ∧
      rt.sha256 plaintext = p.proofOfChanceHash ∧
      recordReveal l (computeRevealDigest rt p.wallet plaintext) = .ok l₁ ∧
      FindsTally rt (w.view rt l.id) l.id (c.effectiveMaxWinners l.participantsCount)
        l₁.attestedCount t ∧
      p' = (p.attest vote w.clock).includeVerifiedReveal
        (computeRevealDigest rt p.wallet plaintext) ∧
      tallyParticipant t l₁ p' = .ok t' ∧ conclude l₁ t' w.clock = .ok l' ∧ Touches rt l.id w w' ∧
      (w.view rt l.id).Opened rt .voteTally v ∧
      w'.view rt l.id = ((v.setData .voteTally (.voteTally t')).setData (.participant p.wallet)
        (.participant p')).setData .lottery (.lottery l') := by
  unfold process at h
  split at h
  · next configAi lotteryAi participantAi walletAi voteTallyAi _ _ =>
    simp only [bind_eq_ok, assertPdaOwned_eq_ok, assertPdaKey_eq_ok, requireSigner_eq_ok,
      requireWritable_eq_ok, requireKeyMatch_eq_ok, rejectIf_eq_ok, exists_const,
      writeAccountData_eq_ok, pure_eq_ok, Bool.not_eq_true, Prod.exists, not_or, not_not, ne_eq,
      not_lt, Bool.not_eq_false] at h
    obtain ⟨⟨hck, -⟩, -, -, hsign, -, -, -, ⟨hpt, hlen⟩, c, hc, l, hl, p, hp, ⟨hlk, -⟩, -, ⟨hpk, -⟩,
      ⟨-, hpw⟩, htk, hatt, hinc, hph, hv0, hvle, hhash, p₁, hp₁, l₁, hl₁, hvk, w₁, t, h₁, t', ht',
      l', hl', _, ⟨-, -, -, rfl⟩, _, ⟨-, -, -, rfl⟩, _, ⟨-, -, -, rfl⟩, rfl⟩ := h
    have hf : rt.Foreign walletAi.key := hs walletAi (by simp) hsign
    obtain ⟨hlk, hld, -, -⟩ := hw.readLottery hlk hl
    rw [← hpw] at hp₁ hl₁
    obtain rfl := attestParticipant_ok hp₁
    have hpk : participantAi.key = rt.slotKey l.id (.participant p.wallet) := by
      rw [← hpk, hlk, hpw]; rfl
    have hvk : voteTallyAi.key = rt.slotKey l.id .voteTally := by rw [← hvk, hlk]; rfl
    have hpd := (hw.readParticipant hpk.symm hp).1
    obtain ⟨hfind, ht, hopen⟩ := loadOrCreateTally_ok hw hf hlk hvk h₁
    have hcount := (recordReveal_ok hl₁).1
    refine ⟨c, l, p, _, l₁, l', t, t', w₁.view rt l.id, (hw.readConfig hck hc).1, hld,
      congrArg some hlk, congrArg some hpw.symm, hpd,
      ⟨htk, hph, Nat.pos_of_ne_zero hv0, hvle, hatt, hcount⟩, hinc, hpt, hlen, hhash, hl₁, hfind,
      rfl, ht', hl', ?_, hopen, ?_⟩
    · rw [hlk, hpk, hvk]
      exact ((((ht.setData _ _).setData _ _).setData _ _).emit _).emit _
    · rw [hlk, hpk, hvk]
      simp only [World.view_emit, World.view_setData, AccountType.wrap]
      rw [View.setData_comm (by simp), View.setData_comm (s := .participant p.wallet) (by simp)]
  · cases h

theorem simulated {vote : ℕ} {plaintext : Bytes} (hw : WellTyped rt w)
    (hs : SignersAreKeys rt accounts) (h : process rt w accounts vote plaintext = .ok w')
    (pre : List (K × Bytes)) (ix : Instruction K) :
    Simulated rt (.instruction pre ix accounts) w w' := by
  obtain ⟨c, l, p, p', l₁, l', t, t', v, hc, hl, -, -, hp, hcan, hinc, hpt, hlen, hhash,
    hl₁, hfind, hp', ht', hl', ht, hopen, hv⟩ := effect hw hs h
  have hpl : p'.lottery = p.lottery := by rw [hp']; rfl
  have hpw : p'.wallet = p.wallet := by rw [hp']; rfl
  have hsame : l'.id = l.id ∧ l'.config = l.config ∧ l'.vault = l.vault := by
    rw [conclude_ok hl', (recordReveal_ok hl₁).2]
    exact ⟨rfl, rfl, rfl⟩
  have hvl : (v .lottery).data = .lottery l := by
    rw [hopen.apply_of_ne (by simp)]
    exact hl
  have hvp : (v (.participant p.wallet)).data = .participant p := by
    rw [hopen.apply_of_ne (by simp)]
    exact hp
  refine .intro l.id (by simp [hl]) ht ?_ ?_
  · rw [hv]
    refine ((hopen.fits_setData (d := .voteTally t') (hw.fits l.id) ?_).setParticipant
      (p := p) p' ?_
      hpl hpw).setLottery (l := l) l' ?_ hsame.1 hsame.2.1 hsame.2.2
    · rw [tallyParticipant_ok ht']
      exact (VoteTally.addVote_lottery _ _ _ _).trans (hfind.holds (hw.fits l.id))
    · simpa using hvp
    · simpa using hvl
  · intro acts ws r hcons hr
    obtain rfl := hr.eq_lottery hl
    obtain rfl := hr.eq_config hc
    obtain ⟨i, hi⟩ := hr.roster.getElem_of_data hp
    have hncl := hcan.not_closable hcons
    obtain ⟨rfl, hfits⟩ := hfind.openTally hr
    rw [hr.now] at hcan hl' hp'
    refine ⟨_, .attestReveal hi hcan hinc hpt hlen hhash hp' hl₁ hfits ht' hl', ?_⟩
    refine hr.next ht hv (fun _ ↦ rfl) ⟨rfl, rfl, rfl,
      rfl⟩ (by simp) ?_ ?_ .inl ?_ (by simp) ?_ ?_ ?_
    · simpa [hopen.apply_of_ne] using hr.vault
    · simp [hopen.apply_of_ne, hr.lamports]
    · refine (((hr.roster.push.opened hopen (by simp)).setOther (s := .voteTally)
        (by simp) _).set p'
        hi hpw ?_ fun h ↦ absurd h (hncl p)).setLottery l' fun q _ h ↦ absurd h (hncl q)
      simpa using hvp
    · simp [hopen.apply_of_ne, hr.ledger]
    · simp [hopen.apply_of_ne, hr.pages]
    · exact (((hopen.alive hr.alive).setData hopen.data_ne_empty _).setParticipant _ _).setData
        (by simp [hvl]) _

end AttestReveal

end DailyLottery
