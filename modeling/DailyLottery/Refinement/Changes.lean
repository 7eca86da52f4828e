import DailyLottery.Refinement.Simulation

set_option linter.unusedSectionVars false

namespace DailyLottery

open Lib

variable {K : Type} [DecidableEq K] [Inhabited K]

/-- What an instruction that goes through can do to the lottery it is called on. -/
inductive Lottery.Change (rt : Runtime K) (now : ℤ) (l : Lottery K) : Instruction K →
    Lottery K → Prop
  | buyTickets {hash : Option Bytes32} {count n : ℕ} : l.CanBuy now count →
      Change rt now l (.buyTickets hash count) { l.sell count with participantsCount := n }
  | beginReveal {a u : ℕ} {att upl : ℤ} {l' : Lottery K} : l.settled = false →
      BeginRevealPhase.openWindow l now att upl = .ok l' →
      Change rt now l (.beginRevealNow a u) (BeginRevealPhase.autoComplete rt l')
  | attestUploaded {c : Config K} {p : Participant K} {vote : ℕ} : l.CanAttest c now p vote →
      Change rt now l (.attestUploaded vote) (l.countAttestation now)
  | attestReveal {c : Config K} {p : Participant K} {vote : ℕ} {plaintext : Bytes}
      {digest : Bytes32} {l₁ l' : Lottery K} {t : VoteTally K} : l.CanAttest c now p vote →
      AttestReveal.recordReveal l digest = .ok l₁ → AttestReveal.conclude l₁ t now = .ok l' →
      Change rt now l (.attestReveal vote plaintext) l'
  | uploadReveals {entries : List (K × Bytes)} {isAuthority : Bool} {l₁ l' : Lottery K}
      {t : VoteTally K} {digests : List Bytes32} :
      UploadReveals.checkPhase l isAuthority now = .ok l₁ →
      UploadReveals.includeUploads l₁ t digests = .ok l' →
        Change rt now l (.uploadReveals entries) l'
  | finalizeWinners {l' : Lottery K} : l.settled = false →
      l'.uploadsComplete = l.uploadsComplete →
      (l.winnersCount ≠ 0 → l'.paidWinnersBitmap = l.paidWinnersBitmap) →
      Change rt now l .finalizeWinners l'
  | settlePayoutBatch {i batch : ℕ} {winners : List (WinnerProof K)} {bitmap : List UInt8}
      {l' : Lottery K} : l.settlementComplete = false → l.winnersCount ≠ 0 →
      (l' = { l with paidWinnersBitmap := bitmap }.incrementSettlementBatch ∨
        l' = { { l with paidWinnersBitmap := bitmap }.incrementSettlementBatch with
          settlementComplete := true }.settle) →
      Change rt now l (.settlePayoutBatch i batch winners) l'
  | finalizeNoAttesters : l.settled = false → Change rt now l .finalizeNoAttesters l.settle
  | claimRefund : l.settled = true → l.winnersCount = 0 → Change rt now l .claimRefund l.countRefund

/-- What an instruction that goes through can do to a participant of the lottery it is called on. -/
inductive Participant.Change (rt : Runtime K) (now : ℤ) (accounts : List (AccountInfo K))
    (l : Lottery K) (p : Participant K) : Instruction K → Participant K → Prop
  | buyTickets {hash : Option Bytes32} {count : ℕ} : l.CanBuy now count →
      Change rt now accounts l p (.buyTickets hash count)
        { p with ticketsBought := p.ticketsBought + count }
  | attestUploaded {c : Config K} {vote : ℕ} : l.CanAttest c now p vote →
      accounts[3]?.map AccountInfo.key = some p.wallet →
      Change rt now accounts l p (.attestUploaded vote) (p.attest vote now)
  | attestReveal {c : Config K} {vote : ℕ} {plaintext : Bytes} : l.CanAttest c now p vote →
      p.revealIncluded = false → plaintext.length ≤ maxRevealPlaintextBytes →
      rt.sha256 plaintext = p.proofOfChanceHash →
      accounts[3]?.map AccountInfo.key = some p.wallet →
      Change rt now accounts l p (.attestReveal vote plaintext)
        ((p.attest vote now).includeVerifiedReveal (computeRevealDigest rt p.wallet plaintext))
  | uploadReveals {entries : List (K × Bytes)} {plaintext : Bytes} : l.settled = false →
      p.attestedUploaded = true → p.revealIncluded = false →
      (rt.slotKey l.id (.participant p.wallet), plaintext) ∈ entries →
      plaintext.length ≤ maxRevealPlaintextBytes → rt.sha256 plaintext = p.proofOfChanceHash →
      Change rt now accounts l p (.uploadReveals entries)
        ({ p with revealScore := DailyLottery.revealScore plaintext }.includeVerifiedReveal
          (computeRevealDigest rt p.wallet plaintext))
  | finalizeWinners {p' : Participant K} : l.settled = false → p'.unmarked = p.unmarked →
      Change rt now accounts l p .finalizeWinners p'
  | claimRefund : l.settled = true → accounts[4]?.map AccountInfo.key = some p.wallet →
      p.refundClaimed = false → Change rt now accounts l p .claimRefund p.markRefundClaimed

/-- What it can do to a participant account, from its creation on. -/
inductive Lottery.Alters (rt : Runtime K) (now : ℤ) (accounts : List (AccountInfo K))
    (l : Lottery K) (wallet : K) : Instruction K → AccountData K → AccountData K → Prop
  | first {hash : Option Bytes32} {proof : Bytes32} {count : ℕ} : l.CanBuy now count →
      Alters rt now accounts l wallet (.buyTickets hash count) .empty
        (.participant (.new (rt.lotteryKey l.id) wallet proof count l.participantsCount))
  | change {p p' : Participant K} {ix : Instruction K} : p.Change rt now accounts l ix p' →
      Alters rt now accounts l wallet ix (.participant p) (.participant p')

variable {rt : Runtime K} {acts : List (Action K)} {w w' : World K} {ws : List (World K)} {id : ℕ}
  {ix : Instruction K} {accounts : List (AccountInfo K)} {pre : List (K × Bytes)}

variable (rt) (ix) (accounts) (w) (w') in
/-- What an instruction that goes through leaves of lottery `id` and its participants. -/
structure Changes (id : ℕ) : Prop where
  lottery : ∀ l, (w.view rt id .lottery).data = .lottery l →
    ∃ l', (w'.view rt id .lottery).data = .lottery l' ∧
      (l' = l ∨ CallsOn rt accounts id ∧ l.Change rt w.clock ix l')
  participant : ∀ l, (w.view rt id .lottery).data = .lottery l → ∀ wallet,
    (w'.view rt id (.participant wallet)).data = (w.view rt id (.participant wallet)).data ∨
      CallsOn rt accounts id ∧ l.Alters rt w.clock accounts wallet ix
        (w.view rt id (.participant wallet)).data (w'.view rt id (.participant wallet)).data
  ledger : ix ≠ .finalizeWinners →
    (w'.view rt id .finalizationRoot).data = (w.view rt id .finalizationRoot).data

namespace Changes

theorem of_view (h : w'.view rt id = w.view rt id) : Changes rt w w' ix accounts id := by
  refine ⟨fun l hl ↦ ⟨l, ?_, .inl rfl⟩, fun _ _ wallet ↦ .inl ?_, fun _ ↦ ?_⟩
  · rw [h, hl]
  · rw [h]
  · rw [h]

theorem of_call {l : Lottery K} (l' : Lottery K) (ht : Touches rt l.id w w')
    (hl : (w.view rt l.id .lottery).data = .lottery l)
    (hl' : (w'.view rt l.id .lottery).data = .lottery l')
    (hon : CallsOn rt accounts l.id) (hc : l' = l ∨ l.Change rt w.clock ix l')
    (hp : ∀ wallet,
      (w'.view rt l.id (.participant wallet)).data = (w.view rt l.id (.participant wallet)).data ∨
      l.Alters rt w.clock accounts wallet ix (w.view rt l.id (.participant wallet)).data
        (w'.view rt l.id (.participant wallet)).data)
    (hroot : ix ≠ .finalizeWinners →
      (w'.view rt l.id .finalizationRoot).data = (w.view rt l.id .finalizationRoot).data) (id : ℕ) :
    Changes rt w w' ix accounts id := by
  by_cases hid : id = l.id
  · subst hid
    refine ⟨fun l₀ hl₀ ↦ ?_, fun l₀ hl₀ wallet ↦ ?_, hroot⟩
    · cases hl.symm.trans hl₀
      exact ⟨l', hl', hc.imp_right fun h ↦ ⟨hon, h⟩⟩
    · cases hl.symm.trans hl₀
      exact (hp wallet).imp_right fun h ↦ ⟨hon, h⟩
  · exact .of_view (ht.view_of_ne hid)

theorem of_participant {l : Lottery K} {p : Participant K} (l' : Lottery K) (p' : Participant K)
    (ht : Touches rt l.id w w')
    (hl : (w.view rt l.id .lottery).data = .lottery l)
    (hl' : (w'.view rt l.id .lottery).data = .lottery l')
    (hon : CallsOn rt accounts l.id) (hc : l' = l ∨ l.Change rt w.clock ix l')
    (hp : (w.view rt l.id (.participant p.wallet)).data = .participant p)
    (hp' : (w'.view rt l.id (.participant p.wallet)).data = .participant p')
    (hothers : ∀ wallet, wallet ≠ p.wallet →
      (w'.view rt l.id (.participant wallet)).data = (w.view rt l.id (.participant wallet)).data)
    (hch : p.Change rt w.clock accounts l ix p')
    (hroot : ix ≠ .finalizeWinners →
      (w'.view rt l.id .finalizationRoot).data = (w.view rt l.id .finalizationRoot).data) (id : ℕ) :
    Changes rt w w' ix accounts id := by
  refine .of_call l' ht hl hl' hon hc (fun wallet ↦ ?_) hroot id
  by_cases hw : wallet = p.wallet
  · subst hw
    rw [hp, hp']
    exact .inr (.change hch)
  · exact .inl (hothers wallet hw)

theorem of_rows {l l' : Lottery K} {r r' : Round K} {acts' : List (Action K)}
    (hr : Represents rt acts w ws l.id r)
    (hr' : Represents rt acts' w' (w :: ws) l.id r') (hl : r.lottery = l) (hl' : r'.lottery = l')
    (hset : l.settled = false ∧ l.settlementComplete = false)
    (hset' : l'.settled = false ∧ l'.settlementComplete = false) (ht : Touches rt l.id w w')
    (hon : CallsOn rt accounts l.id) (hch : l.Change rt w.clock ix l')
    (hlen : r'.participants.length = r.participants.length)
    (hrow : ∀ (i : ℕ) p, r.participants[i]? = some p → ∃ p', r'.participants[i]? = some p' ∧
      p'.wallet = p.wallet ∧ (p' = p ∨ p.Change rt w.clock accounts l ix p'))
    (hroot : ix ≠ .finalizeWinners → r'.ledger = r.ledger) (id : ℕ) :
    Changes rt w w' ix accounts id := by
  subst hl hl'
  refine .of_call _ ht hr.lottery hr'.lottery hon (.inr hch) (fun wallet ↦ ?_) (fun hne ↦ ?_) id
  swap
  · rw [hr'.ledger, hr.ledger, hroot hne]
  by_cases hmem : wallet ∈ r.participants.map Participant.wallet
  · obtain ⟨p, hp, rfl⟩ := List.mem_map.mp hmem
    obtain ⟨i, hi⟩ := List.mem_iff_getElem?.mp hp
    obtain ⟨p', hi', hw, hch'⟩ := hrow i p hi
    have hp' := hr'.stored_of_open hset' (List.mem_of_getElem? hi')
    rw [hw] at hp'
    rw [hp', hr.stored_of_open hset hp]
    rcases hch' with rfl | hch'
    · exact .inl rfl
    · exact .inr (.change hch')
  · refine .inl ?_
    rw [(hr.roster.absent wallet hmem).2, (hr'.roster.absent wallet ?_).2]
    rw [List.mem_map]
    rintro ⟨q, hq, rfl⟩
    obtain ⟨i, hi⟩ := List.mem_iff_getElem?.mp hq
    have hlt : i < r.participants.length := hlen ▸ (List.getElem?_eq_some_iff.mp hi).1
    obtain ⟨p', hi', hw, -⟩ := hrow i _ (List.getElem?_eq_getElem hlt)
    obtain rfl := Option.some.inj (hi.symm.trans hi')
    exact hmem (hw ▸ List.mem_map_of_mem (List.getElem_mem hlt))

end Changes

theorem FinalizeWinners.Chunk.undecided {r : Round K} {root root' : FinalizationLedger K}
    {lotteryAi payerAi pageAi : AccountInfo K} {participantAccounts : List (AccountInfo K)}
    {w₁ w₂ : World K} {l' : Lottery K}
    (hc : Chunk rt w w' r.config r.lottery root lotteryAi payerAi pageAi participantAccounts w₁ w₂ l'
      root') (hr : Represents rt acts w ws r.lottery.id r) (hp : Round.Progress rt r) :
    r.lottery.winnersCount = 0 := by
  by_contra hne
  obtain ⟨root₀, hroot, hph⟩ := hp.of_decided hne
  have hfound := hc.found
  rw [hr.now] at hfound
  obtain ⟨hopen, -⟩ := hfound.openLedger hr
  obtain rfl : root₀ = root := by rw [← hopen, Round.openLedger, hroot, Option.getD_some]
  rcases hc.pass with ⟨hph', -⟩ | ⟨hph', -⟩
  all_goals simp [hph] at hph'

namespace Step

theorem buyTickets_changes {hash : Option Bytes32} {count : ℕ} (hw : WellTyped rt w)
    (hs : SignersAreKeys rt accounts) (h : BuyTickets.process rt w accounts hash count = .ok w')
    (id : ℕ) : Changes rt w w' (.buyTickets hash count) accounts id := by
  obtain ⟨l, hl, hon, hbuy, -, ht, ⟨p, hp, -, hv⟩ | ⟨wallet, proof, -, hnew, -, -, hv⟩⟩ :=
    BuyTickets.effect hw hs h
  · exact .of_participant (l.sell count) { p with ticketsBought := p.ticketsBought + count } ht hl
      (by rw [hv]; simp) hon (.inr (.buyTickets (n := (l.sell count).participantsCount) hbuy)) hp
      (by rw [hv]; simp) (fun k hk ↦ by rw [hv]; simp [hk]) (.buyTickets hbuy)
      (fun _ ↦ by rw [hv]; simp) id
  · refine .of_call { l.sell count with participantsCount := l.participantsCount + 1 } ht hl
      (by rw [hv]; simp) hon (.inr (.buyTickets hbuy))
      (fun k ↦ ?_) (fun _ ↦ by rw [hv]; simp) id
    by_cases hk : k = wallet
    · subst hk
      rw [hnew, hv]
      simpa using .inr (.first hbuy)
    · rw [hv]
      simp [hk]

theorem attestUploaded_changes {vote : ℕ} (hw : WellTyped rt w)
    (h : AttestUploaded.process rt w pre accounts vote = .ok w') (id : ℕ) :
    Changes rt w w' (.attestUploaded vote) accounts id := by
  obtain ⟨c, l, p, -, hl, hon, hwallet, hp, -, hcan, ht, hv⟩ := AttestUploaded.effect hw h
  exact .of_participant (l.countAttestation w.clock) (p.attest vote w.clock) ht hl
    (by rw [hv]; simp) hon (.inr (.attestUploaded hcan)) hp (by rw [hv]; simp)
    (fun k hk ↦ by rw [hv]; simp [hk]) (.attestUploaded hcan hwallet)
    (fun _ ↦ by rw [hv]; simp) id

theorem attestReveal_changes {vote : ℕ} {plaintext : Bytes} (hw : WellTyped rt w)
    (hs : SignersAreKeys rt accounts)
    (h : AttestReveal.process rt w accounts vote plaintext = .ok w') (id : ℕ) :
    Changes rt w w' (.attestReveal vote plaintext) accounts id := by
  obtain ⟨c, l, p, p', l₁, l', t, t', v, -, hl, hon, hwallet, hp, hcan, hinc, -, hlen,
    hhash, hrec, -, rfl, -, hconc, ht, hopen, hv⟩ := AttestReveal.effect hw hs h
  exact .of_participant l' _ ht hl (by rw [hv]; simp) hon
    (.inr (.attestReveal hcan hrec hconc)) hp (by rw [hv]; simp)
    (fun k hk ↦ by rw [hv]; simp [hk, hopen.apply_of_ne])
    (.attestReveal hcan hinc hlen hhash hwallet)
    (fun _ ↦ by rw [hv]; simp [hopen.apply_of_ne]) id

theorem settlePayoutBatch_changes {i batch : ℕ} {winners : List (WinnerProof K)}
    (hw : WellTyped rt w) (h : SettlePayoutBatch.process rt w accounts i batch winners = .ok w')
    (id : ℕ) : Changes rt w w' (.settlePayoutBatch i batch winners) accounts id := by
  obtain ⟨l, c, hl, hon, -, -, -, -, ⟨-, rfl⟩ | ⟨i, page, data, data', l₁, l', fresh, left,
    gain, hb⟩⟩ :=
    SettlePayoutBatch.effect hw h
  · exact .of_view rfl
  refine .of_call l' hb.touches hl (by rw [hb.view]; simp) hon (.inr ?_)
    (fun k ↦ .inl (by rw [hb.view]; simp)) (fun _ ↦ by rw [hb.view]; simp) id
  obtain ⟨bitmap, rfl⟩ := hb.run.lottery
  exact .settlePayoutBatch hb.not_complete hb.winners_pos hb.concludes.lottery

theorem claimRefund_changes (hw : WellTyped rt w) (hs : SignersAreKeys rt accounts)
    (h : ClaimRefund.process rt w accounts = .ok w') (id : ℕ) :
    Changes rt w w' .claimRefund accounts id := by
  obtain ⟨l, p, hl, hon, hwallet, hp, -, hset, hwc, -, -, hcl, -, -, -, ht, hv, -⟩ :=
    ClaimRefund.effect hw hs h
  exact .of_participant l.countRefund p.markRefundClaimed ht hl (by rw [hv]; simp) hon
    (.inr (.claimRefund hset hwc)) hp (by rw [hv]; simp) (fun k hk ↦ by rw [hv]; simp [hk])
    (.claimRefund hset hwallet hcl) (fun _ ↦ by rw [hv]; simp) id

theorem uploadReveals_changes {entries : List (K × Bytes)} (hc : Consistent rt acts w ws)
    (hs : SignersAreKeys rt accounts) (h : UploadReveals.process rt w accounts entries = .ok w')
    (id : ℕ) : Changes rt w w' (.uploadReveals entries) accounts id := by
  obtain ⟨id₀, hne, hon, hvalid, hall⟩ := UploadReveals.follow hc.typed hs h []
    (.uploadReveals entries)
  obtain ⟨r, hreach, hr⟩ := hc.round id₀ hne
  obtain ⟨ht, -, isAuthority, es, l, t, ps, digests, l', -, hup, hr'⟩ := hall acts ws r hr
  obtain rfl : r.lottery.id = id₀ := by
    have hholds := (hc.typed.fits id₀).holds hne
    rw [hr.lottery] at hholds
    exact hholds.2.1
  obtain ⟨-, -, hset, hsc, -, -, -, hl⟩ := UploadReveals.checkPhase_ok hup.phase
  have hset' : l'.settled = false ∧ l'.settlementComplete = false := by
    rw [(UploadReveals.includeUploads_ok hup.included).2, hl]
    exact ⟨hset, hsc⟩
  refine .of_rows hr hr' rfl rfl ⟨hset, hsc⟩ hset' ht hon
    (.uploadReveals (hr.now ▸ hup.phase) hup.included) hup.sweep.length_eq (fun i p hi ↦ ?_)
    (fun _ ↦ rfl) id
  rcases hup.row hi with ⟨-, hp'⟩ | ⟨plaintext, -, hni, hatt, hhash, hmem, hp'⟩
  · exact ⟨p, hp', rfl, .inl rfl⟩
  · exact ⟨_, hp', rfl, .inr (.uploadReveals hset hatt hni hmem
      ((UploadReveals.validateEntries_ok hvalid).2 _ hmem).2 hhash)⟩

theorem finalizeWinners_changes (hc : Consistent rt acts w ws) (hs : SignersAreKeys rt accounts)
    (h : FinalizeWinners.process rt w accounts = .ok w') (id : ℕ) :
    Changes rt w w' .finalizeWinners accounts id := by
  obtain ⟨c, l, hcd, hl, hon, heff⟩ := FinalizeWinners.effect hc.typed hs h
  cases heff with
  | done he => exact .of_view (by rw [he])
  | @missing l' hset _ _ _ _ _ hbegin ht _ hv =>
    have hsame : l'.uploadsComplete = l.uploadsComplete ∧
        l'.paidWinnersBitmap = l.paidWinnersBitmap := by
      obtain ⟨-, rfl⟩ | ⟨-, rfl⟩ := Lottery.beginRemediation_ok hbegin <;> exact ⟨rfl, rfl⟩
    exact .of_call l' ht hl (by rw [hv]; simp) hon
      (.inr (.finalizeWinners hset hsame.1 fun _ ↦ hsame.2))
      (fun k ↦ .inl (by rw [hv]; simp)) (fun h ↦ absurd rfl h) id
  | chunk hset hsc hpc hatt hmiss hel hchunk =>
    obtain ⟨r, hreach, hr⟩ := hc.round l.id (by simp [hl])
    obtain rfl := hr.eq_lottery hl
    obtain rfl := hr.eq_config hcd
    obtain ⟨ht, hf, es, x, r', -, -, -, ⟨-, -, -, hset', hsc'⟩, huc, hmap, hr'⟩ :=
      hchunk.simulated hc.typed hr hset hsc hpc hatt hmiss hel [] .finalizeWinners accounts
    have hwc := hchunk.undecided hr (Round.invariant hreach).progress
    have hlen := congrArg List.length hmap
    rw [List.length_map, List.length_map] at hlen
    refine .of_rows hr hr' rfl rfl ⟨hset, hsc⟩ ⟨hset'.trans hset, hsc'.trans hsc⟩ ht hon
      (.finalizeWinners hset huc fun hne ↦ absurd hwc hne) hlen (fun i p hi ↦ ?_)
      (fun h ↦ absurd rfl h) id
    have hget := congrArg (·[i]?) hmap
    simp only [List.getElem?_map, hi, Option.map_some] at hget
    obtain ⟨p', hp', hum⟩ := Option.map_eq_some_iff.mp hget
    have hw : p'.unmarked.wallet = p.unmarked.wallet := by rw [hum]
    exact ⟨p', hp', hw, .inr (.finalizeWinners hset hum)⟩

end Step

/-- What any instruction that goes through does to a lottery. -/
theorem Step.changes (hc : Consistent rt acts w ws)
    (hs : Step rt w (.instruction pre ix accounts) w') (id : ℕ) :
      Changes rt w w' ix accounts id := by
  have hw := hc.typed
  cases hs with
  | instruction hsig hok =>
    cases ix with
    | initializeConfig price bps cap =>
      obtain rfl | ⟨-, c, -, -, hconf⟩ := Initialize.effect hsig hok
      · exact .of_view rfl
      · exact .of_view (hconf.view id)
    | updateServiceCharge bps =>
      obtain ⟨c, -, -, hconf⟩ := UpdateServiceCharge.effect hw hok
      exact .of_view (hconf.view id)
    | createLottery =>
      obtain ⟨c, l, bump, w₁, hcd, -, -, ht, hv, hconf⟩ :=
        CreateLottery.effect hw hsig (fun c ↦ hc.next_empty) hok
      by_cases hid : id = c.lotteryCount + 1
      · subst hid
        have ha := hc.absent _ (hc.next_empty hcd).1
        refine ⟨fun l hl ↦ ?_, fun l hl ↦ ?_, fun _ ↦ ?_⟩
        · simp [ha.data] at hl
        · simp [ha.data] at hl
        · rw [hconf.view, hv]
          simp
      · exact .of_view ((hconf.view id).trans (ht.view_of_ne hid))
    | buyTickets hash count => exact buyTickets_changes hw hsig hok id
    | attestUploaded vote => exact attestUploaded_changes hw hok id
    | attestReveal vote plaintext => exact attestReveal_changes hw hsig hok id
    | uploadReveals entries => exact uploadReveals_changes hc hsig hok id
    | finalizeWinners => exact finalizeWinners_changes hc hsig hok id
    | settlePayoutBatch i batch winners => exact settlePayoutBatch_changes hw hok id
    | finalizeNoAttesters =>
      obtain ⟨l, hl, hon, ⟨-, rfl⟩ | ⟨hset, -, -, ht, hv⟩⟩ := FinalizeNoAttesters.effect hw hok
      · exact .of_view rfl
      · exact .of_call l.settle ht hl (by rw [hv]; simp) hon (.inr (.finalizeNoAttesters hset))
          (fun k ↦ .inl (by rw [hv]; simp)) (fun _ ↦ by rw [hv]; simp) id
    | claimRefund => exact claimRefund_changes hw hsig hok id
    | closeParticipant =>
      obtain ⟨l, p₀, hl, hon, -, -, -, ht, hv⟩ := CloseParticipant.effect hw hsig hok
      exact .of_call l ht hl (by rw [hv]; simpa using hl) hon (.inl rfl)
        (fun k ↦ .inl (by rw [hv, View.data_setLamports])) (fun _ ↦ by rw [hv]; simp) id
    | closeRefundVault =>
      obtain ⟨l, hl, hon, -, -, -, -, -, ht, hv⟩ := CloseRefundVault.effect hw hok
      exact .of_call l ht hl (by rw [hv]; simpa using hl) hon (.inl rfl)
        (fun k ↦ .inl (by rw [hv]; simp)) (fun _ ↦ by rw [hv]; simp) id
    | beginRevealNow a u =>
      obtain ⟨c, l, l', att, upl, -, hl, hon, hset, -, -, -, -, -, -, -, -, hopen, ht, hv⟩ :=
        BeginRevealPhase.effect hw hok
      exact .of_call (BeginRevealPhase.autoComplete rt l') ht hl (by rw [hv]; simp) hon
        (.inr (.beginReveal hset hopen)) (fun k ↦ .inl (by rw [hv]; simp))
        (fun _ ↦ by rw [hv]; simp) id

theorem Step.environment {a : Action K} (hs : Step rt w a w')
    (ha : ∀ pre ix accounts, a ≠ .instruction pre ix accounts) (id : ℕ) (s : Slot K) :
    (w'.view rt id s).data = (w.view rt id s).data ∨ (w'.view rt id s).data = .empty := by
  cases hs with
  | instruction => exact absurd rfl (ha _ _ _)
  | tick => exact .inl rfl
  | deposit key n => exact .inl (Consistent.view_deposit rt w key n id s).1
  | outside account hk =>
    rw [World.view_setAccount_of_ne _ _ fun s ↦ hk _]
    exact .inl rfl
  | @reap key =>
    by_cases hk : rt.slotKey id s = key
    · right
      rw [← World.accounts_slotKey, hk, World.accounts_setAccount_self]
      rfl
    · left
      rw [← World.accounts_slotKey, ← World.accounts_slotKey,
        World.accounts_setAccount_of_ne _ _ hk]

end DailyLottery
