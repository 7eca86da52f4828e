import DailyLottery.Round.Elected
import DailyLottery.Refinement.Changes
import DailyLottery.Runs.Roll
import DailyLottery.Execute

set_option linter.unusedSectionVars false

namespace DailyLottery

open Lib

variable {K : Type} [DecidableEq K] [Inhabited K] {rt : Runtime K} {acts : List (Action K)}
  {w w' : World K} {ws : List (World K)} {id : ℕ} {l l' : Lottery K} {r : Round K}

/-- What the outcome of a lottery depends on, as far as the lottery stores it. -/
structure Lottery.SameInputs (l l' : Lottery K) : Prop where
  participantsCount : l'.participantsCount = l.participantsCount
  totalTickets : l'.totalTickets = l.totalTickets
  totalFunds : l'.totalFunds = l.totalFunds
  pocAggregateHash : l'.pocAggregateHash = l.pocAggregateHash
  selectedNumberOfWinners : l'.selectedNumberOfWinners = l.selectedNumberOfWinners

/-- An action that, where it is an upload of reveals on a lottery with a ledger, finds the tally
asking for the number of winners the lottery asks for. -/
def Spare (rt : Runtime K) (id : ℕ) (w : World K) (a : Action K) : Prop :=
  ∀ pre entries accounts, a = .instruction pre (.uploadReveals entries) accounts →
    CallsOn rt accounts id → (w.view rt id .finalizationRoot).data ≠ .empty →
    ∀ l t, (w.view rt id .lottery).data = .lottery l →
      (w.view rt id .voteTally).data = .voteTally t →
      t.selectedWinners l.participantsCount = l.selectedNumberOfWinners

theorem UploadReveals.Uploads.of_sealed {isAuthority : Bool} {entries : List (K × Bytes)}
    {es : List (ℕ × Bytes)} {t : VoteTally K} {ps : List (Participant K)} {digests : List Bytes32}
    (h : Uploads rt id isAuthority entries r es l t ps digests l') (hb : r.books.Sound)
    (hs : r.books.Sealed) : ∃ t₀, r.tally = some t₀ ∧
      l'.selectedNumberOfWinners = t₀.selectedWinners r.lottery.participantsCount ∧
      (l'.selectedNumberOfWinners = r.lottery.selectedNumberOfWinners →
        r.lottery.SameInputs l') := by
  obtain ⟨-, hf⟩ := hs.step hb (Round.Step.uploadReveals h.phase h.fits h.sweep h.included).books
  obtain ⟨-, -, -, -, -, -, -, hl⟩ := checkPhase_ok h.phase
  obtain ⟨-, hl'⟩ := includeUploads_ok h.included
  cases htally : r.tally with
  | none => exact absurd (hb.balanced.untallied htally) (hb.included_eq hs).2
  | some t₀ =>
    refine ⟨t₀, rfl, ?_, fun hsame ↦
      ⟨hf.participantsCount, ?_, hf.totalFunds, hf.pocAggregateHash, hsame⟩⟩
    · have helected := hf.elected
      simp only [Books.elected, Round.books, htally, Option.elim_some] at helected
      rw [← helected, hl', hl]
    · rw [hl', hl]

theorem Step.late_upload {pre : List (K × Bytes)} {entries : List (K × Bytes)}
    {accounts : List (AccountInfo K)} (h : (system rt).History acts (w :: ws))
    (hs : Step rt w (.instruction pre (.uploadReveals entries) accounts) w')
    (hon : CallsOn rt accounts id) (hl : (w.view rt id .lottery).data = .lottery l)
    (hroot : (w.view rt id .finalizationRoot).data ≠ .empty)
    (hl' : (w'.view rt id .lottery).data = .lottery l') :
    ∃ t, (w.view rt id .voteTally).data = .voteTally t ∧
      l'.selectedNumberOfWinners = t.selectedWinners l.participantsCount ∧
      (l'.selectedNumberOfWinners = l.selectedNumberOfWinners → l.SameInputs l') := by
  obtain ⟨r, -, hi, hr, rfl, -⟩ := represented h hl
  have hseal : r.books.Sealed :=
    hi.routed.sealed_of_ledger fun he ↦ hroot (by rw [hr.ledger, he]; rfl)
  cases hs with
  | instruction hsig hok =>
    obtain ⟨id₀, -, hon₀, -, hall⟩ :=
      UploadReveals.follow (consistent h).typed hsig hok pre (.uploadReveals entries)
    obtain rfl := hon.eq hon₀
    obtain ⟨-, -, isAuthority, es, l₁, t, ps, digests, l₂, -, hup, hr'⟩ := hall acts ws r hr
    obtain rfl := hr'.eq_lottery hl'
    obtain ⟨t₀, ht₀, hselected, hsame⟩ := hup.of_sealed hi.books hseal
    refine ⟨t₀, ?_, hselected, hsame⟩
    rw [hr.tally, ht₀]
    rfl

/-- A late upload is spare if and only if it leaves the number of winners as it is. -/
theorem Step.spare_iff {pre : List (K × Bytes)} {entries : List (K × Bytes)}
    {accounts : List (AccountInfo K)} (h : (system rt).History acts (w :: ws))
    (hs : Step rt w (.instruction pre (.uploadReveals entries) accounts) w')
    (hon : CallsOn rt accounts id) (hl : (w.view rt id .lottery).data = .lottery l)
    (hroot : (w.view rt id .finalizationRoot).data ≠ .empty)
    (hl' : (w'.view rt id .lottery).data = .lottery l') :
    Spare rt id w (.instruction pre (.uploadReveals entries) accounts) ↔
      l'.selectedNumberOfWinners = l.selectedNumberOfWinners := by
  obtain ⟨t, ht, hselected, -⟩ := hs.late_upload h hon hl hroot hl'
  constructor
  · intro hspare
    exact hselected.trans (hspare pre entries accounts rfl hon hroot l t hl ht)
  · intro hsame pre₁ entries₁ accounts₁ _ _ _ l₁ t₁ hl₁ ht₁
    cases hl.symm.trans hl₁
    cases ht.symm.trans ht₁
    exact hselected.symm.trans hsame

/-- Once a lottery has a ledger, only its finalization touches what the outcome depends on, unless
an upload changes the number of winners. -/
theorem Step.sameInputs {pre : List (K × Bytes)} {ix : Instruction K}
    {accounts : List (AccountInfo K)} (h : (system rt).History acts (w :: ws))
    (hs : Step rt w (.instruction pre ix accounts) w') (hix : ix ≠ .finalizeWinners)
    (hspare : Spare rt id w (.instruction pre ix accounts))
    (hl : (w.view rt id .lottery).data = .lottery l)
    (hroot : (w.view rt id .finalizationRoot).data ≠ .empty) :
    ∃ l', (w'.view rt id .lottery).data = .lottery l' ∧ l.SameInputs l' := by
  have hc := consistent h
  obtain ⟨r, hreach, hi, hr, rfl, hid⟩ := represented h hl
  have hseal : r.books.Sealed := hi.routed.sealed_of_ledger fun he ↦
    hroot (by rw [hr.ledger, he]; rfl)
  have hupload : r.lottery.phase w.clock ≠ .upload := hr.now ▸ hseal.not_upload hi.books
  obtain ⟨l', hl', hlot⟩ := (hs.changes hc id).lottery _ hl
  refine ⟨l', hl', ?_⟩
  rcases hlot with rfl | ⟨hon, hlot⟩
  · exact ⟨rfl, rfl, rfl, rfl, rfl⟩
  cases hlot with
  | buyTickets hbuy => exact absurd (hr.now ▸ hseal.not_started hi.books) hbuy.not_started
  | beginReveal _ hopen =>
    obtain rfl := BeginRevealPhase.openWindow_ok hopen
    have hpc : r.lottery.participantsCount ≠ 1 := (Nat.ne_of_lt hseal.two_le).symm
    rw [BeginRevealPhase.autoComplete_eq]
    refine ⟨rfl, rfl, rfl, ?_, ?_⟩ <;> simp [hpc]
  | attestUploaded ha => exact absurd ha.phase hupload
  | attestReveal ha => exact absurd ha.phase hupload
  | @uploadReveals entries =>
    obtain ⟨t, ht, hselected, hsame⟩ := hs.late_upload h hon hl hroot hl'
    exact hsame (hselected.trans (hspare pre _ accounts rfl hon hroot r.lottery t hl ht))
  | finalizeWinners => exact absurd rfl hix
  | settlePayoutBatch _ _ he => rcases he with rfl | rfl <;> exact ⟨rfl, rfl, rfl, rfl, rfl⟩
  | finalizeNoAttesters => exact ⟨rfl, rfl, rfl, rfl, rfl⟩
  | claimRefund => exact ⟨rfl, rfl, rfl, rfl, rfl⟩

/-- Nor does any other instruction touch the participants, until the lottery is settled. -/
theorem Step.sameParticipants {pre : List (K × Bytes)} {ix : Instruction K}
    {accounts : List (AccountInfo K)} (h : (system rt).History acts (w :: ws))
    (hs : Step rt w (.instruction pre ix accounts) w') (hix : ix ≠ .finalizeWinners)
    (hl : (w.view rt id .lottery).data = .lottery l)
    (hroot : (w.view rt id .finalizationRoot).data ≠ .empty) (hset : l.settled = false)
    (wallet : K) :
    (w'.view rt id (.participant wallet)).data = (w.view rt id (.participant wallet)).data := by
  have hc := consistent h
  obtain ⟨r, hreach, hi, hr, rfl, hid⟩ := represented h hl
  have hseal : r.books.Sealed := hi.routed.sealed_of_ledger fun he ↦
    hroot (by rw [hr.ledger, he]; rfl)
  have hupload : r.lottery.phase w.clock ≠ .upload := hr.now ▸ hseal.not_upload hi.books
  have hbuy {count : ℕ} (hb : r.lottery.CanBuy w.clock count) : False :=
    hb.not_started (hr.now ▸ hseal.not_started hi.books)
  refine ((hs.changes hc id).participant _ hl wallet).resolve_right ?_
  rintro ⟨-, halt⟩
  generalize hd : (w.view rt id (.participant wallet)).data = d at halt
  generalize (w'.view rt id (.participant wallet)).data = d' at halt
  cases halt with
  | first hb => exact hbuy hb
  | change hch =>
    cases hch with
    | buyTickets hb => exact hbuy hb
    | attestUploaded ha => exact hupload ha.phase
    | attestReveal ha => exact hupload ha.phase
    | @uploadReveals _ _ hns hatt hni =>
      -- whoever attested is included by now
      obtain ⟨hp, -⟩ := (hr.pastOf_eq _ _).mp (pastOf_of_data hd)
      have := hi.books.included_of_attested hseal (List.mem_map_of_mem hp) hatt
      rw [Participant.ballot] at this
      simp [hni] at this
    | finalizeWinners => exact hix rfl
    | claimRefund hset' => simp [hset] at hset'

/-- A step that completes the uploads of a lottery with a ledger is an upload, and keeps the number
of winners unless the tally asks for another. -/
theorem Step.selected_of_uploads {a : Action K} (h : (system rt).History acts (w :: ws))
    (hs : Step rt w a w') (hspare : Spare rt id w a)
    (hl : (w.view rt id .lottery).data = .lottery l)
    (hl' : (w'.view rt id .lottery).data = .lottery l')
    (hroot : (w.view rt id .finalizationRoot).data ≠ .empty)
    (huc : l'.uploadsComplete ≠ l.uploadsComplete) :
    l'.selectedNumberOfWinners = l.selectedNumberOfWinners := by
  by_cases hinst : ∃ pre ix accounts, a = .instruction pre ix accounts
  · obtain ⟨pre, ix, accounts, rfl⟩ := hinst
    by_cases hix : ix = .finalizeWinners
    · subst hix
      obtain ⟨l₁, hl₁, hlot⟩ := (hs.changes (consistent h) id).lottery _ hl
      cases hl'.symm.trans hl₁
      rcases hlot with rfl | ⟨-, hlot⟩
      · rfl
      · cases hlot with
        | finalizeWinners _ hsame _ => exact absurd hsame huc
    · obtain ⟨l₁, hl₁, hsame⟩ := hs.sameInputs h hix hspare hl hroot
      cases hl'.symm.trans hl₁
      exact hsame.selectedNumberOfWinners
  · have hinst : ∀ pre ix accounts, a ≠ .instruction pre ix accounts := by
      rintro pre ix accounts rfl
      exact hinst ⟨pre, ix, accounts, rfl⟩
    have hd := (hs.environment hinst id .lottery).resolve_right (by simp [hl'])
    rw [hl, hl'] at hd
    cases hd
    rfl

/-- In a run without such uploads the lottery asks for as many winners as its ledger. -/
theorem elected (h : ((system rt).restrict (Spare rt id)).History acts (w :: ws))
    (hl : (w.view rt id .lottery).data = .lottery l) :
    ∃ r, (Round.machine rt).Reachable r ∧ Represents rt acts w ws id r ∧ r.Elected := by
  have hall := h.invariant (P := fun acts ws ↦ ∀ w ws', ws = w :: ws' →
    (w.view rt id .lottery).data ≠ .empty →
      ∃ r, (Round.machine rt).Reachable r ∧ Represents rt acts w ws' id r ∧ r.Elected) ?_ ?_
  · exact hall w ws rfl (by simp [hl])
  · rintro s hs w ws' he hne
    cases he
    rw [World.view, Runtime.slotKey, hs.unused] at hne
    exact absurd rfl hne
  · rintro as ss s a t hh hP ⟨hspare, hs⟩ w ws' he hne
    cases he
    have hc := consistent hh.of_restrict
    by_cases hl₀ : (s.view rt id .lottery).data = .empty
    · rcases hc.follow_absent hs (hc.absent id hl₀) with ha | ⟨r, hcreated, hr⟩
      · exact absurd (ha.data _) hne
      · exact ⟨r, ⟨[], [], .init hcreated⟩, hr, fun root hroot ↦ by simp [hcreated.ledger] at hroot⟩
    · obtain ⟨r, ⟨bs, rs, hrs⟩, hr, helected⟩ := hP s ss rfl hl₀
      have hi := Round.invariant ⟨bs, rs, hrs⟩
      obtain ⟨r', hst, hr'⟩ := hc.follow hs hr hi
      refine ⟨r', ⟨() :: bs, r :: rs, hrs.step hst⟩, hr', helected.step hi hst fun hled ↦ ?_⟩
      refine hs.selected_of_uploads hh.of_restrict hspare hr.lottery hr'.lottery ?_
      rw [hr.ledger]
      cases hroot : r.ledger with
      | none => exact absurd hroot hled
      | some root => simp

/-- In a run where no late upload changes the number of winners, what the outcome of a lottery
depends on is frozen from the creation of its ledger on. -/
theorem finalization_frozen (h : ((system rt).restrict (Spare rt id)).History acts (w :: ws))
    (hl : (w.view rt id .lottery).data = .lottery l) :
    ((w.view rt id .finalizationRoot).data ≠ .empty → l.settled = false →
      ∀ pre ix accounts w', ix ≠ .finalizeWinners →
        ((system rt).restrict (Spare rt id)).step w (.instruction pre ix accounts) w' →
        (∃ l', (w'.view rt id .lottery).data = .lottery l' ∧ l.SameInputs l') ∧
        ∀ wallet, (w'.view rt id (.participant wallet)).data =
          (w.view rt id (.participant wallet)).data) ∧
    ∀ root, (w.view rt id .finalizationRoot).data = .finalizationLedger root →
      root.phase = .completed →
      l.selectedNumberOfWinners = root.targetWinners ∧ root.targetWinners = l.winnersCount := by
  refine ⟨fun hroot hset pre ix accounts w' hix ⟨hspare, hs⟩ ↦ ⟨?_, ?_⟩, fun root hroot hph ↦ ?_⟩
  · exact hs.sameInputs h.of_restrict hix hspare hl hroot
  · exact hs.sameParticipants h.of_restrict hix hl hroot hset
  · obtain ⟨r, hreach, hr, helected⟩ := elected h hl
    obtain rfl := hr.eq_lottery hl
    have hledger := hr.eq_ledger hroot
    refine ⟨helected root hledger (by simp [hph]), ?_⟩
    obtain ⟨winners, hdec, -, hcomp⟩ := (Round.invariant hreach).progress.of_completed hledger hph
    exact hcomp.target.trans hdec.winnersCount.symm

/-- One of three participants attests and asks for one winner. With the ledger there, the provider
uploads no reveals, and then the finalization completes. -/
theorem finalization_frozen_sample :
    ∃ (w w₁ w₂ : World Sample.Key) (l l₁ l₂ : Lottery Sample.Key)
      (root : FinalizationLedger Sample.Key),
      (w.view Sample.rt 1 .lottery).data = .lottery l ∧
      (w.view Sample.rt 1 .finalizationRoot).data ≠ .empty ∧
      ((system Sample.rt).restrict (Spare Sample.rt 1)).step w (Sample.upload 1 10 []) w₁ ∧
      (w₁.view Sample.rt 1 .lottery).data = .lottery l₁ ∧ l.SameInputs l₁ ∧
      Step Sample.rt w₁ (Sample.finalize 1 0 [20, 21, 22]) w₂ ∧
      (w₂.view Sample.rt 1 .lottery).data = .lottery l₂ ∧
      (w₂.view Sample.rt 1 .finalizationRoot).data = .finalizationLedger root ∧
      root.phase = .completed ∧ l₂.selectedNumberOfWinners = root.targetWinners ∧
      root.targetWinners = l₂.winnersCount := by
  obtain ⟨w, ws, l, h, hl, hp⟩ := Sample.run_lottery
    [Sample.configure 1000 500 10, Sample.create 1, Sample.buy 1 20 1, Sample.buy 1 21 1,
      Sample.buy 1 22 1, .tick (1000 + 24 * 60 * 60), Sample.attest 1 20 1,
      .tick (1000 + 72 * 60 * 60), Sample.finalize 1 0 [20, 21, 22]] 1
    (fun w l ↦ decide (l.settled = false ∧ l.selectedNumberOfWinners = 1) &&
      (Sample.ledgerOf w 1).isSome &&
      (exec Sample.rt Sample.Key.isWallet w (Sample.upload 1 10 [])).any fun w₁ ↦
        ((Sample.lotteryOf w₁ 1).any fun l ↦ decide (Lottery.selectedNumberOfWinners l = 1)) &&
        (exec Sample.rt Sample.Key.isWallet w₁ (Sample.finalize 1 0 [20, 21, 22])).any fun w₂ ↦
          (Sample.lotteryOf w₂ 1).isSome && (Sample.ledgerOf w₂ 1).any fun root ↦
            decide (FinalizationLedger.phase root = FinalizationPhase.completed))
    (by decide +kernel)
  simp only [Bool.and_eq_true, decide_eq_true_eq, Option.isSome_iff_exists] at hp
  obtain ⟨⟨⟨hset, hone⟩, root₀, hroot₀⟩, hupload⟩ := hp
  have hroot₀ : (w.view Sample.rt 1 .finalizationRoot).data ≠ .empty := by
    simp [unwrap_finalizationLedger.mp hroot₀]
  obtain ⟨w₁, hs, hp₁⟩ := Sample.step_ok hupload
  obtain ⟨hlot, hfinalize⟩ := Bool.and_eq_true_iff.mp hp₁
  obtain ⟨l₁, hl₁, hone₁⟩ := (Option.any_eq_true _ _).mp hlot
  have hl₁ := unwrap_lottery.mp hl₁
  obtain ⟨w₂, hs₂, hp₂⟩ := Sample.step_ok hfinalize
  simp only [Bool.and_eq_true, Option.isSome_iff_exists] at hp₂
  obtain ⟨⟨l₂, hl₂⟩, hany⟩ := hp₂
  obtain ⟨root, hroot, hph⟩ := (Option.any_eq_true _ _).mp hany
  have hl₂ := unwrap_lottery.mp hl₂
  have hroot := unwrap_finalizationLedger.mp hroot
  -- no upload before the ledger, then one that leaves the number of winners as it is
  have hrun := h.restrict (P := Spare Sample.rt 1) fun a ha s pre entries accounts he ↦ by
    subst he
    simp [Sample.configure, Sample.create, Sample.buy, Sample.attest, Sample.finalize] at ha
  have hspare : Spare Sample.rt 1 w (Sample.upload 1 10 []) :=
    (hs.spare_iff h rfl hl hroot₀ hl₁).mpr ((of_decide_eq_true hone₁).trans hone.symm)
  have hspare₂ : Spare Sample.rt 1 w₁ (Sample.finalize 1 0 [20, 21, 22]) := by
    intro pre entries accounts he
    simp [Sample.finalize] at he
  obtain ⟨⟨l₁', hl₁', hsame⟩, -⟩ := (finalization_frozen hrun hl).1 hroot₀ hset [] _ _ w₁
    (by simp) ⟨hspare, hs⟩
  cases hl₁.symm.trans hl₁'
  obtain ⟨htarget, hcount⟩ :=
    (finalization_frozen ((hrun.step ⟨hspare, hs⟩).step ⟨hspare₂, hs₂⟩) hl₂).2 root hroot
      (of_decide_eq_true hph)
  exact ⟨w, w₁, w₂, l, l₁, l₂, root, hl, hroot₀, ⟨hspare, hs⟩, hl₁, hsame, hs₂, hl₂, hroot,
    of_decide_eq_true hph, htarget, hcount⟩

/-- One of three participants attests and asks for two winners. Finalized with the one winner there
can be, the lottery takes an upload of no reveals, and asks for two winners from then on. -/
theorem late_upload_changes_winners :
    ∃ (acts : List (Action Sample.Key)) (w w' : World Sample.Key) (ws : List (World Sample.Key))
      (l l' : Lottery Sample.Key) (root : FinalizationLedger Sample.Key),
      (system Sample.rt).History acts (w :: ws) ∧ (w.view Sample.rt 1 .lottery).data = .lottery l ∧
      l.settled = false ∧ l.selectedNumberOfWinners = 1 ∧
      (w.view Sample.rt 1 .finalizationRoot).data ≠ .empty ∧
      Step Sample.rt w (Sample.upload 1 10 []) w' ∧
      (w'.view Sample.rt 1 .lottery).data = .lottery l' ∧ l'.selectedNumberOfWinners = 2 ∧
      (w'.view Sample.rt 1 .finalizationRoot).data = .finalizationLedger root ∧
      root.phase = .completed ∧ root.targetWinners = 1 ∧ l'.winnersCount = 1 := by
  obtain ⟨w, ws, l, h, hl, hp⟩ := Sample.run_lottery
    [Sample.configure 1000 500 10, Sample.create 1, Sample.buy 1 20 1, Sample.buy 1 21 1,
      Sample.buy 1 22 1, .tick (1000 + 24 * 60 * 60), Sample.attest 1 20 2,
      .tick (1000 + 72 * 60 * 60), Sample.finalize 1 0 [20, 21, 22],
      Sample.finalize 1 0 [20, 21, 22]] 1
    (fun w l ↦ decide (l.settled = false ∧ l.selectedNumberOfWinners = 1) &&
      (Sample.ledgerOf w 1).isSome &&
      (exec Sample.rt Sample.Key.isWallet w (Sample.upload 1 10 [])).any fun w' ↦
        ((Sample.lotteryOf w' 1).any fun l ↦
          decide (Lottery.selectedNumberOfWinners l = 2 ∧ l.winnersCount = 1)) &&
        (Sample.ledgerOf w' 1).any fun root ↦ decide
          (FinalizationLedger.phase root = FinalizationPhase.completed ∧
            root.targetWinners = 1)) (by decide +kernel)
  simp only [Bool.and_eq_true, decide_eq_true_eq] at hp
  obtain ⟨⟨⟨hset, hone⟩, hsome⟩, hupload⟩ := hp
  obtain ⟨w', hs, hp'⟩ := Sample.step_ok hupload
  simp only [Bool.and_eq_true] at hp'
  obtain ⟨hlot, hled⟩ := hp'
  obtain ⟨l', hl', hp'⟩ := (Option.any_eq_true _ _).mp hlot
  obtain ⟨root, hroot, hp''⟩ := (Option.any_eq_true _ _).mp hled
  obtain ⟨root₀, hroot₀⟩ := Option.isSome_iff_exists.mp hsome
  obtain ⟨htwo, hwc⟩ := of_decide_eq_true hp'
  obtain ⟨hph, htarget⟩ := of_decide_eq_true hp''
  exact ⟨_, w, w', ws, l, l', root, h, hl, hset, hone,
    by simp [unwrap_finalizationLedger.mp hroot₀], hs, unwrap_lottery.mp hl', htwo,
    unwrap_finalizationLedger.mp hroot, hph, htarget, hwc⟩

end DailyLottery
