import DailyLottery.Runs.Ready
import DailyLottery.Execute

set_option linter.unusedSectionVars false

namespace DailyLottery

open Lib

variable {K : Type} [DecidableEq K] [Inhabited K] {rt : Runtime K} {acts as : List (Action K)}
  {w w' w₁ w₂ : World K} {ws : List (World K)} {id : ℕ} {l : Lottery K} {r : Round K}

namespace Instruction

def Buys : Instruction K → Prop
  | .buyTickets _ _ => True
  | _ => False

def Attests : Instruction K → Prop
  | .attestUploaded _ => True
  | .attestReveal _ _ => True
  | _ => False

/-- The instructions that only go through once nobody can attest any more. -/
def Settles : Instruction K → Prop
  | .uploadReveals _ => True
  | .finalizeWinners => True
  | .finalizeNoAttesters => True
  | _ => False

end Instruction

/-- The activity and time guards of `BuyTickets`. -/
structure Lottery.BuyOpen (l : Lottery K) (now : ℤ) : Prop where
  not_started : ¬(0 < l.uploadStartUnix ∧ l.uploadStartUnix ≤ now)
  active : l.isActive = true
  window : l.isInBuyWindow now = true

theorem Step.buys {pre : List (K × Bytes)} {ix : Instruction K} {accounts : List (AccountInfo K)}
    (hw : WellTyped rt w) (hs : Step rt w (.instruction pre ix accounts) w')
    (hon : CallsOn rt accounts id) (hb : ix.Buys) :
    ∃ l count, (w.view rt id .lottery).data = .lottery l ∧ l.CanBuy w.clock count := by
  cases hs with
  | instruction hsig hok =>
    cases ix with
    | buyTickets hash count =>
      obtain ⟨l, hl, hon', hbuy, -⟩ := BuyTickets.effect hw hsig hok
      obtain rfl := hon.eq hon'
      exact ⟨l, count, hl, hbuy⟩
    | _ => cases hb

theorem Step.attests {pre : List (K × Bytes)} {ix : Instruction K}
    {accounts : List (AccountInfo K)} (hw : WellTyped rt w)
    (hs : Step rt w (.instruction pre ix accounts) w') (hon : CallsOn rt accounts id)
    (ha : ix.Attests) : ∃ l c p vote, (w.view rt id .lottery).data = .lottery l ∧
      l.CanAttest c w.clock p vote ∧
      ∃ l', (w'.view rt id .lottery).data = .lottery l' ∧ l'.attestedCount ≠ 0 := by
  cases hs with
  | instruction hsig hok =>
    cases ix with
    | attestUploaded vote =>
      obtain ⟨c, l, p, -, hl, hon', -, -, -, hcan, -, hv⟩ := AttestUploaded.effect hw hok
      obtain rfl := hon.eq hon'
      refine ⟨l, c, p, vote, hl, hcan, l.countAttestation w.clock, by rw [hv]; simp, ?_⟩
      rw [Lottery.countAttestation_eq]
      exact Nat.succ_ne_zero _
    | attestReveal vote plaintext =>
      obtain ⟨c, l, p, p', l₁, l₂, t, t', v, -, hl, hon', -, -, hcan, -, -, -, -, hrec, -, -,
        -, hconc, -, -, hv⟩ := AttestReveal.effect hw hsig hok
      obtain rfl := hon.eq hon'
      refine ⟨l, c, p, vote, hl, hcan, l₂, by rw [hv]; simp, ?_⟩
      obtain ⟨-, rfl⟩ := AttestReveal.recordReveal_ok hrec
      obtain rfl := AttestReveal.conclude_ok hconc
      exact Nat.succ_ne_zero _
    | _ => cases ha

theorem Lottery.phase_upload_iff {t : ℤ} (hpc : l.participantsCount ≠ 1) : l.phase t = .upload ↔
    l.settled = false ∧ l.remediationActive t = false ∧ ¬0 < l.settlementStartUnix ∧
      0 < l.uploadStartUnix ∧ l.uploadStartUnix ≤ t ∧ t ≤ l.uploadDeadlineUnix := by
  unfold Lottery.phase
  split_ifs with hset hone hrem hss hwin hbuy
  · simp [hset]
  · exact absurd hone.1 hpc
  · simp [hrem]
  · simp [hss]
  · simpa [hset, hrem, hss] using hwin
  · simp [hwin]
  · simp [hwin]

theorem Lottery.phase_buy_iff {t : ℤ} (hstart : 0 < l.uploadStartUnix)
    (hle : l.uploadStartUnix ≤ l.buyDeadlineUnix) (hdl : l.buyDeadlineUnix ≤ l.uploadDeadlineUnix) :
    l.phase t = .buy ↔ l.settled = false ∧ l.remediationActive t = false ∧
      ¬0 < l.settlementStartUnix ∧ t < l.uploadStartUnix := by
  unfold Lottery.phase
  split_ifs with hset hone hrem hss hwin hbuy
  · simp [hset]
  · simp only [false_iff, not_and, not_lt]
    omega
  · simp [hrem]
  · simp [hss]
  · simp only [false_iff, not_and, not_lt]
    omega
  · simp only [true_iff]
    exact ⟨by simpa using hset, by simpa using hrem, hss, by omega⟩
  · simp only [false_iff, not_and, not_lt]
    omega

namespace Round

theorem Routed.remediation_after (h : r.Routed) {t : ℤ}
    (hne : r.lottery.remediationStartUnix ≠ 0) (ht : r.now ≤ t) :
    r.lottery.uploadDeadlineUnix < t := by
  obtain ⟨-, -, -, he⟩ := h.remediated hne
  exact (Lottery.uploadElapsed_eq_true.mp he).2.trans_le ht

theorem Routed.remediationActive_of_le (h : r.Routed) {t : ℤ} (ht : r.now ≤ t)
    (hle : t ≤ r.lottery.uploadDeadlineUnix) : r.lottery.remediationActive t = false := by
  by_contra hact
  simp only [Lottery.remediationActive, Bool.not_eq_false, Bool.and_eq_true,
    decide_eq_true_eq] at hact
  have := h.remediation_after (by omega) ht
  omega

theorem Routed.remediationExpired_of_le (h : r.Routed) {t : ℤ} (ht : r.now ≤ t)
    (hle : t ≤ r.lottery.uploadDeadlineUnix) : r.lottery.remediationExpired t = false := by
  by_contra hexp
  rw [Bool.not_eq_false, Lottery.remediationExpired_eq_true] at hexp
  have hne : r.lottery.remediationStartUnix ≠ 0 := fun hz ↦ by
    have := h.unremediated hz
    omega
  have := h.remediation_after hne ht
  omega

/-- At the very end of the upload window, with nobody attested, the phase is still "upload". -/
theorem Invariant.upload_at_deadline (h : r.Invariant rt) (hwin : r.Windowed)
    (htwo : 2 ≤ r.lottery.participantsCount) (hset : r.lottery.settled = false)
    (hatt : r.lottery.attestedCount = 0) (ht : r.now ≤ r.lottery.uploadDeadlineUnix) :
    r.lottery.phase r.lottery.uploadDeadlineUnix = .upload := by
  have htime := h.books.timely
  have hpos : 0 < r.lottery.buyStartUnix := htime.opened (zero_lt_two.trans_le htwo)
  have hdl : r.lottery.buyDeadlineUnix ≤ r.lottery.uploadDeadlineUnix := htime.deadline_le
  have hle := hwin.start_le hpos
  rw [Lottery.phase_upload_iff (by omega)]
  refine ⟨hset, h.routed.remediationActive_of_le ht le_rfl, ?_, htime.start_pos hpos,
    by omega, le_rfl⟩
  intro hss
  obtain ⟨-, -, hall | hel⟩ := htime.settling hss.ne'
  · have hall : r.lottery.attestedCount = r.lottery.participantsCount := hall
    omega
  · exact absurd (Lottery.uploadElapsed_eq_true.mp hel).2 ht.not_gt

end Round

/-- `FinalizeNoAttesters` settles lottery `id`. -/
def Cancels (rt : Runtime K) (id : ℕ) (w w' : World K) : Prop :=
  (∃ pre accounts, Step rt w (.instruction pre .finalizeNoAttesters accounts) w') ∧
    (∃ l, (w.view rt id .lottery).data = .lottery l ∧ l.settled = false) ∧
    ∃ l, (w'.view rt id .lottery).data = .lottery l ∧ l.settled = true

theorem Cancels.guards (hw : WellTyped rt w) (h : Cancels rt id w w')
    (hl : (w.view rt id .lottery).data = .lottery l) : l.settled = false ∧
      ((l.participantsCount = 1 ∧ l.uploadsComplete = true) ∨
        (0 < l.uploadDeadlineUnix ∧ l.uploadDeadlineUnix ≤ w.clock)) ∧
      (l.attestedCount = 0 ∨ l.remediationExpired w.clock = true) ∧
      (w'.view rt id .lottery).data = .lottery l.settle := by
  obtain ⟨⟨pre, accounts, hs⟩, ⟨l₀, hl₀, hset⟩, l', hl', hset'⟩ := h
  rw [hl] at hl₀
  cases hl₀
  cases hs with
  | instruction _ hok =>
    obtain ⟨l₁, hl₁, -, ⟨-, rfl⟩ | ⟨-, hready, hcase, ht, hv⟩⟩ := FinalizeNoAttesters.effect hw hok
    · rw [hl] at hl'
      cases hl'
      simp [hset] at hset'
    · by_cases hid : id = l₁.id
      · subst hid
        rw [hl] at hl₁
        cases hl₁
        exact ⟨hset, hready, hcase, by rw [hv]; simp⟩
      · rw [ht.view_of_ne hid, hl] at hl'
        cases hl'
        simp [hset] at hset'

theorem cancels_of_guards (h : (system rt).History acts (w :: ws))
    (hl : (w.view rt id .lottery).data = .lottery l) (hset : l.settled = false)
    (hready : (l.participantsCount = 1 ∧ l.uploadsComplete = true) ∨
      (0 < l.uploadDeadlineUnix ∧ l.uploadDeadlineUnix ≤ w.clock))
    (hcase : l.attestedCount = 0 ∨ l.remediationExpired w.clock = true) :
    ∃ w', Cancels rt id w w' ∧ w'.view rt id = (w.view rt id).setData .lottery
      (.lottery l.settle) := by
  obtain ⟨c, hm⟩ := mounted h hl
  obtain ⟨r, -, hi, hr, rfl, -⟩ := represented h hl
  obtain ⟨b, hv⟩ := hr.vault.resolve_right fun he ↦ by
    simp [hi.funded.vault_open hset] at he
  obtain ⟨w', hok⟩ := FinalizeNoAttesters.succeeds hm hv hset hready hcase
  obtain ⟨l₁, hl₁, hon, heff⟩ := FinalizeNoAttesters.effect hm.typed hok
  have hcall : CallsOn rt (FinalizeNoAttesters.accounts rt id c.authority) id := rfl
  obtain rfl := hcall.eq hon
  cases hl.symm.trans hl₁
  obtain ⟨hset', -⟩ | ⟨-, -, -, -, hv'⟩ := heff
  · simp [hset] at hset'
  · refine ⟨w', ⟨⟨[], _, .instruction FinalizeNoAttesters.accounts_keys hok⟩, ⟨_, hl, hset⟩,
      r.lottery.settle, ?_, rfl⟩, hv'⟩
    rw [hv']
    simp

/-- No participant can attest at lottery `id` in `w`. -/
def NoAttestation (rt : Runtime K) (id : ℕ) (w : World K) : Prop :=
  ∀ pre ix accounts w', Step rt w (.instruction pre ix accounts) w' → CallsOn rt accounts id →
    ¬ix.Attests

/-- With at least two participants, a lottery is never cancelled while its phase is "upload",
unless it is at the last instant of the window and nobody has attested. -/
theorem cancel_after_upload_iff (h : (system rt).History acts (w :: ws))
    (hl : (w.view rt id .lottery).data = .lottery l) (htwo : 2 ≤ l.participantsCount) {t : ℤ}
    (ht : w.clock ≤ t) (hlt : t < 2 ^ 63) :
    ((∃ w', Cancels rt id { w with clock := t } w') →
      l.phase t ≠ .upload ∧ ∀ t', t ≤ t' → NoAttestation rt id { w with clock := t' }) ↔
    l.settled = true ∨ l.attestedCount ≠ 0 ∨ t ≠ l.uploadDeadlineUnix := by
  obtain ⟨c, hm⟩ := mounted h hl
  obtain ⟨r, hreach, hi, hr, rfl, -⟩ := represented h hl
  have htime := hi.books.timely
  have hdl : 0 < r.lottery.uploadDeadlineUnix :=
    (htime.opened (zero_lt_two.trans_le htwo)).trans htime.buy_lt
  rw [hr.now] at ht
  constructor
  · intro hclear
    by_contra hnot
    rw [not_or, not_or, not_not, not_not, Bool.not_eq_true] at hnot
    obtain ⟨hset, hatt, rfl⟩ := hnot
    have h' := h.step (.tick (hr.now ▸ ht) hlt)
    obtain ⟨w', hcancel, -⟩ := cancels_of_guards h' hl hset (.inr ⟨hdl, le_rfl⟩) (.inl hatt)
    exact (hclear ⟨w', hcancel⟩).1
      (hi.upload_at_deadline (Round.windowed hreach) htwo hset hatt ht)
  · rintro hcond ⟨w', hcancel⟩
    obtain ⟨hset, hready, hcase, -⟩ := hcancel.guards (hm.tick t).typed hl
    have hdt : r.lottery.uploadDeadlineUnix ≤ t := by
      rcases hready with ⟨hone, -⟩ | ⟨-, hle⟩
      · omega
      · exact hle
    have hno {t' : ℤ} (ht' : t ≤ t') : r.lottery.phase t' ≠ .upload := by
      intro hph
      obtain ⟨-, -, -, -, hle⟩ := Lottery.phase_upload hph
      obtain rfl : t = r.lottery.uploadDeadlineUnix := by omega
      rcases hcase with hatt | hexp
      · simp [hset, hatt] at hcond
      · rw [hi.routed.remediationExpired_of_le ht le_rfl] at hexp
        cases hexp
    refine ⟨hno le_rfl, fun t' ht' pre ix accounts w₂ hs hon ha ↦ ?_⟩
    obtain ⟨l₀, c', p, vote, hl₀, hcan, -⟩ := hs.attests (hm.tick t').typed hon ha
    cases hl.symm.trans hl₀
    exact hno ht' hcan.phase

/-- One second after the window a lottery nobody attested is cancelled. -/
theorem cancel_after_upload_sample : ∃ (w : World Sample.Key) (l : Lottery Sample.Key) (t : ℤ),
    (w.view Sample.rt 1 .lottery).data = .lottery l ∧ t = l.uploadDeadlineUnix + 1 ∧
    (∃ w', Cancels Sample.rt 1 { w with clock := t } w') ∧
    ∀ t', t ≤ t' → NoAttestation Sample.rt 1 { w with clock := t' } := by
  obtain ⟨w, ws, l, h, hl, hp⟩ := Sample.run_lottery
    [Sample.configure 1000 500 10, Sample.create 1, Sample.buy 1 20 1, Sample.buy 1 21 2,
      .tick (1001 + 48 * 60 * 60)] 1
    (fun w l ↦ decide (2 ≤ l.participantsCount ∧ w.clock = l.uploadDeadlineUnix + 1 ∧
        w.clock < 2 ^ 63 ∧ l.settled = false) &&
      Sample.after w (Sample.cancel 1) 1 fun l ↦ l.settled) (by decide +kernel)
  simp only [Bool.and_eq_true, decide_eq_true_eq] at hp
  obtain ⟨⟨htwo, ht, hlt, hset⟩, hcancel⟩ := hp
  obtain ⟨w', l', hs, hl', hset'⟩ := Sample.after_ok hcancel
  have hc : Cancels Sample.rt 1 w w' := ⟨⟨_, _, hs⟩, ⟨l, hl, hset⟩, l', hl', hset'⟩
  refine ⟨w, l, w.clock, hl, ht, ⟨w', hc⟩, ?_⟩
  exact ((cancel_after_upload_iff h hl htwo le_rfl hlt).mpr (.inr (.inr (by omega))) ⟨w', hc⟩).2

/-- At the last instant of the window a lottery nobody has attested yet can be cancelled, and could
still be attested. -/
theorem cancel_at_deadline : ∃ acts w ws l, (system Sample.rt).History acts (w :: ws) ∧
    (w.view Sample.rt 1 .lottery).data = .lottery l ∧ 2 ≤ l.participantsCount ∧
    l.phase w.clock = .upload ∧ (∃ w', Cancels Sample.rt 1 w w') ∧
    ¬NoAttestation Sample.rt 1 w := by
  obtain ⟨w, ws, l, h, hl, hp⟩ := Sample.run_lottery
    [Sample.configure 1000 500 10, Sample.create 1, Sample.buy 1 20 1, Sample.buy 1 21 2,
      .tick (1000 + 48 * 60 * 60)] 1
    (fun w l ↦ decide (2 ≤ l.participantsCount ∧ l.phase w.clock = .upload ∧ l.settled = false) &&
      Sample.after w (Sample.cancel 1) 1 (fun l ↦ l.settled) &&
      Sample.after w (Sample.attest 1 20 1) 1 fun _ ↦ true) (by decide +kernel)
  simp only [Bool.and_eq_true, decide_eq_true_eq] at hp
  obtain ⟨⟨⟨htwo, hph, hset⟩, hcancel⟩, hattest⟩ := hp
  obtain ⟨w', l', hs, hl', hset'⟩ := Sample.after_ok hcancel
  obtain ⟨w'', -, hs', -⟩ := Sample.after_ok hattest
  refine ⟨_, w, ws, l, h, hl, htwo, hph, ⟨w', ⟨_, _, hs⟩, ⟨l, hl, hset⟩, l', hl', hset'⟩, ?_⟩
  exact fun hno ↦ hno _ _ _ _ hs' rfl trivial

namespace Round

/-- Nobody can attest any more: the lottery is settled, being finalized, or attested and past its
window. -/
def Shut (r : Round K) : Prop :=
  r.lottery.settled = true ∨ r.ledger ≠ none ∨ r.lottery.attestedCount ≠ 0 ∧
    (r.lottery.settlementStartUnix ≠ 0 ∨ r.lottery.uploadElapsed r.now = true)

variable {r' : Round K}

theorem Shut.onward (h : r.Shut) (ho : r.Onward r') : r'.Shut := by
  rcases h with hset | hl | ⟨hatt, hend⟩
  · exact .inl (ho.settled hset)
  · exact .inr (.inl (ho.ledger hl))
  · have hle := ho.attested
    refine .inr (.inr ⟨by omega, hend.imp ho.settling fun hel ↦ ?_⟩)
    rw [Lottery.uploadElapsed_eq_true] at hel ⊢
    rw [ho.moved hatt]
    exact ⟨hel.1, hel.2.trans_le ho.now⟩

theorem Shut.no_sale (h : r.Shut) (hi : r.Invariant rt) (count : ℕ) :
    ¬r.lottery.CanBuy r.now count := by
  intro hbuy
  rcases h with hset | hl | ⟨hatt, -⟩
  · rw [hbuy.not_settled] at hset
    cases hset
  · exact hbuy.not_started ((hi.routed.sealed_of_ledger hl).not_started hi.books)
  · exact hbuy.not_started (hi.books.timely.started (.inl hatt))

theorem Shut.not_upload (h : r.Shut) (hi : r.Invariant rt) : r.lottery.phase r.now ≠ .upload := by
  intro hph
  obtain ⟨hset, hss, -, -, hle⟩ := Lottery.phase_upload hph
  rcases h with hset' | hl | ⟨-, hne | hel⟩
  · rw [hset] at hset'
    cases hset'
  · exact (hi.routed.sealed_of_ledger hl).not_upload hi.books hph
  · exact hss (hi.books.timely.settling hne).1
  · have := (Lottery.uploadElapsed_eq_true.mp hel).2
    omega

end Round

/-- No ticket of lottery `id` can be bought in `w`. -/
def NoSale (rt : Runtime K) (id : ℕ) (w : World K) : Prop :=
  ∀ pre ix accounts w', Step rt w (.instruction pre ix accounts) w' → CallsOn rt accounts id →
    ¬ix.Buys

theorem Represents.noSale (hw : WellTyped rt w) (hr : Represents rt acts w ws id r)
    (hno : ∀ count, ¬r.lottery.CanBuy r.now count) : NoSale rt id w := by
  intro pre ix accounts w' hs hon hb
  obtain ⟨l, count, hl, hbuy⟩ := hs.buys hw hon hb
  obtain rfl := hr.eq_lottery hl
  exact hno count (hr.now ▸ hbuy)

theorem Represents.noAttestation (hw : WellTyped rt w) (hr : Represents rt acts w ws id r)
    (hno : r.lottery.phase r.now ≠ .upload) : NoAttestation rt id w := by
  intro pre ix accounts w' hs hon ha
  obtain ⟨l, c, p, vote, hl, hcan, -⟩ := hs.attests hw hon ha
  obtain rfl := hr.eq_lottery hl
  exact hno (hr.now ▸ hcan.phase)

theorem Step.settles {pre : List (K × Bytes)} {ix : Instruction K} {accounts : List (AccountInfo K)}
    (h : (system rt).History acts (w :: ws)) (hpos : 0 < w.clock)
    (hs : Step rt w (.instruction pre ix accounts) w') (hon : CallsOn rt accounts id)
    (hx : ix.Settles) : ∃ r, (Round.machine rt).Reachable r ∧ r.Shut ∧
      Represents rt (.instruction pre ix accounts :: acts) w' (w :: ws) id r := by
  have hw := (consistent h).typed
  have hlottery {l : Lottery K} (hl : (w'.view rt id .lottery).data = .lottery l)
      (hshut : l.settled = true ∨ (w'.view rt id .finalizationRoot).data ≠ .empty ∨
        l.attestedCount ≠ 0 ∧ (l.settlementStartUnix ≠ 0 ∨ l.uploadElapsed w'.clock = true)) :
      ∃ r, (Round.machine rt).Reachable r ∧ r.Shut ∧
        Represents rt (.instruction pre ix accounts :: acts) w' (w :: ws) id r := by
    obtain ⟨r, hreach, -, hr, rfl, -⟩ := represented (h.step hs) hl
    refine ⟨r, hreach, ?_, hr⟩
    rcases hshut with hset | hne | ⟨hatt, hend⟩
    · exact .inl hset
    · refine .inr (.inl fun hnone ↦ hne ?_)
      rw [hr.ledger, hnone]
      rfl
    · rw [hr.now] at hend
      exact .inr (.inr ⟨hatt, hend⟩)
  cases hs with
  | instruction hsig hok =>
    cases ix with
    | uploadReveals entries =>
      obtain ⟨c, l, isAuthority, l₁, l', t, t', ds, lotteryAi, rest, w₁, w₂, v, -, hl, hon', -, -,
        hphase, -, -, -, -, -, -, hinc, -, hv⟩ := UploadReveals.effect hw hsig hok
      obtain rfl := hon.eq hon'
      obtain ⟨-, -, -, -, -, -, hatt, rfl⟩ := UploadReveals.checkPhase_ok hphase
      obtain ⟨-, hl'⟩ := UploadReveals.includeUploads_ok hinc
      refine hlottery (l := l') (by rw [hv]; simp) (.inr (.inr ⟨?_, .inl ?_⟩))
      · rw [hl']
        exact hatt
      · rw [hl']
        dsimp only
        split <;> omega
    | finalizeWinners =>
      obtain ⟨c, l, -, hl, hon', heff⟩ := FinalizeWinners.effect hw hsig hok
      obtain rfl := hon.eq hon'
      cases heff with
      | done he hdone =>
        subst he
        refine hlottery hl ?_
        rcases hdone with hc | hset | ⟨-, -, -, -, root, hroot, -⟩
        · obtain ⟨r, -, hi, -, rfl, -⟩ := represented h hl
          exact .inl (hi.routed.complete hc).1
        · exact .inl hset
        · exact .inr (.inl (by simp [hroot]))
      | @missing l' _ _ _ hmiss hel _ hbegin ht _ hv =>
        have hatt := (Lottery.hasMissing_eq_true.mp hmiss).1
        refine hlottery (l := l') (by rw [hv]; simp) (.inr (.inr ?_))
        rw [ht.clock]
        obtain ⟨-, rfl⟩ | ⟨-, rfl⟩ := Lottery.beginRemediation_ok hbegin
        all_goals exact ⟨hatt.ne', .inr hel⟩
      | @chunk root _ _ _ _ _ _ l' root' _ _ _ _ _ _ hchunk =>
        exact hlottery (l := l') (by rw [hchunk.view]; simp)
          (.inr (.inl (by rw [hchunk.view]; simp)))
    | finalizeNoAttesters =>
      obtain ⟨l, hl, hon', ⟨hset, rfl⟩ | ⟨-, -, -, -, hv⟩⟩ := FinalizeNoAttesters.effect hw hok
      · obtain rfl := hon.eq hon'
        exact hlottery hl (.inl hset)
      · obtain rfl := hon.eq hon'
        exact hlottery (l := l.settle) (by rw [hv]; simp) (.inl rfl)
    | _ => cases hx

/-- What holds along every run whose clock is positive. -/
structure PhasesForward (rt : Runtime K) (id : ℕ) (w : World K) : Prop where
  sale : ∀ pre ix accounts w₁ as w₂, Step rt w (.instruction pre ix accounts) w₁ →
    CallsOn rt accounts id → (system rt).Path w₁ as w₂ → ix.Attests ∨ ix.Settles → NoSale rt id w₂
  attestation : ∀ pre ix accounts w₁ as w₂, Step rt w (.instruction pre ix accounts) w₁ →
    CallsOn rt accounts id → (system rt).Path w₁ as w₂ → ix.Settles → NoAttestation rt id w₂
  windows : ∀ as w' l l', (system rt).Path w as w' → (w.view rt id .lottery).data = .lottery l →
    (w'.view rt id .lottery).data = .lottery l' →
    l'.uploadStartUnix ≤ l.uploadStartUnix ∧ l.uploadDeadlineUnix ≤ l'.uploadDeadlineUnix
  buy : ∀ l t, (w.view rt id .lottery).data = .lottery l → w.clock ≤ t →
    (l.BuyOpen t ↔ l.phase t = .buy)

theorem buyStart_mem (h : (system rt).History acts (w :: ws))
    (hl : (w.view rt id .lottery).data = .lottery l) : ∃ w₀ ∈ w :: ws,
      l.buyStartUnix = w₀.clock := by
  have hall := h.invariant (P := fun _ ws ↦ ∀ w ∈ ws.head?, ∀ l : Lottery K,
    (w.view rt id .lottery).data = .lottery l → ∃ w₀ ∈ ws, l.buyStartUnix = w₀.clock) ?_ ?_
  · exact hall w rfl l hl
  · rintro s hs t ht l hl
    cases ht
    rw [World.view, Runtime.slotKey, hs.unused] at hl
    cases hl
  · rintro as ss s a t hh hP hs u hu l hl
    cases hu
    have hc := consistent hh
    by_cases he : (s.view rt id .lottery).data = .empty
    · rcases hc.follow_absent hs (hc.absent id he) with ha | ⟨r, hcreated, hr⟩
      · rw [ha.data] at hl
        cases hl
      · obtain rfl := hr.eq_lottery hl
        obtain ⟨_, _, _, _, _, _, _, hnew, -⟩ := hcreated.lottery
        obtain ⟨-, -, -, hbuy, -⟩ := Lottery.new_ok hnew
        exact ⟨t, List.mem_cons_self, hbuy.trans hr.now.symm⟩
    · obtain ⟨r, hreach, hr⟩ := hc.round id he
      have hi := Round.invariant hreach
      obtain ⟨r', hst, hr'⟩ := hc.follow hs hr hi
      obtain rfl := hr'.eq_lottery hl
      obtain ⟨w₀, hw₀, hbuy⟩ := hP s rfl r.lottery hr.lottery
      exact ⟨w₀, List.mem_cons_of_mem _ hw₀,
        (Round.Onward.of_step hi.books hst).buyStart.trans hbuy⟩

theorem Round.Invariant.buyOpen_iff (h : r.Invariant rt) (hwin : r.Windowed)
    (hpos : 0 < r.lottery.buyStartUnix) {t : ℤ} (ht : r.now ≤ t) :
    r.lottery.BuyOpen t ↔ r.lottery.phase t = .buy := by
  have htime := h.books.timely
  have hle := hwin.start_le hpos
  have hdl : r.lottery.buyDeadlineUnix ≤ r.lottery.uploadDeadlineUnix := htime.deadline_le
  have hstart : 0 < r.lottery.uploadStartUnix := htime.start_pos hpos
  have hbought : r.lottery.buyStartUnix ≤ r.now := htime.bought
  rw [Lottery.phase_buy_iff hstart hle hdl]
  constructor
  · rintro ⟨hns, hact, hwindow⟩
    have hlt : t < r.lottery.uploadStartUnix := by omega
    have hset : r.lottery.settled = false := by
      rw [Lottery.isActive, Bool.and_eq_true, Bool.not_eq_true'] at hact
      exact hact.2
    refine ⟨hset, h.routed.remediationActive_of_le ht (by omega), fun hss ↦ ?_, hlt⟩
    obtain ⟨-, hpc, hall | hel⟩ := htime.settling hss.ne'
    · have hatt : r.books.lottery.attestedCount ≠ 0 := by omega
      have hstarted : 0 < r.lottery.uploadStartUnix ∧ r.lottery.uploadStartUnix ≤ r.now :=
        htime.started (.inl hatt)
      omega
    · have hdl' : r.lottery.uploadDeadlineUnix < r.now := (Lottery.uploadElapsed_eq_true.mp hel).2
      omega
  · rintro ⟨hset, -, -, hlt⟩
    have hst : r.lottery.getStatus ≠ .settled := fun he ↦ by
      rw [h.routed.status.mp he] at hset
      cases hset
    refine ⟨by omega, ?_, ?_⟩
    · rw [Lottery.isActive, hset]
      cases hs : r.lottery.getStatus with
      | active => rfl
      | settled => exact absurd hs hst
    · rw [Lottery.isInBuyWindow, if_neg (by omega)]
      exact decide_eq_true (by omega)

/-- No ordering of calls reopens an earlier phase of a lottery. -/
theorem phases_forward (h : (system rt).History acts (w :: ws))
    (hpos : ∀ w₀ ∈ w :: ws, 0 < w₀.clock)
    (id : ℕ) : PhasesForward rt id w := by
  refine ⟨?_, ?_, ?_, ?_⟩
  · intro pre ix accounts w₁ as w₂ hs hon hp hix
    rcases hix with ha | hx
    · obtain ⟨-, -, -, -, -, -, l, hl, hatt⟩ := hs.attests (consistent h).typed hon ha
      obtain ⟨r, hreach, hi, hr, rfl, -⟩ := represented (h.step hs) hl
      obtain ⟨ws', cs, r', hh, -, hpath, hreach', hr'⟩ := represented_path (h.step hs) hp hr hreach
      have hle := (Round.Onward.of_path hreach hpath).attested
      have htime := (Round.invariant hreach').books.timely
      refine hr'.noSale (consistent hh).typed fun count hbuy ↦ hbuy.not_started ?_
      have hatt' : r'.books.lottery.attestedCount ≠ 0 := fun hz ↦ hatt (by
        have hz : r'.lottery.attestedCount = 0 := hz
        omega)
      exact htime.started (.inl hatt')
    · obtain ⟨r, hreach, hshut, hr⟩ := hs.settles h (hpos w List.mem_cons_self) hon hx
      obtain ⟨ws', cs, r', hh, -, hpath, hreach', hr'⟩ := represented_path (h.step hs) hp hr hreach
      exact hr'.noSale (consistent hh).typed
        ((hshut.onward (.of_path hreach hpath)).no_sale (Round.invariant hreach'))
  · intro pre ix accounts w₁ as w₂ hs hon hp hx
    obtain ⟨r, hreach, hshut, hr⟩ := hs.settles h (hpos w List.mem_cons_self) hon hx
    obtain ⟨ws', cs, r', hh, -, hpath, hreach', hr'⟩ := represented_path (h.step hs) hp hr hreach
    exact hr'.noAttestation (consistent hh).typed
      ((hshut.onward (.of_path hreach hpath)).not_upload (Round.invariant hreach'))
  · intro as w' l l' hp hl hl'
    obtain ⟨w₀, hw₀, hbuy⟩ := buyStart_mem h hl
    obtain ⟨r, hreach, hi, hr, rfl, -⟩ := represented h hl
    obtain ⟨ws', cs, r', hh, -, hpath, hreach', hr'⟩ := represented_path h hp hr hreach
    obtain rfl := hr'.eq_lottery hl'
    have hon := Round.Onward.of_path hreach hpath
    exact ⟨hon.start (by rw [hbuy]; exact hpos w₀ hw₀), hon.deadline⟩
  · intro l t hl ht
    obtain ⟨w₀, hw₀, hbuy⟩ := buyStart_mem h hl
    obtain ⟨r, hreach, hi, hr, rfl, -⟩ := represented h hl
    exact hi.buyOpen_iff (Round.windowed hreach) (by rw [hbuy]; exact hpos w₀ hw₀) (hr.now ▸ ht)

/-- After a reveal no ticket is sold, however the run goes on. -/
theorem phases_forward_sample : ∃ (w : World Sample.Key) (l : Lottery Sample.Key),
    (w.view Sample.rt 1 .lottery).data = .lottery l ∧ l.phase w.clock = .upload ∧
    PhasesForward Sample.rt 1 w := by
  obtain ⟨w, ws, h, hsuf, hp⟩ := Sample.run_from
    [Sample.configure 1000 500 10, Sample.create 1, Sample.buy 1 20 1, Sample.buy 1 21 2,
      .tick (1000 + 24 * 60 * 60), Sample.attest 1 20 1]
    (fun w ↦ (Sample.lotteryOf w 1).any fun l ↦ decide (Lottery.phase l w.clock = Phase.upload))
    (by decide +kernel)
  obtain ⟨l, hl, hp⟩ := (Option.any_eq_true _ _).mp hp
  exact ⟨w, l, unwrap_lottery.mp hl, of_decide_eq_true hp,
    phases_forward h (clocks_pos h hsuf (by decide)) 1⟩

end DailyLottery
