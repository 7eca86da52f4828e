import DailyLottery.Runs.Phases

set_option linter.unusedSectionVars false

namespace DailyLottery

open Lib

variable {K : Type} [DecidableEq K] [Inhabited K] {rt : Runtime K} {acts : List (Action K)}
  {w w' : World K} {ws : List (World K)} {id : ℕ} {l : Lottery K} {r : Round K}

/-- The refund of a participant goes through, and brings what its tickets cost. -/
def Refunds (rt : Runtime K) (id : ℕ) (w : World K) (l : Lottery K) (p : Participant K) : Prop :=
  ∃ w', Step rt w (.instruction [] .claimRefund (ClaimRefund.accounts rt id p.wallet)) w' ∧
    (w'.accounts p.wallet).lamports =
      (w.accounts p.wallet).lamports + l.ticketPriceLamports * p.ticketsBought

theorem refunds_of_unclaimed (h : (system rt).History acts (w :: ws))
    (hl : (w.view rt id .lottery).data = .lottery l) (hset : l.settled = true)
    (hwc : l.winnersCount = 0) {p : Participant K}
    (hp : pastOf rt (w :: ws) id p.wallet = some p) (hcl : p.refundClaimed = false) :
    Refunds rt id w l p := by
  obtain ⟨c, hm⟩ := mounted h hl
  obtain ⟨r, -, hi, hr, rfl, -⟩ := represented h hl
  obtain ⟨hmem, -⟩ := (hr.pastOf_eq _ _).mp hp
  have hclosable : ¬r.lottery.Closable p := by
    rintro (⟨-, -, hc⟩ | ⟨-, hne⟩)
    · simp [hcl] at hc
    · omega
  obtain ⟨hpd, -⟩ := (hr.roster.stored p hmem).resolve_right fun he ↦ hclosable he.2
  obtain ⟨hopen, hdue⟩ := hi.unclaimed hwc hmem hcl
  obtain ⟨b, hv⟩ := hr.vault.resolve_right fun he ↦ by simp [hopen] at he
  have hcount : r.participants.countP Participant.refundClaimed < r.participants.length :=
    List.countP_lt_length_iff.mpr ⟨p, hmem, by simp [hcl]⟩
  have hlen : r.participants.length = r.lottery.participantsCount := by
    have := hi.books.enrolled.length
    rwa [Round.books, List.length_map] at this
  have hrefunds := hi.funded.refunds hwc
  have hmax : r.lottery.participantsCount ≤ Sizes.maxParticipants := hi.books.enrolled.le
  have htickets : p.ticketsBought ≤ r.lottery.totalTickets := by
    have ht : r.lottery.totalTickets = (r.participants.map Participant.ticketsBought).sum := by
      have := hi.books.enrolled.tickets
      rwa [Round.books, List.map_map] at this
    rw [ht]
    exact List.le_sum_of_mem (List.mem_map_of_mem hmem)
  have hfunds : r.lottery.totalFunds = r.lottery.ticketPriceLamports * r.lottery.totalTickets :=
    hi.books.enrolled.funds
  have hlt : r.lottery.totalFunds < 2 ^ 64 := hi.books.enrolled.funds_lt
  have hpos : 0 < p.ticketsBought :=
    hi.books.enrolled.tickets_pos p.ballot (List.mem_map_of_mem hmem)
  obtain ⟨w', hok⟩ := ClaimRefund.succeeds hm hv hpd hset hwc (hi.routed.payout hwc) hpos.ne' hcl
    ((Nat.mul_le_mul_left _ htickets).trans_lt (hfunds ▸ hlt))
    (by rw [hr.lamports, hi.funded.vault hopen]; omega)
    (by have : Sizes.maxParticipants < 2 ^ 32 := by decide
        omega)
  have hf := hr.roster.foreign p hmem
  refine ⟨w', .instruction (ClaimRefund.accounts_keys hf) hok, ?_⟩
  obtain ⟨l₁, p₁, hl₁, hon, hpw, hp₁, -, -, -, -, -, -, -, -, -, -, -, hlam⟩ :=
    ClaimRefund.effect hm.typed (ClaimRefund.accounts_keys hf) hok
  have hcall : CallsOn rt (ClaimRefund.accounts rt id p.wallet) id := rfl
  obtain rfl := hcall.eq hon
  cases hl.symm.trans hl₁
  obtain hpw : p.wallet = p₁.wallet := Option.some.inj hpw
  rw [hlam p.wallet hf, if_pos hpw.symm]
  rw [← hpw, hpd] at hp₁
  cases hp₁
  rfl

/-- A sole participant's money comes back after the upload window exactly when that participant has
not attested. -/
theorem sole_participant_recovers_iff (h : (system rt).History acts (w :: ws))
    (hl : (w.view rt id .lottery).data = .lottery l) (hone : l.participantsCount = 1)
    (hset : l.settled = false) {t : ℤ} (ht : w.clock ≤ t) (hdl : l.uploadDeadlineUnix < t)
    (hlt : t < 2 ^ 63) : ∃ p, Roll rt (w :: ws) id [p] ∧
      ((∃ w', Cancels rt id { w with clock := t } w' ∧ Refunds rt id w' l p) ↔
        l.attestedCount = 0) := by
  have h' : (system rt).History (.tick t :: acts) ({ w with clock := t } :: w :: ws) :=
    h.step (.tick ht hlt)
  obtain ⟨r, hreach, hi, hr, rfl, -⟩ := represented h hl
  have hroll := hr.roll hi.books
  have hlen : r.participants.length = 1 := by
    have := hi.books.enrolled.length
    rw [Round.books, List.length_map] at this
    exact this.trans hone
  obtain ⟨p, hps⟩ := List.length_eq_one_iff.mp hlen
  rw [hps] at hroll
  refine ⟨p, hroll, ?_, fun hatt ↦ ?_⟩
  · rintro ⟨w', hcancel, -⟩
    obtain ⟨-, -, hatt | hexp, -⟩ := hcancel.guards (consistent h').typed hl
    · exact hatt
    · -- with one participant no remediation ever starts
      have hstart : r.lottery.remediationStartUnix = 0 := by
        by_contra hne
        have := (Round.windowed hreach).two_le hne
        omega
      have := hi.routed.unremediated hstart
      rw [Lottery.remediationExpired_eq_true] at hexp
      omega
  · have htime := hi.books.timely
    have hpos : 0 < r.lottery.uploadDeadlineUnix :=
      (htime.opened (by rw [show r.books.lottery.participantsCount = 1 from hone]; exact one_pos)).trans
        htime.buy_lt
    obtain ⟨w', hcancel, hv⟩ := cancels_of_guards h' hl hset (.inr ⟨hpos, hdl.le⟩) (.inl hatt)
    refine ⟨w', hcancel, ?_⟩
    obtain ⟨⟨pre, accounts, hs⟩, -⟩ := hcancel
    have hl' : (w'.view rt id .lottery).data = .lottery r.lottery.settle := by
      rw [hv]
      simp
    have hp : p ∈ r.participants := by simp [hps]
    have hpd := (hr.stored hi.routed hp).resolve_right fun he ↦ by simp [hset] at he
    have hwc : r.lottery.winnersCount = 0 := by
      by_contra hne
      have hseal := hi.routed.sealed_of_ledger (hi.routed.won hne)
      exact absurd hseal.two_le (by rw [show r.books.lottery.participantsCount = 1 from hone]; decide)
    have hcl : p.refundClaimed = false := hi.funded.unclaimed (.inl hset) p hp
    refine refunds_of_unclaimed (l := r.lottery.settle) (h'.step hs) hl' rfl hwc ?_ hcl
    rw [pastOf_cons, View.lastIn, hv]
    simp only [View.setData_apply, reduceCtorEq, if_false]
    rw [show (World.view rt { w with clock := t } id (.participant p.wallet)).data =
      .participant p from hpd]

/-- A sole participant who has not attested gets the price of three tickets back. -/
theorem sole_participant_recovers_sample :
    ∃ (acts : List (Action Sample.Key)) (w : World Sample.Key) (ws : List (World Sample.Key))
      (l : Lottery Sample.Key) (p : Participant Sample.Key),
      (system Sample.rt).History acts (w :: ws) ∧ (w.view Sample.rt 1 .lottery).data = .lottery l ∧
      l.participantsCount = 1 ∧ l.attestedCount = 0 ∧ Roll Sample.rt (w :: ws) 1 [p] ∧
      ∃ w', Cancels Sample.rt 1 { w with clock := l.uploadDeadlineUnix + 1 } w' ∧
        Refunds Sample.rt 1 w' l p := by
  obtain ⟨w, ws, l, h, hl, hp⟩ := Sample.run_lottery
    [Sample.configure 1000 500 10, Sample.create 1, Sample.buy 1 20 3] 1
    (fun w l ↦ decide (l.participantsCount = 1 ∧ l.attestedCount = 0 ∧ l.settled = false ∧
      w.clock ≤ l.uploadDeadlineUnix ∧ l.uploadDeadlineUnix + 1 < 2 ^ 63)) (by decide +kernel)
  obtain ⟨hone, hatt, hset, hle, hlt⟩ := of_decide_eq_true hp
  obtain ⟨p, hroll, hiff⟩ := sole_participant_recovers_iff h hl hone hset
    (hle.trans (Int.le_add_one le_rfl)) (Int.lt_succ _) hlt
  exact ⟨_, w, ws, l, p, h, hl, hone, hatt, hroll, hiff.mpr hatt⟩

/-- A sole participant who attests cannot have the lottery cancelled, a day after the window or
ever. -/
theorem sole_attester_locked :
    ∃ (acts : List (Action Sample.Key)) (w : World Sample.Key) (ws : List (World Sample.Key))
      (l : Lottery Sample.Key),
      (system Sample.rt).History acts (w :: ws) ∧ (w.view Sample.rt 1 .lottery).data = .lottery l ∧
      l.participantsCount = 1 ∧ l.settled = false ∧ l.uploadDeadlineUnix < w.clock ∧
      ¬∃ w', Cancels Sample.rt 1 w w' := by
  obtain ⟨w, ws, l, h, hl, hp⟩ := Sample.run_lottery
    [Sample.configure 1000 500 10, Sample.create 1, Sample.buy 1 20 3,
      .tick (1000 + 24 * 60 * 60), Sample.attest 1 20 1, .tick (1000 + 72 * 60 * 60)] 1
    (fun w l ↦ decide (l.participantsCount = 1 ∧ l.settled = false ∧
      l.uploadDeadlineUnix < w.clock ∧ l.attestedCount ≠ 0 ∧ l.remediationExpired w.clock = false))
    (by decide +kernel)
  obtain ⟨hone, hset, hdl, hatt, hexp⟩ := of_decide_eq_true hp
  refine ⟨_, w, ws, l, h, hl, hone, hset, hdl, ?_⟩
  rintro ⟨w', hcancel⟩
  obtain ⟨-, -, hzero | htrue, -⟩ := hcancel.guards (consistent h).typed hl
  · exact hatt hzero
  · rw [hexp] at htrue
    cases htrue

end DailyLottery
