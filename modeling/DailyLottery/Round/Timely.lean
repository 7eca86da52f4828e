import DailyLottery.Round.Enrolled

set_option linter.unusedSectionVars false

namespace DailyLottery

open Lib Ballot

variable {K : Type} [DecidableEq K] [Inhabited K]

/-- Nobody can attest any more. -/
def Lottery.Closed (l : Lottery K) (now : ℤ) : Prop :=
  0 < l.participantsCount ∧
    (l.attestedCount = l.participantsCount ∨ l.uploadElapsed now = true)

theorem Lottery.uploadElapsed_eq_true {l : Lottery K} {now : ℤ} :
    l.uploadElapsed now = true ↔ 0 < l.uploadDeadlineUnix ∧ l.uploadDeadlineUnix < now := by
  simp [uploadElapsed]

theorem Lottery.allAttested_eq_true {l : Lottery K} :
    l.allAttested = true ↔ 0 < l.participantsCount ∧ l.attestedCount = l.participantsCount := by
  simp [allAttested]

theorem Lottery.isInBuyWindow_eq_true {l : Lottery K} {now : ℤ} (h : l.isInBuyWindow now = true) :
    0 < l.buyStartUnix ∧ l.buyStartUnix ≤ now ∧ now < l.buyDeadlineUnix := by
  unfold isInBuyWindow at h
  split at h
  · cases h
  · exact of_decide_eq_true h

theorem Lottery.countAttestation_eq (l : Lottery K) (now : ℤ) : l.countAttestation now = { l with
    attestedCount := l.attestedCount + 1
    settlementStartUnix :=
      if { l with attestedCount := l.attestedCount + 1 }.allAttested = true ∧
        l.settlementStartUnix = 0 then now else l.settlementStartUnix } := by
  unfold countAttestation
  simp only [Bool.and_eq_true, decide_eq_true_eq]
  by_cases h : { l with attestedCount := l.attestedCount + 1 }.allAttested = true ∧
      l.settlementStartUnix = 0
  · rw [if_pos h, if_pos h]
  · rw [if_neg h, if_neg h]

namespace Books

/-- Purchases come first, then attestations, then the settlement. -/
structure Timely (b : Books K) : Prop where
  now_lt : b.now < 2 ^ 63
  bought : b.lottery.buyStartUnix ≤ b.now
  buy_lt : b.lottery.buyStartUnix < b.lottery.uploadDeadlineUnix
  deadline_le : b.lottery.buyDeadlineUnix ≤ b.lottery.uploadDeadlineUnix
  opened : 0 < b.lottery.participantsCount → 0 < b.lottery.buyStartUnix
  start_pos : 0 < b.lottery.buyStartUnix → 0 < b.lottery.uploadStartUnix
  started : b.lottery.attestedCount ≠ 0 ∨ b.lottery.uploadsComplete = true ∨ b.tally ≠ none →
    0 < b.lottery.uploadStartUnix ∧ b.lottery.uploadStartUnix ≤ b.now
  settling : b.lottery.settlementStartUnix ≠ 0 → 0 < b.lottery.settlementStartUnix ∧
    b.lottery.Closed b.now
  complete : b.lottery.uploadsComplete = true →
    b.lottery.participantsCount = 1 ∨ b.lottery.settlementStartUnix ≠ 0

namespace Timely

variable {b b' : Books K}

theorem unstarted (h : b.Timely) {count : ℕ} (hbuy : b.lottery.CanBuy b.now count) :
    b.lottery.attestedCount = 0 ∧ b.lottery.uploadsComplete = false ∧ b.tally = none := by
  have hn : ¬(b.lottery.attestedCount ≠ 0 ∨ b.lottery.uploadsComplete = true ∨ b.tally ≠ none) :=
    fun hs ↦ hbuy.not_started (h.started hs)
  rw [not_or, not_or] at hn
  exact ⟨not_not.mp hn.1, Bool.eq_false_iff.mpr hn.2.1, not_not.mp hn.2.2⟩

theorem now_pos (h : b.Timely) (hpc : 0 < b.lottery.participantsCount) : 0 < b.now :=
  (h.opened hpc).trans_le h.bought

theorem step (h : b.Timely) (hs : b.Step b') : b'.Timely := by
  cases hs with
  | @quiet now config l hle hlt _ hl hset =>
    have hl := Lottery.sameSales hl
    have hclosed : b.lottery.Closed b.now → l.Closed now := by
      unfold Lottery.Closed
      rw [Lottery.uploadElapsed_eq_true, Lottery.uploadElapsed_eq_true, hl.participantsCount,
        hl.attestedCount, hl.uploadDeadlineUnix]
      omega
    refine ⟨hlt h.now_lt, ?_, ?_, ?_, ?_, ?_, ?_, ?_, ?_⟩ <;> dsimp only
    · rw [hl.buyStartUnix]
      exact h.bought.trans hle
    · rw [hl.buyStartUnix, hl.uploadDeadlineUnix]
      exact h.buy_lt
    · rw [hl.buyDeadlineUnix, hl.uploadDeadlineUnix]
      exact h.deadline_le
    · rw [hl.participantsCount, hl.buyStartUnix]
      exact h.opened
    · rw [hl.buyStartUnix, hl.uploadStartUnix]
      exact h.start_pos
    · rw [hl.attestedCount, hl.uploadsComplete, hl.uploadStartUnix]
      exact fun hs ↦ (h.started hs).imp_right (·.trans hle)
    · rcases hset with hset | ⟨hz, hset, hatt, -, hpc, hopen⟩
      · rw [hset]
        exact fun hs ↦ (h.settling hs).imp_right hclosed
      · have helapsed : b.lottery.uploadElapsed b.now = true := by
          rcases hopen with huc | he
          · rcases h.complete huc with hpc' | hne
            · omega
            · exact absurd hz hne
          · exact he
        intro _
        rw [hset]
        exact ⟨h.now_pos (by omega), hclosed ⟨by omega, .inr helapsed⟩⟩
    · rw [hl.uploadsComplete, hl.participantsCount]
      rcases hset with hset | ⟨hz, hset, -, -, hpc, -⟩
      · rw [hset]
        exact h.complete
      · intro _
        rw [hset]
        have := h.now_pos (by omega)
        omega
  | @buyFirst wallet count hbuy _ _ =>
    obtain ⟨hatt, huc, htally⟩ := h.unstarted hbuy
    obtain ⟨hpos, -, hlt⟩ := Lottery.isInBuyWindow_eq_true hbuy.window
    refine ⟨h.now_lt, h.bought, h.buy_lt, h.deadline_le, fun _ ↦ hpos, h.start_pos, h.started,
      ?_, ?_⟩
    · intro hs
      obtain ⟨-, hpc, hall | helapsed⟩ := h.settling hs
      · omega
      · rw [Lottery.uploadElapsed_eq_true] at helapsed
        have := h.deadline_le
        omega
    · intro hc
      exact absurd (huc.symm.trans hc) (by decide)
  | @buyMore i x count hbuy hx =>
    exact ⟨h.now_lt, h.bought, h.buy_lt, h.deadline_le, h.opened, h.start_pos,
      h.started, h.settling, h.complete⟩
  | @beginReveal att upl start deadline complete hash selected hns hset huc hatt hupl hstart hdl hpc =>
    have hdle : b.lottery.uploadDeadlineUnix ≤ deadline := by
      rw [hdl]
      exact (le_max_left _ _).trans (le_max_left _ _)
    have hns' : ¬(b.lottery.attestedCount ≠ 0 ∨ b.lottery.uploadsComplete = true ∨
      b.tally ≠ none) :=
      fun hs ↦ hns (h.started hs)
    rw [not_or, not_or] at hns'
    have hstart_pos : 0 < b.lottery.buyStartUnix → 0 < start ∧ start ≤ b.now := by
      intro hpos
      have := h.start_pos hpos
      have := h.bought
      rw [hstart]
      split <;> omega
    refine ⟨h.now_lt, h.bought, h.buy_lt.trans_le hdle, h.deadline_le.trans hdle, h.opened,
      fun hpos ↦ (hstart_pos hpos).1, ?_, ?_, ?_⟩ <;> dsimp only
    · rintro (hatt | hc | ht)
      · exact absurd hatt hns'.1
      · rcases hpc with ⟨-, rfl, -⟩ | ⟨hpc, -⟩
        · cases hc
        · exact hstart_pos (h.opened (by omega))
      · exact absurd ht hns'.2.2
    · intro hs
      exact absurd (h.settling hs).1 hset
    · intro hc
      rcases hpc with ⟨-, rfl, -⟩ | ⟨hpc, -⟩
      · cases hc
      · exact .inl hpc
  | @attest i x vote hx hph _ _ hatt =>
    obtain ⟨-, hset, hpos, hle, hdl⟩ := Lottery.phase_upload hph
    rw [Lottery.countAttestation_eq]
    refine ⟨h.now_lt, h.bought, h.buy_lt, h.deadline_le, h.opened, h.start_pos, fun _ ↦ ⟨hpos, hle⟩,
      ?_, ?_⟩ <;> dsimp only
    · split
      · next hall =>
        rw [Lottery.allAttested_eq_true] at hall
        exact fun _ ↦ ⟨by omega, hall.1.1, .inl hall.1.2⟩
      · intro hs
        exact absurd (h.settling hs).1 hset
    · intro hc
      refine (h.complete hc).imp_right fun hs ↦ ?_
      exact absurd (h.settling hs).1 hset
  | @reveal i x vote selected digest l t hx hph _ _ _ _ _ hl =>
    obtain ⟨-, hset, hpos, hle, hdl⟩ := Lottery.phase_upload hph
    subst hl
    rw [AttestReveal.updatePhase_eq]
    refine ⟨h.now_lt, h.bought, h.buy_lt, h.deadline_le, h.opened, h.start_pos, fun _ ↦ ⟨hpos, hle⟩,
      ?_, ?_⟩ <;> dsimp only
    · split
      · next hall =>
        rw [Lottery.allAttested_eq_true] at hall
        exact fun _ ↦ ⟨by omega, hall.1.1, .inl hall.1.2⟩
      · intro hs
        exact absurd (h.settling hs).1 hset
    · intro hc
      split at hc
      · next hall =>
        rcases hall.2 with hall | he
        · have hz : b.lottery.settlementStartUnix = 0 := by
            by_contra hs
            exact hset (h.settling hs).1
          rw [if_pos ⟨hall, hz⟩]
          exact .inr (by omega)
        · rw [Lottery.uploadElapsed_eq_true] at he
          dsimp only at he
          omega
      · refine (h.complete hc).imp_right fun hs ↦ ?_
        exact absurd (h.settling hs).1 hset
  | upload huc hpc hopen hatt hstart _ hsweep =>
    obtain ⟨hpos, hle⟩ := h.started (.inl hatt)
    refine ⟨h.now_lt, h.bought, h.buy_lt, h.deadline_le, h.opened, h.start_pos, fun _ ↦ ⟨hpos, hle⟩,
      ?_, ?_⟩ <;> dsimp only
    · intro _
      rw [hstart]
      split
      · next hz =>
        refine ⟨by omega, zero_lt_one.trans hpc, ?_⟩
        rcases hopen with he | hall | hne
        · exact .inr he
        · exact .inl (Lottery.allAttested_eq_true.mp hall).2
        · exact absurd hz hne
      · next hne => exact h.settling hne
    · intro _
      rw [hstart]
      split <;> omega

end Timely

end Books

end DailyLottery
