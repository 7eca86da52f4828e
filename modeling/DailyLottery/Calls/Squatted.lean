import DailyLottery.Calls.Lawful

set_option linter.unusedSectionVars false

namespace DailyLottery

open Lib

variable {K : Type} [DecidableEq K] [Inhabited K] {rt : Runtime K} {w w' : World K}

/-- Lamports sent to an address before an account was created there. -/
structure Account.Squatted (a : Account K) : Prop where
  funded : 0 < a.lamports
  owner : a.owner = default
  data : a.data = .empty

/-- Neither `create_account` nor anybody's signature gets rid of them. -/
theorem Step.squatted {a : Action K} {s : Seeds K} (hs : Step rt w a w')
    (h : (w.accounts (rt.address s)).Squatted) :
    (w'.accounts (rt.address s)).Squatted ∧
      (w.accounts (rt.address s)).lamports ≤ (w'.accounts (rt.address s)).lamports := by
  have hsame (he : w'.accounts (rt.address s) = w.accounts (rt.address s)) :
      (w'.accounts (rt.address s)).Squatted ∧
        (w.accounts (rt.address s)).lamports ≤ (w'.accounts (rt.address s)).lamports := by
    rw [he]
    exact ⟨h, le_rfl⟩
  cases hs with
  | @instruction _ pre ix accounts hsig hok =>
    have hlaw := (processInstruction_acts pre ix w' hok).lawful
    have hforeign : ¬Pays accounts w (rt.address s) := by
      rintro ⟨⟨ai, hai, hk, hsigned⟩, -⟩
      exact hsig ai hai hsigned s hk
    have howner : (w'.accounts (rt.address s)).owner = default := by
      by_contra hne
      obtain ⟨-, -, -, -, -, hz | hp⟩ := hlaw.owner _ fun he ↦ hne (he.trans h.owner)
      · exact h.funded.ne' hz
      · exact hforeign hp
    have hdata : (w'.accounts (rt.address s)).data = .empty := by
      by_contra hne
      obtain ⟨-, ho, -⟩ := hlaw.data _ fun he ↦ hne (he.trans h.data)
      exact rt.programId_ne_default (ho.symm.trans howner)
    have hle : (w.accounts (rt.address s)).lamports ≤ (w'.accounts (rt.address s)).lamports := by
      by_contra hlt
      rcases hlaw.debit _ (not_le.mp hlt) with ⟨-, ho, -⟩ | ⟨-, hp⟩
      · exact rt.programId_ne_default (ho.symm.trans h.owner)
      · exact hforeign hp
    exact ⟨⟨h.funded.trans_le hle, howner, hdata⟩, hle⟩
  | tick => exact hsame rfl
  | deposit key n =>
    by_cases hk : rt.address s = key
    · rw [← hk, World.setLamports, World.accounts_setAccount_self]
      have hle := Nat.le_add_right (w.accounts (rt.address s)).lamports n
      exact ⟨⟨h.funded.trans_le hle, h.owner, h.data⟩, hle⟩
    · exact hsame (World.accounts_setAccount_of_ne _ _ hk)
  | outside account hk => exact hsame (World.accounts_setAccount_of_ne _ _ (hk s).symm)
  | @reap key hz =>
    refine hsame (World.accounts_setAccount_of_ne _ _ fun hk ↦ ?_)
    rw [← hk] at hz
    exact h.funded.ne' hz

/-- An address of the program that anybody sent lamports to before its account was created is lost:
no run creates the account any more, and nobody gets the lamports back. -/
theorem squatted_forever {acts : List (Action K)} {s : Seeds K} (hp : (system rt).Path w acts w')
    (h : (w.accounts (rt.address s)).Squatted) :
    (w'.accounts (rt.address s)).Squatted ∧
      (w.accounts (rt.address s)).lamports ≤ (w'.accounts (rt.address s)).lamports := by
  induction hp with
  | nil => exact ⟨h, le_rfl⟩
  | cons hs _ ih =>
    obtain ⟨h₁, hle⟩ := Step.squatted hs h
    obtain ⟨h', hle'⟩ := ih h₁
    exact ⟨h', hle.trans hle'⟩

/-- One lamport at the ledger of the first lottery, which is created, sells tickets and takes a reveal
without it. -/
theorem squatted_forever_sample : ∃ (w' : World Sample.Key) (l : Lottery Sample.Key)
    (t : VoteTally Sample.Key), (w'.view Sample.rt 1 .lottery).data = .lottery l ∧
      l.participantsCount = 2 ∧ (w'.view Sample.rt 1 .voteTally).data = .voteTally t ∧
      (w'.accounts (.finalizationRoot (Sample.lotteryKey 1))).data = .empty ∧
      1 ≤ (w'.accounts (.finalizationRoot (Sample.lotteryKey 1))).lamports := by
  have hok : (execAll Sample.rt Sample.Key.isWallet [Sample.configure 1000 500 10, Sample.create 1,
      Sample.buy 1 20 1, Sample.buy 1 21 1, .tick (1000 + 24 * 60 * 60), Sample.attest 1 20 1]
      (Sample.genesis.setLamports (.finalizationRoot (Sample.lotteryKey 1)) 1)).any (fun w' ↦
        (Sample.lotteryOf w' 1).any (fun l ↦ decide (Lottery.participantsCount l = 2)) &&
          (AccountType.unwrap (w'.view Sample.rt 1 .voteTally).data).any
            fun t ↦ decide (VoteTally.processedCount (K := Sample.Key) t = 1)) = true := by
    decide +kernel
  obtain ⟨w', hw, hp⟩ := (Option.any_eq_true _ _).mp hok
  obtain ⟨hlot, htally⟩ := Bool.and_eq_true_iff.mp hp
  obtain ⟨l, hl, hcount⟩ := (Option.any_eq_true _ _).mp hlot
  obtain ⟨t, ht, -⟩ := (Option.any_eq_true _ _).mp htally
  have hsq : ((Sample.genesis.setLamports (.finalizationRoot (Sample.lotteryKey 1)) 1).accounts
      (Sample.rt.address (.finalizationRoot
        (Sample.lotteryKey 1)))).Squatted := ⟨by decide, rfl, rfl⟩
  obtain ⟨hsquatted, hle⟩ := squatted_forever (execAll_path Sample.foreign_of_isWallet hw) hsq
  exact ⟨w', l, t, unwrap_lottery.mp hl, of_decide_eq_true hcount, unwrap_voteTally.mp ht,
    hsquatted.data, hle⟩

end DailyLottery
