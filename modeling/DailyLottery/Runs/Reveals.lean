import DailyLottery.Runs.Roll
import DailyLottery.Execute

set_option linter.unusedSectionVars false

namespace DailyLottery

open Lib Ballot

variable {K : Type} [DecidableEq K] [Inhabited K] {rt : Runtime K} {acts : List (Action K)}
  {w : World K} {ws : List (World K)} {id : ℕ} {c : Config K} {l : Lottery K}

/-- The tally stored for a lottery counts its included ballots. -/
structure Tallied (rt : Runtime K) (w : World K) (id : ℕ) (c : Config K) (l : Lottery K)
    (bs : List (Ballot K)) (t : VoteTally K) : Prop where
  lottery : t.lottery = rt.lotteryKey id
  maxWinners : t.maxWinners = c.effectiveMaxWinners l.participantsCount
  processed : t.processedCount = l.providerUploadedCount
  weights : ∀ n, 1 ≤ n → n ≤ t.maxWinners → t.weights[n]? = some (weightOf bs n)
  firstSeen : ∀ n, 1 ≤ n → n ≤ t.maxWinners → t.firstSeen[n]? = some (firstSeenOf bs n)
  -- neither loader can find it unfit, whatever accounts the call supplies
  loads : ∀ (w₁ : World K) (l₁ : Lottery K) (payerAi tallyAi lotteryAi : AccountInfo K),
    w₁.accounts = w.accounts → rt.address (.voteTally lotteryAi.key) = tallyAi.key →
    lotteryAi.key = rt.lotteryKey id →
      AttestReveal.loadOrCreateTally rt w₁ l₁ (c.effectiveMaxWinners l.participantsCount) payerAi
        tallyAi lotteryAi = .ok (w₁, t) ∧
      UploadReveals.loadOrCreateTally rt w₁ l₁ (c.effectiveMaxWinners l.participantsCount) payerAi
        tallyAi lotteryAi = .ok (w₁, t)

/-- The counters, the hash and the tally of a lottery are folds over its ballots. -/
structure Bookkept (rt : Runtime K) (w : World K) (id : ℕ) (c : Config K) (l : Lottery K)
    (bs : List (Ballot K)) : Prop where
  attested : l.attestedCount = attestedOf bs
  included : l.providerUploadedCount = includedOf bs
  attested_of_included : ∀ x ∈ bs, x.included = true → x.attested = true
  hash : l.pocAggregateHash = digestOf bs
  complete : l.uploadsComplete = true → l.providerUploadedCount = l.attestedCount
  tally : ((w.view rt id .voteTally).data = .empty ∧ l.providerUploadedCount = 0) ∨
    ∃ t, (w.view rt id .voteTally).data = .voteTally t ∧ Tallied rt w id c l bs t

theorem Tallied.of_stored {t : VoteTally K} {bs : List (Ballot K)} (hw : WellTyped rt w)
    (ht : (w.view rt id .voteTally).data = .voteTally t)
    (hmw : t.maxWinners = c.effectiveMaxWinners l.participantsCount) (hcount : t.Counts bs)
    (hp : t.processedCount = l.providerUploadedCount) : Tallied rt w id c l bs t := by
  have hlk : t.lottery = rt.lotteryKey id := by
    have := (hw.fits id).holds (s := .voteTally) (by simp [ht])
    rwa [ht] at this
  have howner := (hw.fits id).owner (s := .voteTally) (by simp [ht])
  refine ⟨hlk, hmw, hp, fun n hn hle ↦ ?_, fun n hn hle ↦ ?_, ?_⟩
  · have hlt : n < t.weights.length := by rw [hcount.weights_length]; omega
    rw [List.getElem?_eq_getElem hlt, ← hcount.weights n hn hle, List.getD_eq_getElem _ _ hlt]
  · have hlt : n < t.firstSeen.length := by rw [hcount.firstSeen_length]; omega
    rw [List.getElem?_eq_getElem hlt, ← hcount.firstSeen n hn hle, List.getD_eq_getElem _ _ hlt]
  · intro w₁ l₁ payerAi tallyAi lotteryAi hacc hk hlotk
    have hk : tallyAi.key = rt.slotKey id .voteTally := by rw [← hk, hlotk]; rfl
    have hd : (w₁.accounts tallyAi.key).data = .voteTally t := by rw [hacc, hk]; exact ht
    have hown : (w₁.accounts tallyAi.key).owner = rt.programId := by rw [hacc, hk]; exact howner
    have hload : loadVoteTally rt w₁ tallyAi lotteryAi = .ok t := by
      simp only [loadVoteTally, bind_eq_ok]
      refine ⟨(), assertPdaOwned_eq_ok.mpr ⟨?_, hown⟩, readAccountData_ok ?_ ?_⟩
      · rw [hlotk, hk]
        rfl
      · simp [hd]
      · rw [hd, unwrap_voteTally]
    have hne : dataIsEmpty w₁ tallyAi = false := by
      simp [dataIsEmpty, hd, AccountData.isEmpty]
    constructor
    · simp only [AttestReveal.loadOrCreateTally, hne, Bool.false_eq_true, if_false,
        hload, bind_eq_ok, rejectIf_eq_ok, exists_const]
      exact ⟨t, rfl, by simp [hlk, hlotk, hmw], rfl⟩
    · simp only [UploadReveals.loadOrCreateTally, hne, Bool.false_eq_true, if_false,
        hload, bind_eq_ok, rejectIf_eq_ok, exists_const]
      exact ⟨t, rfl, by simp [hlk, hlotk], by simp [hmw], rfl⟩

/-- The reveal bookkeeping in every run. -/
theorem reveals_bookkept (h : (system rt).History acts (w :: ws))
    (hc : (w.accounts rt.configKey).data = .config c)
    (hl : (w.view rt id .lottery).data = .lottery l)
    (htwo : 2 ≤ l.participantsCount) :
    ∃ ps, Roll rt (w :: ws) id ps ∧ Bookkept rt w id c l (ps.map Participant.ballot) := by
  obtain ⟨r, -, hi, hr, rfl, -⟩ := represented h hl
  obtain rfl := hr.eq_config hc
  have hb := hi.books.balanced
  refine ⟨r.participants, hr.roll hi.books, ?_⟩
  refine ⟨hb.attested, hb.included, fun x hx ↦ (hb.valid x hx).attested, ?_, fun huc ↦ ?_, ?_⟩
  · exact hb.hash.resolve_right fun hone ↦ by
      have : r.lottery.participantsCount = 1 := hone.1
      omega
  · have hne : r.lottery.participantsCount ≠ 1 := by omega
    exact hb.included.trans (((hb.complete huc).resolve_left hne).symm.trans hb.attested.symm)
  · cases ht : r.tally with
    | none =>
      refine .inl ⟨?_, hb.included.trans (hb.untallied ht)⟩
      rw [hr.tally, ht]
      rfl
    | some t =>
      obtain ⟨hcount, hmw, hp⟩ := hb.tallied t (by simp [Round.books, ht])
      exact .inr ⟨t, hr.tally_eq ht, .of_stored (consistent h).typed (hr.tally_eq ht) hmw hcount
        (hp.trans hb.included.symm)⟩

/-- Two participants, one of whom has revealed. -/
theorem reveals_bookkept_sample : ∃ w ws c l, (w.view Sample.rt 1 .lottery).data = .lottery l ∧
    l.providerUploadedCount = 1 ∧ ∃ ps, Roll Sample.rt (w :: ws) 1 ps ∧
      Bookkept Sample.rt w 1 c l (ps.map Participant.ballot) := by
  obtain ⟨w, ws, l, h, hl, hp⟩ := Sample.run_lottery
    [Sample.configure 1000 500 10, Sample.create 1, Sample.buy 1 20 1, Sample.buy 1 21 2,
      .tick (1000 + 24 * 60 * 60), Sample.attest 1 20 1] 1
    (fun _ l ↦ l.participantsCount == 2 && l.providerUploadedCount == 1) (by decide +kernel)
  simp only [Bool.and_eq_true, beq_iff_eq] at hp
  obtain ⟨c, hc, -⟩ := ((consistent h).exists_iff 1).mp (by simp [hl])
  exact ⟨w, ws, c, l, hl, hp.2, reveals_bookkept h hc hl hp.1.ge⟩

end DailyLottery
