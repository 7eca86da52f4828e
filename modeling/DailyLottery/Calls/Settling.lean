import DailyLottery.Calls.Complete
import DailyLottery.Runs.Phases

set_option linter.unusedSectionVars false

namespace DailyLottery

open Lib

variable {K : Type} [DecidableEq K] [Inhabited K] {rt : Runtime K} {acts as : List (Action K)}
  {w w' : World K} {ws : List (World K)} {id : ℕ} {l l' : Lottery K} {r r' : Round K} {payer : K}

/-- The ways a lottery can go once its upload window is over. -/
inductive Route
  | refunds | uploads | winners
  deriving DecidableEq

namespace Lottery

/-- The way its counts and the clock leave open. -/
def route (l : Lottery K) (now : ℤ) : Route :=
  if l.attestedCount = 0 ∨ l.remediationExpired now = true then .refunds
  else if l.hasMissingAttestedReveals = true then .uploads
  else .winners

theorem route_refunds_iff {now : ℤ} :
    l.route now = .refunds ↔ l.attestedCount = 0 ∨ l.remediationExpired now = true := by
  unfold route
  split_ifs <;> simp_all

theorem route_winners_iff {now : ℤ} :
    l.route now = .winners ↔ l.attestedCount ≠ 0 ∧ l.hasMissingAttestedReveals = false := by
  unfold route
  split_ifs with h hm
  · simp only [false_iff, not_and]
    intro hne
    obtain ⟨-, hm⟩ := remediationExpired_eq_true.mp (h.resolve_left hne)
    simp [hm]
  · simp [hm]
  · rw [not_or] at h
    simp [h.1, hm]

theorem route_uploads_iff {now : ℤ} : l.route now = .uploads ↔
    l.hasMissingAttestedReveals = true ∧ l.remediationExpired now = false := by
  unfold route
  split_ifs with h hm
  · simp only [false_iff, not_and]
    intro hm
    have hne : l.attestedCount ≠ 0 := (hasMissing_eq_true.mp hm).1.ne'
    simp [h.resolve_left hne]
  · rw [not_or] at h
    simp [h.2, hm]
  · simp [hm]

theorem route_refunds_of_same {t t' : ℤ} (h : l.route t = .refunds) (ht : t ≤ t')
    (hatt : l'.attestedCount = l.attestedCount)
    (hprov : l'.providerUploadedCount = l.providerUploadedCount)
    (hdl : l'.remediationDeadlineUnix = l.remediationDeadlineUnix) : l'.route t' = .refunds := by
  rw [route_refunds_iff, remediationExpired_eq_true, hasMissing_eq_true] at h ⊢
  rw [hatt, hprov, hdl]
  omega

end Lottery

namespace Round

theorem Routed.not_complete (h : r.Routed) (hset : r.lottery.settled = false) :
    r.lottery.settlementComplete = false := by
  rw [Bool.eq_false_iff]
  intro hsc
  rw [(h.complete hsc).1] at hset
  cases hset

/-- The counts and deadlines stay. -/
structure Stays (r r' : Round K) : Prop where
  now_le : r.now ≤ r'.now
  uploadDeadlineUnix : r'.lottery.uploadDeadlineUnix = r.lottery.uploadDeadlineUnix
  attestedCount : r'.lottery.attestedCount = r.lottery.attestedCount
  providerUploadedCount : r'.lottery.providerUploadedCount = r.lottery.providerUploadedCount
  remediationDeadlineUnix : r'.lottery.remediationDeadlineUnix = r.lottery.remediationDeadlineUnix

theorem Step.of_elapsed (hel : r.lottery.uploadElapsed r.now = true) (hs : r.Step rt r') :
    r.Stays r' ∨
    (∃ isAuthority l t digests, UploadReveals.checkPhase r.lottery isAuthority r.now = .ok l ∧
      UploadReveals.includeUploads l t digests = .ok r'.lottery ∧ r'.now = r.now) ∨
    r.lottery.hasMissingAttestedReveals = true ∧ r.lottery.remediationStartUnix = 0 := by
  have hphase : r.lottery.phase r.now ≠ .upload := by
    intro hph
    obtain ⟨-, -, -, -, hle⟩ := Lottery.phase_upload hph
    have := (Lottery.uploadElapsed_eq_true.mp hel).2
    omega
  cases hs with
  | tick hle => exact .inl ⟨hle, rfl, rfl, rfl, rfl⟩
  | beginReveal _ _ hdl => exact absurd (Lottery.uploadElapsed_eq_true.mp hel) hdl
  | attestUploaded _ hcan => exact absurd hcan.phase hphase
  | attestReveal _ hcan => exact absurd hcan.phase hphase
  | uploadReveals hcheck _ _ hinc => exact .inr (.inl ⟨_, _, _, _, hcheck, hinc, rfl⟩)
  | beginRemediation _ _ _ hmiss _ hz => exact .inr (.inr ⟨hmiss, hz⟩)
  | aggregate _ _ _ _ _ hend =>
    split at hend
    · obtain ⟨_, _, _, _, _, _, _, rfl, -⟩ := FinalizeWinners.finishAggregation_ok hend
      exact .inl ⟨le_rfl, rfl, rfl, rfl, rfl⟩
    · cases hend
      exact .inl ⟨le_rfl, rfl, rfl, rfl, rfl⟩
  | selectLast _ _ _ _ _ _ _ _ hnext =>
    rcases FinalizeWinners.nextRound_ok hnext with ⟨-, hcomp⟩ | ⟨-, rfl, -⟩
    · obtain ⟨_, _, -, -, -, -, -, rfl, -⟩ := FinalizeWinners.completeFinalization_ok hcomp
      exact .inl ⟨le_rfl, rfl, rfl, rfl, rfl⟩
    · exact .inl ⟨le_rfl, rfl, rfl, rfl, rfl⟩
  | payBatch hpays =>
    obtain ⟨old, -, hrun⟩ := hpays.page_eq
    obtain ⟨bitmap, rfl⟩ := hrun.lottery
    exact .inl ⟨le_rfl, rfl, rfl, rfl, rfl⟩
  | payLast hpays _ _ hcomp =>
    obtain ⟨old, -, hrun⟩ := hpays.page_eq
    obtain ⟨bitmap, rfl⟩ := hrun.lottery
    obtain rfl := Lottery.completeSettlement_ok hcomp
    exact .inl ⟨le_rfl, rfl, rfl, rfl, rfl⟩
  | _ => exact .inl ⟨le_rfl, rfl, rfl, rfl, rfl⟩

theorem Stays.elapsed (h : r.Stays r') (hel : r.lottery.uploadElapsed r.now = true) :
    r'.lottery.uploadElapsed r'.now = true := by
  rw [Lottery.uploadElapsed_eq_true] at hel ⊢
  rw [h.uploadDeadlineUnix]
  exact ⟨hel.1, hel.2.trans_le h.now_le⟩

/-- The window is over and the money goes back. -/
structure Refunding (r : Round K) : Prop where
  elapsed : r.lottery.uploadElapsed r.now = true
  route : r.lottery.route r.now = .refunds

theorem Refunding.step (h : r.Refunding) (hi : r.Invariant rt) (hs : r.Step rt r') :
    r'.Refunding := by
  rcases hs.of_elapsed h.elapsed with hst | ⟨_, _, _, _, hcheck, -⟩ | ⟨hmiss, hz⟩
  · exact ⟨hst.elapsed h.elapsed, Lottery.route_refunds_of_same h.route hst.now_le hst.attestedCount
      hst.providerUploadedCount hst.remediationDeadlineUnix⟩
  · obtain ⟨hexp, -, -, -, -, -, hatt, -⟩ := UploadReveals.checkPhase_ok hcheck
    rcases Lottery.route_refunds_iff.mp h.route with hzero | hexp'
    · exact absurd hzero hatt
    · simp [hexp] at hexp'
  · have hdl := hi.routed.unremediated hz
    rcases Lottery.route_refunds_iff.mp h.route with hatt | hexp
    · have := (Lottery.hasMissing_eq_true.mp hmiss).1
      omega
    · have := (Lottery.remediationExpired_eq_true.mp hexp).1
      omega

theorem Refunding.path {cs : List Unit} (h : r.Refunding) (hreach : (machine rt).Reachable r)
    (hp : (machine rt).Path r cs r') : r'.Refunding := by
  have hboth := hp.invariant (P := fun r ↦ (machine rt).Reachable r ∧ r.Refunding)
    (fun s a t _ ⟨hr, hs⟩ hst ↦ ⟨hr.step hst, hs.step (invariant hr) hst⟩) ⟨hreach, h⟩
  exact hboth.2

/-- The window is over and every attested reveal is in. -/
structure Winning (r : Round K) : Prop where
  elapsed : r.lottery.uploadElapsed r.now = true
  attested : r.lottery.attestedCount ≠ 0
  no_missing : r.lottery.hasMissingAttestedReveals = false

theorem Winning.of_le (hel : r'.lottery.uploadElapsed r'.now = true) (h : r.Winning)
    (hatt : r'.lottery.attestedCount = r.lottery.attestedCount)
    (hle : r.lottery.providerUploadedCount ≤ r'.lottery.providerUploadedCount) : r'.Winning := by
  have hno := Lottery.hasMissing_eq_false.mp h.no_missing
  refine ⟨hel, hatt ▸ h.attested, Lottery.hasMissing_eq_false.mpr ?_⟩
  rw [hatt]
  exact hno.imp_right fun hprov ↦ hprov.trans hle

theorem Winning.step (h : r.Winning) (hi : r.Invariant rt) (hs : r.Step rt r') : r'.Winning := by
  rcases hs.of_elapsed h.elapsed with hst | ⟨_, _, _, digests, hcheck, hinc, hnow⟩ | ⟨hmiss, -⟩
  · exact h.of_le (hst.elapsed h.elapsed) hst.attestedCount hst.providerUploadedCount.ge
  · obtain ⟨-, -, -, -, -, -, -, rfl⟩ := UploadReveals.checkPhase_ok hcheck
    obtain ⟨-, hl'⟩ := UploadReveals.includeUploads_ok hinc
    refine h.of_le ?_ (by rw [hl']) ?_
    · rw [hl', hnow]
      exact h.elapsed
    · rw [hl']
      have hbal := hi.books.balanced
      have hmax : Sizes.maxParticipants < 2 ^ 63 := by decide
      have hle : r.lottery.providerUploadedCount ≤ Sizes.maxParticipants :=
        calc r.lottery.providerUploadedCount = Ballot.includedOf r.books.ballots := hbal.included
          _ ≤ Ballot.attestedOf r.books.ballots := hbal.included_le
          _ ≤ r.books.ballots.length := Ballot.attestedOf_le _
          _ = r.lottery.participantsCount := hi.books.enrolled.length
          _ ≤ Sizes.maxParticipants := hi.books.enrolled.le
      exact le_min (Nat.le_add_right _ _) (by omega)
  · simp [h.no_missing] at hmiss

theorem Winning.path {cs : List Unit} (h : r.Winning) (hreach : (machine rt).Reachable r)
    (hp : (machine rt).Path r cs r') : r'.Winning := by
  have hboth := hp.invariant (P := fun r ↦ (machine rt).Reachable r ∧ r.Winning)
    (fun s a t _ ⟨hr, hs⟩ hst ↦ ⟨hr.step hst, hs.step (invariant hr) hst⟩) ⟨hreach, h⟩
  exact hboth.2

end Round

/-- Once the window is over and no upload is waited for, the way a lottery goes never changes. -/
theorem route_kept (h : (system rt).History acts (w :: ws))
    (hl : (w.view rt id .lottery).data = .lottery l) (hel : l.uploadElapsed w.clock = true)
    (hroute : l.route w.clock ≠ .uploads)
    (hp : (system rt).Path w as w') : ∃ l', (w'.view rt id .lottery).data = .lottery l' ∧
      l'.uploadElapsed w'.clock = true ∧ l'.route w'.clock = l.route w.clock := by
  obtain ⟨r, hreach, hi, hr, rfl, -⟩ := represented h hl
  obtain ⟨ws', cs, r', hh, -, hpath, hreach', hr'⟩ := represented_path h hp hr hreach
  refine ⟨r'.lottery, hr'.lottery, ?_⟩
  rw [hr.now] at hel hroute ⊢
  rw [hr'.now]
  cases hway : r.lottery.route r.now with
  | refunds =>
    have hback := Round.Refunding.path ⟨hel, hway⟩ hreach hpath
    exact ⟨hback.elapsed, hback.route⟩
  | uploads => exact absurd hway hroute
  | winners =>
    obtain ⟨hatt, hmiss⟩ := Lottery.route_winners_iff.mp hway
    have hwon := Round.Winning.path (r := r) ⟨hel, hatt, hmiss⟩ hreach hpath
    exact ⟨hwon.elapsed, Lottery.route_winners_iff.mpr ⟨hwon.attested, hwon.no_missing⟩⟩

theorem not_ready_of_refunds (h : (system rt).History acts (w :: ws))
    (hl : (w.view rt id .lottery).data = .lottery l) (hel : l.uploadElapsed w.clock = true)
    (hway : l.route w.clock = .refunds) (hp : (system rt).Path w as w')
    (hl' : (w'.view rt id .lottery).data = .lottery l') : ¬l'.Ready w'.clock := by
  intro hready
  obtain ⟨r, hreach, hi, hr, rfl, -⟩ := represented h hl
  obtain ⟨ws', cs, r', -, -, hpath, -, hr'⟩ := represented_path h hp hr hreach
  obtain rfl := hr'.eq_lottery hl'
  have hback := Round.Refunding.path ⟨hr.now ▸ hel, hr.now ▸ hway⟩ hreach hpath
  have hwon : r'.lottery.route r'.now = .winners :=
    Lottery.route_winners_iff.mpr ⟨hready.attested, hready.no_missing⟩
  cases hback.route.symm.trans hwon

namespace Sample

/-- Two participants, one of them with a receipt whose reveal is missing after the window. -/
def awaiting : List (Action Key) :=
  [configure 1000 500 10, create 1, buy 1 20 1, buy 1 21 2, .tick (1000 + 24 * 60 * 60),
    attestSigned 1 20 1, .tick (1000 + 72 * 60 * 60)]

end Sample

/-- The missing reveal is brought and the winners are found, a day apart. -/
theorem route_kept_sample : ∃ (w w' : World Sample.Key) (l l' : Lottery Sample.Key),
    (system Sample.rt).Path w [.tick (1000 + 96 * 60 * 60), Sample.finalize 1 0 [20]] w' ∧
    l.route w.clock = .winners ∧ (w'.view Sample.rt 1 .lottery).data = .lottery l' ∧
    l'.route w'.clock = .winners := by
  obtain ⟨w, ws, l, w', h, hl, hpath, hp⟩ := Sample.run_path
    (Sample.awaiting ++ [Sample.upload 1 5 [20]])
    [.tick (1000 + 96 * 60 * 60), Sample.finalize 1 0 [20]] 1
    (fun w l _ ↦ l.uploadElapsed w.clock && decide (l.route w.clock = .winners)) (by decide +kernel)
  simp only [Bool.and_eq_true, decide_eq_true_eq] at hp
  obtain ⟨hel, hway⟩ := hp
  obtain ⟨l', hl', -, hway'⟩ := route_kept h hl hel (by simp [hway]) hpath
  exact ⟨w, w', l, l', hpath, hway, hl', hway'.trans hway⟩

theorem UploadReveals.route_of_step {pre : List (K × Bytes)} {entries : List (K × Bytes)}
    {accounts : List (AccountInfo K)} (h : (system rt).History acts (w :: ws))
    (hl : (w.view rt id .lottery).data = .lottery l) (htwo : 2 ≤ l.participantsCount)
    (hel : l.uploadElapsed w.clock = true)
    (hs : Step rt w (.instruction pre (.uploadReveals entries) accounts) w')
    (hon : CallsOn rt accounts id) (hne : entries ≠ []) : l.route w.clock = .uploads := by
  cases hs with
  | instruction hsig hok =>
    obtain ⟨id', -, hon', -, hall⟩ := follow (consistent h).typed hsig hok pre
      (.uploadReveals entries)
    obtain rfl := hon.eq hon'
    obtain ⟨r, -, hi, hr, rfl, -⟩ := represented h hl
    obtain ⟨-, -, isAuthority, es, l₁, t, ps, digests, l', -, hup, -⟩ := hall _ _ r hr
    obtain ⟨hexp, -, -, -, -, -, hatt, -⟩ := checkPhase_ok hup.phase
    rw [hr.now, Lottery.route_uploads_iff]
    refine ⟨?_, hexp⟩
    rw [hr.now] at hel
    -- with none missing there is nobody left to visit
    by_contra hmiss
    have hseal : r.books.Sealed := ⟨htwo, hatt, Bool.eq_false_iff.mpr hmiss, .inr hel⟩
    obtain ⟨rfl, -, -⟩ := hseal.no_visit hi.books
      (hup.sweep.map fun _ _ _ _ _ ↦ Round.ballot_includeVisit)
    have hnil := List.forall₂_nil_left_iff.mp hup.names
    rw [provided, ← List.length_eq_zero_iff, List.length_mergeSort, List.length_eq_zero_iff] at hnil
    exact hne hnil

theorem FinalizeWinners.route_of_step {pre : List (K × Bytes)} {accounts : List (AccountInfo K)}
    (h : (system rt).History acts (w :: ws)) (hl : (w.view rt id .lottery).data = .lottery l)
    (hs : Step rt w (.instruction pre .finalizeWinners accounts) w') (hon : CallsOn rt accounts id)
    (hne : (w'.view rt id .finalizationRoot).data ≠ (w.view rt id .finalizationRoot).data) :
    l.route w.clock = .winners := by
  cases hs with
  | instruction hsig hok =>
    obtain ⟨c, l₀, -, hl₀, hon', heff⟩ := effect (consistent h).typed hsig hok
    obtain rfl := hon.eq hon'
    cases hl.symm.trans hl₀
    cases heff with
    | done he => exact absurd (by rw [he]) hne
    | missing _ _ _ _ _ _ _ _ _ hv =>
      rw [hv] at hne
      simp at hne
    | chunk _ _ _ hatt hmiss => exact Lottery.route_winners_iff.mpr ⟨hatt, hmiss⟩

/-- What lies open to a lottery after its window. -/
structure Lottery.Ways (rt : Runtime K) (id : ℕ) (w : World K) (l : Lottery K) : Prop where
  refunds : (∃ w', Cancels rt id w w') ↔ l.route w.clock = .refunds
  uploads : ∀ pre entries accounts w',
    Step rt w (.instruction pre (.uploadReveals entries) accounts) w' → CallsOn rt accounts id →
      entries ≠ [] → l.route w.clock = .uploads
  winners : ∀ pre accounts w', Step rt w (.instruction pre .finalizeWinners accounts) w' →
    CallsOn rt accounts id →
      (w'.view rt id .finalizationRoot).data ≠ (w.view rt id .finalizationRoot).data →
        l.route w.clock = .winners

/-- After its window a lottery can be cancelled, or takes reveals, or is finalized: never two of them. -/
theorem ways_apart (h : (system rt).History acts (w :: ws))
    (hl : (w.view rt id .lottery).data = .lottery l) (htwo : 2 ≤ l.participantsCount)
    (hset : l.settled = false) (hel : l.uploadElapsed w.clock = true) : l.Ways rt id w := by
  refine ⟨⟨?_, fun hway ↦ ?_⟩, fun pre entries accounts w' hs hon hne ↦ ?_,
    fun pre accounts w' hs hon hne ↦ ?_⟩
  · rintro ⟨w', hcancel⟩
    obtain ⟨-, -, hcase, -⟩ := hcancel.guards (consistent h).typed hl
    exact Lottery.route_refunds_iff.mpr hcase
  · obtain ⟨hpos, hlt⟩ := Lottery.uploadElapsed_eq_true.mp hel
    obtain ⟨w', hcancel, -⟩ := cancels_of_guards h hl hset (.inr ⟨hpos, hlt.le⟩)
      (Lottery.route_refunds_iff.mp hway)
    exact ⟨w', hcancel⟩
  · exact UploadReveals.route_of_step h hl htwo hel hs hon hne
  · exact FinalizeWinners.route_of_step h hl hs hon hne

/-- While the reveal is missing, there is no other way. -/
theorem ways_apart_sample : ∃ (w : World Sample.Key) (l : Lottery Sample.Key),
    (w.view Sample.rt 1 .lottery).data = .lottery l ∧ l.route w.clock = .uploads ∧
    l.Ways Sample.rt 1 w := by
  obtain ⟨w, ws, l, h, hl, hp⟩ := Sample.run_lottery Sample.awaiting 1
    (fun w l ↦ decide (2 ≤ l.participantsCount ∧ l.settled = false) && l.uploadElapsed w.clock &&
      decide (l.route w.clock = .uploads)) (by decide +kernel)
  simp only [Bool.and_eq_true, decide_eq_true_eq] at hp
  obtain ⟨⟨⟨htwo, hset⟩, hel⟩, hway⟩ := hp
  exact ⟨w, l, hl, hway, ways_apart h hl htwo hset hel⟩

end DailyLottery
