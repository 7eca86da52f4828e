import DailyLottery.Calls.Settling
import DailyLottery.Runs.Commitments

set_option linter.unusedSectionVars false

namespace DailyLottery

open Lib Ballot

variable {K : Type} [DecidableEq K] [Inhabited K] {rt : Runtime K} {acts as : List (Action K)}
  {w w₁ w₂ : World K} {ws : List (World K)} {id : ℕ} {l l₁ l₂ : Lottery K} {p p' : Participant K}
  {b b' : Books K} {r r' r₁ r₂ : Round K}

theorem VoteTally.Counts.selectedWinners_eq {t t' : VoteTally K} {bs : List (Ballot K)}
    (h : t.Counts bs) (h' : t'.Counts bs) (hmw : t'.maxWinners = t.maxWinners) (n : ℕ) :
    t'.selectedWinners n = t.selectedWinners n := by
  have hscan (cs : List ℕ) (hcs : ∀ c ∈ cs, 1 ≤ c ∧ c ≤ t.maxWinners) (best : Best) :
      t'.scan cs best = t.scan cs best := by
    induction cs generalizing best with
    | nil => rfl
    | cons c cs ih =>
      obtain ⟨hpos, hle⟩ := hcs c List.mem_cons_self
      have hrest := ih fun d hd ↦ hcs d (List.mem_cons_of_mem _ hd)
      unfold scan
      rw [h.weights_length, h'.weights_length, h.weights c hpos hle, h'.weights c hpos (hmw ▸ hle),
        h.firstSeen c hpos hle, h'.firstSeen c hpos (hmw ▸ hle), hmw]
      simp only [hrest]
  have hread := hscan (List.range' 1 (min t.maxWinners (n - 1))) fun c hc ↦ by
    rw [List.mem_range'_1] at hc
    omega
  unfold selectedWinners
  simp only [hmw, hread]

/-- A ballot without its reveal. -/
def Ballot.veiled (x : Ballot K) : Ballot K :=
  { x with included := false, digest := Vector.replicate 32 0 }

theorem Ballot.eq_of_veiled {x y : Ballot K} (h : x.veiled = y.veiled)
    (hinc : x.included = y.included) (hd : x.digest = y.digest) : x = y := by
  have hx : x = { x.veiled with included := x.included, digest := x.digest } := rfl
  have hy : y = { y.veiled with included := y.included, digest := y.digest } := rfl
  rw [hx, hy, h, hinc, hd]

theorem Books.Sealed.included_eq (h : b.Sealed) (hb : b.Sound) {x : Ballot K} (hx : x ∈ b.ballots) :
    x.included = x.attested := by
  rw [Bool.eq_iff_iff]
  exact ⟨(hb.balanced.valid x hx).attested, hb.included_of_attested h hx⟩

theorem Books.Sealed.tallied (h : b.Sealed) (hb : b.Sound) :
    ∃ t, b.tally = some t ∧ t.Counts b.ballots ∧ t.maxWinners = b.maxWinners := by
  cases ht : b.tally with
  | none => exact absurd (hb.balanced.untallied ht) (hb.included_eq h).2
  | some t =>
    obtain ⟨hcount, hmw, -⟩ := hb.balanced.tallied t ht
    exact ⟨t, rfl, hcount, hmw⟩

/-- What a participant brings to the draw apart from its reveal, and what the reveal must hash to. -/
def Participant.pledge (p : Participant K) : Ballot K × Bytes32 :=
    (p.ballot.veiled, p.proofOfChanceHash)

theorem Participant.pledge_of_unmarked (h : p'.unmarked = p.unmarked) : p'.pledge = p.pledge := by
  have hp : p'.unmarked.pledge = p.unmarked.pledge := by rw [h]
  exact hp

theorem Participant.pledge_includeVerifiedReveal (p : Participant K) (digest : Bytes32) :
    (p.includeVerifiedReveal digest).pledge = p.pledge := by
  unfold pledge veiled
  rw [ballot_includeVerifiedReveal]
  rfl

theorem Participant.pledge_markRefundClaimed (p : Participant K) :
    p.markRefundClaimed.pledge = p.pledge := by
  unfold pledge
  rw [ballot_markRefundClaimed]
  rfl

/-- Without a reveal there is no digest. -/
def Ballot.Hidden (x : Ballot K) : Prop := x.included = false → x.digest = Vector.replicate 32 0

theorem Books.Step.hidden (hb : b.Sound) (h : ∀ x ∈ b.ballots, x.Hidden) (hs : b.Step b') :
    ∀ x ∈ b'.ballots, x.Hidden := by
  have hset {bs : List (Ballot K)} {i : ℕ} {y : Ballot K}
      (hbs : ∀ x ∈ bs, x.Hidden) (hy : y.Hidden) :
      ∀ x ∈ bs.set i y, x.Hidden := by
    intro x hx
    rcases eq_or_of_mem_set hx with rfl | ⟨j, -, hj⟩
    · exact hy
    · exact hbs x (List.mem_of_getElem? hj)
  cases hs with
  | quiet => exact h
  | buyFirst =>
    intro x hx
    rcases List.mem_append.mp hx with hx | hx
    · exact h x hx
    · obtain rfl := List.mem_singleton.mp hx
      exact fun _ ↦ rfl
  | @buyMore i x _ _ hx => exact hset h (h x (List.mem_of_getElem? hx))
  | beginReveal => exact h
  | @attest i x _ hx _ _ _ hatt =>
    have hmem := List.mem_of_getElem? hx
    have hni : x.included = false := Bool.eq_false_iff.mpr fun hinc ↦ by
      simp [(hb.balanced.valid x hmem).attested hinc] at hatt
    exact hset h fun _ ↦ h x hmem hni
  | reveal => exact hset h fun hni ↦ by simp at hni
  | upload _ _ _ _ _ _ hsweep =>
    refine hsweep.invariant (P := fun bs _ ↦ ∀ x ∈ bs, x.Hidden) h ?_
    rintro bs s i e x s' x' hbs - ⟨-, -, digest, -, rfl, -⟩
    exact hset hbs fun hni ↦ by simp at hni

namespace Round

theorem hidden (h : (machine rt).Reachable r) : ∀ x ∈ r.books.ballots, x.Hidden := by
  refine reachable_invariant (P := fun r ↦ ∀ x ∈ r.books.ballots, x.Hidden) h (fun r hr x hx ↦ ?_)
    fun r r' hreach ih hs ↦ (Step.books hs).hidden (invariant hreach).books ih
  simp [books, hr.participants] at hx

/-- What stays as it is after the window. -/
structure Late (r r' : Round K) : Prop where
  pledges : r'.participants.map Participant.pledge = r.participants.map Participant.pledge
  id : r'.lottery.id = r.lottery.id
  participantsCount : r'.lottery.participantsCount = r.lottery.participantsCount
  totalFunds : r'.lottery.totalFunds = r.lottery.totalFunds
  serviceChargeBps : r'.lottery.serviceChargeBps = r.lottery.serviceChargeBps
  maxWinnersCap : r'.config.maxWinnersCap = r.config.maxWinnersCap

namespace Late

theorem refl (r : Round K) : r.Late r := ⟨rfl, rfl, rfl, rfl, rfl, rfl⟩

theorem trans {r'' : Round K} (h : r.Late r') (h' : r'.Late r'') : r.Late r'' :=
  ⟨h'.1.trans h.1, h'.2.trans h.2, h'.3.trans h.3, h'.4.trans h.4, h'.5.trans h.5, h'.6.trans h.6⟩

theorem of_step (hi : r.Invariant rt) (hatt : r.lottery.attestedCount ≠ 0)
    (hel : r.lottery.uploadElapsed r.now = true) (hs : r.Step rt r') : r.Late r' := by
  have hstarted := hi.books.timely.started (.inl hatt)
  have hupload : r.lottery.phase r.now ≠ .upload := by
    intro hph
    obtain ⟨-, -, -, -, hle⟩ := Lottery.phase_upload hph
    have := (Lottery.uploadElapsed_eq_true.mp hel).2
    omega
  cases hs with
  | refl => exact .refl r
  | tick => exact ⟨rfl, rfl, rfl, rfl, rfl, rfl⟩
  | reconfigure _ hcap => exact ⟨rfl, rfl, rfl, rfl, rfl, hcap⟩
  | deposit => exact ⟨rfl, rfl, rfl, rfl, rfl, rfl⟩
  | buyFirst hbuy => exact absurd hstarted hbuy.not_started
  | buyMore hbuy => exact absurd hstarted hbuy.not_started
  | beginReveal _ hns => exact absurd hstarted hns
  | attestUploaded _ hcan => exact absurd hcan.phase hupload
  | attestReveal _ hcan => exact absurd hcan.phase hupload
  | uploadReveals hadmit _ hsweep hinc =>
    obtain ⟨-, -, -, -, -, -, -, rfl⟩ := UploadReveals.checkPhase_ok hadmit
    obtain ⟨-, rfl⟩ := UploadReveals.includeUploads_ok hinc
    refine ⟨hsweep.map_eq fun s e p s' p' hv ↦ ?_, rfl, rfl, rfl, rfl, rfl⟩
    obtain ⟨digest, hv, -⟩ := hv
    obtain ⟨-, -, -, -, -, rfl⟩ := UploadReveals.includeReveal_ok hv
    exact Participant.pledge_includeVerifiedReveal _ _
  | beginRemediation _ _ _ _ _ _ hrem =>
    obtain ⟨-, rfl⟩ | ⟨-, rfl⟩ := Lottery.beginRemediation_ok hrem
    all_goals exact ⟨rfl, rfl, rfl, rfl, rfl, rfl⟩
  | aggregate _ _ _ hsweep _ hend =>
    have hps := hsweep.map_eq fun _ _ _ _ _ h ↦
      Participant.pledge_of_unmarked (unmarked_aggregateParticipant h)
    split at hend
    · obtain ⟨_, _, _, _, _, _, _, rfl, -⟩ := FinalizeWinners.finishAggregation_ok hend
      exact ⟨hps, rfl, rfl, rfl, rfl, rfl⟩
    · cases hend
      exact ⟨hps, rfl, rfl, rfl, rfl, rfl⟩
  | select _ _ _ hsweep =>
    exact ⟨hsweep.map_eq fun _ _ _ _ _ h ↦
      Participant.pledge_of_unmarked (unmarked_selectParticipant h), rfl, rfl, rfl, rfl, rfl⟩
  | selectLast _ _ _ hsweep _ _ _ _ hnext =>
    have hps := hsweep.map_eq fun _ _ _ _ _ h ↦
      Participant.pledge_of_unmarked (unmarked_selectParticipant h)
    rcases FinalizeWinners.nextRound_ok hnext with ⟨-, hcomp⟩ | ⟨-, rfl, -⟩
    · obtain ⟨_, _, -, -, -, -, -, rfl, -⟩ := FinalizeWinners.completeFinalization_ok hcomp
      exact ⟨hps, rfl, rfl, rfl, rfl, rfl⟩
    · exact ⟨hps, rfl, rfl, rfl, rfl, rfl⟩
  | payBatch hpays =>
    obtain ⟨old, -, hrun⟩ := hpays.page_eq
    obtain ⟨bitmap, rfl⟩ := hrun.lottery
    exact ⟨rfl, rfl, rfl, rfl, rfl, rfl⟩
  | payLast hpays _ _ hcomp =>
    obtain ⟨old, -, hrun⟩ := hpays.page_eq
    obtain ⟨bitmap, rfl⟩ := hrun.lottery
    obtain rfl := Lottery.completeSettlement_ok hcomp
    exact ⟨rfl, rfl, rfl, rfl, rfl, rfl⟩
  | finalizeNoAttesters => exact ⟨rfl, rfl, rfl, rfl, rfl, rfl⟩
  | claimRefund _ _ _ hp =>
    exact ⟨map_set_same hp (Participant.pledge_markRefundClaimed _), rfl, rfl, rfl, rfl, rfl⟩
  | closeRefundVault => exact ⟨rfl, rfl, rfl, rfl, rfl, rfl⟩

theorem of_path {cs : List Unit} (hreach : (machine rt).Reachable r)
    (hatt : r.lottery.attestedCount ≠ 0) (hel : r.lottery.uploadElapsed r.now = true)
    (hp : (machine rt).Path r cs r') : r.Late r' := by
  induction hp with
  | nil r => exact .refl r
  | @cons r s t c cs hs _ ih =>
    have hi := invariant hreach
    have hon := Onward.of_step hi.books hs
    refine (of_step hi hatt hel hs).trans (ih (hreach.step hs) ?_ ?_)
    · have := hon.attested
      omega
    · rw [Lottery.uploadElapsed_eq_true] at hel ⊢
      rw [hon.moved hatt]
      exact ⟨hel.1, hel.2.trans_le hon.now⟩

end Late

/-- Two sealed ends of one lottery decide the same contest if their reveals agree. -/
theorem Late.contest_eq (hreach₁ : (machine rt).Reachable r₁) (hreach₂ : (machine rt).Reachable r₂)
    (hs₁ : r₁.books.Sealed) (hs₂ : r₂.books.Sealed) (h₁ : r.Late r₁) (h₂ : r.Late r₂)
    (hd : ∀ p₁ ∈ r₁.participants, ∀ p₂ ∈ r₂.participants, p₁.wallet = p₂.wallet →
      p₁.proofOfChanceHash = p₂.proofOfChanceHash → p₁.revealIncluded = true →
      p₂.revealIncluded = true → p₁.revealDigest = p₂.revealDigest) :
    r₁.contest = r₂.contest := by
  have hb₁ := (invariant hreach₁).books
  have hb₂ := (invariant hreach₂).books
  have hpl : r₁.participants.map Participant.pledge = r₂.participants.map Participant.pledge :=
    h₁.pledges.trans h₂.pledges.symm
  have hlen : r₁.participants.length = r₂.participants.length := by
    simpa using congrArg List.length hpl
  have hpc : r₁.lottery.participantsCount = r₂.lottery.participantsCount :=
    h₁.participantsCount.trans h₂.participantsCount.symm
  have hmw : r₁.books.maxWinners = r₂.books.maxWinners := by
    unfold Books.maxWinners Config.effectiveMaxWinners
    rw [show r₁.books.lottery.participantsCount = r₂.books.lottery.participantsCount from hpc,
      show r₁.books.config.maxWinnersCap = r₂.books.config.maxWinnersCap from
        h₁.maxWinnersCap.trans h₂.maxWinnersCap.symm]
  -- whoever attested is included, and its reveal is the same
  have hballots : r₁.books.ballots = r₂.books.ballots := by
    refine List.ext_getElem (by simp [books, hlen]) fun i hi₁ hi₂ ↦ ?_
    have hlt : i < r₁.participants.length := by simpa [books] using hi₁
    have hlt' : i < r₂.participants.length := hlen ▸ hlt
    have hmem₁ := List.getElem_mem hlt
    have hmem₂ := List.getElem_mem hlt'
    have hi : (r₁.participants[i]).pledge = (r₂.participants[i]).pledge := by
      have := congrArg (·[i]?) hpl
      simpa [List.getElem?_eq_getElem hlt, List.getElem?_eq_getElem hlt'] using this
    obtain ⟨hveil, hhash⟩ := Prod.mk.inj hi
    have hinc : (r₁.participants[i]).revealIncluded = (r₂.participants[i]).revealIncluded := by
      have hatt := congrArg Ballot.attested hveil
      have hinc₁ := hs₁.included_eq hb₁ (List.mem_map_of_mem hmem₁)
      have hinc₂ := hs₂.included_eq hb₂ (List.mem_map_of_mem hmem₂)
      exact hinc₁.trans (hatt.trans hinc₂.symm)
    simp only [books, List.getElem_map]
    refine Ballot.eq_of_veiled hveil hinc ?_
    cases hrev : (r₁.participants[i]).revealIncluded with
    | false =>
      have hz₁ := hidden hreach₁ _ (List.mem_map_of_mem hmem₁) hrev
      have hz₂ := hidden hreach₂ _ (List.mem_map_of_mem hmem₂) (hinc.symm.trans hrev)
      exact hz₁.trans hz₂.symm
    | true =>
      exact hd _ hmem₁ _ hmem₂ (congrArg Ballot.wallet hveil) hhash hrev (hinc.symm.trans hrev)
  have helected : r₁.books.elected = r₂.books.elected := by
    obtain ⟨t₁, ht₁, hc₁, hm₁⟩ := hs₁.tallied hb₁
    obtain ⟨t₂, ht₂, hc₂, hm₂⟩ := hs₂.tallied hb₂
    unfold Books.elected
    rw [ht₁, ht₂, show r₁.books.lottery.participantsCount =
      r₂.books.lottery.participantsCount from hpc]
    exact hc₂.selectedWinners_eq (hballots ▸ hc₁) (hm₁.trans (hmw.trans hm₂.symm)) _
  have hhash : r₁.lottery.pocAggregateHash = r₂.lottery.pocAggregateHash := by
    have hone₁ := hb₁.balanced.hash.resolve_right fun hone ↦ by
      have := hs₁.two_le
      omega
    have hone₂ := hb₂.balanced.hash.resolve_right fun hone ↦ by
      have := hs₂.two_le
      omega
    exact hone₁.trans (hballots ▸ hone₂.symm)
  unfold contest
  rw [h₁.id.trans h₂.id.symm, hhash, h₁.totalFunds.trans h₂.totalFunds.symm,
    h₁.serviceChargeBps.trans h₂.serviceChargeBps.symm, hmw, helected, hballots]

end Round

theorem Represents.revealed (h : (system rt).History acts (w :: ws))
    (hr : Represents rt acts w ws id r) (hp : p ∈ r.participants) (hinc : p.revealIncluded = true) :
    ∃ plaintext ∈ plaintextsOf rt id p.wallet acts, rt.sha256 plaintext = p.proofOfChanceHash ∧
      p.revealDigest = computeRevealDigest rt p.wallet plaintext := by
  have hbound := ((bound_of_past h p.wallet).1 _ hr.lottery).1 p ((hr.pastOf_eq _ _).mpr ⟨hp, rfl⟩)
  obtain ⟨plaintext, he, hrev⟩ := hbound.revealed hinc
  exact ⟨plaintext, he ▸ List.mem_singleton_self _, hrev.hash, hrev.digest⟩

/-- Two runs supplied different plaintexts with one hash for the participant of some wallet. -/
def Collide (rt : Runtime K) (id : ℕ) (acts₁ acts₂ : List (Action K)) : Prop :=
  ∃ wallet, ∃ x ∈ plaintextsOf rt id wallet acts₁, ∃ y ∈ plaintextsOf rt id wallet acts₂,
    x ≠ y ∧ rt.sha256 x = rt.sha256 y

/-- Once the window of an attested lottery is over, its result is decided: whoever brings the reveals,
in whatever batches and order, and however the finalization is cut into calls, two runs that complete
it hold the same outcome, unless between them they show a collision of the hash. -/
theorem outcome_determined {as₁ as₂ : List (Action K)} {root₁ root₂ : FinalizationLedger K}
    (h : (system rt).History acts (w :: ws)) (hl : (w.view rt id .lottery).data = .lottery l)
    (hatt : l.attestedCount ≠ 0) (hel : l.uploadElapsed w.clock = true)
    (hp₁ : (system rt).Path w as₁ w₁) (hl₁ : (w₁.view rt id .lottery).data = .lottery l₁)
    (hroot₁ : (w₁.view rt id .finalizationRoot).data = .finalizationLedger root₁)
    (hph₁ : root₁.phase = .completed) (hp₂ : (system rt).Path w as₂ w₂)
    (hl₂ : (w₂.view rt id .lottery).data = .lottery l₂)
    (hroot₂ : (w₂.view rt id .finalizationRoot).data = .finalizationLedger root₂)
    (hph₂ : root₂.phase = .completed) :
    (∃ o : Outcome K, o.StoredIn rt id w₁ l₁ root₁ ∧ o.StoredIn rt id w₂ l₂ root₂) ∨
      Collide rt id (as₁.reverse ++ acts) (as₂.reverse ++ acts) := by
  obtain ⟨r, hreach, -, hr, rfl, -⟩ := represented h hl
  obtain ⟨ws₁, cs₁, r₁, hh₁, -, hpath₁, hreach₁, hr₁⟩ := represented_path h hp₁ hr hreach
  obtain ⟨ws₂, cs₂, r₂, hh₂, -, hpath₂, hreach₂, hr₂⟩ := represented_path h hp₂ hr hreach
  have hi₁ := Round.invariant hreach₁
  have hi₂ := Round.invariant hreach₂
  rw [hr.now] at hel
  have hlate₁ := Round.Late.of_path hreach hatt hel hpath₁
  have hlate₂ := Round.Late.of_path hreach hatt hel hpath₂
  have hs₁ := hi₁.routed.sealed_of_ledger (by simp [hr₁.eq_ledger hroot₁])
  have hs₂ := hi₂.routed.sealed_of_ledger (by simp [hr₂.eq_ledger hroot₂])
  by_cases hcol : Collide rt id (as₁.reverse ++ acts) (as₂.reverse ++ acts)
  · exact .inr hcol
  refine .inl ?_
  have hsame : r₁.contest = r₂.contest := by
    refine hlate₁.contest_eq hreach₁ hreach₂ hs₁ hs₂ hlate₂ ?_
    intro p₁ hp₁ p₂ hp₂ hwallet hhash hinc₁ hinc₂
    obtain ⟨x, hx, hxh, hxd⟩ := hr₁.revealed hh₁ hp₁ hinc₁
    obtain ⟨y, hy, hyh, hyd⟩ := hr₂.revealed hh₂ hp₂ hinc₂
    rw [← hwallet] at hy
    have hxy : x = y := by
      by_contra hne
      exact hcol ⟨_, x, hx, y, hy, hne, by rw [hxh, hyh, hhash]⟩
    rw [hxd, hyd, hxy, hwallet]
  obtain ⟨o, ho, hst₁⟩ := hr₁.outcome_stored hi₁ hroot₁ hph₁
  obtain ⟨o', ho', hst₂⟩ := hr₂.outcome_stored hi₂ hroot₂ hph₂
  obtain rfl := hr₁.eq_lottery hl₁
  obtain rfl := hr₂.eq_lottery hl₂
  rw [← hsame, ho] at ho'
  obtain rfl := Except.ok.inj ho'
  exact ⟨o, hst₁, hst₂⟩

namespace Sample

/-- Two receipts whose reveals are missing after the window. -/
def receipts : List (Action Key) :=
  [configure 1000 500 10, create 1, buy 1 20 1, buy 1 21 2, .tick (1000 + 24 * 60 * 60),
    attestSigned 1 20 1, attestSigned 1 21 1, .tick (1000 + 72 * 60 * 60)]

/-- The reveals from one uploader, and in the other order from two; in few calls and in many. -/
def together : List (Action Key) :=
  [upload 1 5 [20], upload 1 5 [21], finalize 1 0 [20, 21], finalize 1 0 [20, 21]]

def apart : List (Action Key) :=
  [upload 1 6 [21], upload 1 5 [20], finalize 1 0 [20], finalize 1 0 [21], finalize 1 0 [20],
    finalize 1 0 [21]]

end Sample

/-- Both ways find the same winner. -/
theorem outcome_determined_sample : ∃ (acts : List (Action Sample.Key)) (w w₁ w₂ : World Sample.Key)
    (l₁ l₂ : Lottery Sample.Key) (root₁ root₂ : FinalizationLedger Sample.Key),
    (system Sample.rt).Path w Sample.together w₁ ∧ (system Sample.rt).Path w Sample.apart w₂ ∧
    ((∃ o : Outcome Sample.Key, o.StoredIn Sample.rt 1 w₁ l₁ root₁ ∧
      o.StoredIn Sample.rt 1 w₂ l₂ root₂) ∨
      Collide Sample.rt 1 (Sample.together.reverse ++ acts) (Sample.apart.reverse ++ acts)) := by
  obtain ⟨w, ws, l, h, hl, hp⟩ := Sample.run_lottery Sample.receipts 1
    (fun w l ↦ decide (l.attestedCount ≠ 0) && l.uploadElapsed w.clock &&
      ((execAll Sample.rt Sample.Key.isWallet Sample.together w).any fun w₁ ↦
        (Sample.lotteryOf w₁ 1).isSome && Sample.completed w₁ 1) &&
      (execAll Sample.rt Sample.Key.isWallet Sample.apart w).any fun w₂ ↦
        (Sample.lotteryOf w₂ 1).isSome && Sample.completed w₂ 1) (by decide +kernel)
  simp only [Bool.and_eq_true, decide_eq_true_eq, Option.any_eq_true,
    Option.isSome_iff_exists] at hp
  obtain ⟨⟨⟨hatt, hel⟩, w₁, hw₁, ⟨l₁, hl₁⟩, hdone₁⟩, w₂, hw₂, ⟨l₂, hl₂⟩, hdone₂⟩ := hp
  obtain ⟨root₁, hroot₁, hph₁⟩ := (Option.any_eq_true _ _).mp hdone₁
  obtain ⟨root₂, hroot₂, hph₂⟩ := (Option.any_eq_true _ _).mp hdone₂
  have hp₁ := execAll_path Sample.foreign_of_isWallet hw₁
  have hp₂ := execAll_path Sample.foreign_of_isWallet hw₂
  exact ⟨_, w, w₁, w₂, l₁, l₂, root₁, root₂, hp₁, hp₂, outcome_determined h hl hatt hel hp₁
    (unwrap_lottery.mp hl₁) (unwrap_finalizationLedger.mp hroot₁) (of_decide_eq_true hph₁) hp₂
    (unwrap_lottery.mp hl₂) (unwrap_finalizationLedger.mp hroot₂) (of_decide_eq_true hph₂)⟩

end DailyLottery
