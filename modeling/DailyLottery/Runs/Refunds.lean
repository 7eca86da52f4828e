import DailyLottery.Refinement.Changes
import DailyLottery.Runs.Recovery

set_option linter.unusedSectionVars false

namespace DailyLottery

open Lib

variable {K : Type} [DecidableEq K] [Inhabited K] {rt : Runtime K} {acts : List (Action K)}
  {w w' : World K} {ws : List (World K)} {id : ℕ} {l l' : Lottery K} {p p' : Participant K}
  {ix : Instruction K} {accounts : List (AccountInfo K)} {now : ℤ} {wallet : K}

theorem Participant.Change.unclaimed (h : p.Change rt now accounts l ix p')
    (hset : l.settled = false)
    (hcl : p.refundClaimed = false) : p'.refundClaimed = false := by
  cases h with
  | buyTickets => exact hcl
  | attestUploaded => exact Participant.refundClaimed_attest _ _ _
  | attestReveal =>
    rw [Participant.refundClaimed_includeVerifiedReveal]
    exact Participant.refundClaimed_attest _ _ _
  | uploadReveals =>
    rw [Participant.refundClaimed_includeVerifiedReveal]
    exact hcl
  | finalizeWinners _ hum =>
    have hc : p'.unmarked.refundClaimed = p.unmarked.refundClaimed := by rw [hum]
    exact hc.trans hcl
  | claimRefund hset' => simp [hset] at hset'

theorem Participant.Change.of_settled (h : p.Change rt now accounts l ix p')
    (hset : l.settled = true) : ix = .claimRefund ∧
      accounts[4]?.map AccountInfo.key = some p.wallet ∧ p.refundClaimed = false ∧
      p' = p.markRefundClaimed := by
  cases h with
  | buyTickets hb => simp [hb.not_settled] at hset
  | attestUploaded ha => simp [(Lottery.phase_upload ha.phase).1] at hset
  | attestReveal ha => simp [(Lottery.phase_upload ha.phase).1] at hset
  | uploadReveals hns => simp [hns] at hset
  | finalizeWinners hns => simp [hns] at hset
  | claimRefund _ hwallet hcl => exact ⟨rfl, hwallet, hcl, rfl⟩

theorem Lottery.Change.price_of_settled (h : l.Change rt now ix l') (hset : l.settled = true) :
    l'.ticketPriceLamports = l.ticketPriceLamports := by
  cases h with
  | buyTickets hb => simp [hb.not_settled] at hset
  | beginReveal hns => simp [hns] at hset
  | attestUploaded ha => simp [(Lottery.phase_upload ha.phase).1] at hset
  | attestReveal ha => simp [(Lottery.phase_upload ha.phase).1] at hset
  | uploadReveals hadmit => simp [(UploadReveals.checkPhase_ok hadmit).2.2.1] at hset
  | finalizeWinners hns => simp [hns] at hset
  | settlePayoutBatch _ _ he => rcases he with rfl | rfl <;> rfl
  | finalizeNoAttesters => rfl
  | claimRefund => rfl

/-- Whether an action is the claim of a wallet on lottery `id`. -/
def Action.claims (rt : Runtime K) (id : ℕ) (wallet : K) : Action K → Bool
  | .instruction _ .claimRefund accounts =>
    decide (accounts[1]?.map AccountInfo.key = some (rt.lotteryKey id)) &&
      decide (accounts[4]?.map AccountInfo.key = some wallet)
  | _ => false

theorem Action.claims_iff {a : Action K} : a.claims rt id wallet = true ↔
    ∃ pre accounts, a = .instruction pre .claimRefund accounts ∧ CallsOn rt accounts id ∧
      accounts[4]?.map AccountInfo.key = some wallet := by
  constructor
  · intro h
    cases a with
    | instruction pre ix accounts =>
      cases ix with
      | claimRefund =>
        simp only [claims, Bool.and_eq_true, decide_eq_true_eq] at h
        exact ⟨pre, accounts, rfl, h⟩
      | _ => cases h
    | _ => cases h
  · rintro ⟨pre, accounts, rfl, hon, hw⟩
    simp only [claims, Bool.and_eq_true, decide_eq_true_eq]
    exact ⟨hon, hw⟩

/-- What the claims of a wallet brought it, latest first. -/
def refundsTo (rt : Runtime K) (id : ℕ) (wallet : K) : List (Action K) → List (World K) → List ℕ
  | a :: acts, w' :: w :: ws =>
    if a.claims rt id wallet then
      ((w'.accounts wallet).lamports - (w.accounts wallet).lamports) ::
        refundsTo rt id wallet acts (w :: ws)
    else refundsTo rt id wallet acts (w :: ws)
  | _, _ => []

/-- What a participant of a lottery with the given price got back so far. -/
def Participant.refunded (price : ℕ) (p : Participant K) : List ℕ :=
  if p.refundClaimed then [price * p.ticketsBought] else []

theorem Participant.refunded_of_unclaimed {price : ℕ} (h : p.refundClaimed = false) :
    p.refunded price = [] := by
  simp [refunded, h]

theorem Step.claims {pre : List (K × Bytes)} (hw : WellTyped rt w)
    (hs : Step rt w (.instruction pre .claimRefund accounts) w') (hon : CallsOn rt accounts id)
    (hwallet : accounts[4]?.map AccountInfo.key = some wallet) :
    ∃ l p, (w.view rt id .lottery).data = .lottery l ∧ l.settled = true ∧
      (w.view rt id (.participant wallet)).data = .participant p ∧ p.refundClaimed = false ∧
      (w'.view rt id .lottery).data = .lottery l.countRefund ∧
      (w'.view rt id (.participant wallet)).data = .participant p.markRefundClaimed ∧
      (w'.accounts wallet).lamports =
        (w.accounts wallet).lamports + l.ticketPriceLamports * p.ticketsBought := by
  cases hs with
  | instruction hsig hok =>
    obtain ⟨l, p, hl, hon', hwallet', hp, hf, hset, -, -, -, hcl, -, -, -, -, hv, hlam⟩ :=
      ClaimRefund.effect hw hsig hok
    obtain rfl := hon.eq hon'
    obtain rfl : wallet = p.wallet := Option.some.inj (hwallet.symm.trans hwallet')
    refine ⟨l, p, hl, hset, hp, hcl, by rw [hv]; simp, by rw [hv]; simp, ?_⟩
    rw [hlam _ hf, if_pos rfl]

theorem refunded_of_not_claims {a : Action K} (h : (system rt).History acts (w :: ws))
    (hs : Step rt w a w') (ha : a.claims rt id wallet = false)
    (hl : (w.view rt id .lottery).data = .lottery l)
    (hl' : (w'.view rt id .lottery).data = .lottery l') :
    (pastOf rt (w' :: w :: ws) id wallet).elim [] (Participant.refunded l'.ticketPriceLamports) =
      (pastOf rt (w :: ws) id wallet).elim [] (Participant.refunded l.ticketPriceLamports) := by
  obtain ⟨r, hreach, hi, hr, rfl, -⟩ := represented h hl
  have hunclaimed (hset : r.lottery.settled = false) {p : Participant K}
      (hp : pastOf rt (w :: ws) id wallet = some p) : p.refundClaimed = false :=
    hi.funded.unclaimed (.inl hset) p ((hr.pastOf_eq _ _).mp hp).1
  -- the price only matters once somebody claimed
  have hsame (hprice : r.lottery.settled = true →
        l'.ticketPriceLamports = r.lottery.ticketPriceLamports)
      (hp : pastOf rt (w' :: w :: ws) id wallet = pastOf rt (w :: ws) id wallet) :
      (pastOf rt (w' :: w :: ws) id wallet).elim [] (Participant.refunded l'.ticketPriceLamports) =
        (pastOf rt (w :: ws) id wallet).elim []
          (Participant.refunded r.lottery.ticketPriceLamports) := by
    rw [hp]
    cases hpast : pastOf rt (w :: ws) id wallet with
    | none => rfl
    | some p =>
      cases hset : r.lottery.settled with
      | false =>
        have hcl := hunclaimed hset hpast
        exact (Participant.refunded_of_unclaimed hcl).trans
          (Participant.refunded_of_unclaimed hcl).symm
      | true => rw [hprice hset]
  by_cases hinst : ∃ pre ix accounts, a = .instruction pre ix accounts
  · obtain ⟨pre, ix, accounts, rfl⟩ := hinst
    have hch := hs.changes (consistent h) id
    obtain ⟨l₁, hl₁, hlot⟩ := hch.lottery _ hl
    cases hl'.symm.trans hl₁
    have hprice (hset : r.lottery.settled = true) :
        l'.ticketPriceLamports = r.lottery.ticketPriceLamports := by
      rcases hlot with rfl | ⟨-, hlot⟩
      · rfl
      · exact hlot.price_of_settled hset
    rcases hch.participant _ hl wallet with hd | ⟨hon, halt⟩
    · exact hsame hprice (pastOf_of_same (.inl hd))
    · generalize hd : (w.view rt id (.participant wallet)).data = d at halt
      generalize hd' : (w'.view rt id (.participant wallet)).data = d' at halt
      cases halt with
      | first hbuy =>
        rw [pastOf_of_data hd']
        have hnone : pastOf rt (w :: ws) id wallet = none := by
          cases hpast : pastOf rt (w :: ws) id wallet with
          | none => rfl
          | some p =>
            obtain ⟨hp, rfl⟩ := (hr.pastOf_eq _ _).mp hpast
            rcases hr.stored hi.routed hp with hs | ⟨-, hset⟩
            · simp [hd] at hs
            · simp [hbuy.not_settled] at hset
        rw [hnone]
        exact Participant.refunded_of_unclaimed (Participant.refundClaimed_new _ _ _ _ _)
      | @change p p' _ hchange =>
        rw [pastOf_of_data hd', pastOf_of_data hd]
        cases hset : r.lottery.settled with
        | false =>
          have hcl := hunclaimed hset (pastOf_of_data hd)
          exact (Participant.refunded_of_unclaimed (hchange.unclaimed hset hcl)).trans
            (Participant.refunded_of_unclaimed hcl).symm
        | true =>
          obtain ⟨rfl, hwallet, -⟩ := hchange.of_settled hset
          have hpw := ((hr.pastOf_eq _ _).mp (pastOf_of_data hd)).2
          rw [hpw] at hwallet
          exact absurd (Action.claims_iff.mpr ⟨pre, accounts, rfl, hon, hwallet⟩) (by simp [ha])
  · have hinst : ∀ pre ix accounts, a ≠ .instruction pre ix accounts := by
      rintro pre ix accounts rfl
      exact hinst ⟨pre, ix, accounts, rfl⟩
    refine hsame (fun _ ↦ ?_) (pastOf_of_same (hs.environment hinst id _))
    have hd := (hs.environment hinst id .lottery).resolve_right (by simp [hl'])
    rw [hl, hl'] at hd
    cases hd
    rfl

/-- A wallet got back what its participant is marked with, no more and no less. -/
theorem refundsTo_eq (h : (system rt).History acts (w :: ws)) (wallet : K) :
    (∀ l, (w.view rt id .lottery).data = .lottery l → refundsTo rt id wallet acts (w :: ws) =
      (pastOf rt (w :: ws) id wallet).elim [] (Participant.refunded l.ticketPriceLamports)) ∧
    ((w.view rt id .lottery).data = .empty → refundsTo rt id wallet acts (w :: ws) = []) := by
  have hall := h.invariant (P := fun acts ws ↦ ∀ w ∈ ws.head?,
    (∀ l, (w.view rt id .lottery).data = .lottery l → refundsTo rt id wallet acts ws =
      (pastOf rt ws id wallet).elim [] (Participant.refunded l.ticketPriceLamports)) ∧
    ((w.view rt id .lottery).data = .empty → refundsTo rt id wallet acts ws = [])) ?_ ?_
  · exact hall w rfl
  · rintro s hs t ht
    cases ht
    refine ⟨fun l hl ↦ ?_, fun _ ↦ rfl⟩
    rw [World.view, Runtime.slotKey, hs.unused] at hl
    cases hl
  · rintro as ss s a t hh hP hs u hu
    cases hu
    obtain ⟨hold, hnone⟩ := hP s rfl
    have hc := consistent hh
    rw [refundsTo]
    cases ha : a.claims rt id wallet with
    | true =>
      obtain ⟨pre, accounts, rfl, hon, hwallet⟩ := Action.claims_iff.mp ha
      obtain ⟨l, p, hl, -, hp, hcl, hl', hp', hlam⟩ := hs.claims hc.typed hon hwallet
      refine ⟨fun l' h' ↦ ?_, fun he ↦ by simp [he] at hl'⟩
      cases hl'.symm.trans h'
      have hprev : refundsTo rt id wallet as (s :: ss) = [] := by
        rw [hold l hl, pastOf_of_data hp]
        exact Participant.refunded_of_unclaimed hcl
      rw [if_pos rfl, hprev, pastOf_of_data hp', hlam, Nat.add_sub_cancel_left]
      have hcl' : p.markRefundClaimed.refundClaimed = true := p.refundClaimed_markRefundClaimed
      rw [Option.elim_some, Participant.refunded, if_pos hcl']
      rfl
    | false =>
      rw [if_neg (by simp)]
      by_cases he : (s.view rt id .lottery).data = .empty
      · refine ⟨fun l' hl' ↦ ?_, fun _ ↦ hnone he⟩
        rw [hnone he]
        rcases hc.follow_absent hs (hc.absent id he) with ha' | ⟨r, hcreated, hr⟩
        · simp [ha'.data] at hl'
        · have hpast : pastOf rt (t :: s :: ss) id wallet = none := by
            cases hpast : pastOf rt (t :: s :: ss) id wallet with
            | none => rfl
            | some p =>
              have := ((hr.pastOf_eq _ _).mp hpast).1
              simp [hcreated.participants] at this
          rw [hpast]
          rfl
      · obtain ⟨r, hreach, hr⟩ := hc.round id he
        obtain ⟨r', -, hr'⟩ := hc.follow hs hr (Round.invariant hreach)
        refine ⟨fun l' hl' ↦ ?_, fun he' ↦ by simp [hr'.lottery] at he'⟩
        rw [hold _ hr.lottery]
        exact (refunded_of_not_claims hh hs ha hr.lottery hl').symm

/-- Lottery `id` was settled by `FinalizeNoAttesters` somewhere along a run. -/
def Cancelled (rt : Runtime K) (id : ℕ) (ws : List (World K)) : Prop :=
  ∃ w₁ w₂, [w₂, w₁] <:+: ws ∧ Cancels rt id w₁ w₂

theorem Cancelled.settled (h : (system rt).History acts (w :: ws))
    (hc : Cancelled rt id (w :: ws)) : ∃ l, (w.view rt id .lottery).data = .lottery l ∧
      l.settled = true ∧ l.winnersCount = 0 := by
  obtain ⟨w₁, w₂, ⟨xs, ys, he⟩, hcan⟩ := hc
  have hsuf : (w₂ :: w₁ :: ys) <:+ (w :: ws) := ⟨xs, by simpa using he⟩
  have hsuf' : (w₁ :: ys) <:+ (w₂ :: w₁ :: ys) := List.suffix_cons _ _
  obtain ⟨bs, cs, hh, hp⟩ := h.split hsuf
  obtain ⟨bs', -, hh', -⟩ := hh.split hsuf'
  have hcan' := hcan
  obtain ⟨-, ⟨l₁, hl₁, -⟩, l₂, hl₂, hset₂⟩ := hcan
  obtain ⟨-, -, hcase, hl₂'⟩ := hcan'.guards (consistent hh').typed hl₁
  cases hl₂.symm.trans hl₂'
  have hwc : l₁.winnersCount = 0 := by
    obtain ⟨r, -, hi, hr, rfl, -⟩ := represented hh' hl₁
    by_contra hne
    have hseal := hi.routed.sealed_of_ledger (hi.routed.won hne)
    rcases hcase with hatt | hexp
    · exact hseal.attested hatt
    · have hmiss := (Lottery.remediationExpired_eq_true.mp hexp).2
      have hno : r.lottery.hasMissingAttestedReveals = false := hseal.no_missing
      simp [hno] at hmiss
  obtain ⟨r, hreach, hi, hr, hrl, -⟩ := represented hh hl₂'
  obtain ⟨ws', ds, r', hh₂, -, hpath, hreach', hr'⟩ := represented_path hh hp hr hreach
  exact ⟨r'.lottery, hr'.lottery,
    Round.cancelled_of_path hreach hpath (by rw [hrl]; exact ⟨rfl, hwc⟩)⟩

/-- What holds of a cancelled lottery and its participants, however the run goes on. -/
structure RefundsOnce (rt : Runtime K) (id : ℕ) (acts : List (Action K)) (w : World K)
    (ws : List (World K)) (l : Lottery K) (ps : List (Participant K)) : Prop where
  paid : ∀ p ∈ ps, refundsTo rt id p.wallet acts (w :: ws) =
    if p.refundClaimed then [l.ticketPriceLamports * p.ticketsBought] else []
  others : ∀ wallet ∉ ps.map Participant.wallet, refundsTo rt id wallet acts (w :: ws) = []
  due : ∀ p ∈ ps, p.refundClaimed = false → Refunds rt id w l p
  once : ∀ p ∈ ps, p.refundClaimed = true → ∀ pre accounts w', CallsOn rt accounts id →
    accounts[4]?.map AccountInfo.key = some p.wallet →
    ¬Step rt w (.instruction pre .claimRefund accounts) w'
  length : ps.length = l.participantsCount
  counted : l.settlementBatchesCompleted = ps.countP Participant.refundClaimed
  vault : ∀ pre accounts w', CallsOn rt accounts id →
    Step rt w (.instruction pre .closeRefundVault accounts) w' →
    (∀ p ∈ ps, p.refundClaimed = true) ∧ (w.view rt id .vault).lamports ≤
      rt.minimumBalance Sizes.vaultSize + donatedTo (rt.slotKey id .vault) acts
  closed : ∀ p ∈ ps, ∀ pre accounts w', CallsOn rt accounts id →
    accounts[3]?.map AccountInfo.key = some p.wallet →
    Step rt w (.instruction pre .closeParticipant accounts) w' → p.refundClaimed = true

theorem Round.Invariant.vault_le {r : Round K} (hi : r.Invariant rt)
    (hreach : (Round.machine rt).Reachable r) (hwc : r.lottery.winnersCount = 0)
    (hall : ∀ p ∈ r.participants, p.refundClaimed = true) :
    r.vault ≤ rt.minimumBalance Sizes.vaultSize + r.donated := by
  cases hc : r.vaultClosed with
  | true => exact (Round.drained hreach hc).trans (Nat.le_add_left _ _)
  | false =>
    have howed : r.owed = 0 := by
      rw [Round.owed, if_pos hwc, List.sum_eq_zero_iff]
      intro n hn
      obtain ⟨p, hp, rfl⟩ := List.mem_map.mp hn
      simp [Participant.refundDue, hall p hp]
    rw [hi.funded.vault hc, howed]
    omega

/-- Every participant of a cancelled lottery is refunded once, and nothing else can be taken
before. -/
theorem refunds_exactly_once (h : (system rt).History acts (w :: ws))
    (hc : Cancelled rt id (w :: ws)) :
    ∃ l ps, (w.view rt id .lottery).data = .lottery l ∧ Roll rt (w :: ws) id ps ∧
      RefundsOnce rt id acts w ws l ps := by
  obtain ⟨l, hl, hset, hwc⟩ := hc.settled h
  have htyped := (consistent h).typed
  have hpaid (wallet : K) := (refundsTo_eq h wallet).1 l hl
  obtain ⟨r, hreach, hi, hr, rfl, -⟩ := represented h hl
  have hroll := hr.roll hi.books
  have hlen : r.participants.length = r.lottery.participantsCount := by
    have := hi.books.enrolled.length
    rwa [Round.books, List.length_map] at this
  refine ⟨_, _, hl, hroll, ?_, ?_, ?_, ?_, hlen, hi.funded.refunds hwc, ?_, ?_⟩
  · intro p hp
    rw [hpaid, (hr.pastOf_eq _ _).mpr ⟨hp, rfl⟩]
    rfl
  · intro wallet hw
    rw [hpaid]
    cases hpast : pastOf rt (w :: ws) id wallet with
    | none => rfl
    | some p =>
      obtain ⟨hp, rfl⟩ := (hr.pastOf_eq _ _).mp hpast
      exact absurd (List.mem_map_of_mem hp) hw
  · intro p hp hcl
    exact refunds_of_unclaimed h hl hset hwc ((hr.pastOf_eq _ _).mpr ⟨hp, rfl⟩) hcl
  · intro p hp hcl pre accounts w' hon hwallet hs
    obtain ⟨-, q, -, -, hq, hqcl, -⟩ := hs.claims htyped hon hwallet
    obtain ⟨hmem, hqw⟩ := hroll.mem_of_data hq
    obtain rfl := hroll.eq_of_wallet hmem hp hqw
    simp [hcl] at hqcl
  · intro pre accounts w' hon hs
    cases hs with
    | instruction hsig hok =>
      obtain ⟨l, hl₁, hon', -, -, -, hcnt, -⟩ := CloseRefundVault.effect htyped hok
      obtain rfl := hon.eq hon'
      obtain rfl := hr.eq_lottery hl₁
      have hall : ∀ p ∈ r.participants, p.refundClaimed = true := by
        rw [hi.funded.refunds hwc, ← hlen] at hcnt
        exact List.countP_eq_length.mp (Nat.le_antisymm List.countP_le_length hcnt)
      refine ⟨hall, ?_⟩
      rw [hr.lamports, ← hr.donated]
      exact hi.vault_le hreach hwc hall
  · intro p hp pre accounts w' hon hwallet hs
    cases hs with
    | instruction hsig hok =>
      obtain ⟨l, q, hl₁, hon', hwallet', hq, hclos, -⟩ := CloseParticipant.effect htyped hsig hok
      obtain rfl := hon.eq hon'
      obtain rfl := hr.eq_lottery hl₁
      obtain hqw : p.wallet = q.wallet := Option.some.inj (hwallet.symm.trans hwallet')
      obtain ⟨hmem, -⟩ := hroll.mem_of_data hq
      obtain rfl := hroll.eq_of_wallet hmem hp hqw.symm
      rcases hclos with ⟨-, -, hcl⟩ | ⟨-, hne⟩
      · exact hcl
      · omega

/-- Two participants, the lottery cancelled, and one of them refunded. -/
theorem refunds_exactly_once_sample :
    ∃ (acts : List (Action Sample.Key)) (w : World Sample.Key) (ws : List (World Sample.Key))
      (l : Lottery Sample.Key) (ps : List (Participant Sample.Key)),
      (w.view Sample.rt 1 .lottery).data = .lottery l ∧ l.participantsCount = 2 ∧
      l.settlementBatchesCompleted = 1 ∧ Roll Sample.rt (w :: ws) 1 ps ∧
      RefundsOnce Sample.rt 1 acts w ws l ps := by
  obtain ⟨w, ws, l, h, hl, hp⟩ := Sample.run_lottery
    [Sample.configure 1000 500 10, Sample.create 1, Sample.buy 1 20 1, Sample.buy 1 21 2,
      .tick (1001 + 48 * 60 * 60)] 1
    (fun w l ↦ !l.settled && (exec Sample.rt Sample.Key.isWallet w (Sample.cancel 1)).any fun w' ↦
      (Sample.lotteryOf w' 1).any (fun l ↦ l.settled) &&
      Sample.after w' (Sample.claim 1 20) 1 fun l ↦
        decide (l.participantsCount = 2 ∧ l.settlementBatchesCompleted = 1)) (by decide +kernel)
  simp only [Bool.and_eq_true, Bool.not_eq_true'] at hp
  obtain ⟨hset, hcancel⟩ := hp
  obtain ⟨w₁, hs₁, hp₁⟩ := Sample.step_ok hcancel
  simp only [Bool.and_eq_true] at hp₁
  obtain ⟨hset₁, hclaim⟩ := hp₁
  obtain ⟨l₁, hl₁, hset₁⟩ := (Option.any_eq_true _ _).mp hset₁
  obtain ⟨w₂, l₂, hs₂, hl₂, hp₂⟩ := Sample.after_ok hclaim
  obtain ⟨htwo, hone⟩ := of_decide_eq_true hp₂
  have hcan : Cancelled Sample.rt 1 (w₂ :: w₁ :: w :: ws) :=
    ⟨w, w₁, ⟨[w₂], ws, rfl⟩, ⟨_, _, hs₁⟩, ⟨l, hl, hset⟩, l₁, unwrap_lottery.mp hl₁, hset₁⟩
  obtain ⟨l', ps, hl', hroll, hrefunds⟩ := refunds_exactly_once ((h.step hs₁).step hs₂) hcan
  cases hl₂.symm.trans hl'
  exact ⟨_, w₂, _, l₂, ps, hl₂, htwo, hone, hroll, hrefunds⟩

end DailyLottery
