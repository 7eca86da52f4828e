import DailyLottery.Round.Payout

set_option linter.unusedSectionVars false

namespace DailyLottery

open Lib Ballot

variable {K : Type} [DecidableEq K] [Inhabited K]

namespace Lottery

def serviceFee (l : Lottery K) : ℕ := l.totalFunds * l.serviceChargeBps / 10000

/-- The equal share of every winner. -/
def perWinner (l : Lottery K) : ℕ := l.totalPayout / l.winnersCount

def payoutRemainder (l : Lottery K) : ℕ := l.totalFunds - l.totalPayout - l.serviceFee

/-- The funds of a lottery split into the service fee, the shares of the winners and a remainder, and
no subtraction on the way saturates. -/
structure Splits (l : Lottery K) : Prop where
  sum : l.serviceFee + l.winnersCount * l.perWinner + l.payoutRemainder = l.totalFunds
  perWinner_pos : 1 ≤ l.perWinner
  payoutRemainder_lt : l.payoutRemainder < l.winnersCount
  payout : l.winnersCount * l.perWinner = l.totalPayout
  fee_le : l.serviceFee ≤ l.totalFunds
  payout_le : l.totalPayout ≤ l.totalFunds
  fee_le_rest : l.serviceFee ≤ l.totalFunds - l.totalPayout

theorem serviceFee_le {l : Lottery K} (h : l.serviceChargeBps < 10000) :
    l.serviceFee ≤ l.totalFunds := by
  rw [serviceFee, Nat.div_le_iff_le_mul_add_pred (by decide)]
  have := Nat.mul_le_mul_left l.totalFunds h.le
  omega

theorem splits_of_payout {l : Lottery K} (hbps : l.serviceChargeBps < 10000)
    (hn : l.winnersCount ≠ 0) (hle : l.winnersCount ≤ l.totalFunds - l.serviceFee)
    (hp : l.totalPayout = (l.totalFunds - l.serviceFee) / l.winnersCount * l.winnersCount) :
    l.Splits := by
  have hpos : 0 < l.winnersCount := Nat.pos_of_ne_zero hn
  have hfee := serviceFee_le hbps
  have hper : l.perWinner = (l.totalFunds - l.serviceFee) / l.winnersCount := by
    rw [perWinner, hp, Nat.mul_div_cancel _ hpos]
  have hmod := Nat.div_add_mod (l.totalFunds - l.serviceFee) l.winnersCount
  have hlt := Nat.mod_lt (l.totalFunds - l.serviceFee) hpos
  have hpay : l.winnersCount * l.perWinner = l.totalPayout := by rw [hper, hp, Nat.mul_comm]
  rw [← hper, hpay] at hmod
  refine ⟨?_, ?_, ?_, hpay, hfee, by omega, by omega⟩
  · rw [payoutRemainder, hpay]
    omega
  · rw [hper]
    exact Nat.div_pos hle hpos
  · rw [payoutRemainder]
    omega

theorem splits_of_complete {l l' : Lottery K} {root root' : FinalizationLedger K} {now : ℤ}
    (hbps : l.serviceChargeBps < 10000)
    (h : FinalizeWinners.completeFinalization l root now = .ok (l', root')) :
    l'.Splits ∧ l'.winnersCount = root.selectedCount := by
  obtain ⟨fee, bitmap, hfee, hne, hle, -, -, rfl, -⟩ := FinalizeWinners.completeFinalization_ok h
  simp only [computeServiceFee, bind_eq_ok, rejectIf_eq_ok, exists_const, pure_eq_ok] at hfee
  obtain ⟨-, rfl⟩ := hfee
  exact ⟨splits_of_payout hbps hne hle rfl, rfl⟩

theorem Decided.splits {l : Lottery K} {c : Contest K} {root : FinalizationLedger K}
    (hd : l.Decided c root) (hbps : l.serviceChargeBps < 10000)
    (hc : c.totalFunds = l.totalFunds ∧ c.serviceChargeBps = l.serviceChargeBps) : l.Splits := by
  obtain ⟨hfunds, hrate⟩ := hc
  have hfee : c.serviceFee = l.serviceFee := by rw [Contest.serviceFee, hfunds, hrate]; rfl
  refine splits_of_payout hbps ?_ ?_ ?_
  · rw [hd.winnersCount]
    exact hd.target_pos.ne'
  · rw [hd.winnersCount, ← hfunds, ← hfee]
    exact hd.target_le
  · rw [hd.totalPayout, hd.winnersCount, Contest.perWinner, hfunds, hfee]

end Lottery

namespace Participant

/-- What decides a participant's refund. -/
def stake (p : Participant K) : ℕ × Bool := (p.ticketsBought, p.refundClaimed)

/-- What a participant could still claim as a refund. -/
def refundDue (price : ℕ) (p : Participant K) : ℕ :=
  if p.refundClaimed then 0 else price * p.ticketsBought

theorem refundClaimed_attest (p : Participant K) (vote : ℕ) (now : ℤ) :
    (p.attest vote now).refundClaimed = false := by
  rw [refundClaimed_eq]
  exact getLsbD_voteWord vote le_rfl

@[simp] theorem refundClaimed_new (lottery wallet : K) (hash : Bytes32) (tickets index : ℕ) :
    (Participant.new lottery wallet hash tickets index).refundClaimed = false := by
  rw [refundClaimed_eq]
  exact BitVec.getLsbD_zero

@[simp] theorem refundClaimed_includeVerifiedReveal (p : Participant K) (digest : Bytes32) :
    (p.includeVerifiedReveal digest).refundClaimed = p.refundClaimed :=
  refundClaimed_markRevealIncluded _

theorem map_refundDue {ps ps' : List (Participant K)} (h : ps'.map stake = ps.map stake)
    (price : ℕ) :
    ps'.map (refundDue price) = ps.map (refundDue price) := by
  have := congrArg (List.map fun x : ℕ × Bool ↦ if x.2 then 0 else price * x.1) h
  rw [List.map_map, List.map_map] at this
  exact this

theorem map_refundClaimed {ps ps' : List (Participant K)} (h : ps'.map stake = ps.map stake) :
    ps'.map refundClaimed = ps.map refundClaimed := by
  have := congrArg (List.map Prod.snd) h
  rw [List.map_map, List.map_map] at this
  exact this

theorem stake_of_unmarked {p p' : Participant K} (h : p'.unmarked = p.unmarked) :
    p'.stake = p.stake := by
  have hs : p'.unmarked.stake = p.unmarked.stake := by rw [h]
  exact hs

end Participant

namespace Round

/-- What a lottery still owes its participants. -/
def owed (r : Round K) : ℕ :=
  if r.lottery.winnersCount = 0 then
    (r.participants.map (Participant.refundDue r.lottery.ticketPriceLamports)).sum
  else r.lottery.totalFunds -
    r.lottery.paidWinners.card * (r.lottery.totalPayout / r.lottery.winnersCount)

/-- The vault holds its rent, what is owed and what was donated, until it is closed. -/
structure Funded (rt : Runtime K) (r : Round K) : Prop where
  vault : r.vaultClosed = false →
    r.vault = rt.minimumBalance Sizes.vaultSize + r.owed + r.donated
  closed : r.vaultClosed = true → r.lottery.settled = true ∧
    (r.lottery.winnersCount = 0 →
      r.lottery.participantsCount ≤ r.lottery.settlementBatchesCompleted) ∧
    (r.lottery.winnersCount ≠ 0 → r.lottery.settlementComplete = true)
  complete : r.lottery.settlementComplete = true → r.vaultClosed = true
  refunds : r.lottery.winnersCount = 0 → r.lottery.settlementBatchesCompleted =
    r.participants.countP Participant.refundClaimed
  unclaimed : r.lottery.settled = false ∨ r.lottery.winnersCount ≠ 0 →
    ∀ p ∈ r.participants, p.refundClaimed = false

variable {rt : Runtime K} {r r' : Round K}

theorem sum_refundDue (hb : r.books.Sound) (h : ∀ p ∈ r.participants, p.refundClaimed = false) :
    (r.participants.map (Participant.refundDue r.lottery.ticketPriceLamports)).sum =
      r.lottery.totalFunds := by
  have hmap : r.participants.map (Participant.refundDue r.lottery.ticketPriceLamports) =
      r.participants.map fun p ↦ r.lottery.ticketPriceLamports * p.ticketsBought :=
    List.map_congr_left fun p hp ↦ by simp [Participant.refundDue, h p hp]
  have ht : r.lottery.totalTickets = (r.participants.map Participant.ticketsBought).sum := by
    have := hb.enrolled.tickets
    rw [books, List.map_map] at this
    exact this
  have hf : r.lottery.totalFunds = r.lottery.ticketPriceLamports * r.lottery.totalTickets :=
    hb.enrolled.funds
  rw [hmap, hf, ht, List.sum_map_mul_left]

namespace Funded

theorem owed_eq (h : Funded rt r) (hb : r.books.Sound) (hw : r.lottery.winnersCount = 0)
    (hs : r.lottery.settled = false) : r.owed = r.lottery.totalFunds := by
  rw [owed, if_pos hw]
  exact sum_refundDue hb (h.unclaimed (.inl hs))

structure SameFunds (l l' : Lottery K) : Prop where
  winnersCount : l'.winnersCount = l.winnersCount
  totalPayout : l'.totalPayout = l.totalPayout
  totalFunds : l'.totalFunds = l.totalFunds
  ticketPriceLamports : l'.ticketPriceLamports = l.ticketPriceLamports
  paidWinnersBitmap : l'.paidWinnersBitmap = l.paidWinnersBitmap
  settled : l'.settled = l.settled
  batches : l'.settlementBatchesCompleted = l.settlementBatchesCompleted
  participantsCount : l'.participantsCount = l.participantsCount
  settlementComplete : l'.settlementComplete = l.settlementComplete

theorem SameFunds.refl (l : Lottery K) : SameFunds l l :=
    ⟨rfl, rfl, rfl, rfl, rfl, rfl, rfl, rfl, rfl⟩

theorem paidWinners_congr {l l' : Lottery K} (hw : l'.winnersCount = l.winnersCount)
    (hb : l'.paidWinnersBitmap = l.paidWinnersBitmap) : l'.paidWinners = l.paidWinners := by
  ext j
  rw [Lottery.mem_paidWinners, Lottery.mem_paidWinners, Lottery.isWinnerPaid_eq,
    Lottery.isWinnerPaid_eq, hw, hb]

theorem owed_congr (hl : SameFunds r.lottery r'.lottery)
    (hps : r'.participants.map Participant.stake = r.participants.map Participant.stake) :
    r'.owed = r.owed := by
  unfold owed
  rw [hl.winnersCount, hl.totalFunds, hl.totalPayout, hl.ticketPriceLamports,
    Participant.map_refundDue hps, paidWinners_congr hl.winnersCount hl.paidWinnersBitmap]

theorem same (h : Funded rt r) (hl : SameFunds r.lottery r'.lottery)
    (hps : r'.participants.map Participant.stake = r.participants.map Participant.stake)
    (hv : r'.vault + r.donated = r.vault + r'.donated) (hc : r'.vaultClosed = r.vaultClosed) :
    Funded rt r' := by
  have hclaimed := Participant.map_refundClaimed hps
  refine ⟨?_, ?_, ?_, ?_, ?_⟩
  · rw [hc, owed_congr hl hps]
    intro ho
    have := h.vault ho
    omega
  · rw [hc, hl.settled, hl.winnersCount, hl.batches, hl.participantsCount, hl.settlementComplete]
    exact h.closed
  · rw [hc, hl.settlementComplete]
    exact h.complete
  · rw [hl.winnersCount, hl.batches]
    have := congrArg (List.countP id) hclaimed
    rw [List.countP_map, List.countP_map] at this
    exact fun hw ↦ (h.refunds hw).trans this.symm
  · rw [hl.winnersCount, hl.settled]
    intro hs p hp
    have hmem : p.refundClaimed ∈ r.participants.map Participant.refundClaimed :=
      hclaimed ▸ List.mem_map_of_mem hp
    obtain ⟨q, hq, hqp⟩ := List.mem_map.mp hmem
    exact hqp ▸ h.unclaimed hs q hq

theorem init (h : r.Created rt) : Funded rt r := by
  obtain ⟨id, config, authority, vault, bump, bps, price, hnew, -, -⟩ := h.lottery
  obtain ⟨-, -, -, -, -, -, -, -, -, -, -, -, -, -, -, -, -, hwc, -, -, hbatch, hsc, -⟩ :=
    Lottery.new_ok hnew
  refine ⟨fun _ ↦ ?_, ?_, ?_, fun _ ↦ ?_, fun _ p hp ↦ ?_⟩
  · rw [h.vault, h.donated, owed, if_pos hwc, h.participants]
    rfl
  · simp [h.vaultClosed]
  · simp [hsc]
  · rw [hbatch, h.participants]
    rfl
  · simp [h.participants] at hp

theorem vault_open (h : Funded rt r) (hs : r.lottery.settled = false) : r.vaultClosed = false := by
  cases hc : r.vaultClosed with
  | false => rfl
  | true => exact absurd (h.closed hc).1 (by simp [hs])

theorem payout_le {c : Contest K} {root : FinalizationLedger K} (hd : r.lottery.Decided c root)
    (hc : c.totalFunds = r.lottery.totalFunds) {n : ℕ} (hn : n ≤ r.lottery.winnersCount) :
    n * (r.lottery.totalPayout / r.lottery.winnersCount) ≤ r.lottery.totalFunds := by
  have hle := Nat.mul_le_mul_right (r.lottery.totalPayout / r.lottery.winnersCount) hn
  have hpay := Nat.mul_div_le r.lottery.totalPayout r.lottery.winnersCount
  have hper : c.perWinner * c.target ≤ c.totalFunds - c.serviceFee := Nat.div_mul_le_self _ _
  rw [← hd.totalPayout] at hper
  omega

theorem sold {n : ℕ} {l : Lottery K} {ps : List (Participant K)} {count : ℕ}
    (h : Funded rt r) (hset : r.lottery.settled = false) (hw : r.lottery.winnersCount = 0)
    (hl : l = { r.lottery.sell count with participantsCount := n })
    (hdue : (ps.map (Participant.refundDue r.lottery.ticketPriceLamports)).sum =
      (r.participants.map (Participant.refundDue r.lottery.ticketPriceLamports)).sum +
        r.lottery.ticketPriceLamports * count)
    (hps : ∀ p ∈ ps, p.refundClaimed = false) :
    Funded rt { r with
      lottery := l, vault := r.vault + r.lottery.ticketPriceLamports * count,
        participants := ps } := by
  subst hl
  have hopen := h.vault_open hset
  refine ⟨fun _ ↦ ?_, ?_, ?_, fun _ ↦ ?_, fun _ ↦ hps⟩
  · have hv := h.vault hopen
    rw [owed, if_pos hw] at hv
    rw [owed, if_pos (by exact hw)]
    dsimp only [Lottery.sell]
    rw [hdue, hv]
    omega
  · simp [hopen]
  · exact h.complete
  · have hz (ps : List (Participant K)) (hps : ∀ p ∈ ps, p.refundClaimed = false) :
        ps.countP Participant.refundClaimed = 0 := by
      rw [List.countP_eq_zero]
      exact fun p hp ↦ by simp [hps p hp]
    have hr := h.refunds hw
    rw [hz _ (h.unclaimed (.inl hset))] at hr
    exact hr.trans (hz ps hps).symm

theorem step (h : Funded rt r) (hb : r.books.Sound) (hr : r.Routed) (hp : Progress rt r)
    (hs : r.Step rt r') : Funded rt r' := by
  have hsame {r' : Round K} := @same K _ _ rt r r' h
  have hundecided (hns : ¬(0 < r.lottery.uploadStartUnix ∧ r.lottery.uploadStartUnix ≤ r.now)) :
      r.lottery.winnersCount = 0 := by
    by_contra hne
    exact hns ((hr.sealed_of_ledger (hr.won hne)).not_started hb)
  cases hs with
  | refl => exact h
  | tick => exact hsame (.refl _) rfl rfl rfl
  | reconfigure => exact hsame (.refl _) rfl rfl rfl
  | deposit n => exact hsame (.refl _) rfl (by dsimp only; omega) rfl
  | @buyFirst wallet hash count hbuy =>
    have hset := hbuy.not_settled
    refine h.sold hset (hundecided hbuy.not_started) rfl ?_ fun p hp ↦ ?_
    · rw [List.map_append, List.sum_append, List.map_singleton, List.sum_singleton,
        Participant.refundDue, Participant.refundClaimed_new]
      rfl
    · rcases List.mem_append.mp hp with hp | hp
      · exact h.unclaimed (.inl hset) p hp
      · rw [List.mem_singleton.mp hp]
        exact Participant.refundClaimed_new ..
  | @buyMore i p count hbuy hi =>
    have hset := hbuy.not_settled
    have hno := h.unclaimed (.inl hset)
    have hp := hno p (List.mem_of_getElem? hi)
    refine h.sold hset (hundecided hbuy.not_started) rfl ?_ fun q hq ↦ ?_
    · have hsum := sum_map_set (y := { p with ticketsBought := p.ticketsBought + count })
        (Participant.refundDue r.lottery.ticketPriceLamports) hi
      have hdue : Participant.refundDue r.lottery.ticketPriceLamports
          { p with ticketsBought := p.ticketsBought + count } =
            p.refundDue r.lottery.ticketPriceLamports + r.lottery.ticketPriceLamports * count := by
        have hp' : { p with ticketsBought := p.ticketsBought + count }.refundClaimed = false := hp
        rw [Participant.refundDue, Participant.refundDue, if_neg (by simp [hp']),
          if_neg (by simp [hp])]
        exact Nat.mul_add _ _ _
      omega
    · rcases eq_or_of_mem_set hq with rfl | ⟨j, -, hj⟩
      · exact hp
      · exact hno q (List.mem_of_getElem? hj)
  | beginReveal _ _ _ _ _ _ _ _ _ hopen =>
    obtain rfl := BeginRevealPhase.openWindow_ok hopen
    rw [BeginRevealPhase.autoComplete_eq]
    exact hsame ⟨rfl, rfl, rfl, rfl, rfl, rfl, rfl, rfl, rfl⟩ rfl rfl rfl
  | @attestUploaded i p vote hi hcan =>
    have hno := h.unclaimed (.inl (Lottery.phase_upload hcan.phase).1) p (List.mem_of_getElem? hi)
    rw [Lottery.countAttestation_eq]
    refine hsame ⟨rfl, rfl, rfl, rfl, rfl, rfl, rfl, rfl, rfl⟩ (map_set_same hi ?_) rfl rfl
    rw [Participant.stake, Participant.stake, p.refundClaimed_attest, hno]
    rfl
  | @attestReveal i p p' vote plaintext l l' t hi hcan _ _ _ _ hp' hrec _ _ hconc =>
    have hno := h.unclaimed (.inl (Lottery.phase_upload hcan.phase).1) p (List.mem_of_getElem? hi)
    subst hp'
    obtain ⟨-, rfl⟩ := AttestReveal.recordReveal_ok hrec
    obtain rfl := AttestReveal.conclude_ok hconc
    refine hsame ⟨rfl, rfl, rfl, rfl, rfl, rfl, rfl, rfl, rfl⟩ (map_set_same hi ?_) rfl rfl
    rw [Participant.stake, Participant.stake, Participant.refundClaimed_includeVerifiedReveal,
      p.refundClaimed_attest, hno]
    rfl
  | uploadReveals hadmit _ hsweep hinc =>
    obtain ⟨-, -, -, -, -, -, -, rfl⟩ := UploadReveals.checkPhase_ok hadmit
    obtain ⟨-, rfl⟩ := UploadReveals.includeUploads_ok hinc
    refine hsame ⟨rfl, rfl, rfl, rfl, rfl, rfl, rfl, rfl, rfl⟩ (hsweep.map_eq ?_) rfl rfl
    rintro s e p s' p' ⟨digest, hv, -⟩
    obtain ⟨-, -, -, -, -, rfl⟩ := UploadReveals.includeReveal_ok hv
    rw [Participant.stake, Participant.stake, Participant.refundClaimed_includeVerifiedReveal]
    rfl
  | beginRemediation _ _ _ _ _ _ hrem =>
    obtain ⟨-, rfl⟩ | ⟨-, rfl⟩ := Lottery.beginRemediation_ok hrem
    all_goals exact hsame ⟨rfl, rfl, rfl, rfl, rfl, rfl, rfl, rfl, rfl⟩ rfl rfl rfl
  | @aggregate chunk ps root root' l _ _ _ hsweep _ hend =>
    have hl : SameFunds r.lottery l := by
      split at hend
      · obtain ⟨_, _, _, _, _, _, _, rfl, -⟩ := FinalizeWinners.finishAggregation_ok hend
        exact ⟨rfl, rfl, rfl, rfl, rfl, rfl, rfl, rfl, rfl⟩
      · cases hend
        exact .refl _
    exact hsame hl (hsweep.map_eq fun _ _ _ _ _ h ↦
      Participant.stake_of_unmarked (unmarked_aggregateParticipant h)) rfl rfl
  | select _ _ _ hsweep =>
    exact hsame (.refl _) (hsweep.map_eq fun _ _ _ _ _ h ↦
      Participant.stake_of_unmarked (unmarked_selectParticipant h)) rfl rfl
  | @selectLast chunk ps root root₁ root' winner page data l hfin hph _ hsweep _ _ happ _ hnext =>
    have hps : ps.map Participant.stake = r.participants.map Participant.stake :=
      hsweep.map_eq fun _ _ _ _ _ h ↦ Participant.stake_of_unmarked (unmarked_selectParticipant h)
    rcases FinalizeWinners.nextRound_ok hnext with ⟨-, hcomp⟩ | ⟨-, rfl, -⟩
    · obtain ⟨fee, bitmap, -, hne, -, -, hclear, rfl, -⟩ :=
        FinalizeWinners.completeFinalization_ok hcomp
      have hset := hfin.not_settled
      have hopen := h.vault_open hset
      have hw : r.lottery.winnersCount = 0 := by
        cases hp with
        | waiting _ hw => exact hw
        | aggregating _ hw => exact hw
        | selecting _ hw => exact hw
        | completed hl _ _ hst => simp [openLedger, hl, hst.phase] at hph
      refine ⟨fun _ ↦ ?_, ?_, ?_, fun hz ↦ absurd hz hne, fun _ p hp ↦ ?_⟩
      · have hv := h.vault hopen
        rw [h.owed_eq hb hw hset] at hv
        rw [owed, if_neg hne, Lottery.paidWinners_cleared hclear ⟨rfl, rfl⟩]
        simpa using hv
      · simp [hopen]
      · exact h.complete
      · have hmem : p.stake ∈ r.participants.map Participant.stake := hps ▸ List.mem_map_of_mem hp
        obtain ⟨q, hq, hqp⟩ := List.mem_map.mp hmem
        exact (congrArg Prod.snd hqp).symm.trans (h.unclaimed (.inl hset) q hq)
    · exact hsame ⟨rfl, rfl, rfl, rfl, rfl, rfl, rfl, rfl, rfl⟩ hps rfl rfl
  | @payBatch winners pageIndex page l data fresh hpays hnot =>
    obtain ⟨old, hpage, hrun⟩ := hpays.page_eq
    have hw := hpays.winners_pos
    have hopen : r.vaultClosed = false := by
      cases hc : r.vaultClosed with
      | false => rfl
      | true => exact absurd ((h.closed hc).2.2 hw) (by simp [hpays.not_complete])
    cases hp with
    | waiting _ hz => exact absurd hz hw
    | aggregating _ hz => exact absurd hz hw
    | selecting _ hz => exact absurd hz hw
    | completed hl hd hpg hst =>
      have hcount : page.count ≤ winnersPerPage := by
        rw [(hpg.page _ _ _ hpage).2.2.2.1]
        exact min_le_left _ _
      have hcard := (hrun.marks hcount).paidWinners.2
      have hle := l.card_paidWinners_le
      obtain ⟨bitmap, rfl⟩ := hrun.lottery
      have hfit := payout_le hd rfl hle
      have hsolvent := hpays.solvent
      have hv := h.vault hopen
      rw [owed, if_neg hw] at hv
      refine ⟨fun _ ↦ ?_, by simp [hopen], h.complete, fun hz ↦ absurd hz hw,
        fun hs ↦ h.unclaimed hs⟩
      rw [owed, if_neg (by exact hw)]
      rw [hcard, Nat.add_mul] at hfit
      have hpaid : Lottery.paidWinners (Lottery.incrementSettlementBatch
          { r.lottery with paidWinnersBitmap := bitmap }) =
            Lottery.paidWinners { r.lottery with paidWinnersBitmap := bitmap } :=
        paidWinners_congr rfl rfl
      dsimp only [Lottery.incrementSettlementBatch] at hpaid ⊢
      rw [hpaid, hcard, Nat.add_mul, hv]
      omega
  | @payLast winners pageIndex page l l' data fresh fee hpays _ _ hcomp =>
    obtain ⟨old, -, hrun⟩ := hpays.page_eq
    obtain ⟨bitmap, rfl⟩ := hrun.lottery
    obtain rfl := Lottery.completeSettlement_ok hcomp
    have hw := hpays.winners_pos
    exact ⟨by simp, fun _ ↦ ⟨rfl, fun hz ↦ absurd hz hw, fun _ ↦ rfl⟩, fun _ ↦ rfl,
      fun hz ↦ absurd hz hw, fun _ ↦ h.unclaimed (.inr hw)⟩
  | finalizeNoAttesters hset =>
    have hopen := h.vault_open hset
    exact ⟨h.vault, by simp [hopen], h.complete, h.refunds, fun _ ↦ h.unclaimed (.inl hset)⟩
  | @claimRefund i p hset hw _ hi ht hno hcost _ =>
    have hsum := sum_map_set (y := p.markRefundClaimed)
      (Participant.refundDue r.lottery.ticketPriceLamports) hi
    have hcount := countP_set (y := p.markRefundClaimed) Participant.refundClaimed hi
    rw [hno, Participant.refundClaimed_markRefundClaimed] at hcount
    have hdue : p.refundDue r.lottery.ticketPriceLamports =
        r.lottery.ticketPriceLamports * p.ticketsBought := by simp [Participant.refundDue, hno]
    have hdue' : p.markRefundClaimed.refundDue r.lottery.ticketPriceLamports = 0 := by
      simp [Participant.refundDue]
    refine ⟨fun hopen ↦ ?_, fun hc ↦ ?_, h.complete, fun _ ↦ ?_, ?_⟩
    · have hv := h.vault hopen
      rw [owed, if_pos hw] at hv
      rw [owed, if_pos (by exact hw)]
      dsimp only [Lottery.countRefund]
      omega
    · obtain ⟨-, hbatch, -⟩ := h.closed hc
      exact ⟨hset, fun _ ↦ (hbatch hw).trans (Nat.le_succ _), fun hne ↦ absurd hw hne⟩
    · have hrefunds := h.refunds hw
      dsimp only [Lottery.countRefund]
      simp only [Bool.toNat_false, Bool.toNat_true] at hcount
      omega
    · rintro (hs | hne)
      · exact absurd (hset.symm.trans hs) (by decide)
      · exact absurd hw hne
  | closeRefundVault hset hw _ hbatch =>
    exact ⟨by simp, fun _ ↦ ⟨hset, fun _ ↦ hbatch, fun hne ↦ absurd hw hne⟩, fun _ ↦ rfl,
      h.refunds, h.unclaimed⟩

end Funded

end Round

end DailyLottery
