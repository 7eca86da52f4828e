import DailyLottery.Runs.Outcome

set_option linter.unusedSectionVars false

namespace DailyLottery

open Lib Ballot

variable {K : Type} [DecidableEq K] [Inhabited K] {rt : Runtime K} {acts : List (Action K)}
  {w w' : World K} {ws : List (World K)} {id : ℕ} {l l' : Lottery K} {r : Round K}
  {ix : Instruction K} {accounts : List (AccountInfo K)} {now : ℤ}

/-- The winner stored at an index, on the page it belongs to. -/
def winnerAt (rt : Runtime K) (id : ℕ) (w : World K) (i : ℕ) : Option (SelectedWinner K) :=
  match (w.view rt id (.winnerPage (i / winnersPerPage))).data with
  | .winnerPage page data => page.winner data (i % winnersPerPage)
  | _ => none

theorem Represents.winnerAt_eq {winners : List (SelectedWinner K)}
    (hr : Represents rt acts w ws id r) (hp : Paged r.key r.pages winners) (i : ℕ) :
    winnerAt rt id w i = winners[i]? := by
  have hmod := Nat.div_add_mod i winnersPerPage
  have hlt := Nat.mod_lt i (show winnersPerPage > 0 by decide)
  rw [Nat.mul_comm] at hmod
  unfold winnerAt
  rw [hr.pages]
  cases hi : r.pages (i / winnersPerPage) with
  | none =>
    rw [List.getElem?_eq_none]
    · rfl
    · by_contra hle
      obtain ⟨page, data, hs⟩ := hp.present (i / winnersPerPage) (by omega)
      simp [hi] at hs
  | some x =>
    obtain ⟨-, -, -, -, hw⟩ := hp.page _ x.1 x.2 hi
    rw [← hmod]
    simpa using hw _ hlt

/-- The indices among `s` whose winner is a wallet. -/
def indicesOf (rt : Runtime K) (id : ℕ) (w : World K) (s : Finset ℕ) (wallet : K) : Finset ℕ :=
  s.filter fun i ↦ (winnerAt rt id w i).map SelectedWinner.wallet = some wallet

/-- What a batch that completes the payouts leaves to the authority: the service fee, the rounding
remainder, the rent of the vault and what was sent to it. -/
def closingOf (rt : Runtime K) (id : ℕ) (acts : List (Action K)) (l l' : Lottery K) : ℕ :=
  if l.settlementComplete = false ∧ l'.settlementComplete = true then
    l.serviceFee + l.payoutRemainder + rt.minimumBalance Sizes.vaultSize +
      donatedTo (rt.slotKey id .vault) acts
  else 0

/-- A payout batch that goes through: the indices it pays, and where the lamports go. -/
structure PaysOut (rt : Runtime K) (id : ℕ) (acts : List (Action K))
    (winners : List (WinnerProof K))
    (w : World K) (l : Lottery K) (authority : K) (w' : World K) (l' : Lottery K)
    (fresh : Finset ℕ) : Prop where
  before : (w.view rt id .lottery).data = .lottery l
  after : (w'.view rt id .lottery).data = .lottery l'
  config : ∃ c, (w.accounts rt.configKey).data = .config c ∧ c.authority = authority
  winners_pos : l.winnersCount ≠ 0
  named : ∀ i ∈ fresh, i ∈ winners.map WinnerProof.index
  unpaid : Disjoint l.paidWinners fresh
  paid : l'.paidWinners = l.paidWinners ∪ fresh
  all : ∀ i ∈ winners.map WinnerProof.index, i < l.winnersCount → i ∈ l'.paidWinners
  closing : l'.settlementComplete = true → l.settlementComplete = false →
    (w'.view rt id .vault).lamports = 0
  vault : (w'.view rt id .vault).lamports + l.perWinner * fresh.card + closingOf rt id acts l l' =
    (w.view rt id .vault).lamports
  lamports : ∀ k, rt.Foreign k → (w'.accounts k).lamports = (w.accounts k).lamports +
    l.perWinner * (indicesOf rt id w fresh k).card +
      if authority = k then closingOf rt id acts l l' else 0

theorem paidTo_eq {page : WinnerPage K} {data : PageData K} {fresh : List ℕ} {i : ℕ}
    (hpage : (w.view rt id (.winnerPage i)).data = .winnerPage page data) (hnd : fresh.Nodup)
    (hi : ∀ j ∈ fresh, j / winnersPerPage = i) (amount : ℕ) (k : K) :
    SettlePayoutBatch.paidTo page data amount fresh k =
      amount * (indicesOf rt id w fresh.toFinset k).card := by
  have hat (j : ℕ) (hj : j ∈ fresh) : winnerAt rt id w j = page.winner data
    (j % winnersPerPage) := by
    rw [winnerAt, hi j hj, hpage]
  have hset : indicesOf rt id w fresh.toFinset k = fresh.toFinset.filter fun j ↦
      (page.winner data (j % winnersPerPage)).map SelectedWinner.wallet = some k := by
    refine Finset.filter_congr fun j hj ↦ ?_
    rw [hat j (List.mem_toFinset.mp hj)]
  rw [hset, SettlePayoutBatch.paidTo, ← List.sum_toFinset _ hnd, ← Finset.sum_filter,
    Finset.sum_const, smul_eq_mul, Nat.mul_comm]

section Batches

open SettlePayoutBatch

variable {winners : List (WinnerProof K)} {authority : K} {i left gain : ℕ} {page : WinnerPage K}
  {data data' : PageData K} {l₁ : Lottery K} {fresh : List ℕ}

theorem SettlePayoutBatch.Batch.marks
    (hb : Batch rt w w' winners r.lottery authority i page data data' l₁ l' fresh left gain)
    (hi : r.Invariant rt) (hr : Represents rt acts w ws r.lottery.id r) :
    Round.PayRun.Marks page i r.lottery data winners l₁ data' fresh := by
  obtain ⟨root, hroot, hph⟩ := hi.progress.of_decided hb.winners_pos
  obtain ⟨_, -, hpages, -⟩ := hi.progress.of_completed hroot hph
  refine hb.run.marks ?_
  rw [(hpages.page _ _ _ (hr.eq_page hb.page_eq)).2.2.2.1]
  exact min_le_left _ _

theorem SettlePayoutBatch.Batch.paidWinners
    (hb : Batch rt w w' winners l authority i page data data' l₁ l' fresh left gain) :
    l'.paidWinners = l₁.paidWinners := by
  rcases hb.concludes.lottery with rfl | rfl
  · exact Round.Funded.paidWinners_congr rfl rfl
  · exact Round.Funded.paidWinners_congr rfl rfl

theorem SettlePayoutBatch.Batch.vault
    (hb : Batch rt w w' winners r.lottery authority i page data data' l₁ l' fresh left gain)
    (hi : r.Invariant rt) (hr : Represents rt acts w ws r.lottery.id r) :
    left + r.lottery.perWinner * fresh.length + closingOf rt r.lottery.id acts r.lottery l' =
        (w.view rt r.lottery.id .vault).lamports ∧
      gain = closingOf rt r.lottery.id acts r.lottery l' ∧
      (l'.settlementComplete = true → left = 0) := by
  have hwc := hb.winners_pos
  obtain ⟨root, hroot, hph⟩ := hi.progress.of_decided hwc
  obtain ⟨_, hdec, -, -⟩ := hi.progress.of_completed hroot hph
  have hsplit := hdec.splits hi.configured.serviceCharge ⟨rfl, rfl⟩
  have hopen : r.vaultClosed = false := by
    by_contra hcl
    have := (hi.funded.closed (by simpa using hcl)).2.2 hwc
    simp [hb.not_complete] at this
  have hvault := hi.funded.vault hopen
  rw [Round.owed, if_neg hwc, ← hr.lamports, hr.donated] at hvault
  have hsolvent := hb.solvent
  have hcomm : r.lottery.perWinner * fresh.length =
      fresh.length * (r.lottery.totalPayout / r.lottery.winnersCount) := Nat.mul_comm _ _
  have hcard := (hb.marks hi hr).paidWinners.2
  have hpaid := hb.paidWinners
  have hcon := hb.concludes
  obtain ⟨bitmap, rfl⟩ := hb.run.lottery
  rw [hcomm]
  cases hcon with
  | partly =>
    have hcl : closingOf rt r.lottery.id acts r.lottery
        (Lottery.incrementSettlementBatch { r.lottery with paidWinnersBitmap := bitmap }) = 0 := by
      rw [closingOf, if_neg]
      rintro ⟨hn, hy⟩
      simp [Lottery.incrementSettlementBatch, hn] at hy
    rw [hcl]
    refine ⟨by omega, rfl, fun hy ↦ ?_⟩
    simp [Lottery.incrementSettlementBatch, hb.not_complete] at hy
  | fully _ _ hcomp =>
    have hfull := (Lottery.allWinnersPaid_iff (by exact hwc)).mp
      (Lottery.allWinnersPaid_of_completeSettlement hcomp)
    obtain rfl := Lottery.completeSettlement_ok hcomp
    have hn : (Lottery.paidWinners { r.lottery with paidWinnersBitmap := bitmap }).card =
        r.lottery.winnersCount := by
      rw [← hpaid]
      refine (congrArg Finset.card ?_).trans (Finset.card_range _)
      exact (Round.Funded.paidWinners_congr rfl rfl).trans hfull
    have htotal : r.lottery.paidWinners.card * (r.lottery.totalPayout / r.lottery.winnersCount) +
        fresh.length * (r.lottery.totalPayout / r.lottery.winnersCount) =
          r.lottery.totalPayout := by
      rw [← Nat.add_mul, ← hcard, hn]
      exact hsplit.payout
    have hsum := hsplit.sum
    rw [hsplit.payout] at hsum
    rw [closingOf, if_pos ⟨hb.not_complete, rfl⟩]
    exact ⟨by omega, by omega, fun _ ↦ rfl⟩

end Batches

theorem Step.paysOut {pre : List (K × Bytes)} {i batch : ℕ} {winners : List (WinnerProof K)}
    (h : (system rt).History acts (w :: ws))
    (hs : Step rt w (.instruction pre (.settlePayoutBatch i batch winners) accounts) w')
    (hon : CallsOn rt accounts id) :
    ∃ l authority l' fresh, PaysOut rt id acts winners w l authority w' l' fresh := by
  cases hs with
  | instruction hsig hok =>
    obtain ⟨l, c, hl, hon', hc, hf, -, -, hcase⟩ :=
      SettlePayoutBatch.effect (consistent h).typed hok
    obtain rfl := hon.eq hon'
    obtain ⟨r, hreach, hi, hr, rfl, -⟩ := represented h hl
    rcases hcase with ⟨hsc, rfl⟩ | ⟨i, page, data, data', l₁, l', fresh, left, gain, hb⟩
    · -- settled already, the call returns early
      have hwc := (hi.routed.complete hsc).2
      have hall := ((hi.paid.complete hwc).mp hsc)
      rw [Lottery.allWinnersPaid_iff hwc] at hall
      refine ⟨r.lottery, c.authority, r.lottery, ∅, hl, hl, ⟨c, hc, rfl⟩, hwc, by simp, by simp,
        by simp, fun j _ hj ↦ ?_, fun _ hn ↦ ?_, ?_, fun k _ ↦ ?_⟩
      · rw [hall]
        exact Finset.mem_range.mpr hj
      · simp [hsc] at hn
      · simp [closingOf, hsc]
      · simp [closingOf, hsc, indicesOf]
    · have hmarks := hb.marks hi hr
      obtain ⟨hleft, rfl, hzero⟩ := hb.vault hi hr
      have hcard : fresh.toFinset.card = fresh.length := List.toFinset_card_of_nodup hmarks.nodup
      refine ⟨r.lottery, c.authority, l', fresh.toFinset, hl, by rw [hb.view]; simp, ⟨c, hc, rfl⟩,
        hb.winners_pos, fun j hj ↦ ?_, ?_, hb.paidWinners.trans hmarks.paidWinners.1,
        fun j hj _ ↦ ?_, fun hy _ ↦ ?_, ?_, fun k hk ↦ ?_⟩
      · exact (hmarks.subset j (List.mem_toFinset.mp hj)).2.2.2
      · rw [Finset.disjoint_right]
        intro j hj
        rw [Lottery.mem_paidWinners, (hmarks.subset j (List.mem_toFinset.mp hj)).2.2.1]
        decide
      · obtain ⟨x, hx, rfl⟩ := List.mem_map.mp hj
        rw [hb.paidWinners, Lottery.mem_paidWinners]
        exact hmarks.paid x hx
      · rw [hb.view]
        simpa using hzero hy
      · rw [hb.view, hcard]
        simpa using hleft
      · rw [hb.paid k hk, paidTo_eq hb.page_eq hmarks.nodup fun j hj ↦ (hmarks.subset j hj).1,
          Lottery.perWinner]

/-- Whether an action is a payout batch on lottery `id`. -/
def Action.pays (rt : Runtime K) (id : ℕ) : Action K → Bool
  | .instruction _ (.settlePayoutBatch ..) accounts =>
    decide (accounts[1]?.map AccountInfo.key = some (rt.lotteryKey id))
  | _ => false

/-- An action is a payout batch on lottery `id` that names index `i`. -/
def Action.Covers (rt : Runtime K) (id i : ℕ) (a : Action K) : Prop :=
  ∃ pre n batch winners accounts, a = .instruction pre
    (.settlePayoutBatch n batch winners) accounts ∧
    CallsOn rt accounts id ∧ i ∈ winners.map WinnerProof.index

theorem Action.pays_iff {a : Action K} : a.pays rt id = true ↔ ∃ pre n batch winners accounts,
    a = .instruction pre (.settlePayoutBatch n batch winners) accounts ∧
    CallsOn rt accounts id := by
  constructor
  · intro h
    cases a with
    | instruction pre ix accounts =>
      cases ix with
      | settlePayoutBatch n batch winners =>
        simp only [pays, decide_eq_true_eq] at h
        exact ⟨pre, n, batch, winners, accounts, rfl, h⟩
      | _ => cases h
    | _ => cases h
  · rintro ⟨pre, n, batch, winners, accounts, rfl, hon⟩
    simp only [pays, decide_eq_true_eq]
    exact hon

theorem Action.Covers.pays {i : ℕ} {a : Action K} (h : a.Covers rt id i) : a.pays rt id = true := by
  obtain ⟨pre, n, batch, winners, accounts, rfl, hon, -⟩ := h
  exact Action.pays_iff.mpr ⟨pre, n, batch, winners, accounts, rfl, hon⟩

/-- What the completing batch leaves to a wallet, where that wallet is the authority. -/
def closingTo (rt : Runtime K) (id : ℕ) (wallet : K) (acts : List (Action K))
    (w w' : World K) : ℕ :=
  match (w.accounts rt.configKey).data, (w.view rt id .lottery).data,
      (w'.view rt id .lottery).data with
  | .config c, .lottery l, .lottery l' =>
    if c.authority = wallet then closingOf rt id acts l l' else 0
  | _, _, _ => 0

/-- What each payout batch on lottery `id` brought a wallet as a winner, latest first. -/
def payoutsTo (rt : Runtime K) (id : ℕ) (wallet : K) : List (Action K) → List (World K) → List ℕ
  | a :: acts, w' :: w :: ws =>
    if a.pays rt id then
      ((w'.accounts wallet).lamports - (w.accounts wallet).lamports -
        closingTo rt id wallet acts w w') :: payoutsTo rt id wallet acts (w :: ws)
    else payoutsTo rt id wallet acts (w :: ws)
  | _, _ => []

theorem payoutsTo_of_none (h : ∀ a ∈ acts, a.pays rt id = false) (wallet : K)
    (ws : List (World K)) :
    payoutsTo rt id wallet acts ws = [] := by
  induction acts generalizing ws with
  | nil => rfl
  | cons a acts ih =>
    match ws with
    | [] => rfl
    | [_] => rfl
    | w' :: w :: ws =>
      rw [payoutsTo, h a List.mem_cons_self, if_neg (by simp)]
      exact ih (fun b hb ↦ h b (List.mem_cons_of_mem _ hb)) _

theorem not_pays_of_undecided (h : (system rt).History acts (w :: ws))
    (hl : (w.view rt id .lottery).data = .lottery l) (hz : l.winnersCount = 0) :
    ∀ a ∈ acts, a.pays rt id = false := by
  intro a ha
  rw [Bool.eq_false_iff]
  intro hp
  obtain ⟨pre, n, batch, winners, accounts, rfl, hon⟩ := Action.pays_iff.mp hp
  exact winners_of_payout h ha hon hl hz

theorem Lottery.Change.paidWinnersBitmap (h : l.Change rt now ix l') (hwc : l.winnersCount ≠ 0)
    (hix : ∀ n batch winners, ix ≠ .settlePayoutBatch n batch winners) :
    l'.paidWinnersBitmap = l.paidWinnersBitmap := by
  cases h with
  | buyTickets => rfl
  | beginReveal _ hopen =>
    obtain rfl := BeginRevealPhase.openWindow_ok hopen
    rw [BeginRevealPhase.autoComplete_eq]
  | attestUploaded => rw [Lottery.countAttestation_eq]
  | attestReveal _ hrec hconc =>
    obtain ⟨-, rfl⟩ := AttestReveal.recordReveal_ok hrec
    obtain rfl := AttestReveal.conclude_ok hconc
    rfl
  | uploadReveals hadmit hinc =>
    obtain ⟨-, -, -, -, -, -, -, rfl⟩ := UploadReveals.checkPhase_ok hadmit
    obtain ⟨-, rfl⟩ := UploadReveals.includeUploads_ok hinc
    rfl
  | finalizeWinners _ _ hsame => exact hsame hwc
  | settlePayoutBatch => exact absurd rfl (hix _ _ _)
  | finalizeNoAttesters => rfl
  | claimRefund => rfl

theorem SameWinners.winnerAt (h : SameWinners rt id w w')
    (hpages : ∀ i, (w.view rt id (.winnerPage i)).data = .empty ∨
      ∃ page data, (w.view rt id (.winnerPage i)).data = .winnerPage page data) (i : ℕ) :
    winnerAt rt id w' i = winnerAt rt id w i := by
  unfold DailyLottery.winnerAt
  rcases hpages (i / winnersPerPage) with he | ⟨page, data, hp⟩
  · rw [he, h.missing _ he]
  · obtain ⟨data', hp', hw⟩ := h.page _ page data hp
    rw [hp, hp']
    exact hw _

theorem Step.winnerAt {a : Action K} (h : (system rt).History acts (w :: ws)) (hs : Step rt w a w')
    (hl : (w.view rt id .lottery).data = .lottery l) (hwc : l.winnersCount ≠ 0) :
    (∀ i, winnerAt rt id w' i = winnerAt rt id w i) ∧
      ∃ l', (w'.view rt id .lottery).data = .lottery l' ∧ l'.winnersCount = l.winnersCount ∧
        l'.totalPayout = l.totalPayout := by
  obtain ⟨r, hreach, hi, hr, rfl, -⟩ := represented h hl
  obtain ⟨r', hst, hr'⟩ := (consistent h).follow hs hr hi
  obtain ⟨root, hroot, hph⟩ := hi.progress.of_decided hwc
  have hsame := Round.SameOutcome.of_step hroot hph hst
  refine ⟨(hr.sameWinners hr' hsame).winnerAt fun i ↦ ?_, r'.lottery, hr'.lottery,
    hsame.winnersCount, hsame.totalPayout⟩
  rw [hr.pages]
  cases r.pages i with
  | none => exact .inl rfl
  | some x => exact .inr ⟨x.1, x.2, rfl⟩

theorem indicesOf_congr (h : ∀ i, winnerAt rt id w' i = winnerAt rt id w i) (s : Finset ℕ) (k : K) :
    indicesOf rt id w' s k = indicesOf rt id w s k := by
  simp only [indicesOf, h]

/-- What the payout batches of a run brought about so far. -/
structure PaidOut (rt : Runtime K) (id : ℕ) (acts : List (Action K)) (w : World K)
    (ws : List (World K)) (l : Lottery K) : Prop where
  covered : ∀ i < l.winnersCount, i ∈ l.paidWinners ↔ ∃ a ∈ acts, a.Covers rt id i
  sum : ∀ k, rt.Foreign k → (payoutsTo rt id k acts (w :: ws)).sum =
    l.perWinner * (indicesOf rt id w l.paidWinners k).card

theorem PaidOut.pays {pre : List (K × Bytes)} {n batch : ℕ} {winners : List (WinnerProof K)}
    {authority : K} {fresh : Finset ℕ}
    (h : PaidOut rt id acts w ws l) (hon : CallsOn rt accounts id)
    (hp : PaysOut rt id acts winners w l authority w' l' fresh)
    (hat : ∀ i, winnerAt rt id w' i = winnerAt rt id w i)
    (hl' : l'.winnersCount = l.winnersCount ∧ l'.totalPayout = l.totalPayout) :
    PaidOut rt id (.instruction pre (.settlePayoutBatch n batch winners) accounts :: acts) w'
      (w :: ws) l' := by
  refine ⟨fun i hi ↦ ?_, fun k hk ↦ ?_⟩
  · rw [hl'.1] at hi
    constructor
    · intro hmem
      rw [hp.paid, Finset.mem_union] at hmem
      rcases hmem with hmem | hmem
      · obtain ⟨a, ha, hc⟩ := (h.covered i hi).mp hmem
        exact ⟨a, List.mem_cons_of_mem _ ha, hc⟩
      · exact ⟨_, List.mem_cons_self, pre, n, batch, winners, accounts, rfl, hon, hp.named i hmem⟩
    · rintro ⟨a, ha, hc⟩
      rcases List.mem_cons.mp ha with rfl | ha
      · obtain ⟨pre', n', batch', winners', accounts', he, -, hmem⟩ := hc
        cases he
        exact hp.all i hmem hi
      · rw [hp.paid]
        exact Finset.mem_union_left _ ((h.covered i hi).mpr ⟨a, ha, hc⟩)
  · obtain ⟨c, hc, rfl⟩ := hp.config
    have hclosing : closingTo rt id k acts w w' =
        if c.authority = k then closingOf rt id acts l l' else 0 := by
      rw [closingTo, hc, hp.before, hp.after]
    have hper : l'.perWinner = l.perWinner := by
      rw [Lottery.perWinner, Lottery.perWinner, hl'.1, hl'.2]
    have hgain : (w'.accounts k).lamports - (w.accounts k).lamports - closingTo rt id k acts w w' =
        l.perWinner * (indicesOf rt id w fresh k).card := by
      rw [hp.lamports k hk, hclosing]
      omega
    have hcard : (indicesOf rt id w l'.paidWinners k).card =
        (indicesOf rt id w fresh k).card + (indicesOf rt id w l.paidWinners k).card := by
      rw [hp.paid, indicesOf, Finset.filter_union, Nat.add_comm]
      exact Finset.card_union_of_disjoint (Finset.disjoint_filter_filter hp.unpaid)
    have hpays : Action.pays rt id
        (.instruction pre (.settlePayoutBatch n batch winners) accounts) = true :=
      Action.pays_iff.mpr ⟨pre, n, batch, winners, accounts, rfl, hon⟩
    rw [payoutsTo, if_pos hpays, List.sum_cons, h.sum k hk, hgain, indicesOf_congr hat, hper, hcard,
      Nat.mul_add]

theorem PaidOut.keep {a : Action K} (h : PaidOut rt id acts w ws l) (ha : a.pays rt id = false)
    (hat : ∀ i, winnerAt rt id w' i = winnerAt rt id w i)
    (hl' : l'.winnersCount = l.winnersCount ∧ l'.totalPayout = l.totalPayout)
    (hp : l'.paidWinners = l.paidWinners) : PaidOut rt id (a :: acts) w' (w :: ws) l' := by
  have hper : l'.perWinner = l.perWinner := by
    rw [Lottery.perWinner, Lottery.perWinner, hl'.1, hl'.2]
  refine ⟨fun i hi ↦ ?_, fun k hk ↦ ?_⟩
  · rw [hp, h.covered i (hl'.1 ▸ hi)]
    constructor
    · rintro ⟨b, hb, hc⟩
      exact ⟨b, List.mem_cons_of_mem _ hb, hc⟩
    · rintro ⟨b, hb, hc⟩
      rcases List.mem_cons.mp hb with rfl | hb
      · simp [hc.pays] at ha
      · exact ⟨b, hb, hc⟩
  · rw [payoutsTo, if_neg (by simp [ha]), h.sum k hk, indicesOf_congr hat, hper, hp]

theorem Step.paidWinners {a : Action K} (h : (system rt).History acts (w :: ws))
    (hs : Step rt w a w') (ha : a.pays rt id = false)
    (hl : (w.view rt id .lottery).data = .lottery l)
    (hl' : (w'.view rt id .lottery).data = .lottery l') (hwc : l.winnersCount ≠ 0)
    (hwc' : l'.winnersCount = l.winnersCount) : l'.paidWinners = l.paidWinners := by
  refine Round.Funded.paidWinners_congr hwc' ?_
  by_cases hinst : ∃ pre ix accounts, a = .instruction pre ix accounts
  · obtain ⟨pre, ix, accounts, rfl⟩ := hinst
    obtain ⟨l₁, hl₁, rfl | ⟨hon, hch⟩⟩ := (hs.changes (consistent h) id).lottery _ hl
    · cases hl₁.symm.trans hl'
      rfl
    · cases hl₁.symm.trans hl'
      refine hch.paidWinnersBitmap hwc ?_
      rintro n batch winners rfl
      simp [Action.pays_iff.mpr ⟨pre, n, batch, winners, accounts, rfl, hon⟩] at ha
  · have hinst : ∀ pre ix accounts, a ≠ .instruction pre ix accounts := by
      rintro pre ix accounts rfl
      exact hinst ⟨pre, ix, accounts, rfl⟩
    have hd := (hs.environment hinst id .lottery).resolve_right (by simp [hl'])
    rw [hl, hl'] at hd
    cases hd
    rfl

theorem PaidOut.of_none (hp : l.paidWinners = ∅) (hacts : ∀ a ∈ acts, a.pays rt id = false) :
    PaidOut rt id acts w ws l := by
  refine ⟨fun i _ ↦ ?_, fun k _ ↦ ?_⟩
  · refine iff_of_false (by simp [hp]) ?_
    rintro ⟨a, ha, hc⟩
    exact absurd hc.pays (by simp [hacts a ha])
  · rw [payoutsTo_of_none hacts, hp]
    rfl

/-- In every run the payouts match the paid indices. -/
theorem paidOut (h : (system rt).History acts (w :: ws))
    (hl : (w.view rt id .lottery).data = .lottery l) (hwc : l.winnersCount ≠ 0) :
    PaidOut rt id acts w ws l := by
  have hall := h.invariant (P := fun acts ws ↦ ∀ w ws', ws = w :: ws' → ∀ l,
    (w.view rt id .lottery).data = .lottery l → l.winnersCount ≠ 0 →
      PaidOut rt id acts w ws' l) ?_ ?_
  · exact hall w ws rfl l hl hwc
  · rintro s hs w ws' he l hl
    cases he
    rw [World.view, Runtime.slotKey, hs.unused] at hl
    cases hl
  · rintro as ss s a t hh hP hs w ws' he l' hl' hwc'
    cases he
    have hc := consistent hh
    cases ha : a.pays rt id with
    | true =>
      obtain ⟨pre, n, batch, winners, accounts, rfl, hon⟩ := Action.pays_iff.mp ha
      obtain ⟨l, authority, l₁, fresh, hp⟩ := hs.paysOut hh hon
      cases hp.after.symm.trans hl'
      obtain ⟨hat, l₂, hl₂, hsame⟩ := hs.winnerAt hh hp.before hp.winners_pos
      cases hl₂.symm.trans hl'
      exact (hP s ss rfl l hp.before hp.winners_pos).pays hon hp hat hsame
    | false =>
      by_cases hl₀ : ∃ l, (s.view rt id .lottery).data = .lottery l ∧ l.winnersCount ≠ 0
      · obtain ⟨l, hl, hwc⟩ := hl₀
        obtain ⟨hat, l₂, hl₂, hsame⟩ := hs.winnerAt hh hl hwc
        cases hl₂.symm.trans hl'
        exact (hP s ss rfl l hl hwc).keep ha hat hsame (hs.paidWinners hh ha hl hl' hwc hsame.1)
      · by_cases he : (s.view rt id .lottery).data = .empty
        · rcases hc.follow_absent hs (hc.absent id he) with ha' | ⟨r, hcreated, hr⟩
          · simp [ha'.data] at hl'
          · obtain rfl := hr.eq_lottery hl'
            obtain ⟨_, _, _, _, _, _, _, hnew, -⟩ := hcreated.lottery
            obtain ⟨-, -, -, -, -, -, -, -, -, -, -, -, -, -, -, -, -, hwc, -⟩ :=
              Lottery.new_ok hnew
            exact absurd hwc hwc'
        · obtain ⟨r, hreach, hr⟩ := hc.round id he
          obtain ⟨r', hst, hr'⟩ := hc.follow hs hr (Round.invariant hreach)
          obtain rfl := hr'.eq_lottery hl'
          have hz : r.lottery.winnersCount = 0 := by
            by_contra hne
            exact hl₀ ⟨_, hr.lottery, hne⟩
          refine .of_none (Round.unpaid_of_step hst hz hwc') fun b hb ↦ ?_
          rcases List.mem_cons.mp hb with rfl | hb
          · exact ha
          · exact not_pays_of_undecided hh hr.lottery hz b hb

end DailyLottery
