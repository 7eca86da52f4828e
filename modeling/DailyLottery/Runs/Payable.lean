import DailyLottery.Runs.Ready

set_option linter.unusedSectionVars false

namespace DailyLottery

open Lib AccountInfo

variable {K : Type} [DecidableEq K] [Inhabited K] {rt : Runtime K} {w w' : World K} {id : ℕ}

/-- A refusal that blames neither the stored data nor the vault. -/
def ProgramError.Benign (e : ProgramError) : Prop :=
  e ≠ Error.invalidAccountData ∧ e ≠ Error.insufficientFunds

section Moves

variable {vaultAi targetAi ai : AccountInfo K} {n : ℕ} {e : ProgramError}

theorem assertPdaOwned_error {s : Seeds K} (h : assertPdaOwned rt w ai s = .error e) :
    e.Benign := by
  simp only [assertPdaOwned, bind_eq_error, rejectIf_eq_error, rejectIf_eq_ok, exists_const] at h
  rcases h with ⟨-, rfl⟩ | ⟨-, -, rfl⟩
  · exact ⟨by simp, by simp⟩
  · exact ⟨by simp, by simp⟩

theorem requireWritable_error (h : requireWritable ai = .error e) : e.Benign := by
  obtain ⟨-, rfl⟩ := rejectIf_eq_error.mp h
  exact ⟨by simp, by simp⟩

theorem requireKeyMatch_error {k : K} (h : requireKeyMatch ai k = .error e) :
    ai.key ≠ k ∧ e = Error.invalidAccountData := by
  obtain ⟨hk, rfl⟩ := rejectIf_eq_error.mp h
  exact ⟨hk, rfl⟩

theorem readAccountData_error {T : Type} [AccountType K T]
    (h : readAccountData rt w T ai = .error e) :
    e.Benign := by
  have he : e = .invalidAccountData := by
    simp only [readAccountData] at h
    split at h
    · cases h
      rfl
    · split at h
      · cases h
      · exact (okOr_eq_error.mp h).2.symm
  rw [he]
  exact ⟨by simp, by simp⟩

theorem writeAccountData_error {T : Type} [AccountType K T] {t : T}
    (h : writeAccountData rt w ai t = .error e) : e.Benign := by
  simp only [writeAccountData, bind_eq_error, rejectIf_eq_error, rejectIf_eq_ok, exists_const,
    pure_ne_error, and_false, or_false] at h
  rcases h with ⟨-, rfl⟩ | ⟨-, ⟨-, rfl⟩ | ⟨-, -, rfl⟩⟩
  all_goals exact ⟨by simp, by simp⟩

theorem moveLamports_error (hle : n ≤ (w.accounts vaultAi.key).lamports)
    (h : moveLamports w vaultAi targetAi n = .error e) : e.Benign := by
  simp only [moveLamports, bind_eq_error, rejectIf_eq_error, rejectIf_eq_ok, exists_const,
    pure_ne_error, and_false, or_false] at h
  rcases h with ⟨-, rfl⟩ | ⟨-, ⟨hlt, -⟩ | ⟨-, -, rfl⟩⟩
  · exact ⟨by simp, by simp⟩
  · omega
  · exact ⟨by simp, by simp⟩

theorem movePositive_error (hle : n ≤ (w.accounts vaultAi.key).lamports)
    (h : movePositive w vaultAi targetAi n = .error e) : e.Benign := by
  unfold movePositive at h
  split at h
  · exact moveLamports_error hle h
  · cases h

theorem moveLamports_succeeds (hne : vaultAi.key ≠ targetAi.key)
    (hle : n ≤ (w.accounts vaultAi.key).lamports) (hv : vaultAi.isWritable = true)
    (ht : targetAi.isWritable = true) : ∃ w', moveLamports w vaultAi targetAi n = .ok w' := by
  simp only [moveLamports_eq_ok]
  exact ⟨_, hne, hle, hv, ht, rfl⟩

theorem movePositive_succeeds (hne : vaultAi.key ≠ targetAi.key)
    (hle : n ≤ (w.accounts vaultAi.key).lamports) (hv : vaultAi.isWritable = true)
    (ht : targetAi.isWritable = true) : ∃ w', movePositive w vaultAi targetAi n = .ok w' := by
  unfold movePositive
  split
  · exact moveLamports_succeeds hne hle hv ht
  · exact ⟨w, rfl⟩

end Moves

namespace SettlePayoutBatch

variable {i amount batch : ℕ} {lotteryAi vaultAi pageAi authorityAi recipientAi : AccountInfo K}
  {page : WinnerPage K} {data : PageData K} {l l' : Lottery K} {x : WinnerProof K}

/-- The paid bits of a page and of its lottery say the same. -/
def Agree (page : WinnerPage K) (data : PageData K) (i : ℕ) (l : Lottery K) : Prop :=
  ∀ j < page.count, page.isPaid data j = l.isWinnerPaid (i * winnersPerPage + j)

theorem winner_lt {j : ℕ} {winner : SelectedWinner K} (h : page.winner data j = some winner) :
    j < page.count := by
  unfold WinnerPage.winner at h
  split at h
  · cases h
  · omega

theorem checkEntry_error {e : ProgramError} (ha : Agree page data i l)
    (h : checkEntry l page data i amount x = .error e) : e = .custom .invalidInstruction := by
  simp only [checkEntry, bind_eq_error, rejectIf_eq_error, rejectIf_eq_ok, exists_const,
    okOr_eq_error, okOr_eq_ok, pure_ne_error, and_false, or_false, not_or, not_not,
      not_le, ne_eq] at h
  rcases h with ⟨-, rfl⟩ | ⟨-, ⟨-, rfl⟩ | ⟨⟨hi, -⟩,
    ⟨-, rfl⟩ | ⟨winner, hw, ⟨-, rfl⟩ | ⟨-, hne, -⟩⟩⟩⟩
  · rfl
  · rfl
  · rfl
  · rfl
  · refine absurd (ha _ (winner_lt hw)) ?_
    rwa [← hi, Nat.div_add_mod']

theorem Agree.mark {data' : PageData K} (ha : Agree page data i l)
    (hcount : page.count ≤ winnersPerPage) (hi : x.index / winnersPerPage = i)
    (hm : page.markPaid data (x.index % winnersPerPage) = .ok data')
    (hl : l.markWinnerPaid x.index = .ok l') : Agree page data' i l' := by
  intro j hj
  rw [WinnerPage.isPaid_mark hcount hm, Lottery.isWinnerPaid_mark hl, ha j hj]
  congr 1
  rw [decide_eq_decide]
  have hmod := Nat.div_add_mod' x.index winnersPerPage
  constructor
  · rintro rfl
    rw [← hi, hmod]
  · intro he
    rw [← he, Nat.mul_comm, Nat.mul_add_mod, Nat.mod_eq_of_lt (hj.trans_le hcount)]

theorem payEntry_error {e : ProgramError} (hle : x.amount ≤ (w.accounts vaultAi.key).lamports)
    (h : payEntry w l lotteryAi vaultAi pageAi page recipientAi batch x = .error e) : e.Benign := by
  simp only [payEntry, bind_eq_error, rejectIf_eq_error, rejectIf_eq_ok, exists_const,
    WinnerPage.markPaid, Lottery.markWinnerPaid, pure_ne_error, and_false, or_false, exists_false,
    bind_eq_ok, pure_eq_ok] at h
  rcases h with ⟨-, rfl⟩ | ⟨-, hmove | ⟨_, -, ⟨-, rfl⟩ | ⟨_, -, -, rfl⟩⟩⟩
  · exact ⟨by simp, by simp⟩
  · exact movePositive_error hle hmove
  · exact ⟨by simp, by simp⟩
  · exact ⟨by simp, by simp⟩

theorem payLoop_error {e : ProgramError} (hvk : vaultAi.key = rt.slotKey id .vault)
    (hpk : pageAi.key = rt.slotKey id (.winnerPage i)) {xs : List (WinnerProof K × AccountInfo K)}
    (hcount : page.count ≤ winnersPerPage)
    (hf : ∀ offset winner, page.winner data offset = some winner → rt.Foreign winner.wallet)
    (hd : (w.view rt id (.winnerPage i)).data = .winnerPage page data) (ha : Agree page data i l)
    (hfund : l.winnersCount * amount ≤
      (w.view rt id .vault).lamports + l.paidWinners.card * amount)
    (h : payLoop lotteryAi vaultAi pageAi page i amount batch xs w l = .error e) : e.Benign := by
  induction xs generalizing w l data with
  | nil => cases h
  | cons x xs ih =>
    obtain ⟨x, recipientAi⟩ := x
    simp only [payLoop, bind_eq_error, hpk, World.accounts_slotKey, hd, AccountData.pageData] at h
    rcases h with h | ⟨b, hb, h⟩
    · rw [checkEntry_error ha h]
      exact ⟨by simp, by simp⟩
    obtain ⟨hlt, hi, hx, hw, -, hpaid⟩ := checkEntry_ok hb
    cases b with
    | true => exact ih hf hd ha hfund (by simpa using h)
    | false =>
      -- an unpaid index leaves its share in the vault
      have hcard : l.paidWinners.card < l.winnersCount := by
        rw [← Finset.card_range l.winnersCount]
        refine Finset.card_lt_card ⟨l.paidWinners_subset, fun hsub ↦ ?_⟩
        have := Lottery.mem_paidWinners.mp (hsub (Finset.mem_range.mpr hlt))
        simp [hpaid] at this
      have hle : x.amount ≤ (w.accounts vaultAi.key).lamports := by
        rw [hvk, World.accounts_slotKey, hx]
        have := Nat.mul_le_mul_right amount (Nat.succ_le_of_lt hcard)
        rw [Nat.succ_mul] at this
        omega
      simp only [Bool.false_eq_true, if_false, bind_eq_error, Prod.exists] at h
      rcases h with h | ⟨w₁, l₁, hpay, h⟩
      · exact payEntry_error hle h
      have hfr : rt.Foreign recipientAi.key := by
        obtain ⟨stored, hs, hsw⟩ := Option.map_eq_some_iff.mp hw
        have hkey : recipientAi.key = x.recipient := by
          simp only [payEntry, bind_eq_ok, rejectIf_eq_ok, exists_const, not_not, ne_eq] at hpay
          exact hpay.1
        rw [hkey, ← hsw]
        exact hf _ _ hs
      obtain ⟨data₁, hm, hl, -, -, -, hv, -⟩ := payEntry_ok hvk hpk hd hfr hpay
      have hwin := WinnerPage.winner_markPaid hm
      refine ih (fun o v ho ↦ hf o v (hwin o ▸ ho)) (by simp [hv]) (ha.mark hcount hi hm hl) ?_ h
      have hinsert := Lottery.paidWinners_mark hl
      have hnew : x.index ∉ l.paidWinners := by
        rw [Lottery.mem_paidWinners, hpaid]
        decide
      have hwc : l₁.winnersCount = l.winnersCount := by
        simp only [Lottery.markWinnerPaid, bind_eq_ok, rejectIf_eq_ok, exists_const,
          pure_eq_ok] at hl
        obtain ⟨-, rfl⟩ := hl
        rfl
      rw [hwc, hinsert, Finset.card_insert_of_notMem hnew, Nat.succ_mul, hv]
      rw [hvk, World.accounts_slotKey] at hle
      have hvault : (w₁.view rt id .vault).lamports =
          (w.view rt id .vault).lamports - x.amount := by
        rw [hv]
        simp
      rw [← hv, hvault]
      omega

theorem payLoop_funds {extra : ℕ} (hvk : vaultAi.key = rt.slotKey id .vault)
    (hpk : pageAi.key = rt.slotKey id (.winnerPage i)) {xs : List (WinnerProof K × AccountInfo K)}
    (hcount : page.count ≤ winnersPerPage)
    (hf : ∀ offset winner, page.winner data offset = some winner → rt.Foreign winner.wallet)
    (hd : (w.view rt id (.winnerPage i)).data = .winnerPage page data)
    (hfund : l.winnersCount * amount + extra ≤
      (w.view rt id .vault).lamports + l.paidWinners.card * amount)
    (h : payLoop lotteryAi vaultAi pageAi page i amount batch xs w l = .ok (w', l')) :
    (∃ bitmap, l' = { l with paidWinnersBitmap := bitmap }) ∧
      extra ≤ (w'.view rt id .vault).lamports := by
  obtain ⟨data', fresh, hrun, hle, -, hv, -⟩ := payLoop_ok hvk hpk hf hd h
  obtain ⟨bitmap, rfl⟩ := hrun.lottery
  refine ⟨⟨bitmap, rfl⟩, ?_⟩
  have hcard := (hrun.marks hcount).paidWinners.2
  have hmax := Lottery.card_paidWinners_le { l with paidWinnersBitmap := bitmap }
  have hshares := Nat.mul_le_mul_right amount hmax
  have hwc : (Lottery.winnersCount { l with paidWinnersBitmap := bitmap }) = l.winnersCount := rfl
  rw [hcard, hwc, Nat.add_mul] at hshares
  rw [hv]
  simp
  omega

theorem closeVault_error {e : ProgramError} (hvk : vaultAi.key = rt.slotKey id .vault)
    (hf : rt.Foreign authorityAi.key)
    (hle : l.serviceFee + l.payoutRemainder ≤ (w.view rt id .vault).lamports)
    (h : closeVault w l lotteryAi vaultAi authorityAi = .error e) : e.Benign := by
  have hlam (w : World K) : (w.accounts vaultAi.key).lamports = (w.view rt id .vault).lamports := by
    rw [hvk, World.accounts_slotKey]
  simp only [closeVault, bind_eq_error, pure_ne_error, and_false, exists_false, or_false] at h
  rcases h with h | ⟨fee, hfee, h⟩
  · simp only [computeServiceFee, bind_eq_error, rejectIf_eq_error, pure_ne_error, and_false,
      exists_false, or_false] at h
    obtain ⟨-, rfl⟩ := h
    exact ⟨by simp, by simp⟩
  simp only [computeServiceFee, bind_eq_ok, rejectIf_eq_ok, exists_const, pure_eq_ok] at hfee
  obtain ⟨-, rfl⟩ := hfee
  have hfee : l.totalFunds * l.serviceChargeBps / 10000 = l.serviceFee := rfl
  have hrem : l.totalFunds - l.totalPayout - l.serviceFee = l.payoutRemainder := rfl
  rw [hfee, hrem] at h
  rcases h with h | ⟨w₁, h₁, h | ⟨w₂, -, h | ⟨w₃, -, h⟩⟩⟩
  · exact movePositive_error (by rw [hlam]; omega) h
  · obtain ⟨-, -, hv₁, -⟩ := movePositive_ok hvk hf h₁
    exact movePositive_error (by rw [hlam, hv₁]; simp; omega) h
  · exact moveLamports_error le_rfl h
  · simp only [Lottery.completeSettlement, bind_eq_error, rejectIf_eq_error, pure_ne_error,
      and_false, exists_false, or_false] at h
    obtain ⟨-, rfl⟩ := h
    exact ⟨by simp, by simp⟩

theorem completeIfPaid_error {e : ProgramError} (hvk : vaultAi.key = rt.slotKey id .vault)
    (hf : rt.Foreign authorityAi.key)
    (hle : l.serviceFee + l.payoutRemainder ≤ (w.view rt id .vault).lamports)
    (h : completeIfPaid w l lotteryAi vaultAi authorityAi = .error e) : e.Benign := by
  unfold completeIfPaid at h
  split at h
  · exact closeVault_error hvk hf hle h
  · cases h

theorem payEntry_succeeds (hvk : vaultAi.key = rt.slotKey id .vault)
    (hpk : pageAi.key = rt.slotKey id (.winnerPage i))
    (hd : (w.view rt id (.winnerPage i)).data = .winnerPage page data)
    (hf : rt.Foreign recipientAi.key) (hk : recipientAi.key = x.recipient)
    (hle : x.amount ≤ (w.view rt id .vault).lamports) (hv : vaultAi.isWritable = true)
    (hr : recipientAi.isWritable = true) (hpage : x.index % winnersPerPage < page.count)
    (hun : page.isPaid data (x.index % winnersPerPage) = false) (hlt : x.index < l.winnersCount) :
    ∃ w' l', payEntry w l lotteryAi vaultAi pageAi page recipientAi batch x = .ok (w', l') := by
  have hne : vaultAi.key ≠ recipientAi.key := hvk ▸ (hf.ne_slotKey rt id .vault).symm
  obtain ⟨w₁, hmove⟩ := movePositive_succeeds (w := w) (n := x.amount) hne
    (by rw [hvk, World.accounts_slotKey]; exact hle) hv hr
  obtain ⟨-, -, hview, -⟩ := movePositive_ok hvk hf hmove
  have hd₁ : (w₁.accounts pageAi.key).data.pageData = data := by
    rw [hpk, World.accounts_slotKey, hview]
    simp [hd, AccountData.pageData]
  obtain ⟨data', hm⟩ : ∃ data', page.markPaid data (x.index % winnersPerPage) = .ok data' := by
    simp only [WinnerPage.markPaid, exists_bind_eq_ok, rejectIf_eq_ok, exists_const]
    exact ⟨by simp [hpage, hun], _, rfl⟩
  obtain ⟨l', hl⟩ : ∃ l', l.markWinnerPaid x.index = .ok l' := by
    simp only [Lottery.markWinnerPaid, exists_bind_eq_ok, rejectIf_eq_ok, exists_const]
    exact ⟨by omega, _, rfl⟩
  have hpay : ∃ y, payEntry w l lotteryAi vaultAi pageAi page recipientAi batch x = .ok y := by
    simp only [payEntry, exists_bind_eq_ok, rejectIf_eq_ok, exists_const]
    exact ⟨by simp [hk], w₁, hmove, data', by rw [hd₁, hm], l', hl, _, rfl⟩
  obtain ⟨⟨w', l'⟩, h⟩ := hpay
  exact ⟨w', l', h⟩

theorem closeVault_succeeds (hvk : vaultAi.key = rt.slotKey id .vault)
    (hf : rt.Foreign authorityAi.key) (hv : vaultAi.isWritable = true)
    (ha : authorityAi.isWritable = true) (hfee : l.serviceFee < 2 ^ 64)
    (hle : l.serviceFee + l.payoutRemainder ≤ (w.view rt id .vault).lamports)
    (hall : l.allWinnersPaid = true) :
    ∃ w' l', closeVault w l lotteryAi vaultAi authorityAi = .ok (w', l') := by
  have hne : vaultAi.key ≠ authorityAi.key := hvk ▸ (hf.ne_slotKey rt id .vault).symm
  have hlam (w : World K) : (w.accounts vaultAi.key).lamports = (w.view rt id .vault).lamports := by
    rw [hvk, World.accounts_slotKey]
  obtain ⟨w₁, h₁⟩ := movePositive_succeeds (w := w) (n := l.serviceFee) hne
    (by rw [hlam]; omega) hv ha
  obtain ⟨-, -, hv₁, -⟩ := movePositive_ok hvk hf h₁
  obtain ⟨w₂, h₂⟩ := movePositive_succeeds (w := w₁) (n := l.payoutRemainder) hne
    (by rw [hlam, hv₁]; simp; omega) hv ha
  obtain ⟨w₃, h₃⟩ := moveLamports_succeeds (w := w₂) (n := (w₂.accounts vaultAi.key).lamports) hne
    le_rfl hv ha
  have hcharge : computeServiceFee l.totalFunds l.serviceChargeBps = .ok l.serviceFee := by
    simp only [computeServiceFee, bind_eq_ok, rejectIf_eq_ok, exists_const, pure_eq_ok, not_le]
    exact ⟨hfee, rfl⟩
  obtain ⟨l', hl⟩ : ∃ l', l.completeSettlement = .ok l' := by
    simp only [Lottery.completeSettlement, exists_bind_eq_ok, rejectIf_eq_ok, exists_const]
    exact ⟨by simp [hall], _, rfl⟩
  have hclose : ∃ y, closeVault w l lotteryAi vaultAi authorityAi = .ok y := by
    simp only [closeVault, exists_bind_eq_ok]
    exact ⟨l.serviceFee, hcharge, w₁, h₁, w₂, h₂, w₃, h₃, l', hl, _, rfl⟩
  obtain ⟨⟨w', l'⟩, h⟩ := hclose
  exact ⟨w', l', h⟩

def accounts (rt : Runtime K) (id : ℕ) (authority : K) (i : ℕ) (recipient : K) :
    List (AccountInfo K) :=
  [readonly rt.configKey, writable (rt.lotteryKey id), writable (rt.slotKey id .vault),
    writable authority, readonly default, writable (rt.slotKey id (.winnerPage i)),
    writable recipient]

theorem accounts_keys {authority recipient : K} :
    SignersAreKeys rt (accounts rt id authority i recipient) := by
  simp [SignersAreKeys, accounts, readonly, writable]

theorem checkEntry_succeeds {j amount : ℕ} {winner : SelectedWinner K} (hj : j < l.winnersCount)
    (hw : page.winner data (j % winnersPerPage) = some winner)
    (ha : Agree page data (j / winnersPerPage) l) (hun : l.isWinnerPaid j = false) :
    checkEntry l page data (j / winnersPerPage) amount ⟨j, winner.wallet, amount, []⟩ =
      .ok false := by
  have hbit : page.isPaid data (j % winnersPerPage) = false := by
    rw [ha _ (winner_lt hw), Nat.div_add_mod', hun]
  simp only [checkEntry, bind_eq_ok, rejectIf_eq_ok, exists_const, okOr_eq_ok, pure_eq_ok]
  exact ⟨by omega, by simp, winner, hw, by simp, by simp [hbit, hun], hbit⟩

theorem completeIfPaid_succeeds (hvk : vaultAi.key = rt.slotKey id .vault)
    (hf : rt.Foreign authorityAi.key) (hv : vaultAi.isWritable = true)
    (ha : authorityAi.isWritable = true) (hfee : l.serviceFee < 2 ^ 64)
    (hle : l.serviceFee + l.payoutRemainder ≤ (w.view rt id .vault).lamports) :
    ∃ w' l', completeIfPaid w l lotteryAi vaultAi authorityAi = .ok (w', l') ∧
      w'.view rt id .lottery = w.view rt id .lottery := by
  unfold completeIfPaid
  split
  next hall =>
    obtain ⟨w', l', h⟩ : ∃ w' l', closeVault w l lotteryAi vaultAi authorityAi = .ok (w', l') :=
      closeVault_succeeds hvk hf hv ha hfee hle hall
    obtain ⟨-, -, -, -, -, hview, -⟩ := closeVault_ok hvk hf h
    exact ⟨w', l', h, by rw [hview]; simp⟩
  next => exact ⟨w, l, rfl, rfl⟩

end SettlePayoutBatch

open SettlePayoutBatch in
/-- The vault covers what is not paid yet, and the pages name the winners and who is paid. -/
structure Payable (rt : Runtime K) (id : ℕ) (w : World K) (l : Lottery K) : Prop where
  winnersCount_lt : l.winnersCount < 2 ^ 32
  serviceFee_lt : l.serviceFee < 2 ^ 64
  funds : l.winnersCount * l.perWinner + (l.serviceFee + l.payoutRemainder) ≤
    (w.view rt id .vault).lamports + l.paidWinners.card * l.perWinner
  page : ∀ i page data, (w.view rt id (.winnerPage i)).data = .winnerPage page data →
    page.lottery = rt.lotteryKey id ∧ page.pageIndex = i ∧ page.count ≤ winnersPerPage ∧
      (∀ j winner, page.winner data j = some winner → rt.Foreign winner.wallet) ∧
        Agree page data i l
  winner : ∀ i < l.winnersCount, ∃ page data winner,
    (w.view rt id (.winnerPage (i / winnersPerPage))).data = .winnerPage page data ∧
      page.winner data (i % winnersPerPage) = some winner

theorem Payable.share (h : Payable rt id w l) {j : ℕ} (hj : j < l.winnersCount)
    (hun : l.isWinnerPaid j = false) :
    l.perWinner + (l.serviceFee + l.payoutRemainder) ≤ (w.view rt id .vault).lamports := by
  have hcard : l.paidWinners.card < l.winnersCount := by
    rw [← Finset.card_range l.winnersCount]
    refine Finset.card_lt_card ⟨l.paidWinners_subset, fun hsub ↦ ?_⟩
    have := Lottery.mem_paidWinners.mp (hsub (Finset.mem_range.mpr hj))
    simp [hun] at this
  have hshares := Nat.mul_le_mul_right l.perWinner (Nat.succ_le_of_lt hcard)
  rw [Nat.succ_mul] at hshares
  have := h.funds
  omega

namespace SettlePayoutBatch

/-- A batch is never refused for the stored bits or for want of lamports. -/
theorem process_error {c : Config K} {n : ℕ} {accounts : List (AccountInfo K)}
    {winners : List (WinnerProof K)} {e : ProgramError} (h : Mounted rt id w c l)
    (hp : l.winnersCount ≠ 0 → l.settlementComplete = false → Payable rt id w l)
    (hon : CallsOn rt accounts id) (he : process rt w accounts n batch winners = .error e) :
    e.Benign ∨ e = Error.invalidAccountData ∧ ∃ ai, accounts[4]? = some ai ∧ ai.key ≠ default := by
  unfold process at he
  split at he
  case h_2 =>
    cases he
    exact .inl ⟨by simp, by simp⟩
  case h_1 configAi lotteryAi vaultAi authorityAi systemAi pageAi recipients =>
    have hlk : lotteryAi.key = rt.lotteryKey id := by simpa [CallsOn] using hon
    simp only [bind_eq_error] at he
    rcases he with he | ⟨_, hcfg, he | ⟨_, -, he | ⟨_, -, he | ⟨_, -, he | ⟨_, -, he⟩⟩⟩⟩⟩
    · exact .inl (assertPdaOwned_error he)
    · exact .inl (requireWritable_error he)
    · exact .inl (requireWritable_error he)
    · exact .inl (requireWritable_error he)
    · obtain ⟨hne, rfl⟩ := requireKeyMatch_error he
      exact .inr ⟨rfl, systemAi, rfl, hne⟩
    rcases he with he | ⟨c', hc, he | ⟨l', hl, he | ⟨_, -, he | ⟨_, -, he | ⟨_, hva, he⟩⟩⟩⟩⟩
    · exact .inl (readAccountData_error he)
    · exact .inl (readAccountData_error he)
    · exact .inl (readAccountData_error he)
    · exact .inl (assertPdaOwned_error he)
    · exact .inl (assertPdaOwned_error he)
    cases (h.read_config (assertPdaOwned_eq_ok.mp hcfg).1.symm).symm.trans hc
    cases (h.read_lottery hlk).symm.trans hl
    have hvk : vaultAi.key = rt.slotKey id .vault := by
      rw [← (assertPdaOwned_eq_ok.mp hva).1, hlk]
      rfl
    rcases he with he | ⟨_, hauth, he | ⟨_, -, he⟩⟩
    · obtain ⟨-, rfl⟩ := rejectIf_eq_error.mp he
      exact .inl ⟨by simp, by simp⟩
    · obtain ⟨-, rfl⟩ := rejectIf_eq_error.mp he
      exact .inl ⟨by simp, by simp⟩
    have hauth : rt.Foreign authorityAi.key := by
      rw [not_not.mp (rejectIf_eq_ok.mp hauth)]
      exact h.authority
    split at he
    · cases he
    next hsc =>
    rcases bind_eq_error.mp he with he | ⟨_, hwc, he⟩
    · obtain ⟨-, rfl⟩ := rejectIf_eq_error.mp he
      exact .inl ⟨by simp, by simp⟩
    have hpay := hp (rejectIf_eq_ok.mp hwc) (by simpa using hsc)
    refine .inl ?_
    simp only [processBatch, bind_eq_error] at he
    rcases he with he | ⟨first, -, he | ⟨_, -, he | ⟨_, hpa, he | ⟨_, -, he | ⟨page, hpage, he⟩⟩⟩⟩⟩
    · obtain ⟨-, rfl⟩ := okOr_eq_error.mp he
      exact ⟨by simp, by simp⟩
    · obtain ⟨-, rfl⟩ := rejectIf_eq_error.mp he
      exact ⟨by simp, by simp⟩
    · exact assertPdaOwned_error he
    · exact requireWritable_error he
    · exact readAccountData_error he
    have hpk : pageAi.key = rt.slotKey id (.winnerPage (first.index / winnersPerPage)) := by
      rw [← (assertPdaOwned_eq_ok.mp hpa).1, hlk]
      rfl
    obtain ⟨data, hpage, -⟩ := h.typed.readPage hpk.symm hpage
    obtain ⟨hlot, hix, hcount, hf, hagree⟩ := hpay.page _ _ _ hpage
    rcases he with he | ⟨_, -, he | ⟨_, -, he | ⟨⟨w₁, l₁⟩, hloop, he | ⟨⟨w₂, l₂⟩, -, he⟩⟩⟩⟩
    · obtain ⟨hbad, -⟩ := rejectIf_eq_error.mp he
      exact absurd hbad (by simp [hlot, hix, hlk])
    · obtain ⟨-, rfl⟩ := rejectIf_eq_error.mp he
      exact ⟨by simp, by simp⟩
    · refine payLoop_error hvk hpk hcount hf hpage hagree ?_ he
      have := hpay.funds
      exact (Nat.le_add_right _ _).trans this
    · obtain ⟨⟨bitmap, rfl⟩, hextra⟩ := payLoop_funds hvk hpk hcount hf hpage hpay.funds hloop
      have hextra : (Lottery.incrementSettlementBatch { l with paidWinnersBitmap := bitmap }).serviceFee +
          (Lottery.incrementSettlementBatch { l with paidWinnersBitmap := bitmap }).payoutRemainder ≤
            (w₁.view rt id .vault).lamports := hextra
      exact completeIfPaid_error hvk hauth hextra he
    · exact writeAccountData_error he

theorem succeeds (batch : ℕ) {c : Config K} {b : Vault K} {j : ℕ} (h : Mounted rt id w c l)
    (hv : (w.view rt id .vault).data = .vault b) (hp : Payable rt id w l)
    (hsc : l.settlementComplete = false) (hj : j < l.winnersCount) (hun : l.isWinnerPaid j = false)
    {winner : SelectedWinner K}
    (hd : (w.view rt id (.winnerPage (j / winnersPerPage))).data = .winnerPage page data)
    (hw : page.winner data (j % winnersPerPage) = some winner) :
    ∃ w', process rt w (accounts rt id c.authority (j / winnersPerPage) winner.wallet) id batch
      [⟨j, winner.wallet, l.perWinner, []⟩] = .ok w' := by
  obtain ⟨hid, hcfg, -⟩ := h.lottery_eq
  have hvo := h.owner (s := .vault) (by simp [hv])
  have hpo := h.owner (s := .winnerPage (j / winnersPerPage)) (by simp [hd])
  have hdiv := Nat.div_le_self j winnersPerPage
  have hmax := hp.winnersCount_lt
  have hfee := hp.serviceFee_lt
  have hle := hp.share hj hun
  obtain ⟨hkey, hix, -, hforeign, ha⟩ := hp.page _ _ _ hd
  have hf := hforeign _ _ hw
  have hlt := winner_lt hw
  have hbit : page.isPaid data (j % winnersPerPage) = false := by
    rw [ha _ hlt, Nat.div_add_mod', hun]
  -- the one entry is paid
  obtain ⟨w₁, l₁, hpay⟩ : ∃ w' l', payEntry w l (.writable (rt.lotteryKey id))
      (.writable (rt.slotKey id .vault))
      (.writable (rt.slotKey id (.winnerPage (j / winnersPerPage)))) page
      (.writable winner.wallet) batch ⟨j, winner.wallet, l.perWinner, []⟩ = .ok (w', l') :=
    payEntry_succeeds rfl rfl hd hf rfl (by simp only; omega) rfl rfl hlt hbit hj
  obtain ⟨_, -, hmark, -, -, -, hview, -⟩ := payEntry_ok rfl rfl hd hf hpay
  have hloop : payLoop (.writable (rt.lotteryKey id)) (.writable (rt.slotKey id .vault))
      (.writable (rt.slotKey id (.winnerPage (j / winnersPerPage)))) page (j / winnersPerPage)
      l.perWinner batch [(⟨j, winner.wallet, l.perWinner, []⟩, .writable winner.wallet)] w l =
        .ok (w₁, l₁) := by
    have hdata : (w.accounts (rt.slotKey id (.winnerPage (j / winnersPerPage)))).data.pageData =
        data := congrArg AccountData.pageData hd
    simp only [payLoop, writable, hdata, checkEntry_succeeds hj hw ha hun, bind_eq_ok]
    refine ⟨false, rfl, ?_⟩
    simp only [Bool.false_eq_true, if_false, bind_eq_ok]
    exact ⟨(w₁, l₁), hpay, rfl⟩
  -- and the check for completion passes
  obtain ⟨w₂, l₂, hcomp, hlot⟩ : ∃ w' l', completeIfPaid w₁ l₁.incrementSettlementBatch
      (.writable (rt.lotteryKey id)) (.writable (rt.slotKey id .vault)) (.writable c.authority) =
        .ok (w', l') ∧ w'.view rt id .lottery = w₁.view rt id .lottery := by
    have hl₁ : l₁.incrementSettlementBatch.serviceFee = l.serviceFee ∧
        l₁.incrementSettlementBatch.payoutRemainder = l.payoutRemainder := by
      simp only [Lottery.markWinnerPaid, bind_eq_ok, rejectIf_eq_ok, exists_const,
        pure_eq_ok] at hmark
      obtain ⟨-, rfl⟩ := hmark
      exact ⟨rfl, rfl⟩
    refine completeIfPaid_succeeds rfl h.authority rfl rfl (by rw [hl₁.1]; exact hfee) ?_
    rw [hl₁.1, hl₁.2, hview]
    simp
    omega
  have hlot₂ : w₂.accounts (rt.lotteryKey id) = w.accounts (rt.lotteryKey id) := by
    have hsame : w₂.view rt id .lottery = w.view rt id .lottery := by
      rw [hlot, hview]
      simp
    exact hsame
  have hl' : (w.accounts (rt.lotteryKey id)).data = .lottery l := h.lottery
  simp only [process, accounts, exists_bind_eq_ok, requireWritable_eq_ok, requireKeyMatch_eq_ok,
    assertPdaOwned_eq_ok, exists_const, readonly, writable, rejectIf_eq_ok]
  refine ⟨⟨rfl, h.owner_config⟩, trivial, trivial, trivial, trivial, c, h.read_config rfl, l,
    h.read_lottery rfl, b, Mounted.read rfl (by simp [hv]) (unwrap_vault.mpr hv),
    ⟨by rw [hid]; rfl, h.owner_lottery⟩, ⟨rfl, hvo⟩, by simp, by simp [hid], ?_⟩
  simp only [hsc, Bool.false_eq_true, if_false, exists_bind_eq_ok, exists_const, rejectIf_eq_ok,
    processBatch, okOr_eq_ok, assertPdaOwned_eq_ok, requireWritable_eq_ok, writeAccountData_eq_ok]
  refine ⟨by omega, _, rfl, by simp only; omega, ⟨rfl, hpo⟩, trivial, page,
    Mounted.read rfl (by simp [hd]) (unwrap_winnerPage.mpr ⟨data, hd⟩), by simp [hkey, hix],
    by simp, (w₁, l₁), hloop, (w₂, l₂), hcomp, _, ?_, trivial, ?_, rfl⟩
  · rw [hlot₂, hl']
    rfl
  · rw [hlot₂]
    exact h.owner_lottery

end SettlePayoutBatch

end DailyLottery
