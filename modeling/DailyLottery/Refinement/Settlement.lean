import DailyLottery.Refinement.Represents

set_option linter.unusedSectionVars false

namespace DailyLottery

open Lib

variable {K : Type} [DecidableEq K] [Inhabited K] {rt : Runtime K} {w w' : World K}
  {accounts : List (AccountInfo K)}

theorem moveLamports_ok {id n : ℕ} {vaultAi targetAi : AccountInfo K}
    (hvk : vaultAi.key = rt.slotKey id .vault) (hf : rt.Foreign targetAi.key)
    (h : moveLamports w vaultAi targetAi n = .ok w') :
    n ≤ (w.view rt id .vault).lamports ∧ Touches rt id w w' ∧
      w'.view rt id = (w.view rt id).setLamports .vault ((w.view rt id .vault).lamports - n) ∧
      ∀ k, rt.Foreign k → (w'.accounts k).lamports =
        (w.accounts k).lamports + if targetAi.key = k then n else 0 := by
  simp only [moveLamports_eq_ok, hvk, World.accounts_slotKey] at h
  obtain ⟨-, hle, -, -, rfl⟩ := h
  refine ⟨hle, ((Touches.refl _ _).setLamports _ _).setLamports_foreign hf _, ?_, ?_⟩
  · simp only [World.view_setLamports_foreign rt _ hf, World.view_setLamports]
  · intro k hk
    by_cases he : targetAi.key = k
    · subst he
      simp [World.setLamports, World.setAccount]
    · have hne : k ≠ targetAi.key := Ne.symm he
      simp [World.setLamports, World.setAccount, hne, he, hk.ne_slotKey rt id .vault]

theorem movePositive_ok {id n : ℕ} {vaultAi targetAi : AccountInfo K}
    (hvk : vaultAi.key = rt.slotKey id .vault) (hf : rt.Foreign targetAi.key)
    (h : movePositive w vaultAi targetAi n = .ok w') :
    n ≤ (w.view rt id .vault).lamports ∧ Touches rt id w w' ∧
      w'.view rt id = (w.view rt id).setLamports .vault ((w.view rt id .vault).lamports - n) ∧
      ∀ k, rt.Foreign k → (w'.accounts k).lamports =
        (w.accounts k).lamports + if targetAi.key = k then n else 0 := by
  unfold movePositive at h
  split at h
  · exact moveLamports_ok hvk hf h
  · next h0 =>
    cases h
    obtain rfl : n = 0 := by omega
    refine ⟨by omega, .refl _ _, ?_, by simp⟩
    rw [View.setLamports_self (by omega)]

namespace ClaimRefund

theorem effect (hw : WellTyped rt w) (hs : SignersAreKeys rt accounts)
    (h : process rt w accounts = .ok w') :
    ∃ l p, (w.view rt l.id .lottery).data = .lottery l ∧ CallsOn rt accounts l.id ∧
      accounts[4]?.map AccountInfo.key = some p.wallet ∧
      (w.view rt l.id (.participant p.wallet)).data = .participant p ∧ rt.Foreign p.wallet ∧
      l.settled = true ∧ l.winnersCount = 0 ∧ l.totalPayout = 0 ∧ p.ticketsBought ≠ 0 ∧
      p.refundClaimed = false ∧
      l.ticketPriceLamports * p.ticketsBought ≤ (w.view rt l.id .vault).lamports ∧
      l.settlementBatchesCompleted + 1 < 2 ^ 32 ∧ (∃ b, (w.view rt l.id .vault).data = .vault b) ∧
      Touches rt l.id w w' ∧
      w'.view rt l.id = (((w.view rt l.id).setLamports .vault
          ((w.view rt l.id .vault).lamports - l.ticketPriceLamports * p.ticketsBought)).setData
        (.participant p.wallet) (.participant p.markRefundClaimed)).setData
        .lottery (.lottery l.countRefund) ∧
      ∀ k, rt.Foreign k → (w'.accounts k).lamports = (w.accounts k).lamports +
        if p.wallet = k then l.ticketPriceLamports * p.ticketsBought else 0 := by
  unfold process at h
  split at h
  · next configAi lotteryAi vaultAi participantAi walletAi _ =>
    simp only [bind_eq_ok, requireSigner_eq_ok, requireWritable_eq_ok, requireKeyMatch_eq_ok,
      assertPdaOwned_eq_ok, exists_const, rejectIf_eq_ok, okOr_eq_ok, moveLamports_eq_ok,
      writeAccountData_eq_ok, checkedAdd_eq_some, checkedMul_eq_some, pure_eq_ok, not_or, not_not,
      Bool.not_eq_false, Bool.not_eq_true, ne_eq] at h
    obtain ⟨⟨hc, -⟩, -, -, -, -, hsign, -, -, l, hl, b, hb, p, hp, ⟨hlk, -⟩, -, ⟨hvk, -⟩,
      -, ⟨hpk, -⟩,
      ⟨-, hpw⟩, ⟨hset, hwc, htp⟩, htk, hcl, _, ⟨-, rfl⟩, _, ⟨-, hle, -, -, rfl⟩, _, ⟨hcnt, rfl⟩,
      _, ⟨-, -, -, rfl⟩, _, ⟨-, -, -, rfl⟩, rfl⟩ := h
    obtain ⟨hlk, hld, -, -⟩ := hw.readLottery hlk hl
    have hvk : vaultAi.key = rt.slotKey l.id .vault := by rw [← hvk, hlk]; rfl
    have hpk : participantAi.key = rt.slotKey l.id (.participant p.wallet) := by
      rw [← hpk, hlk, hpw]; rfl
    have hf : rt.Foreign p.wallet := by rw [hpw]; exact hs walletAi (by simp) hsign
    have hpd := (hw.readParticipant hpk.symm hp).1
    have hbd := hw.readVault hvk.symm hb
    rw [hvk, World.accounts_slotKey] at hle
    refine ⟨l, p, hld, congrArg some hlk, congrArg some hpw.symm, hpd, hf, hset, hwc, htp, htk, hcl,
      hle, hcnt, ⟨b, hbd⟩, ?_, ?_, ?_⟩
    · rw [hlk, hpk, hvk, ← hpw]
      exact ((((Touches.refl _ _).setLamports _ _).setLamports_foreign hf _).setData _ _).setData _ _
        |>.emit _
    · rw [hlk, hpk, hvk, ← hpw]
      simp only [World.view_emit, World.view_setData, World.view_setLamports_foreign rt _ hf,
        World.view_setLamports, World.accounts_slotKey, AccountType.wrap]
      rfl
    · intro k hk
      have hslot := fun s ↦ hk.ne_slotKey rt l.id s
      have hslot' := fun s ↦ hf.ne_slotKey rt l.id s
      rw [hlk, hpk, hvk, ← hpw]
      by_cases he : p.wallet = k
      · subst he
        simp [World.setLamports, World.setData, World.setAccount, hslot]
      · simp [World.setLamports, World.setData, World.setAccount, hslot, he, Ne.symm he]
  · cases h

theorem simulated (hw : WellTyped rt w) (hs : SignersAreKeys rt accounts)
    (h : process rt w accounts = .ok w') (pre : List (K × Bytes)) (ix : Instruction K) :
    Simulated rt (.instruction pre ix accounts) w w' := by
  obtain ⟨l, p, hl, -, -, hp, -, hset, hwc, htp, htk, hcl, hle, hcnt, ⟨b, hb⟩, ht, hv, -⟩ :=
    effect hw hs h
  refine .intro l.id (by simp [hl]) ht ?_ ?_
  · rw [hv]
    refine (((hw.fits l.id).setLamports _ _).setParticipant (p := p) p.markRefundClaimed ?_ rfl
      rfl).setLottery (l := l) l.countRefund ?_ rfl rfl rfl
    · simpa using hp
    · simpa using hl
  · intro acts ws r _ hr
    obtain rfl := hr.eq_lottery hl
    obtain ⟨i, hi⟩ := hr.roster.getElem_of_data hp
    refine ⟨_, .claimRefund hset hwc htp hi htk hcl (hr.lamports ▸ hle) hcnt, ?_⟩
    refine hr.next ht hv (fun _ ↦ rfl) ⟨rfl, rfl, rfl, rfl⟩ (by simp) (.inl ⟨b, by simp [hb]⟩)
      (by simp [hr.lamports]) .inl ?_ (by simp [hr.tally]) (by simp [hr.ledger])
      (by simp [hr.pages]) ?_
    · refine ((hr.roster.push.setVault _).set p.markRefundClaimed hi rfl ?_ fun h ↦ ?_).setLottery
        r.lottery.countRefund fun _ _ h ↦ h
      · simpa using hp
      · exact h.imp_left fun h ↦ ⟨h.1, h.2.1, by simp⟩
    · exact ((hr.alive.setVault _).setParticipant _ _).setData (by simp [hl]) _

end ClaimRefund

namespace FinalizeNoAttesters

theorem effect (hw : WellTyped rt w) (h : process rt w accounts = .ok w') :
    ∃ l, (w.view rt l.id .lottery).data = .lottery l ∧ CallsOn rt accounts l.id ∧
      (l.settled = true ∧ w' = w ∨
      l.settled = false ∧
        ((l.participantsCount = 1 ∧ l.uploadsComplete = true) ∨
          (0 < l.uploadDeadlineUnix ∧ l.uploadDeadlineUnix ≤ w.clock)) ∧
        (l.attestedCount = 0 ∨ l.remediationExpired w.clock = true) ∧
        Touches rt l.id w w' ∧
        w'.view rt l.id = (w.view rt l.id).setData .lottery (.lottery l.settle)) := by
  unfold process at h
  split at h
  · next configAi lotteryAi vaultAi authorityAi _ =>
    simp only [bind_eq_ok, requireWritable_eq_ok, requireKeyMatch_eq_ok, assertPdaOwned_eq_ok,
      exists_const] at h
    obtain ⟨-, -, -, -, c, hc, l, hl, ⟨hlk, -⟩, -, -, -, h⟩ := h
    obtain ⟨hlk, hld, -, -⟩ := hw.readLottery hlk hl
    refine ⟨l, hld, congrArg some hlk, ?_⟩
    split at h
    · next hset =>
      exact .inl ⟨hset, (pure_eq_ok.mp h).symm⟩
    · next hset =>
      simp only [bind_eq_ok, rejectIf_eq_ok, exists_const, writeAccountData_eq_ok, pure_eq_ok,
        not_not] at h
      obtain ⟨hready, hcase, _, ⟨-, -, -, rfl⟩, rfl⟩ := h
      refine .inr ⟨by simpa using hset, ?_, hcase, ?_, ?_⟩
      · rwa [not_and_or, not_not, not_not] at hready
      · rw [hlk]
        exact (((Touches.refl _ _).setData _ _).emit _).emit _
      · rw [hlk]
        simp only [World.view_emit, World.view_setData, AccountType.wrap]
  · cases h

theorem simulated (hw : WellTyped rt w) (h : process rt w accounts = .ok w')
    (pre : List (K × Bytes)) (ix : Instruction K) :
    Simulated rt (.instruction pre ix accounts) w w' := by
  obtain ⟨l, hl, -, ⟨-, rfl⟩ | ⟨hset, hready, hcase, ht, hv⟩⟩ := effect hw h
  · exact .refl hw l.id (by simp [hl]) fun _ _ ↦ rfl
  refine .intro l.id (by simp [hl]) ht ?_ ?_
  · rw [hv]
    exact (hw.fits l.id).setLottery l.settle hl rfl rfl rfl
  · intro acts ws r _ hr
    obtain rfl := hr.eq_lottery hl
    rw [hr.now] at hready hcase
    refine ⟨_, .finalizeNoAttesters hset hready hcase, ?_⟩
    refine hr.next ht hv (fun _ ↦ rfl) ⟨rfl, rfl, rfl, rfl⟩ (by simp) (by simpa using hr.vault)
      (by simp [hr.lamports]) .inl ?_ (by simp [hr.tally]) (by simp [hr.ledger])
      (by simp [hr.pages]) (hr.alive.setData (by simp [hl]) _)
    refine hr.roster.push.setLottery r.lottery.settle fun p _ h ↦ ?_
    simp only [Lottery.Closable, hset, Bool.false_eq_true, false_and, false_or] at h
    exact .inr h

end FinalizeNoAttesters

namespace CloseParticipant

theorem effect (hw : WellTyped rt w) (hs : SignersAreKeys rt accounts)
    (h : process rt w accounts = .ok w') :
    ∃ l p, (w.view rt l.id .lottery).data = .lottery l ∧ CallsOn rt accounts l.id ∧
      accounts[3]?.map AccountInfo.key = some p.wallet ∧
      (w.view rt l.id (.participant p.wallet)).data = .participant p ∧ l.Closable p ∧
      Touches rt l.id w w' ∧
      w'.view rt l.id = (w.view rt l.id).setLamports (.participant p.wallet) 0 := by
  unfold process at h
  split at h
  · next configAi lotteryAi participantAi walletAi _ =>
    simp only [bind_eq_ok, requireSigner_eq_ok, requireWritable_eq_ok,
      assertPdaOwned_eq_ok, exists_const, rejectIf_eq_ok, moveLamports_eq_ok, pure_eq_ok, not_or,
      not_not, ne_eq] at h
    obtain ⟨-, -, -, hsign, -, -, l, hl, p, hp, ⟨hlk, -⟩, -, ⟨hpk, -⟩, ⟨-, hpw⟩, hcl, -, _,
      ⟨-, -, -, -, rfl⟩, rfl⟩ := h
    obtain ⟨hlk, hld, -, -⟩ := hw.readLottery hlk hl
    have hpk : participantAi.key = rt.slotKey l.id (.participant p.wallet) := by
      rw [← hpk, hlk, hpw]; rfl
    have hf : rt.Foreign walletAi.key := hs walletAi (by simp) hsign
    have hpd := (hw.readParticipant hpk.symm hp).1
    refine ⟨l, p, hld, congrArg some hlk, congrArg some hpw.symm, hpd, ?_, ?_, ?_⟩
    · rw [not_and_or, not_not, not_not] at hcl
      exact hcl
    · rw [hpk]
      exact (((Touches.refl _ _).setLamports _ _).setLamports_foreign hf _).emit _
    · rw [hpk]
      simp only [World.view_emit, World.view_setLamports_foreign rt _ hf, World.view_setLamports,
        Nat.sub_self]
  · cases h

theorem simulated (hw : WellTyped rt w) (hs : SignersAreKeys rt accounts)
    (h : process rt w accounts = .ok w') (pre : List (K × Bytes)) (ix : Instruction K) :
    Simulated rt (.instruction pre ix accounts) w w' := by
  obtain ⟨l, p, hl, -, -, hp, hcl, ht, hv⟩ := effect hw hs h
  refine .intro l.id (by simp [hl]) ht ?_ ?_
  · rw [hv]
    exact (hw.fits l.id).setLamports _ _
  · intro acts ws r _ hr
    obtain rfl := hr.eq_lottery hl
    refine ⟨_, .refl r, ?_⟩
    exact hr.next ht hv (fun _ ↦ rfl) ⟨rfl, rfl, rfl, rfl⟩ (by simpa using hr.lottery)
      (by simpa using hr.vault) (by simp [hr.lamports]) .inl
      (hr.roster.push.setLamports (hr.roster.mem_of_data hp) (.inr hcl)) (by simp [hr.tally])
      (by simp [hr.ledger]) (by simp [hr.pages]) (hr.alive.setParticipant _ _)

end CloseParticipant

namespace CloseRefundVault

theorem effect (hw : WellTyped rt w) (h : process rt w accounts = .ok w') :
    ∃ l, (w.view rt l.id .lottery).data = .lottery l ∧ CallsOn rt accounts l.id ∧
      l.settled = true ∧ l.winnersCount = 0 ∧ l.totalPayout = 0 ∧
      l.participantsCount ≤ l.settlementBatchesCompleted ∧
      (∃ b, (w.view rt l.id .vault).data = .vault b) ∧ Touches rt l.id w w' ∧
      w'.view rt l.id = (w.view rt l.id).setLamports .vault 0 := by
  unfold process at h
  split at h
  · next configAi lotteryAi vaultAi authorityAi _ =>
    simp only [bind_eq_ok, requireWritable_eq_ok, requireKeyMatch_eq_ok,
      assertPdaOwned_eq_ok, exists_const, rejectIf_eq_ok, moveLamports_eq_ok, pure_eq_ok, not_or,
      not_not, ne_eq, not_lt, Bool.not_eq_false] at h
    obtain ⟨⟨hck, -⟩, -, -, c, hc, l, hl, b, hb, ⟨hlk, -⟩, -, ⟨hvk, -⟩, -, hak,
      ⟨hset, hwc, htp⟩, hcnt, -, _, ⟨-, -, -, -, rfl⟩, rfl⟩ := h
    obtain ⟨hlk, hld, -, -⟩ := hw.readLottery hlk hl
    have hvk : vaultAi.key = rt.slotKey l.id .vault := by rw [← hvk, hlk]; rfl
    have hf := (hw.readConfig hck hc).2
    refine ⟨l, hld, congrArg some hlk, hset, hwc, htp, hcnt, ⟨b, hw.readVault hvk.symm hb⟩, ?_, ?_⟩
    · rw [hvk, hak]
      exact (((Touches.refl _ _).setLamports _ _).setLamports_foreign hf _).emit _
    · rw [hvk, hak]
      simp only [World.view_emit, World.view_setLamports_foreign rt _ hf, World.view_setLamports,
        Nat.sub_self]
  · cases h

theorem simulated (hw : WellTyped rt w) (h : process rt w accounts = .ok w')
    (pre : List (K × Bytes)) : Simulated rt (.instruction pre .closeRefundVault accounts) w w' := by
  obtain ⟨l, hl, hon, hset, hwc, htp, hcnt, ⟨b, hb⟩, ht, hv⟩ := effect hw h
  refine .intro l.id (by simp [hl]) ht ?_ ?_
  · rw [hv]
    exact (hw.fits l.id).setLamports _ _
  · intro acts ws r _ hr
    obtain rfl := hr.eq_lottery hl
    refine ⟨_, .closeRefundVault hset hwc htp hcnt, ?_⟩
    exact hr.next ht hv (fun _ ↦ rfl) ⟨rfl, rfl, rfl, rfl⟩ (by simpa using hr.lottery)
      (.inl ⟨b, by simpa using hb⟩) (by simp) (fun _ ↦ .inr (.inr ⟨pre, accounts, rfl, hon⟩))
      (hr.roster.push.setVault _)
      (by simp [hr.tally]) (by simp [hr.ledger]) (by simp [hr.pages]) (hr.alive.setVault _)

end CloseRefundVault

namespace SettlePayoutBatch

/-- What newly paid indices of a page send to one wallet. -/
def paidTo (page : WinnerPage K) (data : PageData K) (amount : ℕ) (fresh : List ℕ) (k : K) : ℕ :=
  (fresh.map fun i ↦
    if (page.winner data (i % winnersPerPage)).map SelectedWinner.wallet = some k then amount
    else 0).sum

section Loop

variable {id i : ℕ} {lotteryAi vaultAi pageAi : AccountInfo K} {page : WinnerPage K}
  {data : PageData K} {l l' : Lottery K} {amount batch : ℕ}

theorem payEntry_ok (hvk : vaultAi.key = rt.slotKey id .vault)
    (hpk : pageAi.key = rt.slotKey id (.winnerPage i))
    (hd : (w.view rt id (.winnerPage i)).data = .winnerPage page data)
    {recipientAi : AccountInfo K} (hf : rt.Foreign recipientAi.key) {x : WinnerProof K}
    (h : payEntry w l lotteryAi vaultAi pageAi page recipientAi batch x = .ok (w', l')) :
    ∃ data', page.markPaid data (x.index % winnersPerPage) = .ok data' ∧
      l.markWinnerPaid x.index = .ok l' ∧ recipientAi.key = x.recipient ∧
      x.amount ≤ (w.view rt id .vault).lamports ∧ Touches rt id w w' ∧
      w'.view rt id = ((w.view rt id).setLamports .vault
        ((w.view rt id .vault).lamports - x.amount)).setData (.winnerPage i)
          (.winnerPage page data') ∧
      ∀ k, rt.Foreign k → (w'.accounts k).lamports =
        (w.accounts k).lamports + if x.recipient = k then x.amount else 0 := by
  simp only [payEntry, bind_eq_ok, rejectIf_eq_ok, exists_const, pure_eq_ok, Prod.mk.injEq,
    not_not, ne_eq] at h
  obtain ⟨hk, w₁, h₁, data', hm, _, hl, rfl, rfl⟩ := h
  obtain ⟨hle, ht, hv, hlam⟩ := movePositive_ok hvk hf h₁
  rw [hk] at hlam
  have hd₁ : (w₁.view rt id (.winnerPage i)).data = .winnerPage page data := by
    rw [hv]
    simpa using hd
  rw [hpk, World.accounts_slotKey, hd₁] at hm
  refine ⟨data', hm, hl, hk, hle, ?_, ?_, ?_⟩
  · rw [hpk]
    exact (ht.setData _ _).emit _
  · rw [hpk]
    simp only [World.view_emit, World.view_setData, hv]
  · intro k hk'
    rw [← hlam k hk', hpk, World.accounts_emit]
    exact congrArg Account.lamports (World.accounts_setAccount_foreign rt _ hk' _ _ _)

theorem payLoop_ok (hvk : vaultAi.key = rt.slotKey id .vault)
    (hpk : pageAi.key = rt.slotKey id (.winnerPage i)) {xs : List (WinnerProof K × AccountInfo K)}
    (hf : ∀ offset winner, page.winner data offset = some winner → rt.Foreign winner.wallet)
    (hd : (w.view rt id (.winnerPage i)).data = .winnerPage page data)
    (h : payLoop lotteryAi vaultAi pageAi page i amount batch xs w l = .ok (w', l')) :
    ∃ data' fresh, Round.PayRun page i amount l data (xs.map Prod.fst) l' data' fresh ∧
      fresh.length * amount ≤ (w.view rt id .vault).lamports ∧ Touches rt id w w' ∧
      w'.view rt id = ((w.view rt id).setLamports .vault
        ((w.view rt id .vault).lamports - fresh.length * amount)).setData (.winnerPage i)
          (.winnerPage page data') ∧
      ∀ k, rt.Foreign k → (w'.accounts k).lamports =
        (w.accounts k).lamports + paidTo page data amount fresh k := by
  induction xs generalizing w l data with
  | nil =>
    simp only [payLoop, Except.ok.injEq, Prod.mk.injEq] at h
    obtain ⟨rfl, rfl⟩ := h
    refine ⟨data, [], .nil _ _, by simp, .refl _ _, ?_, by simp [paidTo]⟩
    rw [View.setLamports_self (by simp), View.setData_self hd]
  | cons x xs ih =>
    obtain ⟨x, recipientAi⟩ := x
    simp only [payLoop, bind_eq_ok, hpk, World.accounts_slotKey, hd, AccountData.pageData] at h
    obtain ⟨b, hb, h⟩ := h
    cases b with
    | true =>
      obtain ⟨data', fresh, hrun, hrest⟩ := ih hf hd (by simpa using h)
      exact ⟨data', fresh, .skip hb hrun, hrest⟩
    | false =>
      simp only [Bool.false_eq_true, if_false, bind_eq_ok, Prod.exists] at h
      obtain ⟨w₁, l₁, hpay, h⟩ := h
      obtain ⟨-, -, ha, hw, -, -⟩ := checkEntry_ok hb
      have hfr : rt.Foreign recipientAi.key := by
        obtain ⟨stored, hs, hsw⟩ := Option.map_eq_some_iff.mp hw
        have hkey : recipientAi.key = x.recipient := by
          simp only [payEntry, bind_eq_ok, rejectIf_eq_ok, exists_const, not_not, ne_eq] at hpay
          exact hpay.1
        rw [hkey, ← hsw]
        exact hf _ _ hs
      obtain ⟨data₁, hm, hl, hk, hle, ht, hv, hlam⟩ := payEntry_ok hvk hpk hd hfr hpay
      have hwin := WinnerPage.winner_markPaid hm
      have hf₁ : ∀ o v, page.winner data₁ o = some v → rt.Foreign v.wallet :=
        fun o v ho ↦ hf o v (hwin o ▸ ho)
      obtain ⟨data', fresh, hrun, hle', ht', hv', hlam'⟩ := ih hf₁ (by simp [hv]) h
      rw [ha] at hle hv hlam
      have hvault : (w₁.view rt id .vault).lamports = (w.view rt id .vault).lamports - amount := by
        simp [hv]
      have hsum : (x.index :: fresh).length * amount = amount + fresh.length * amount := by
        rw [List.length_cons, Nat.succ_mul, Nat.add_comm]
      refine ⟨data', x.index :: fresh, .pay hb hm hl hrun, ?_, ht.trans ht', ?_, ?_⟩
      · rw [hsum]
        omega
      · rw [hv', hvault, hv, hsum, View.setLamports_setData (by simp), View.setData_setData,
          View.setLamports_setLamports, Nat.sub_sub]
      · intro k hk'
        rw [hlam' k hk', hlam k hk', Nat.add_assoc]
        congr 1
        simp only [paidTo, List.map_cons, List.sum_cons, hw, Option.some.injEq, hwin]

theorem closeVault_ok {authorityAi : AccountInfo K} (hvk : vaultAi.key = rt.slotKey id .vault)
    (hf : rt.Foreign authorityAi.key)
    (h : closeVault w l lotteryAi vaultAi authorityAi = .ok (w', l')) :
    ∃ fee, computeServiceFee l.totalFunds l.serviceChargeBps = .ok fee ∧
      fee + (l.totalFunds - l.totalPayout - fee) ≤ (w.view rt id .vault).lamports ∧
      l.completeSettlement = .ok l' ∧ Touches rt id w w' ∧
      w'.view rt id = (w.view rt id).setLamports .vault 0 ∧
      ∀ k, rt.Foreign k → (w'.accounts k).lamports =
        (w.accounts k).lamports + if authorityAi.key = k then
          (w.view rt id .vault).lamports else 0 := by
  simp only [closeVault, bind_eq_ok, pure_eq_ok, Prod.mk.injEq] at h
  obtain ⟨fee, hfee, w₁, h₁, w₂, h₂, w₃, h₃, l₁, hl, hw, rfl⟩ := h
  obtain ⟨hle₁, ht₁, hv₁, hlam₁⟩ := movePositive_ok hvk hf h₁
  obtain ⟨hle₂, ht₂, hv₂, hlam₂⟩ := movePositive_ok hvk hf h₂
  obtain ⟨hle₃, ht₃, hv₃, hlam₃⟩ := moveLamports_ok hvk hf h₃
  rw [hvk, World.accounts_slotKey] at hle₃ hv₃ hlam₃
  have hvault₁ : (w₁.view rt id .vault).lamports = (w.view rt id .vault).lamports - fee := by
    simp [hv₁]
  have hvault₂ : (w₂.view rt id .vault).lamports = (w₁.view rt id .vault).lamports -
      (l.totalFunds - l.totalPayout - fee) := by
    simp [hv₂]
  have hacc : w'.accounts = w₃.accounts := by
    rw [← hw]
    split <;> rfl
  have hclock : w'.clock = w₃.clock := by
    rw [← hw]
    split <;> rfl
  refine ⟨fee, hfee, by omega, hl, ?_, ?_, ?_⟩
  · refine ((ht₁.trans ht₂).trans ht₃).trans ⟨hclock, fun t _ ↦ by rw [hacc]⟩
  · have : w'.view rt id = w₃.view rt id := by
      unfold World.view
      rw [hacc]
    rw [this, hv₃, Nat.sub_self, hv₂, hv₁]
    simp only [View.setLamports_setLamports]
  · intro k hk
    rw [hacc, hlam₃ k hk, hlam₂ k hk, hlam₁ k hk]
    split <;> omega

end Loop

/-- What a batch leaves of the lottery and of its vault, and what it sends to the authority. -/
inductive Concludes (l : Lottery K) (vault : ℕ) : Lottery K → ℕ → ℕ → Prop
  | partly : l.allWinnersPaid = false → Concludes l vault l vault 0
  | fully {l' : Lottery K} {fee : ℕ} : computeServiceFee l.totalFunds l.serviceChargeBps = .ok fee →
      fee + (l.totalFunds - l.totalPayout - fee) ≤ vault → l.completeSettlement = .ok l' →
      Concludes l vault l' 0 vault

theorem completeIfPaid_ok {id : ℕ} {lotteryAi vaultAi authorityAi : AccountInfo K}
    {l l' : Lottery K} (hvk : vaultAi.key = rt.slotKey id .vault) (hf : rt.Foreign authorityAi.key)
    (h : completeIfPaid w l lotteryAi vaultAi authorityAi = .ok (w', l')) :
    ∃ left gain, Concludes l (w.view rt id .vault).lamports l' left gain ∧ Touches rt id w w' ∧
      w'.view rt id = (w.view rt id).setLamports .vault left ∧
      ∀ k, rt.Foreign k → (w'.accounts k).lamports =
        (w.accounts k).lamports + if authorityAi.key = k then gain else 0 := by
  unfold completeIfPaid at h
  split at h
  · obtain ⟨fee, hfee, hle, hl, ht, hv, hlam⟩ := closeVault_ok hvk hf h
    exact ⟨0, _, .fully hfee hle hl, ht, hv, hlam⟩
  · next hp =>
    cases h
    refine ⟨_, 0, .partly (by simpa using hp), .refl _ _, ?_, by simp⟩
    rw [View.setLamports_self rfl]

/-- A batch that goes through, over the page it names. -/
structure Batch (rt : Runtime K) (w w' : World K) (winners : List (WinnerProof K)) (l : Lottery K)
    (authority : K) (i : ℕ) (page : WinnerPage K) (data data' : PageData K) (l₁ l' : Lottery K)
    (fresh : List ℕ) (left gain : ℕ) : Prop where
  not_complete : l.settlementComplete = false
  winners_pos : l.winnersCount ≠ 0
  nonempty : winners ≠ []
  page_eq : (w.view rt l.id (.winnerPage i)).data = .winnerPage page data
  foreign : ∀ offset winner, page.winner data offset = some winner → rt.Foreign winner.wallet
  run : Round.PayRun page i (l.totalPayout / l.winnersCount) l data winners l₁ data' fresh
  solvent : fresh.length * (l.totalPayout / l.winnersCount) ≤ (w.view rt l.id .vault).lamports
  concludes : Concludes l₁.incrementSettlementBatch ((w.view rt l.id .vault).lamports -
    fresh.length * (l.totalPayout / l.winnersCount)) l' left gain
  touches : Touches rt l.id w w'
  view : w'.view rt l.id = (((w.view rt l.id).setLamports .vault left).setData (.winnerPage i)
    (.winnerPage page data')).setData .lottery (.lottery l')
  paid : ∀ k, rt.Foreign k → (w'.accounts k).lamports = (w.accounts k).lamports +
    paidTo page data (l.totalPayout / l.winnersCount) fresh k + if authority = k then gain else 0

theorem processBatch_ok {l : Lottery K} {lotteryAi vaultAi authorityAi pageAi : AccountInfo K}
    {recipients : List (AccountInfo K)} {batch : ℕ} {winners : List (WinnerProof K)}
    (hw : WellTyped rt w) (hnc : l.settlementComplete = false) (hwc : l.winnersCount ≠ 0)
    (hlk : lotteryAi.key = rt.slotKey l.id .lottery) (hvk : vaultAi.key = rt.slotKey l.id .vault)
    (hf : rt.Foreign authorityAi.key)
    (h : processBatch rt w l lotteryAi vaultAi authorityAi pageAi recipients batch winners =
      .ok w') :
    ∃ i page data data' l₁ l' fresh left gain,
      Batch rt w w' winners l authorityAi.key i page data data' l₁ l' fresh left gain := by
  simp only [processBatch, bind_eq_ok, okOr_eq_ok, rejectIf_eq_ok, exists_const,
    assertPdaOwned_eq_ok, requireWritable_eq_ok, writeAccountData_eq_ok, Prod.exists, not_or,
    not_not, not_lt, ne_eq] at h
  obtain ⟨first, hfirst, -, ⟨hpk, -⟩, -, page, hpage, -, hlen, w₁, l₁, h₁, w₂, l₂, h₂, -, -, -,
    rfl⟩ := h
  have hpk : pageAi.key = rt.slotKey l.id (.winnerPage (first.index / winnersPerPage)) := by
    rw [← hpk, hlk]; rfl
  obtain ⟨data, hd, hforeign⟩ := hw.readPage hpk.symm hpage
  obtain ⟨data', fresh, hrun, hle, ht₁, hv₁, hlam₁⟩ := payLoop_ok hvk hpk hforeign hd h₁
  obtain ⟨left, gain, hcon, ht₂, hv₂, hlam₂⟩ := completeIfPaid_ok hvk hf h₂
  have hzip : (winners.zip recipients).map Prod.fst = winners := List.map_fst_zip hlen
  have hvault : (w₁.view rt l.id .vault).lamports = (w.view rt l.id .vault).lamports -
      fresh.length * (l.totalPayout / l.winnersCount) := by
    simp [hv₁]
  rw [hvault] at hcon
  rw [hzip] at hrun
  refine ⟨_, page, data, data', l₁, l₂, fresh, left, gain, hnc, hwc, ?_, hd, hforeign, hrun, hle,
    hcon, ?_, ?_, ?_⟩
  · rintro rfl
    simp at hfirst
  · rw [hlk]
    exact (ht₁.trans ht₂).setData _ _
  · rw [hlk, World.view_setData, hv₂, hv₁, View.setLamports_setData (by simp),
      View.setLamports_setLamports]
    rfl
  · intro k hk
    rw [hlk]
    refine (congrArg Account.lamports (World.accounts_setAccount_foreign rt _ hk _ _ _)).trans ?_
    rw [hlam₂ k hk, hlam₁ k hk]

theorem effect {id batch : ℕ} {winners : List (WinnerProof K)} (hw : WellTyped rt w)
    (h : process rt w accounts id batch winners = .ok w') :
    ∃ l c, (w.view rt l.id .lottery).data = .lottery l ∧ CallsOn rt accounts l.id ∧
      (w.accounts rt.configKey).data = .config c ∧
      rt.Foreign c.authority ∧ l.id = id ∧ (∃ b, (w.view rt l.id .vault).data = .vault b) ∧
      (l.settlementComplete = true ∧ w' = w ∨ ∃ i page data data' l₁ l' fresh left gain,
        Batch rt w w' winners l c.authority i page data data' l₁ l' fresh left gain) := by
  unfold process at h
  split at h
  · simp only [bind_eq_ok, requireWritable_eq_ok, requireKeyMatch_eq_ok, assertPdaOwned_eq_ok,
      exists_const, rejectIf_eq_ok, not_not, ne_eq] at h
    obtain ⟨⟨hck, -⟩, -, -, -, -, c, hc, l, hl, b, hb, ⟨hlk, -⟩, ⟨hvk, -⟩, hak, hid, h⟩ := h
    obtain ⟨hlk, hld, -, -⟩ := hw.readLottery hlk hl
    rw [hlk] at hvk
    obtain ⟨hcd, hf⟩ := hw.readConfig hck hc
    refine ⟨l, c, hld, congrArg some hlk, hcd, hf, hid, ⟨b, hw.readVault hvk hb⟩, ?_⟩
    split at h
    · next hset =>
      exact .inl ⟨hset, (pure_eq_ok.mp h).symm⟩
    · next hset =>
      simp only [bind_eq_ok, rejectIf_eq_ok, exists_const] at h
      refine .inr ?_
      rw [← hak] at hf ⊢
      exact processBatch_ok hw (by simpa using hset) h.1 hlk hvk.symm hf h.2
  · cases h

theorem Concludes.lottery {l l' : Lottery K} {vault left gain : ℕ}
    (h : Concludes l vault l' left gain) :
    l' = l ∨ l' = { l with settlementComplete := true }.settle := by
  cases h with
  | partly => exact .inl rfl
  | fully _ _ hl =>
    simp only [Lottery.completeSettlement, bind_eq_ok, rejectIf_eq_ok, exists_const,
      pure_eq_ok] at hl
    exact .inr hl.2.symm

theorem Batch.fits {winners : List (WinnerProof K)} {l l₁ l' : Lottery K} {authority : K}
    {i left gain : ℕ} {page : WinnerPage K} {data data' : PageData K} {fresh : List ℕ}
    (h : Batch rt w w' winners l authority i page data data' l₁ l' fresh left gain)
    (hw : WellTyped rt w) (hl : (w.view rt l.id .lottery).data = .lottery l) :
    (w'.view rt l.id).Fits rt l.id := by
  have hpage := h.page_eq
  have hs := (hw.fits l.id).holds (s := .winnerPage i) (by rw [hpage]; simp)
  rw [hpage] at hs
  obtain ⟨hid, hc, hv⟩ : l'.id = l.id ∧ l'.config = l.config ∧ l'.vault = l.vault := by
    obtain ⟨bitmap, rfl⟩ := h.run.lottery
    rcases h.concludes.lottery with rfl | rfl <;> exact ⟨rfl, rfl, rfl⟩
  rw [h.view]
  refine (((hw.fits l.id).setLamports _ _).setData ?_ ?_).setLottery (l := l) l' ?_ hid hc hv
  · simp [hpage]
  · refine ⟨hs.1, hs.2.1, fun offset winner ho ↦ ?_⟩
    rw [h.run.winner] at ho
    exact hs.2.2 offset winner ho
  · simpa using hl

theorem Batch.step {winners : List (WinnerProof K)} {l₁ l' : Lottery K} {authority : K}
    {i left gain : ℕ} {page : WinnerPage K} {data data' : PageData K} {fresh : List ℕ} {id : ℕ}
    {acts : List (Action K)} {ws : List (World K)} {r : Round K} (hid : r.lottery.id = id)
    (h : Batch rt w w' winners r.lottery authority i page data data' l₁ l' fresh left gain)
    (hr : Represents rt acts w ws id r) :
    ∃ closed, r.Step rt { r with
      lottery := l'
      pages := Function.update r.pages i (some (page, data'))
      vault := left, vaultClosed := closed } ∧
        (closed = true → r.vaultClosed = true ∨ l'.settlementComplete = true) := by
  subst hid
  have hpays : r.Pays winners i page l₁ data' fresh :=
    ⟨h.not_complete, h.winners_pos, h.nonempty, ⟨data, hr.eq_page h.page_eq, h.run⟩,
      hr.lamports ▸ h.solvent⟩
  have hvault := hr.lamports
  have hcon := h.concludes
  rw [hvault] at hcon
  cases hcon with
  | partly hp => exact ⟨_, .payBatch hpays hp, .inl⟩
  | fully hfee hle hl =>
    refine ⟨true, .payLast hpays hfee hle hl, fun _ ↦ .inr ?_⟩
    obtain rfl := Lottery.completeSettlement_ok hl
    rfl

theorem simulated {id batch : ℕ} {winners : List (WinnerProof K)} (hw : WellTyped rt w)
    (h : process rt w accounts id batch winners = .ok w') (pre : List (K × Bytes))
    (ix : Instruction K) : Simulated rt (.instruction pre ix accounts) w w' := by
  obtain ⟨l, c, hl, -, -, -, -, ⟨b, hb⟩, ⟨-, rfl⟩ | ⟨i, page, data, data', l₁, l',
    fresh, left, gain, hbatch⟩⟩ := effect hw h
  · exact .refl hw l.id (by simp [hl]) fun _ _ ↦ rfl
  refine .intro l.id (by simp [hl]) hbatch.touches (hbatch.fits hw hl) ?_
  intro acts ws r _ hr
  obtain rfl := hr.eq_lottery hl
  obtain ⟨closed, hstep, hclosed⟩ := hbatch.step rfl hr
  refine ⟨_, hstep, ?_⟩
  refine hr.next hbatch.touches hbatch.view (fun _ ↦ rfl) ⟨rfl, rfl, rfl, rfl⟩ (by simp)
    (.inl ⟨b, by simp [hb]⟩) (by simp) (fun h ↦ (hclosed h).imp_right .inl) ?_ (by simp [hr.tally])
    (by simp [hr.ledger]) ?_ ?_
  · refine ((hr.roster.push.setVault _).setOther (by simp) _).setLottery l' fun p _ hcl ↦ ?_
    -- before the batch no participant account can be closed
    rcases hcl with ⟨-, hwc, -⟩ | ⟨hsc, -⟩
    · exact absurd hwc hbatch.winners_pos
    · rw [hbatch.not_complete] at hsc
      cases hsc
  · intro j
    by_cases hj : j = i
    · subst hj
      simp
    · simp [hj, hr.pages]
  · have hpage := hbatch.page_eq
    refine (((hr.alive.setVault _).setData ?_ _).setData ?_ _)
    · simp [hpage]
    · simp [hl]

end SettlePayoutBatch

end DailyLottery
