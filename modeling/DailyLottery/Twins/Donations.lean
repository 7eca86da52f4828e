import DailyLottery.Execute
import DailyLottery.Refinement.Simulation
import DailyLottery.Twins.Instructions

set_option linter.unusedSectionVars false

namespace DailyLottery

open Lib

variable {K : Type} [DecidableEq K] [Inhabited K] {rt : Runtime K} {N : K → Prop}
  {w w' w₁ : World K} {pre : List (K × Bytes)} {ix : Instruction K}
    {accounts : List (AccountInfo K)}
  {ai payer new lotteryAi : AccountInfo K} {k : K} {j n : ℕ} {s : Slot K}

theorem CreateLottery.process_alike (h : Alike rt N w w') (hN : Named N accounts [0, 1, 2, 3]) :
    Lockstep (Alike rt N) (CreateLottery.process rt w accounts)
      (CreateLottery.process rt w' accounts) := by
  have hcreate {w w' : World K} {payer new : AccountInfo K} {space : ℕ} (h : Alike rt N w w')
      (hp : N payer.key) (hn : N new.key) : Lockstep (Alike rt N)
        (createIfForeign rt w payer new space) (createIfForeign rt w' payer new space) := by
    unfold createIfForeign
    rw [h.named _ hn]
    exact .ite (fun _ ↦ h.createAccount hp hn _) fun _ ↦ .ok h
  unfold process
  split
  · next configAi lotteryAi vaultAi authorityAi _ _ =>
    simp only [Named, List.mem_cons, List.not_mem_nil, or_false, forall_eq_or_imp, forall_eq,
      List.getElem?_cons_succ, List.getElem?_cons_zero, Option.some.injEq, forall_eq'] at hN
    obtain ⟨hc, hl, hv, ha⟩ := hN
    simp only [h.assertPdaOwned hc, h.readAccountData _ hc]
    iterate 11 refine .same fun _ _ ↦ ?_
    refine .bind (hcreate h ha hl) fun w₁ w₁' _ h₁ ↦ .bind (hcreate h₁ ha hv) fun w₂ w₂' _ h₂ ↦ ?_
    rw [h₂.clock]
    refine .same fun l _ ↦ .bind (h₂.writeAccountData hl _) fun w₃ w₃' _ h₃ ↦ ?_
    refine .bind (h₃.writeAccountData hv _) fun w₄ w₄' _ h₄ ↦ ?_
    refine .bind (h₄.writeAccountData hc _) fun w₅ w₅' _ h₅ ↦ ?_
    exact .pure (h₅.emit _ _)
  · exact .error _

theorem dataIsEmpty_of_read {T : Type} [AccountType K T] {t : T}
    (h : readAccountData rt w T ai = .ok t) : dataIsEmpty w ai = false := by
  cases he : (w.accounts ai.key).data.isEmpty with
  | false => exact he
  | true => simp [readAccountData, he] at h

def Vacant (k : K) (w : World K) : Prop := (w.accounts k).data = .empty

namespace Vacant

theorem ite_emit (h : Vacant k w) (c : Prop) [Decidable c] (e : LotteryEvent K) :
    Vacant k (if c then w.emit e else w) := by
  split
  · exact h
  · exact h

theorem ne_of_nonempty (h : Vacant k w) (hne : dataIsEmpty w ai = false) : ai.key ≠ k := by
  rintro rfl
  have hempty : (w.accounts ai.key).data = .empty := h
  simp [dataIsEmpty, hempty, AccountData.isEmpty] at hne

theorem ne_of_read {T : Type} [AccountType K T] {t : T} (h : Vacant k w)
    (hread : readAccountData rt w T ai = .ok t) : ai.key ≠ k :=
  h.ne_of_nonempty (dataIsEmpty_of_read hread)

theorem setAccount {x : Account K} {k' : K} (h : Vacant k w) (hx : k = k' → x.data = .empty) :
    Vacant k (w.setAccount k' x) := by
  unfold Vacant
  by_cases hk : k = k'
  · rw [hk, World.accounts_setAccount_self]
    exact hx hk
  · rw [World.accounts_setAccount_of_ne _ _ hk]
    exact h

theorem write {T : Type} [AccountType K T] {t : T} (h : Vacant k w)
    (hw : writeAccountData rt w ai t = .ok w') : Vacant k w' := by
  obtain ⟨hne, -, -, rfl⟩ := writeAccountData_eq_ok.mp hw
  refine h.setAccount fun hk ↦ ?_
  have hempty : (w.accounts k).data = .empty := h
  rw [← hk, hempty] at hne
  cases hne

theorem create {space : ℕ} (h : Vacant k w) (hn : new.key ≠ k)
    (hc : createAccount rt w payer new space = .ok w') : Vacant k w' := by
  obtain ⟨-, -, -, -, -, rfl⟩ := createAccount_eq_ok.mp hc
  have hpayer : Vacant k (w.setLamports payer.key
      ((w.accounts payer.key).lamports - rt.minimumBalance space)) := by
    refine h.setAccount fun hk ↦ ?_
    rw [← hk]
    exact h
  exact hpayer.setAccount fun hk ↦ absurd hk.symm hn

end Vacant

/-- Lamports at an address of the program where nothing is stored. -/
structure Prefunded (k : K) (w : World K) : Prop where
  lamports : 0 < (w.accounts k).lamports
  vacant : Vacant k w
  owner : (w.accounts k).owner = default

namespace Prefunded

theorem ite_emit (h : Prefunded k w) (c : Prop) [Decidable c] (e : LotteryEvent K) :
    Prefunded k (if c then w.emit e else w) := by
  split
  · exact ⟨h.lamports, h.vacant, h.owner⟩
  · exact h

theorem setAccount {x : Account K} {k' : K} (h : Prefunded k w)
    (hx : k = k' → x = w.accounts k) : Prefunded k (w.setAccount k' x) := by
  have hsame : (w.setAccount k' x).accounts k = w.accounts k := by
    by_cases hk : k = k'
    · rw [hk, World.accounts_setAccount_self, hx hk, hk]
    · exact World.accounts_setAccount_of_ne _ _ hk
  refine ⟨?_, ?_, ?_⟩
  · rw [hsame]
    exact h.lamports
  · unfold Vacant
    rw [hsame]
    exact h.vacant
  · rw [hsame]
    exact h.owner

theorem write {T : Type} [AccountType K T] {t : T} (h : Prefunded k w)
    (hw : writeAccountData rt w ai t = .ok w') : Prefunded k w' := by
  obtain ⟨hne, -, -, rfl⟩ := writeAccountData_eq_ok.mp hw
  refine h.setAccount fun hk ↦ ?_
  have hempty : (w.accounts k).data = .empty := h.vacant
  rw [← hk, hempty] at hne
  cases hne

theorem create {space : ℕ} (h : Prefunded k w) (hp : payer.key ≠ k)
    (hc : createAccount rt w payer new space = .ok w') : new.key ≠ k ∧ Prefunded k w' := by
  obtain ⟨-, hunused, -, -, -, rfl⟩ := createAccount_eq_ok.mp hc
  have hne : new.key ≠ k := by
    rintro rfl
    have hpos := h.lamports
    rw [hunused] at hpos
    cases hpos
  exact ⟨hne, (h.setAccount fun hk ↦ absurd hk.symm hp).setAccount fun hk ↦ absurd hk.symm hne⟩

theorem createIfForeign {space : ℕ} (h : Prefunded k w) (hp : payer.key ≠ k)
    (hc : CreateLottery.createIfForeign rt w payer new space = .ok w') :
    new.key ≠ k ∧ Prefunded k w' := by
  unfold CreateLottery.createIfForeign at hc
  split at hc
  · exact h.create hp hc
  · next hown =>
    cases hc
    refine ⟨?_, h⟩
    rintro rfl
    rw [h.owner, not_not] at hown
    exact rt.programId_ne_default hown.symm

end Prefunded

theorem Named.union {is js places : List ℕ} (h : Named N accounts is) (h' : Named N accounts js)
    (hall : ∀ i ∈ places, i ∈ is ∨ i ∈ js) : Named N accounts places := by
  intro i hi
  obtain hi | hi := hall i hi
  · exact h i hi
  · exact h' i hi

/-- What went through names no vacant address, but where it creates an account; and not even there
when the address is prefunded. -/
theorem BuyTickets.uses {hash : Option Bytes32} {count : ℕ}
    (h : process rt w accounts hash count = .ok w') (hv : Vacant k w)
    (hsig : ∀ ai ∈ accounts, ai.isSigner = true → ai.key ≠ k) :
    Named (· ≠ k) accounts [1, 2, 4] ∧ (Prefunded k w → Named (· ≠ k) accounts [3]) := by
  unfold process at h
  split at h
  · next configAi lotteryAi vaultAi participantAi buyerAi _ _ =>
    simp only [bind_eq_ok, validateTicketCount_eq_ok, assertPdaOwned_eq_ok, assertPdaKey_eq_ok,
      requireSigner_eq_ok, requireWritable_eq_ok, requireKeyMatch_eq_ok, rejectIf_eq_ok,
        exists_const,
      okOr_eq_ok] at h
    obtain ⟨-, -, hsign, -, -, -, -, -, c, -, l, hl, v, hvault, -, -, -, -, -, -, -, cost, -,
      ⟨w₁, p, l₁⟩, hload, -⟩ := h
    simp only [Named, List.mem_cons, List.not_mem_nil, or_false, forall_eq_or_imp, forall_eq,
      List.getElem?_cons_succ, List.getElem?_cons_zero, Option.some.injEq, forall_eq']
    refine ⟨⟨hv.ne_of_read hl, hv.ne_of_read hvault, hsig buyerAi (by simp) hsign⟩, fun hp ↦ ?_⟩
    unfold loadOrCreateParticipant at hload
    split at hload
    · next hne => exact hv.ne_of_nonempty hne
    · simp only [bind_eq_ok, rejectIf_eq_ok, exists_const] at hload
      obtain ⟨-, w₀, hcreate, -⟩ := hload
      exact (hp.create (hsig buyerAi (by simp) hsign) hcreate).1
  · cases h

theorem AttestReveal.uses {vote : ℕ} {plaintext : Bytes}
    (h : process rt w accounts vote plaintext = .ok w') (hv : Vacant k w)
    (hsig : ∀ ai ∈ accounts, ai.isSigner = true → ai.key ≠ k) :
    Named (· ≠ k) accounts [1, 2, 3] ∧ (Prefunded k w → Named (· ≠ k) accounts [4]) := by
  unfold process at h
  split at h
  · next configAi lotteryAi participantAi walletAi tallyAi _ _ =>
    simp only [bind_eq_ok, assertPdaOwned_eq_ok, assertPdaKey_eq_ok, requireSigner_eq_ok,
      requireWritable_eq_ok, requireKeyMatch_eq_ok, rejectIf_eq_ok, exists_const] at h
    obtain ⟨-, -, -, hsign, -, -, -, -, c, -, l, hl, p, hp, -, -, -, -, -, -, -, -, -, -, -, p₁, -,
      l₁, -, -, ⟨w₁, t⟩, hload, -⟩ := h
    simp only [Named, List.mem_cons, List.not_mem_nil, or_false, forall_eq_or_imp, forall_eq,
      List.getElem?_cons_succ, List.getElem?_cons_zero, Option.some.injEq, forall_eq']
    refine ⟨⟨hv.ne_of_read hl, hv.ne_of_read hp, hsig walletAi (by simp) hsign⟩, fun hp ↦ ?_⟩
    unfold loadOrCreateTally at hload
    split at hload
    · simp only [bind_eq_ok] at hload
      obtain ⟨w₀, hcreate, -⟩ := hload
      exact (hp.create (hsig walletAi (by simp) hsign) hcreate).1
    · next hne => exact hv.ne_of_nonempty (Bool.eq_false_iff.mpr hne)
  · cases h

theorem CreateLottery.uses (h : process rt w accounts = .ok w') (hv : Vacant k w)
    (hsig : ∀ ai ∈ accounts, ai.isSigner = true → ai.key ≠ k) :
    Named (· ≠ k) accounts [0, 3] ∧ (Prefunded k w → Named (· ≠ k) accounts [1, 2]) := by
  unfold process at h
  split at h
  · next configAi lotteryAi vaultAi authorityAi _ _ =>
    simp only [bind_eq_ok, assertPdaOwned_eq_ok, assertPdaKey_eq_ok, requireSigner_eq_ok,
      requireWritable_eq_ok, requireKeyMatch_eq_ok, rejectIf_eq_ok, exists_const, okOr_eq_ok] at h
    obtain ⟨-, hsign, -, -, -, -, c, hc, -, _, -, -, -, w₁, h₁, w₂, h₂, -⟩ := h
    have hpayer := hsig authorityAi (by simp) hsign
    simp only [Named, List.mem_cons, List.not_mem_nil, or_false, forall_eq_or_imp, forall_eq,
      List.getElem?_cons_succ, List.getElem?_cons_zero, Option.some.injEq, forall_eq']
    refine ⟨⟨hv.ne_of_read hc, hpayer⟩, fun hp ↦ ?_⟩
    obtain ⟨hlottery, hp₁⟩ := hp.createIfForeign hpayer h₁
    exact ⟨hlottery, (hp₁.createIfForeign hpayer h₂).1⟩
  · cases h

namespace UploadReveals

theorem processEntries_uses {maxWinners : ℕ} {rest : List (AccountInfo K)}
    {entries : List (K × Bytes)} {t : VoteTally K} {digests : List Bytes32}
    {x : World K × VoteTally K × List Bytes32} (hv : Vacant k w)
    (h : processEntries rt maxWinners lotteryAi rest entries w t digests = .ok x) :
    k ∉ entries.map Prod.fst := by
  induction entries generalizing w t digests with
  | nil => exact List.not_mem_nil
  | cons entry entries ih =>
    simp only [processEntries, bind_eq_ok, okOr_eq_ok] at h
    obtain ⟨ai, hfound, -, -, p, hread, -, -, -, -, ⟨t₁, p₁, digest⟩, -, w₁, hwrite, h⟩ := h
    have hkey : ai.key = entry.1 := by simpa using List.find?_some hfound
    rw [List.map_cons, List.mem_cons, not_or]
    refine ⟨?_, ih (hv.write hwrite) h⟩
    rw [← hkey]
    exact (hv.ne_of_read hread).symm

theorem loadOrCreateTally_uses {l : Lottery K} {maxWinners : ℕ} {tallyAi : AccountInfo K}
    {t : VoteTally K} (hv : Vacant k w) (hp : payer.key ≠ k)
    (h : loadOrCreateTally rt w l maxWinners payer tallyAi lotteryAi = .ok (w₁, t)) :
    (tallyAi.key ≠ k → Vacant k w₁) ∧ (Prefunded k w → tallyAi.key ≠ k) := by
  unfold loadOrCreateTally at h
  split at h
  · simp only [bind_eq_ok, pure_eq_ok, Prod.mk.injEq] at h
    obtain ⟨-, -, w₀, hcreate, w₂, hwrite, rfl, rfl⟩ := h
    exact ⟨fun hne ↦ (hv.create hne hcreate).write hwrite, fun hpre ↦ (hpre.create hp hcreate).1⟩
  · next hne =>
    simp only [bind_eq_ok, pure_eq_ok, Prod.mk.injEq] at h
    obtain ⟨t₀, -, -, -, -, -, rfl, rfl⟩ := h
    exact ⟨fun _ ↦ hv, fun _ ↦ hv.ne_of_nonempty (Bool.eq_false_iff.mpr hne)⟩

theorem uses {entries : List (K × Bytes)} (h : process rt w accounts entries = .ok w')
    (hv : Vacant k w) (hsig : ∀ ai ∈ accounts, ai.isSigner = true → ai.key ≠ k) :
    Named (· ≠ k) accounts [1, 2] ∧ (Named (· ≠ k) accounts [4] → k ∉ entries.map Prod.fst) ∧
      (Prefunded k w → Named (· ≠ k) accounts [4]) := by
  unfold process at h
  split at h
  · next configAi lotteryAi uploaderAi _ tallyAi rest =>
    simp only [bind_eq_ok, assertPdaOwned_eq_ok, assertPdaKey_eq_ok, requireSigner_eq_ok,
      requireWritable_eq_ok, requireKeyMatch_eq_ok, rejectIf_eq_ok, exists_const] at h
    obtain ⟨-, -, hsign, -, -, -, -, c, -, l, hl, -, -, l₁, -, -, ⟨w₁, t⟩, hload, -, -, y,
      hloop, -⟩ := h
    have hpayer := hsig uploaderAi (by simp) hsign
    simp only [Named, List.mem_cons, List.not_mem_nil, or_false, forall_eq_or_imp, forall_eq,
      List.getElem?_cons_succ, List.getElem?_cons_zero, Option.some.injEq, forall_eq']
    obtain ⟨hvacant, htally⟩ := loadOrCreateTally_uses (hv.ite_emit _ _) hpayer hload
    refine ⟨⟨hv.ne_of_read hl, hpayer⟩, fun hne hmem ↦ ?_, fun hp ↦ htally (hp.ite_emit _ _)⟩
    refine processEntries_uses (hvacant hne) hloop ?_
    exact ((List.mergeSort_perm _ _).map Prod.fst).mem_iff.mpr hmem
  · cases h

end UploadReveals

namespace FinalizeWinners

variable {payerAi rootAi pageAi : AccountInfo K} {l : Lottery K}

theorem loadOrCreateRoot_uses {now : ℤ} {root : FinalizationLedger K} (hv : Vacant k w)
    (hp : payerAi.key ≠ k)
    (h : loadOrCreateRoot rt w lotteryAi payerAi rootAi l now = .ok (w₁, root)) :
    (rootAi.key ≠ k → Vacant k w₁) ∧ (Prefunded k w → rootAi.key ≠ k ∧ Prefunded k w₁) := by
  simp only [loadOrCreateRoot, bind_eq_ok, assertPdaKey_eq_ok, exists_const] at h
  obtain ⟨-, h⟩ := h
  split at h
  · simp only [bind_eq_ok, pure_eq_ok, Prod.mk.injEq] at h
    obtain ⟨w₀, hcreate, rfl, -⟩ := h
    exact ⟨fun hne ↦ hv.create hne hcreate, fun hpre ↦ hpre.create hp hcreate⟩
  · next hne =>
    simp only [bind_eq_ok, pure_eq_ok, Prod.mk.injEq] at h
    obtain ⟨-, -, -, -, -, -, rfl, -⟩ := h
    exact ⟨fun _ ↦ hv, fun hpre ↦ ⟨hv.ne_of_nonempty (Bool.eq_false_iff.mpr hne), hpre⟩⟩

theorem participantLoop_uses {root root' : FinalizationLedger K}
    {body : FinalizationLedger K → Participant K →
      Result (FinalizationLedger K × Option (Participant K))} (hv : Vacant k w)
    (h : participantLoop rt body lotteryAi accounts w root = .ok (w₁, root')) :
    (∀ ai ∈ accounts, ai.key ≠ k) ∧ (Prefunded k w → Prefunded k w₁) := by
  induction accounts generalizing w root with
  | nil =>
    cases h
    exact ⟨fun ai hai ↦ absurd hai List.not_mem_nil, fun hp ↦ hp⟩
  | cons ai accounts ih =>
    simp only [participantLoop, readValidParticipant, bind_eq_ok, pure_eq_ok] at h
    obtain ⟨-, -, p, ⟨p, hread, -⟩, ⟨root₁, updated⟩, -, w₂, hwrite, h⟩ := h
    have hkept : Vacant k w₂ ∧ (Prefunded k w → Prefunded k w₂) := by
      cases updated with
      | none =>
        cases hwrite
        exact ⟨hv, fun hp ↦ hp⟩
      | some p' => exact ⟨hv.write hwrite, fun hp ↦ hp.write hwrite⟩
    obtain ⟨hrest, hfunded⟩ := ih hkept.1 h
    refine ⟨fun ai' hai ↦ ?_, fun hp ↦ hfunded (hkept.2 hp)⟩
    obtain rfl | hai := List.mem_cons.mp hai
    · exact hv.ne_of_read hread
    · exact hrest ai' hai

theorem finishRound_uses {root : FinalizationLedger K} {now : ℤ}
    {x : World K × Lottery K × FinalizationLedger K} (hpre : Prefunded k w) (hp : payerAi.key ≠ k)
    (h : finishRound rt w lotteryAi payerAi pageAi l root now = .ok x) : pageAi.key ≠ k := by
  simp only [finishRound, loadOrCreateWinnerPage, bind_eq_ok] at h
  obtain ⟨winner, -, y, ⟨-, -, hload⟩, -⟩ := h
  split at hload
  · simp only [bind_eq_ok] at hload
    obtain ⟨w₀, hcreate, -⟩ := hload
    exact (hpre.create hp hcreate).1
  · next hne => exact hpre.vacant.ne_of_nonempty (Bool.eq_false_iff.mpr hne)

theorem processChunk_uses {c : Config K} (hv : Vacant k w) (hp : payerAi.key ≠ k)
    (h : processChunk rt w lotteryAi payerAi rootAi pageAi c l accounts = .ok w') :
    (rootAi.key ≠ k → ∀ w₁ root,
      loadOrCreateRoot rt w lotteryAi payerAi rootAi l w.clock = .ok (w₁, root) →
        root.phase ≠ .completed → ∀ ai ∈ accounts, ai.key ≠ k) ∧
      (Prefunded k w → rootAi.key ≠ k ∧ (EndsRound rt w rootAi accounts.length →
        pageAi.key ≠ k)) := by
  simp only [processChunk, bind_eq_ok, rejectIf_eq_ok, exists_const] at h
  obtain ⟨-, ⟨w₁, root⟩, hroot, -, -, h⟩ := h
  obtain ⟨hvacant, hfunded⟩ := loadOrCreateRoot_uses hv hp hroot
  constructor
  · intro hne w₂ root₂ hroot₂ hopen
    obtain ⟨rfl, rfl⟩ := Prod.mk.inj (Except.ok.inj (hroot.symm.trans hroot₂))
    cases hph : root.phase with
    | aggregating =>
      simp only [hph, bind_eq_ok, processAggregationChunk] at h
      obtain ⟨-, ⟨y, hloop, -⟩, -⟩ := h
      exact (participantLoop_uses (hvacant hne) hloop).1
    | selecting =>
      simp only [hph, bind_eq_ok, processSelectionChunk] at h
      obtain ⟨-, ⟨y, hloop, -⟩, -⟩ := h
      exact (participantLoop_uses (hvacant hne) hloop).1
    | completed => exact absurd hph hopen
    | unknown =>
      rw [hph] at h
      cases h
  · intro hpre
    obtain ⟨hne, hpre₁⟩ := hfunded hpre
    refine ⟨hne, fun hends ↦ ?_⟩
    obtain ⟨root₀, hread, hph, hcount⟩ := hends
    have hrootne := dataIsEmpty_of_read hread
    simp only [loadOrCreateRoot, bind_eq_ok, hrootne, Bool.false_eq_true, if_false, hread,
      pure_eq_ok, Except.ok.injEq] at hroot
    obtain ⟨-, -, -, -, root₁, rfl, -, -, hw⟩ := hroot
    obtain ⟨rfl, rfl⟩ := Prod.mk.inj hw
    simp only [hph, bind_eq_ok, processSelectionChunk] at h
    obtain ⟨x, ⟨⟨w₂, root₂⟩, hloop, -, -, hfinish⟩, -⟩ := h
    obtain ⟨hprocessed, hrequired⟩ := participantLoop_count hloop
    have hfull : root₂.roundProcessedCount = root₂.requiredCount := by
      rw [hprocessed, hrequired, hcount]
    rw [if_pos hfull] at hfinish
    exact finishRound_uses ((participantLoop_uses hv hloop).2 hpre) hp hfinish

theorem uses {configAi vaultAi systemProgramAi : AccountInfo K}
    (h : process rt w (configAi :: lotteryAi :: vaultAi :: payerAi :: systemProgramAi :: rootAi ::
      pageAi :: accounts) = .ok w') (hv : Vacant k w) (hsig : payerAi.isSigner = true →
        payerAi.key ≠ k) :
    (lotteryAi.key ≠ k ∧ vaultAi.key ≠ k ∧ payerAi.key ≠ k) ∧
      ∀ l, GetsToChunk rt w lotteryAi l → (rootAi.key ≠ k → ∀ w₁ root,
        loadOrCreateRoot rt w lotteryAi payerAi rootAi l w.clock = .ok (w₁, root) →
          root.phase ≠ .completed → ∀ ai ∈ accounts, ai.key ≠ k) ∧
        (Prefunded k w →
          rootAi.key ≠ k ∧ (EndsRound rt w rootAi accounts.length → pageAi.key ≠ k)) := by
  simp only [process, bind_eq_ok, assertPdaOwned_eq_ok, requireSigner_eq_ok, requireWritable_eq_ok,
    requireKeyMatch_eq_ok, exists_const] at h
  obtain ⟨-, -, -, hsign, -, -, -, -, c, -, l, hl, v, hvault, -, -, -, h⟩ := h
  have hpayer := hsig hsign
  refine ⟨⟨hv.ne_of_read hl, hv.ne_of_read hvault, hpayer⟩, ?_⟩
  rintro l' ⟨hread, hopen, hmissing⟩
  obtain rfl := Except.ok.inj (hl.symm.trans hread)
  rw [if_neg hopen] at h
  simp only [bind_eq_ok, hmissing, Bool.false_eq_true, if_false] at h
  obtain ⟨-, -, -, -, -, -, h⟩ := h
  exact processChunk_uses hv hpayer h

end FinalizeWinners

def Instruction.CreatesAccounts : Instruction K → Prop
  | .createLottery => True
  | .buyTickets _ _ => True
  | .attestReveal _ _ => True
  | .uploadReveals _ => True
  | .finalizeWinners => True
  | _ => False

variable (rt) (w) (accounts) (k) in
/-- Address `k`, where nothing is stored yet, is one the instruction creates: the lottery or the vault
of `CreateLottery`, the participant of a purchase, the tally of a reveal, the ledger of a finalization
that gets to its chunk, or the page of a chunk that ends a selection pass. -/
inductive Creates : Instruction K → Prop
  | createLottery {i : ℕ} {ai : AccountInfo K} : i ∈ [1, 2] → accounts[i]? = some ai → ai.key = k →
      Creates .createLottery
  | buyTickets {hash : Option Bytes32} {count : ℕ} {ai : AccountInfo K} : accounts[3]? = some ai →
      ai.key = k → Creates (.buyTickets hash count)
  | attestReveal {vote : ℕ} {plaintext : Bytes} {ai : AccountInfo K} : accounts[4]? = some ai →
      ai.key = k → Creates (.attestReveal vote plaintext)
  | uploadReveals {entries : List (K × Bytes)} {ai : AccountInfo K} : accounts[4]? = some ai →
      ai.key = k → Creates (.uploadReveals entries)
  | finalizationRoot {configAi lotteryAi vaultAi payerAi systemProgramAi rootAi pageAi :
    AccountInfo K}
      {rest : List (AccountInfo K)} {l : Lottery K} :
      accounts = configAi :: lotteryAi :: vaultAi :: payerAi :: systemProgramAi :: rootAi :: pageAi ::
        rest → FinalizeWinners.GetsToChunk rt w lotteryAi l → rootAi.key = k →
          Creates .finalizeWinners
  | winnerPage {configAi lotteryAi vaultAi payerAi systemProgramAi rootAi pageAi : AccountInfo K}
      {rest : List (AccountInfo K)} {l : Lottery K} :
      accounts = configAi :: lotteryAi :: vaultAi :: payerAi :: systemProgramAi :: rootAi :: pageAi ::
        rest → FinalizeWinners.GetsToChunk rt w lotteryAi l →
      FinalizeWinners.EndsRound rt w rootAi rest.length → pageAi.key = k → Creates .finalizeWinners

/-- The donated world, with what the two have in common. -/
structure Donated (rt : Runtime K) (k : K) (w w' : World K) : Prop where
  vacant : Vacant k w
  alike : Alike rt (· ≠ k) w w'
  prefunded : Prefunded k w'

section Outcomes

variable (hd : Donated rt k w w₁) (hsig : ∀ ai ∈ accounts, ai.isSigner = true → ai.key ≠ k)

include hd hsig

theorem CreateLottery.donated (h : process rt w accounts = .ok w') :
    (∃ w'', process rt w₁ accounts = .ok w'') ↔ ¬Creates rt w accounts k .createLottery := by
  constructor
  · rintro ⟨w'', h''⟩ hcreates
    cases hcreates with
    | createLottery hi hai hkey =>
        exact (uses h'' hd.prefunded.vacant hsig).2 hd.prefunded _ hi _ hai hkey
  · intro hno
    have hnew : Named (· ≠ k) accounts [1, 2] :=
      fun i hi ai hai hkey ↦ hno (.createLottery hi hai hkey)
    obtain ⟨w'', hok, -⟩ := (process_alike hd.alike ((uses h hd.vacant hsig).1.union hnew
      (by simp))).ok_right h
    exact ⟨w'', hok⟩

theorem BuyTickets.donated {hash : Option Bytes32} {count : ℕ}
    (h : process rt w accounts hash count = .ok w') :
    (∃ w'', process rt w₁ accounts hash count = .ok w'') ↔
      ¬Creates rt w accounts k (.buyTickets hash count) := by
  constructor
  · rintro ⟨w'', h''⟩ hcreates
    cases hcreates with
    | buyTickets hai hkey =>
      exact (uses h'' hd.prefunded.vacant hsig).2 hd.prefunded 3 (by simp) _ hai hkey
  · intro hno
    have hnew : Named (· ≠ k) accounts [3] := by
      intro i hi ai hai hkey
      obtain rfl := List.mem_singleton.mp hi
      exact hno (.buyTickets hai hkey)
    obtain ⟨w'', hok, -⟩ := (process_alike hd.alike ((uses h hd.vacant hsig).1.union hnew
      (by simp)) hash count).ok_right h
    exact ⟨w'', hok⟩

theorem AttestReveal.donated {vote : ℕ} {plaintext : Bytes}
    (h : process rt w accounts vote plaintext = .ok w') :
    (∃ w'', process rt w₁ accounts vote plaintext = .ok w'') ↔
      ¬Creates rt w accounts k (.attestReveal vote plaintext) := by
  constructor
  · rintro ⟨w'', h''⟩ hcreates
    cases hcreates with
    | attestReveal hai hkey =>
      exact (uses h'' hd.prefunded.vacant hsig).2 hd.prefunded 4 (by simp) _ hai hkey
  · intro hno
    have hnew : Named (· ≠ k) accounts [4] := by
      intro i hi ai hai hkey
      obtain rfl := List.mem_singleton.mp hi
      exact hno (.attestReveal hai hkey)
    obtain ⟨w'', hok, -⟩ := (process_alike hd.alike ((uses h hd.vacant hsig).1.union hnew
      (by simp)) vote plaintext).ok_right h
    exact ⟨w'', hok⟩

theorem UploadReveals.donated {entries : List (K × Bytes)}
    (h : process rt w accounts entries = .ok w') :
    (∃ w'', process rt w₁ accounts entries = .ok w'') ↔
      ¬Creates rt w accounts k (.uploadReveals entries) := by
  constructor
  · rintro ⟨w'', h''⟩ hcreates
    cases hcreates with
    | uploadReveals hai hkey =>
      exact (uses h'' hd.prefunded.vacant hsig).2.2 hd.prefunded 4 (by simp) _ hai hkey
  · intro hno
    have hnew : Named (· ≠ k) accounts [4] := by
      intro i hi ai hai hkey
      obtain rfl := List.mem_singleton.mp hi
      exact hno (.uploadReveals hai hkey)
    obtain ⟨hnamed, hentries, -⟩ := uses h hd.vacant hsig
    have hrest (ai : AccountInfo K) (_ : ai ∈ accounts.drop 5)
      (hmem : ai.key ∈ entries.map Prod.fst) :
        ai.key ≠ k := by
      rintro rfl
      exact hentries hnew hmem
    obtain ⟨w'', hok, -⟩ := (process_alike hd.alike (hnamed.union hnew (by simp)) hrest).ok_right h
    exact ⟨w'', hok⟩

theorem FinalizeWinners.donated (h : process rt w accounts = .ok w') :
    (∃ w'', process rt w₁ accounts = .ok w'') ↔ ¬Creates rt w accounts k .finalizeWinners := by
  have hsame {ai : AccountInfo K} {T : Type} [AccountType K T] {t : T}
      (hread : readAccountData rt w T ai = .ok t) : readAccountData rt w₁ T ai = .ok t := by
    rw [hd.alike.readAccountData T (hd.vacant.ne_of_read hread)]
    exact hread
  have hgets {lotteryAi : AccountInfo K} {l : Lottery K} (hg : GetsToChunk rt w lotteryAi l) :
      GetsToChunk rt w₁ lotteryAi l := ⟨hsame hg.1, hg.2⟩
  constructor
  · rintro ⟨w'', h''⟩ hcreates
    cases hcreates with
    | finalizationRoot he hg hkey =>
      subst he
      have huses := (uses h'' hd.prefunded.vacant (hsig _ (by simp))).2 _ (hgets hg)
      exact (huses.2 hd.prefunded).1 hkey
    | winnerPage he hg hends hkey =>
      subst he
      obtain ⟨root, hread, hph, hcount⟩ := hends
      have huses := (uses h'' hd.prefunded.vacant (hsig _ (by simp))).2 _ (hgets hg)
      exact (huses.2 hd.prefunded).2 ⟨root, hsame hread, hph, hcount⟩ hkey
  · intro hno
    have hlen : ∃ configAi lotteryAi vaultAi payerAi systemProgramAi rootAi pageAi rest,
        accounts = configAi :: lotteryAi :: vaultAi :: payerAi :: systemProgramAi :: rootAi ::
          pageAi :: rest := by
      unfold process at h
      split at h
      · exact ⟨_, _, _, _, _, _, _, _, rfl⟩
      · cases h
    obtain ⟨configAi, lotteryAi, vaultAi, payerAi, systemProgramAi, rootAi, pageAi, rest,
      rfl⟩ := hlen
    obtain ⟨⟨hl, hv, hp⟩, hchunk⟩ := uses h hd.vacant (hsig payerAi (by simp))
    have hnamed : Named (· ≠ k) (configAi :: lotteryAi :: vaultAi :: payerAi :: systemProgramAi ::
        rootAi :: pageAi :: rest) [1, 2, 3] := by
      simpa [Named] using ⟨hl, hv, hp⟩
    refine (process_alike hd.alike hnamed ?_).ok_right h |>.imp fun w'' hok ↦ hok.1
    intro _ lotteryAi' _ payerAi' _ rootAi' pageAi' rest' l he hg
    simp only [List.cons.injEq] at he
    obtain ⟨-, rfl, -, rfl, -, rfl, rfl, rfl⟩ := he
    have hroot : rootAi.key ≠ k := fun hkey ↦ hno (.finalizationRoot rfl hg hkey)
    exact ⟨hroot, fun hends hkey ↦ hno (.winnerPage rfl hg hends hkey), (hchunk l hg).1 hroot⟩

end Outcomes

/-- A donation to an address where nothing is stored blocks just the instructions that create an
account there. -/
theorem donation_blocks_iff (h : (system rt).Reachable w)
    (hs : Step rt w (.instruction pre ix accounts) w') (hix : ix.CreatesAccounts)
    (hk : (w.view rt j s).data = .empty) (hn : 0 < n) :
    (∃ w'', Step rt (w.setLamports (rt.slotKey j s) ((w.view rt j s).lamports + n))
      (.instruction pre ix accounts) w'') ↔ ¬Creates rt w accounts (rt.slotKey j s) ix := by
  obtain ⟨acts, ws, hh⟩ := h
  have hc := consistent hh
  have hfits := hc.typed.fits j
  have hd : Donated rt (rt.slotKey j s) w
      (w.setLamports (rt.slotKey j s) ((w.view rt j s).lamports + n)) := by
    refine ⟨hk, .elsewhere (fun hne ↦ hne rfl) fun he ↦ ⟨rfl, rfl⟩, ?_, ?_, ?_⟩
    · simp only [World.setLamports, World.accounts_setAccount_self]
      omega
    · simp only [Vacant, World.setLamports, World.accounts_setAccount_self]
      exact hk
    · simp only [World.setLamports, World.accounts_setAccount_self]
      exact hfits.owner_empty hk
  cases hs with
  | instruction hsig hok =>
    have hsig' (ai : AccountInfo K) (hai : ai ∈ accounts) (hsign : ai.isSigner = true) :
        ai.key ≠ rt.slotKey j s := hsig ai hai hsign _
    have hstep (w₁ : World K) : (∃ w'', Step rt w₁ (.instruction pre ix accounts) w'') ↔
        ∃ w'', processInstruction rt w₁ pre ix accounts = .ok w'' := by
      constructor
      · rintro ⟨w'', hs⟩
        cases hs with
        | instruction _ hok => exact ⟨w'', hok⟩
      · rintro ⟨w'', hok⟩
        exact ⟨w'', .instruction hsig hok⟩
    rw [hstep]
    cases ix with
    | createLottery => exact CreateLottery.donated hd hsig' hok
    | buyTickets hash count => exact BuyTickets.donated hd hsig' hok
    | attestReveal vote plaintext => exact AttestReveal.donated hd hsig' hok
    | uploadReveals entries => exact UploadReveals.donated hd hsig' hok
    | finalizeWinners => exact FinalizeWinners.donated hd hsig' hok
    | _ => exact hix.elim

/-- A donation to the second lottery does not keep the first from being created. -/
theorem donation_blocks_iff_sample : ∃ w w'' : World Sample.Key,
    Step Sample.rt (w.setLamports (Sample.rt.slotKey 2 .lottery) 5) (Sample.create 1) w'' := by
  obtain ⟨w, ws, h, -, hp⟩ := Sample.run_from [Sample.configure 1000 500 10]
    (fun w ↦ (exec Sample.rt Sample.Key.isWallet w (Sample.create 1)).isSome &&
      (w.view Sample.rt 2 .lottery).data.isEmpty && (w.view Sample.rt 2 .lottery).lamports == 0)
    (by decide +kernel)
  simp only [Bool.and_eq_true, Option.isSome_iff_exists, beq_iff_eq] at hp
  obtain ⟨⟨⟨w', hexec⟩, hempty⟩, hzero⟩ := hp
  have hk : (w.view Sample.rt 2 .lottery).data = .empty := by
    generalize (w.view Sample.rt 2 .lottery).data = d at hempty
    cases d <;> first | rfl | cases hempty
  have hiff := donation_blocks_iff ⟨_, ws,
    h⟩ (exec_step Sample.foreign_of_isWallet hexec) trivial hk
    (by decide : 0 < 5)
  rw [hzero] at hiff
  obtain ⟨w'', hs⟩ := hiff.mpr fun hcreates ↦ by
    cases hcreates with
    | createLottery hi hai hkey =>
      simp only [List.mem_cons, List.not_mem_nil, or_false] at hi
      rcases hi with rfl | rfl <;> cases hai <;> cases hkey
  exact ⟨w, w'', hs⟩

/-- One lamport sent to the address of the next lottery keeps it from being created. -/
theorem donation_blocks_creation : ∃ w w' : World Sample.Key, (system Sample.rt).Reachable w ∧
    Step Sample.rt w (Sample.create 1) w' ∧ (w.view Sample.rt 1 .lottery).data.isEmpty = true ∧
      ∀ w'', ¬Step Sample.rt (w.setLamports (Sample.rt.slotKey 1 .lottery) 1)
      (Sample.create 1) w'' := by
  obtain ⟨w, ws, h, -, hp⟩ := Sample.run_from [Sample.configure 1000 500 10]
    (fun w ↦ (exec Sample.rt Sample.Key.isWallet w (Sample.create 1)).isSome &&
      (w.view Sample.rt 1 .lottery).data.isEmpty &&
      (exec Sample.rt Sample.Key.isWallet (w.setLamports (Sample.rt.slotKey 1 .lottery) 1)
        (Sample.create 1)).isNone) (by decide +kernel)
  simp only [Bool.and_eq_true, Option.isSome_iff_exists, Option.isNone_iff_eq_none] at hp
  obtain ⟨⟨⟨w', hexec⟩, hempty⟩, hnone⟩ := hp
  refine ⟨w, w', ⟨_, ws, h⟩, exec_step Sample.foreign_of_isWallet hexec, hempty, fun w'' hs ↦ ?_⟩
  cases hnone.symm.trans (step_exec Sample.derived_of_not_isWallet hs)

end DailyLottery
