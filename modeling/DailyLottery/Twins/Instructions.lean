import DailyLottery.Twins.Alike

set_option linter.unusedSectionVars false

namespace DailyLottery

open Lib

variable {K : Type} [DecidableEq K] [Inhabited K] {rt : Runtime K} {N : K → Prop} {w w' : World K}
  {accounts : List (AccountInfo K)}

variable (N) in
def Named (accounts : List (AccountInfo K)) (places : List ℕ) : Prop :=
  ∀ i ∈ places, ∀ ai, accounts[i]? = some ai → N ai.key

namespace BuyTickets

theorem loadOrCreateParticipant_alike {l : Lottery K}
    {lotteryAi participantAi buyerAi : AccountInfo K} {proof : Option Bytes32}
    (h : Alike rt N w w') (hp : N participantAi.key) (hb : N buyerAi.key) :
    Lockstep (AlikeWith rt N)
      (loadOrCreateParticipant rt w l lotteryAi participantAi buyerAi proof)
      (loadOrCreateParticipant rt w' l lotteryAi participantAi buyerAi proof) := by
  unfold loadOrCreateParticipant
  simp only [h.dataIsEmpty hp, h.readAccountData _ hp]
  refine .ite (fun _ ↦ ?_) fun _ ↦ ?_
  · iterate 3 refine .same fun _ _ ↦ ?_
    exact .pure ⟨h, rfl⟩
  · refine .same fun _ _ ↦ .bind (h.createAccount hb hp _) fun w₁ w₁' _ h₁ ↦ ?_
    iterate 2 refine .same fun _ _ ↦ ?_
    exact .pure ⟨h₁, rfl⟩

theorem process_alike (h : Alike rt N w w') (hN : Named N accounts [1, 2, 3, 4])
    (hash : Option Bytes32)
    (n : ℕ) : Lockstep (Alike rt N) (process rt w accounts hash n)
    (process rt w' accounts hash n) := by
  unfold process
  split
  · next configAi lotteryAi vaultAi participantAi buyerAi _ _ =>
    simp only [Named, List.mem_cons, List.not_mem_nil, or_false, forall_eq_or_imp, forall_eq,
      List.getElem?_cons_succ, List.getElem?_cons_zero, Option.some.injEq, forall_eq'] at hN
    obtain ⟨hl, hv, hp, hb⟩ := hN
    simp only [h.assertConfigOwned, h.readAccountData _ hl, h.readAccountData _ hv,
      h.assertPdaOwned hl, h.assertPdaOwned hv, h.clock]
    refine .same fun _ _ ↦ .same fun _ hck ↦ ?_
    iterate 6 refine .same fun _ _ ↦ ?_
    refine .bind (h.readConfig (assertPdaOwned_eq_ok.mp hck).1.symm) fun _ _ _ _ ↦ ?_
    iterate 10 refine .same fun _ _ ↦ ?_
    refine .bind (loadOrCreateParticipant_alike h hp hb) fun x x' _ hx ↦ ?_
    obtain ⟨h₁, hx⟩ := hx
    simp only [hx]
    refine .same fun p _ ↦ .bind (h₁.systemTransfer hb hv _) fun w₂ w₂' _ h₂ ↦ ?_
    refine .same fun l _ ↦ .bind (h₂.writeAccountData hp _) fun w₃ w₃' _ h₃ ↦ ?_
    refine .bind (h₃.writeAccountData hl _) fun w₄ w₄' _ h₄ ↦ ?_
    exact .pure (h₄.emit _ _)
  · exact .error _

end BuyTickets

namespace BeginRevealPhase

theorem process_alike (h : Alike rt N w w') (hN : Named N accounts [1]) (att upl : ℕ) :
    Lockstep (Alike rt N) (process rt w accounts att upl) (process rt w' accounts att upl) := by
  unfold process
  refine .same fun _ _ ↦ ?_
  split
  · next configAi lotteryAi authorityAi _ =>
    simp only [Named, List.mem_cons, List.not_mem_nil, or_false, forall_eq,
      List.getElem?_cons_succ, List.getElem?_cons_zero, Option.some.injEq, forall_eq'] at hN
    have hl := hN
    simp only [h.assertConfigOwned, h.readAccountData _ hl, h.clock]
    refine .same fun _ hck ↦ .same fun _ _ ↦ ?_
    refine .bind (h.readConfig (assertPdaOwned_eq_ok.mp hck).1.symm) fun c c' _ hc ↦ ?_
    simp only [hc.authority, hc.uploadWindowSecs]
    iterate 6 refine .same fun _ _ ↦ ?_
    refine .bind (h.writeAccountData hl _) fun w₁ w₁' _ h₁ ↦ ?_
    exact .pure ((h₁.ite_emit _ _ _).emit _ _)
  · exact .error _

end BeginRevealPhase

namespace AttestUploaded

theorem process_alike (h : Alike rt N w w') (hN : Named N accounts [1, 2]) (pre : List (K × Bytes))
    (vote : ℕ) :
    Lockstep (Alike rt N) (process rt w pre accounts vote) (process rt w' pre accounts vote) := by
  unfold process
  split
  · next configAi lotteryAi participantAi walletAi _ _ =>
    simp only [Named, List.mem_cons, List.not_mem_nil, or_false, forall_eq_or_imp, forall_eq,
      List.getElem?_cons_succ, List.getElem?_cons_zero, Option.some.injEq, forall_eq'] at hN
    obtain ⟨hl, hp⟩ := hN
    simp only [h.assertConfigOwned, h.readAccountData _ hl, h.readAccountData _ hp,
      h.assertPdaOwned hl, h.assertPdaOwned hp, h.clock]
    refine .same fun _ hck ↦ ?_
    iterate 4 refine .same fun _ _ ↦ ?_
    refine .bind (h.readConfig (assertPdaOwned_eq_ok.mp hck).1.symm) fun c c' _ hc ↦ ?_
    simp only [hc.authority, hc.effectiveMaxWinners]
    iterate 14 refine .same fun _ _ ↦ ?_
    refine .bind (h.writeAccountData hp _) fun w₁ w₁' _ h₁ ↦ ?_
    refine .bind (h₁.writeAccountData hl _) fun w₂ w₂' _ h₂ ↦ ?_
    exact .pure ((h₂.emit _ _).ite_emit _ _ _)
  · exact .error _

end AttestUploaded

theorem loadVoteTally_alike {tallyAi lotteryAi : AccountInfo K} (h : Alike rt N w w')
    (ht : N tallyAi.key) :
    loadVoteTally rt w' tallyAi lotteryAi = loadVoteTally rt w tallyAi lotteryAi := by
  simp only [loadVoteTally, h.assertPdaOwned ht, h.readAccountData _ ht]

namespace AttestReveal

theorem loadOrCreateTally_alike {l : Lottery K} {maxWinners : ℕ}
    {walletAi tallyAi lotteryAi : AccountInfo K} (h : Alike rt N w w') (hw : N walletAi.key)
    (ht : N tallyAi.key) :
    Lockstep (AlikeWith rt N) (loadOrCreateTally rt w l maxWinners walletAi tallyAi lotteryAi)
      (loadOrCreateTally rt w' l maxWinners walletAi tallyAi lotteryAi) := by
  unfold loadOrCreateTally
  simp only [h.dataIsEmpty ht, loadVoteTally_alike h ht]
  refine .ite (fun _ ↦ ?_) fun _ ↦ ?_
  · refine .bind (h.createAccount hw ht _) fun w₁ w₁' _ h₁ ↦ ?_
    exact .pure ⟨h₁, rfl⟩
  · iterate 2 refine .same fun _ _ ↦ ?_
    exact .pure ⟨h, rfl⟩

theorem process_alike (h : Alike rt N w w') (hN : Named N accounts [1, 2, 3, 4]) (vote : ℕ)
    (plaintext : Bytes) :
    Lockstep (Alike rt N) (process rt w accounts vote plaintext)
      (process rt w' accounts vote plaintext) := by
  unfold process
  split
  · next configAi lotteryAi participantAi walletAi tallyAi _ _ =>
    simp only [Named, List.mem_cons, List.not_mem_nil, or_false, forall_eq_or_imp, forall_eq,
      List.getElem?_cons_succ, List.getElem?_cons_zero, Option.some.injEq, forall_eq'] at hN
    obtain ⟨hl, hp, hw, ht⟩ := hN
    simp only [h.assertConfigOwned, h.readAccountData _ hl, h.readAccountData _ hp,
      h.assertPdaOwned hl, h.assertPdaOwned hp, h.clock]
    refine .same fun _ hck ↦ ?_
    iterate 7 refine .same fun _ _ ↦ ?_
    refine .bind (h.readConfig (assertPdaOwned_eq_ok.mp hck).1.symm) fun c c' _ hc ↦ ?_
    simp only [hc.effectiveMaxWinners]
    iterate 16 refine .same fun _ _ ↦ ?_
    refine .bind (loadOrCreateTally_alike h hw ht) fun x x' _ hx ↦ ?_
    obtain ⟨h₁, hx⟩ := hx
    simp only [hx]
    iterate 2 refine .same fun _ _ ↦ ?_
    refine .bind (h₁.writeAccountData hp _) fun w₂ w₂' _ h₂ ↦ ?_
    refine .bind (h₂.writeAccountData hl _) fun w₃ w₃' _ h₃ ↦ ?_
    refine .bind (h₃.writeAccountData ht _) fun w₄ w₄' _ h₄ ↦ ?_
    exact .pure ((h₄.emit _ _).emit _ _)
  · exact .error _

end AttestReveal

namespace UploadReveals

theorem loadOrCreateTally_alike {l : Lottery K} {maxWinners : ℕ}
    {uploaderAi tallyAi lotteryAi : AccountInfo K} (h : Alike rt N w w') (hu : N uploaderAi.key)
    (ht : N tallyAi.key) :
    Lockstep (AlikeWith rt N) (loadOrCreateTally rt w l maxWinners uploaderAi tallyAi lotteryAi)
      (loadOrCreateTally rt w' l maxWinners uploaderAi tallyAi lotteryAi) := by
  unfold loadOrCreateTally
  simp only [h.dataIsEmpty ht, loadVoteTally_alike h ht]
  refine .ite (fun _ ↦ ?_) fun _ ↦ ?_
  · refine .same fun _ _ ↦ .bind (h.createAccount hu ht _) fun w₁ w₁' _ h₁ ↦ ?_
    refine .bind (h₁.writeAccountData ht _) fun w₂ w₂' _ h₂ ↦ ?_
    exact .pure ⟨h₂, rfl⟩
  · iterate 3 refine .same fun _ _ ↦ ?_
    exact .pure ⟨h, rfl⟩

theorem processEntries_alike {maxWinners : ℕ} {lotteryAi : AccountInfo K}
    {rest : List (AccountInfo K)} {entries : List (K × Bytes)}
    (hN : ∀ ai ∈ rest, ai.key ∈ entries.map Prod.fst → N ai.key) {t : VoteTally K}
    {digests : List Bytes32} (h : Alike rt N w w') :
    Lockstep (AlikeWith rt N)
      (processEntries rt maxWinners lotteryAi rest entries w t digests)
      (processEntries rt maxWinners lotteryAi rest entries w' t digests) := by
  induction entries generalizing w w' t digests with
  | nil => exact .ok ⟨h, rfl⟩
  | cons entry entries ih =>
    unfold processEntries
    refine .same fun ai hai ↦ ?_
    have hfound := okOr_eq_ok.mp hai
    have hkey : ai.key = entry.1 := by simpa using List.find?_some hfound
    have hk : N ai.key := hN ai (List.mem_of_find?_eq_some hfound)
      (List.mem_map.mpr ⟨entry, List.mem_cons_self, hkey.symm⟩)
    simp only [h.readAccountData _ hk, h.assertPdaOwned hk]
    iterate 5 refine .same fun _ _ ↦ ?_
    refine .bind (h.writeAccountData hk _) fun w₁ w₁' _ h₁ ↦ ?_
    exact ih (fun ai hai hmem ↦ hN ai hai (List.mem_cons_of_mem _ hmem)) h₁

theorem process_alike (h : Alike rt N w w') (hN : Named N accounts [1, 2, 4])
    {entries : List (K × Bytes)}
    (hrest : ∀ ai ∈ accounts.drop 5, ai.key ∈ entries.map Prod.fst → N ai.key) :
    Lockstep (Alike rt N) (process rt w accounts entries) (process rt w' accounts entries) := by
  unfold process
  split
  · next configAi lotteryAi uploaderAi _ tallyAi rest =>
    simp only [Named, List.mem_cons, List.not_mem_nil, or_false, forall_eq_or_imp, forall_eq,
      List.getElem?_cons_succ, List.getElem?_cons_zero, Option.some.injEq, forall_eq'] at hN
    obtain ⟨hl, hu, ht⟩ := hN
    have hrest (ai : AccountInfo K) (hai : ai ∈ rest)
        (hmem : ai.key ∈ (provided rt entries).map Prod.fst) : N ai.key := by
      exact hrest ai hai (((List.mergeSort_perm _ _).map Prod.fst).mem_iff.mp hmem)
    simp only [h.assertConfigOwned, h.readAccountData _ hl, h.assertPdaOwned hl, h.clock,
      h.validateAccountDiscriminator _ hl]
    refine .same fun _ hck ↦ ?_
    have hck : configAi.key = rt.configKey := (assertPdaOwned_eq_ok.mp hck).1.symm
    simp only [h.validateConfigDiscriminator hck]
    iterate 6 refine .same fun _ _ ↦ ?_
    refine .bind (h.readConfig hck) fun c c' _ hc ↦ ?_
    simp only [hc.authority, hc.effectiveMaxWinners]
    iterate 5 refine .same fun _ _ ↦ ?_
    refine .bind (loadOrCreateTally_alike (h.ite_emit _ _ _) hu ht) fun x x' _ hx ↦ ?_
    obtain ⟨h₁, hx⟩ := hx
    simp only [hx]
    refine .same fun _ _ ↦ .bind (processEntries_alike hrest h₁) fun y y' _ hy ↦ ?_
    obtain ⟨h₂, hy⟩ := hy
    simp only [hy]
    refine .same fun _ _ ↦ .bind ((h₂.ite_emit _ _ _).writeAccountData ht _) fun w₃ w₃' _ h₃ ↦ ?_
    exact (h₃.emit _ _).writeAccountData hl _
  · exact .error _

end UploadReveals

namespace FinalizeWinners

theorem loadOrCreateRoot_alike {l : Lottery K} {now : ℤ} {lotteryAi payerAi rootAi : AccountInfo K}
    (h : Alike rt N w w') (hp : N payerAi.key) (hr : N rootAi.key) :
    Lockstep (AlikeWith rt N) (loadOrCreateRoot rt w lotteryAi payerAi rootAi l now)
      (loadOrCreateRoot rt w' lotteryAi payerAi rootAi l now) := by
  unfold loadOrCreateRoot
  simp only [h.dataIsEmpty hr, h.assertPdaOwned hr, h.readAccountData _ hr]
  refine .same fun _ _ ↦ .ite (fun _ ↦ ?_) fun _ ↦ ?_
  · refine .bind (h.createAccount hp hr _) fun w₁ w₁' _ h₁ ↦ ?_
    exact .pure ⟨h₁, rfl⟩
  · iterate 3 refine .same fun _ _ ↦ ?_
    exact .pure ⟨h, rfl⟩

theorem writeUpdated_alike {ai : AccountInfo K} (h : Alike rt N w w') (hk : N ai.key)
    (updated : Option (Participant K)) :
    Lockstep (Alike rt N) (writeUpdated rt w ai updated) (writeUpdated rt w' ai updated) := by
  cases updated with
  | none => exact .ok h
  | some p => exact h.writeAccountData hk p

theorem participantLoop_alike {lotteryAi : AccountInfo K} {root : FinalizationLedger K}
    {body : FinalizationLedger K → Participant K →
      Result (FinalizationLedger K × Option (Participant K))}
    (h : Alike rt N w w') (hN : ∀ ai ∈ accounts, N ai.key) :
    Lockstep (AlikeWith rt N) (participantLoop rt body lotteryAi accounts w root)
      (participantLoop rt body lotteryAi accounts w' root) := by
  induction accounts generalizing w w' root with
  | nil => exact .ok ⟨h, rfl⟩
  | cons ai accounts ih =>
    have hk : N ai.key := hN ai List.mem_cons_self
    unfold participantLoop readValidParticipant
    simp only [h.readAccountData _ hk, h.assertPdaOwned hk]
    iterate 3 refine .same fun _ _ ↦ ?_
    refine .bind (writeUpdated_alike h hk _) fun w₁ w₁' _ h₁ ↦ ?_
    exact ih h₁ fun ai hai ↦ hN ai (List.mem_cons_of_mem _ hai)

theorem processAggregationChunk_alike {c c' : Config K} {l : Lottery K} {lotteryAi : AccountInfo K}
    {root : FinalizationLedger K} (h : Alike rt N w w') (hc : c.Charged c')
    (hN : ∀ ai ∈ accounts, N ai.key) :
    Lockstep (AlikeWith rt N) (processAggregationChunk rt w lotteryAi c l root accounts)
      (processAggregationChunk rt w' lotteryAi c' l root accounts) := by
  unfold processAggregationChunk
  refine .bind (participantLoop_alike h hN) fun x x' _ hx ↦ ?_
  obtain ⟨h₁, hx⟩ := hx
  have hfinish (root : FinalizationLedger K) :
      finishAggregation rt c' l root = finishAggregation rt c l root := by
    simp only [finishAggregation, hc.effectiveMaxWinners]
  simp only [hx, hfinish]
  refine .same fun _ _ ↦ .ite (fun _ ↦ .same fun _ _ ↦ ?_) fun _ ↦ ?_
  · exact .pure ⟨h₁, rfl⟩
  · exact .pure ⟨h₁, rfl⟩

theorem loadOrCreateWinnerPage_alike {generation i : ℕ} {lotteryAi payerAi pageAi : AccountInfo K}
    (h : Alike rt N w w') (hp : N payerAi.key) (hk : N pageAi.key) :
    Lockstep (AlikeWith rt N) (loadOrCreateWinnerPage rt w lotteryAi payerAi pageAi generation i)
      (loadOrCreateWinnerPage rt w' lotteryAi payerAi pageAi generation i) := by
  unfold loadOrCreateWinnerPage
  simp only [h.dataIsEmpty hk, h.assertPdaOwned hk, h.readAccountData _ hk]
  refine .same fun _ _ ↦ .ite (fun _ ↦ ?_) fun _ ↦ ?_
  · refine .bind (h.createAccount hp hk _) fun w₁ w₁' _ h₁ ↦ ?_
    exact .pure ⟨h₁, rfl⟩
  · iterate 3 refine .same fun _ _ ↦ ?_
    exact .pure ⟨h, rfl⟩

theorem appendWinner_alike {pageAi : AccountInfo K} {page : WinnerPage K}
    {winner : SelectedWinner K}
    (h : Alike rt N w w') (hk : N pageAi.key) :
    Lockstep (Alike rt N) (appendWinner rt w pageAi page winner)
      (appendWinner rt w' pageAi page winner) := by
  unfold appendWinner
  rw [h.named _ hk]
  refine .same fun _ _ ↦ .bind (h.writeAccountData hk _) fun w₁ w₁' _ h₁ ↦ ?_
  exact .pure (h₁.setData hk _)

theorem finishRound_alike {l : Lottery K} {root : FinalizationLedger K} {now : ℤ}
    {lotteryAi payerAi pageAi : AccountInfo K} (h : Alike rt N w w') (hp : N payerAi.key)
    (hk : N pageAi.key) :
    Lockstep (AlikeWith rt N) (finishRound rt w lotteryAi payerAi pageAi l root now)
      (finishRound rt w' lotteryAi payerAi pageAi l root now) := by
  unfold finishRound
  refine .same fun _ _ ↦ .bind (loadOrCreateWinnerPage_alike h hp hk) fun x x' _ hx ↦ ?_
  obtain ⟨h₁, hx⟩ := hx
  simp only [hx]
  refine .bind (appendWinner_alike h₁ hk) fun w₂ w₂' _ h₂ ↦ ?_
  iterate 2 refine .same fun _ _ ↦ ?_
  refine .pure ⟨?_, rfl⟩
  dsimp only
  split
  · exact ((h₂.emit _ _).emit _ _).emit _ _
  · exact h₂.emit _ _

theorem processSelectionChunk_alike {l : Lottery K} {root : FinalizationLedger K} {now : ℤ}
    {lotteryAi payerAi pageAi : AccountInfo K} (h : Alike rt N w w') (hp : N payerAi.key)
    (hN : ∀ ai ∈ accounts, N ai.key)
    (hk : ∀ w₁ root₁, participantLoop rt selectParticipant lotteryAi accounts w root =
      .ok (w₁, root₁) → root₁.roundProcessedCount = root₁.requiredCount → N pageAi.key) :
    Lockstep (AlikeWith rt N)
      (processSelectionChunk rt w lotteryAi payerAi pageAi l root accounts now)
      (processSelectionChunk rt w' lotteryAi payerAi pageAi l root accounts now) := by
  unfold processSelectionChunk
  refine .bind (participantLoop_alike h hN) fun x x' hloop hx ↦ ?_
  obtain ⟨h₁, hx⟩ := hx
  simp only [hx]
  refine .same fun _ _ ↦ .ite (fun hfull ↦ ?_) fun _ ↦ ?_
  · exact finishRound_alike h₁ hp (hk _ _ hloop hfull)
  · exact .pure ⟨h₁, rfl⟩

theorem storeChunk_alike {l : Lottery K} {root : FinalizationLedger K}
    {lotteryAi rootAi : AccountInfo K} (h : Alike rt N w w') (hl : N lotteryAi.key)
    (hr : N rootAi.key) :
    Lockstep (Alike rt N) (storeChunk rt w lotteryAi rootAi l root)
      (storeChunk rt w' lotteryAi rootAi l root) := by
  unfold storeChunk
  exact .bind (h.writeAccountData hr _) fun w₁ w₁' _ h₁ ↦ h₁.writeAccountData hl _

variable (rt) in
/-- The chunk ends a selection pass, so it records a winner on a page. -/
def EndsRound (w : World K) (rootAi : AccountInfo K) (count : ℕ) : Prop :=
  ∃ root, DailyLottery.readAccountData rt w (FinalizationLedger K) rootAi = .ok root ∧
    root.phase = .selecting ∧ root.roundProcessedCount + count = root.requiredCount

theorem participantLoop_count {lotteryAi : AccountInfo K} {root root' : FinalizationLedger K}
    {w₁ : World K}
    (h : participantLoop rt selectParticipant lotteryAi accounts w root = .ok (w₁, root')) :
    root'.roundProcessedCount = root.roundProcessedCount + accounts.length ∧
      root'.requiredCount = root.requiredCount := by
  induction accounts generalizing w root with
  | nil =>
    cases h
    exact ⟨rfl, rfl⟩
  | cons ai accounts ih =>
    simp only [participantLoop, bind_eq_ok] at h
    obtain ⟨-, -, p, -, ⟨root₁, updated⟩, hbody, w₁, -, h⟩ := h
    have hone : root₁.roundProcessedCount = root.roundProcessedCount + 1 ∧
        root₁.requiredCount = root.requiredCount := by
      simp only [selectParticipant, bind_eq_ok, okOr_eq_ok, checkedAdd_eq_some, rejectIf_eq_ok,
        exists_const] at hbody
      obtain ⟨-, -, -, _, ⟨-, rfl⟩, hbody⟩ := hbody
      split at hbody
      · simp only [bind_eq_ok, okOr_eq_ok] at hbody
        obtain ⟨_, -, hbody⟩ := hbody
        split at hbody
        · cases hbody
          exact ⟨rfl, rfl⟩
        · cases hbody
          exact ⟨rfl, rfl⟩
      · cases hbody
        exact ⟨rfl, rfl⟩
    obtain ⟨hcount, hrequired⟩ := ih h
    rw [hcount, hrequired, hone.1, hone.2, List.length_cons]
    exact ⟨by ring, rfl⟩

theorem processChunk_alike {c c' : Config K} {l : Lottery K}
    {lotteryAi payerAi rootAi pageAi : AccountInfo K} (h : Alike rt N w w') (hc : c.Charged c')
    (hl : N lotteryAi.key) (hp : N payerAi.key) (hr : N rootAi.key)
    (hk : EndsRound rt w rootAi accounts.length → N pageAi.key)
    (hN : ∀ w₁ root, loadOrCreateRoot rt w lotteryAi payerAi rootAi l w.clock = .ok (w₁, root) →
      root.phase ≠ .completed → ∀ ai ∈ accounts, N ai.key) :
    Lockstep (Alike rt N) (processChunk rt w lotteryAi payerAi rootAi pageAi c l accounts)
      (processChunk rt w' lotteryAi payerAi rootAi pageAi c' l accounts) := by
  unfold processChunk
  simp only [h.clock]
  refine .same fun _ _ ↦ .bind (loadOrCreateRoot_alike h hp hr) fun x x' hroot hx ↦ ?_
  obtain ⟨h₁, hx⟩ := hx
  simp only [hx]
  refine .same fun _ _ ↦ ?_
  have hN := hN x.1 x.2 hroot
  cases hph : x.2.phase with
  | aggregating =>
    have hN := hN (by simp [hph])
    refine .bind (processAggregationChunk_alike h₁ hc hN) fun y y' _ hy ↦ ?_
    obtain ⟨h₂, hy⟩ := hy
    simp only [hy]
    exact storeChunk_alike (h₂.emit _ _) hl hr
  | selecting =>
    have hN := hN (by simp [hph])
    have hends (w₁ : World K) (root₁ : FinalizationLedger K)
        (hloop : participantLoop rt selectParticipant lotteryAi accounts x.1 x.2 = .ok (w₁, root₁))
        (hfull : root₁.roundProcessedCount = root₁.requiredCount) : N pageAi.key := by
      obtain ⟨hcount, hrequired⟩ := participantLoop_count hloop
      refine hk ⟨x.2, ?_, hph, by rw [← hcount, ← hrequired, hfull]⟩
      simp only [loadOrCreateRoot, bind_eq_ok] at hroot
      obtain ⟨-, -, hroot⟩ := hroot
      split at hroot
      · simp only [bind_eq_ok, pure_eq_ok] at hroot
        obtain ⟨w₀, -, rfl⟩ := hroot
        cases hph
      · simp only [bind_eq_ok, pure_eq_ok] at hroot
        obtain ⟨-, -, root, hread, -, -, rfl⟩ := hroot
        exact hread
    refine .bind (processSelectionChunk_alike h₁ hp hN hends) fun y y' _ hy ↦ ?_
    obtain ⟨h₂, hy⟩ := hy
    simp only [hy]
    exact storeChunk_alike (h₂.emit _ _) hl hr
  | completed => exact .pure h₁
  | unknown => exact .error _

theorem processMissingReveals_alike {l : Lottery K} {lotteryAi : AccountInfo K}
    (h : Alike rt N w w') (hl : N lotteryAi.key) :
    Lockstep (Alike rt N) (processMissingReveals rt w lotteryAi l)
      (processMissingReveals rt w' lotteryAi l) := by
  unfold processMissingReveals
  simp only [h.clock]
  iterate 2 refine .same fun _ _ ↦ ?_
  refine .bind (h.writeAccountData hl _) fun w₁ w₁' _ h₁ ↦ ?_
  exact .pure (h₁.emit _ _)

/-- What a call uses of the ledger, the page and the participants it names. -/
structure ChunkUses (N : K → Prop) (rt : Runtime K) (w : World K)
    (lotteryAi payerAi rootAi pageAi : AccountInfo K)
    (l : Lottery K) (accounts : List (AccountInfo K)) : Prop where
  root : N rootAi.key
  page : EndsRound rt w rootAi accounts.length → N pageAi.key
  participants : ∀ w₁ root, loadOrCreateRoot rt w lotteryAi payerAi rootAi l w.clock = .ok
    (w₁, root) →
    root.phase ≠ .completed → ∀ ai ∈ accounts, N ai.key

variable (rt) in
/-- The call gets past the phase guards to its chunk. -/
def GetsToChunk (w : World K) (lotteryAi : AccountInfo K) (l : Lottery K) : Prop :=
  DailyLottery.readAccountData rt w (Lottery K) lotteryAi = .ok l ∧
    ¬(l.settlementComplete = true ∨ l.settled = true) ∧ l.hasMissingAttestedReveals = false

theorem process_alike (h : Alike rt N w w') (hN : Named N accounts [1, 2, 3])
    (hchunk : ∀ configAi lotteryAi vaultAi payerAi systemProgramAi rootAi pageAi rest l,
      accounts = configAi :: lotteryAi :: vaultAi :: payerAi :: systemProgramAi :: rootAi ::
        pageAi :: rest → GetsToChunk rt w lotteryAi l →
      ChunkUses N rt w lotteryAi payerAi rootAi pageAi l rest) :
    Lockstep (Alike rt N) (process rt w accounts) (process rt w' accounts) := by
  unfold process
  split
  · next configAi lotteryAi vaultAi payerAi _ rootAi pageAi accounts =>
    simp only [Named, List.mem_cons, List.not_mem_nil, or_false, forall_eq_or_imp, forall_eq,
      List.getElem?_cons_succ, List.getElem?_cons_zero, Option.some.injEq, forall_eq'] at hN
    obtain ⟨hl, hv, hp⟩ := hN
    simp only [h.assertConfigOwned, h.readAccountData _ hl, h.readAccountData _ hv,
      h.assertPdaOwned hl, h.assertPdaOwned hv, h.clock]
    refine .same fun _ hck ↦ ?_
    iterate 7 refine .same fun _ _ ↦ ?_
    refine .bind (h.readConfig (assertPdaOwned_eq_ok.mp hck).1.symm) fun c c' _ hc ↦ ?_
    refine .same fun l hread ↦ ?_
    iterate 4 refine .same fun _ _ ↦ ?_
    refine .ite (fun _ ↦ .pure h) fun hopen ↦ ?_
    iterate 2 refine .same fun _ _ ↦ ?_
    refine .ite (fun _ ↦ processMissingReveals_alike h hl) fun hmissing ↦ .same fun _ _ ↦ ?_
    have huses := hchunk _ _ _ _ _ _ _ _ l rfl ⟨hread, hopen, Bool.eq_false_iff.mpr hmissing⟩
    exact processChunk_alike h hc hl hp huses.root huses.page huses.participants
  · exact .error _

end FinalizeWinners

namespace SettlePayoutBatch

section Batch

variable {l : Lottery K} {lotteryAi vaultAi authorityAi pageAi : AccountInfo K}

theorem payEntry_alike {page : WinnerPage K} {recipientAi : AccountInfo K} {batch : ℕ}
    {winner : WinnerProof K} (h : Alike rt N w w') (hv : N vaultAi.key) (hp : N pageAi.key)
    (hr : N recipientAi.key) :
    Lockstep (AlikeWith rt N) (payEntry w l lotteryAi vaultAi pageAi page recipientAi batch winner)
      (payEntry w' l lotteryAi vaultAi pageAi page recipientAi batch winner) := by
  unfold payEntry
  refine .same fun _ _ ↦ .bind (h.movePositive hv hr _) fun w₁ w₁' _ h₁ ↦ ?_
  rw [h₁.named _ hp]
  iterate 2 refine .same fun _ _ ↦ ?_
  exact .pure ⟨(h₁.setData hp _).emit _ _, rfl⟩

theorem payLoop_alike {page : WinnerPage K} {i amount batch : ℕ}
    {entries : List (WinnerProof K × AccountInfo K)} (h : Alike rt N w w') (hv : N vaultAi.key)
    (hp : N pageAi.key) (hr : ∀ x ∈ entries, N x.2.key) :
    Lockstep (AlikeWith rt N) (payLoop lotteryAi vaultAi pageAi page i amount batch entries w l)
      (payLoop lotteryAi vaultAi pageAi page i amount batch entries w' l) := by
  induction entries generalizing w w' l with
  | nil => exact .ok ⟨h, rfl⟩
  | cons x entries ih =>
    have hrest := fun y hy ↦ hr y (List.mem_cons_of_mem _ hy)
    unfold payLoop
    rw [h.named _ hp]
    refine .same fun _ _ ↦ .ite (fun _ ↦ ih h hrest) fun _ ↦ ?_
    refine .bind (payEntry_alike h hv hp (hr x List.mem_cons_self)) fun y y' _ hy ↦ ?_
    obtain ⟨h₁, hy⟩ := hy
    simp only [hy]
    exact ih h₁ hrest

theorem closeVault_alike (h : Alike rt N w w') (hv : N vaultAi.key) (ha : N authorityAi.key) :
    Lockstep (AlikeWith rt N) (closeVault w l lotteryAi vaultAi authorityAi)
      (closeVault w' l lotteryAi vaultAi authorityAi) := by
  unfold closeVault
  refine .same fun _ _ ↦ .bind (h.movePositive hv ha _) fun w₁ w₁' _ h₁ ↦ ?_
  refine .bind (h₁.movePositive hv ha _) fun w₂ w₂' _ h₂ ↦ ?_
  rw [h₂.named _ hv]
  refine .bind (h₂.moveLamports hv ha _) fun w₃ w₃' _ h₃ ↦ .same fun _ _ ↦ ?_
  exact .pure ⟨(h₃.emit _ _).ite_emit _ _ _, rfl⟩

theorem processBatch_alike {recipients : List (AccountInfo K)} {batch : ℕ}
    {winners : List (WinnerProof K)} (h : Alike rt N w w') (hl : N lotteryAi.key)
    (hv : N vaultAi.key) (ha : N authorityAi.key) (hp : N pageAi.key)
    (hr : ∀ ai ∈ recipients, N ai.key) :
    Lockstep (Alike rt N)
      (processBatch rt w l lotteryAi vaultAi authorityAi pageAi recipients batch winners)
      (processBatch rt w' l lotteryAi vaultAi authorityAi pageAi recipients batch winners) := by
  have hzip : ∀ x ∈ winners.zip recipients, N x.2.key :=
    fun x hx ↦ hr x.2 (List.of_mem_zip hx).2
  unfold processBatch
  simp only [h.assertPdaOwned hp, h.readAccountData _ hp]
  iterate 7 refine .same fun _ _ ↦ ?_
  refine .bind (payLoop_alike h hv hp hzip) fun x x' _ hx ↦ ?_
  obtain ⟨h₁, hx⟩ := hx
  simp only [hx]
  have hcomplete : Lockstep (AlikeWith rt N)
      (completeIfPaid x.1 x.2.incrementSettlementBatch lotteryAi vaultAi authorityAi)
      (completeIfPaid x'.1 x.2.incrementSettlementBatch lotteryAi vaultAi authorityAi) := by
    unfold completeIfPaid
    exact .ite (fun _ ↦ closeVault_alike h₁ hv ha) fun _ ↦ .ok ⟨h₁, rfl⟩
  refine .bind hcomplete fun y y' _ hy ↦ ?_
  obtain ⟨h₂, hy⟩ := hy
  simp only [hy]
  exact h₂.writeAccountData hl _

end Batch

theorem process_alike (h : Alike rt N w w') (hN : Named N accounts [1, 2, 3, 5])
    (hr : ∀ ai ∈ accounts.drop 6, N ai.key) (i batch : ℕ) (winners : List (WinnerProof K)) :
    Lockstep (Alike rt N) (process rt w accounts i batch winners)
      (process rt w' accounts i batch winners) := by
  unfold process
  split
  · next configAi lotteryAi vaultAi authorityAi _ pageAi recipients =>
    simp only [Named, List.mem_cons, List.not_mem_nil, or_false, forall_eq_or_imp, forall_eq,
      List.getElem?_cons_succ, List.getElem?_cons_zero, Option.some.injEq, forall_eq'] at hN
    obtain ⟨hl, hv, ha, hp⟩ := hN
    simp only [h.assertConfigOwned, h.readAccountData _ hl, h.readAccountData _ hv,
      h.assertPdaOwned hl, h.assertPdaOwned hv]
    refine .same fun _ hck ↦ ?_
    iterate 4 refine .same fun _ _ ↦ ?_
    refine .bind (h.readConfig (assertPdaOwned_eq_ok.mp hck).1.symm) fun c c' _ hc ↦ ?_
    simp only [hc.authority]
    iterate 6 refine .same fun _ _ ↦ ?_
    refine .ite (fun _ ↦ .pure h) fun _ ↦ .same fun _ _ ↦ ?_
    exact processBatch_alike h hl hv ha hp hr
  · exact .error _

end SettlePayoutBatch

namespace FinalizeNoAttesters

theorem process_alike (h : Alike rt N w w') (hN : Named N accounts [1, 2]) :
    Lockstep (Alike rt N) (process rt w accounts) (process rt w' accounts) := by
  unfold process
  split
  · next configAi lotteryAi vaultAi authorityAi _ =>
    simp only [Named, List.mem_cons, List.not_mem_nil, or_false, forall_eq_or_imp, forall_eq,
      List.getElem?_cons_succ, List.getElem?_cons_zero, Option.some.injEq, forall_eq'] at hN
    obtain ⟨hl, hv⟩ := hN
    simp only [h.assertConfigOwned, h.readAccountData _ hl, h.assertPdaOwned hl,
      h.assertPdaOwned hv, h.clock]
    refine .same fun _ hck ↦ ?_
    iterate 3 refine .same fun _ _ ↦ ?_
    refine .bind (h.readConfig (assertPdaOwned_eq_ok.mp hck).1.symm) fun c c' _ hc ↦ ?_
    simp only [hc.authority]
    iterate 5 refine .same fun _ _ ↦ ?_
    refine .ite (fun _ ↦ .pure h) fun _ ↦ ?_
    iterate 2 refine .same fun _ _ ↦ ?_
    refine .bind (h.writeAccountData hl _) fun w₁ w₁' _ h₁ ↦ ?_
    exact .pure ((h₁.emit _ _).emit _ _)
  · exact .error _

end FinalizeNoAttesters

namespace ClaimRefund

theorem process_alike (h : Alike rt N w w') (hN : Named N accounts [1, 2, 3, 4]) :
    Lockstep (Alike rt N) (process rt w accounts) (process rt w' accounts) := by
  unfold process
  split
  · next configAi lotteryAi vaultAi participantAi walletAi _ =>
    simp only [Named, List.mem_cons, List.not_mem_nil, or_false, forall_eq_or_imp, forall_eq,
      List.getElem?_cons_succ, List.getElem?_cons_zero, Option.some.injEq, forall_eq'] at hN
    obtain ⟨hl, hv, hp, hw⟩ := hN
    simp only [h.assertConfigOwned, h.readAccountData _ hl, h.readAccountData _ hv,
      h.readAccountData _ hp, h.assertPdaOwned hl, h.assertPdaOwned hv, h.assertPdaOwned hp]
    refine .same fun _ hck ↦ ?_
    iterate 5 refine .same fun _ _ ↦ ?_
    refine .bind (h.readConfig (assertPdaOwned_eq_ok.mp hck).1.symm) fun _ _ _ _ ↦ ?_
    iterate 13 refine .same fun _ _ ↦ ?_
    refine .bind (h.moveLamports hv hw _) fun w₁ w₁' _ h₁ ↦ .same fun _ _ ↦ ?_
    refine .bind (h₁.writeAccountData hp _) fun w₂ w₂' _ h₂ ↦ ?_
    refine .bind (h₂.writeAccountData hl _) fun w₃ w₃' _ h₃ ↦ ?_
    exact .pure (h₃.emit _ _)
  · exact .error _

end ClaimRefund

namespace CloseParticipant

theorem process_alike (h : Alike rt N w w') (hN : Named N accounts [1, 2, 3]) :
    Lockstep (Alike rt N) (process rt w accounts) (process rt w' accounts) := by
  unfold process
  split
  · next configAi lotteryAi participantAi walletAi _ =>
    simp only [Named, List.mem_cons, List.not_mem_nil, or_false, forall_eq_or_imp, forall_eq,
      List.getElem?_cons_succ, List.getElem?_cons_zero, Option.some.injEq, forall_eq'] at hN
    obtain ⟨hl, hp, hw⟩ := hN
    simp only [h.assertConfigOwned, h.readAccountData _ hl, h.readAccountData _ hp,
      h.assertPdaOwned hl, h.assertPdaOwned hp, h.named _ hp]
    refine .same fun _ hck ↦ ?_
    iterate 3 refine .same fun _ _ ↦ ?_
    refine .bind (h.readConfig (assertPdaOwned_eq_ok.mp hck).1.symm) fun _ _ _ _ ↦ ?_
    iterate 8 refine .same fun _ _ ↦ ?_
    refine .bind (h.moveLamports hp hw _) fun w₁ w₁' _ h₁ ↦ ?_
    exact .pure (h₁.emit _ _)
  · exact .error _

end CloseParticipant

namespace CloseRefundVault

theorem process_alike (h : Alike rt N w w') (hN : Named N accounts [1, 2, 3]) :
    Lockstep (Alike rt N) (process rt w accounts) (process rt w' accounts) := by
  unfold process
  split
  · next configAi lotteryAi vaultAi authorityAi _ =>
    simp only [Named, List.mem_cons, List.not_mem_nil, or_false, forall_eq_or_imp, forall_eq,
      List.getElem?_cons_succ, List.getElem?_cons_zero, Option.some.injEq, forall_eq'] at hN
    obtain ⟨hl, hv, ha⟩ := hN
    simp only [h.assertConfigOwned, h.readAccountData _ hl, h.readAccountData _ hv,
      h.assertPdaOwned hl, h.assertPdaOwned hv, h.named _ hv]
    refine .same fun _ hck ↦ ?_
    iterate 2 refine .same fun _ _ ↦ ?_
    refine .bind (h.readConfig (assertPdaOwned_eq_ok.mp hck).1.symm) fun c c' _ hc ↦ ?_
    simp only [hc.authority]
    iterate 10 refine .same fun _ _ ↦ ?_
    refine .bind (h.moveLamports hv ha _) fun w₁ w₁' _ h₁ ↦ ?_
    exact .pure (h₁.emit _ _)
  · exact .error _

end CloseRefundVault

end DailyLottery
