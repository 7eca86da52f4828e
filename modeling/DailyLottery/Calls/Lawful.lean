import DailyLottery.Calls.Effects

set_option linter.unusedSectionVars false

namespace DailyLottery

open Lib

variable {K : Type} [DecidableEq K] [Inhabited K] {rt : Runtime K} {accounts : List (AccountInfo K)}
  {w w₀ w' : World K}

/-- The kinds of changes an instruction makes. -/
def Instruction.kinds : Instruction K → List Kind
  | .initializeConfig .. => [.create, .write, .log .config]
  | .createLottery => [.create, .write, .log .lottery]
  | .buyTickets .. => [.create, .transfer, .write, .log .purchase]
  | .attestUploaded _ => [.write, .log .attestation, .log .phase]
  | .attestReveal .. => [.create, .write, .log .attestation, .log .reveals]
  | .uploadReveals _ => [.create, .write, .log .reveals]
  | .finalizeWinners => [.create, .write, .log .winners, .log .reveals]
  | .settlePayoutBatch .. => [.move, .write, .log .payout]
  | .finalizeNoAttesters => [.write, .log .settlement]
  | .claimRefund => [.move, .write, .log .refund]
  | .closeParticipant | .closeRefundVault => [.move, .log .closing]
  | .updateServiceCharge _ => [.write, .log .config]
  | .beginRevealNow .. => [.write, .log .phase, .log .reveals]

namespace Runtime.Derived

variable {ai : AccountInfo K} {s : Seeds K} {u : Unit}

theorem of_key (h : assertPdaKey rt ai s = .ok u) : rt.Derived ai.key :=
  ⟨s, assertPdaKey_eq_ok.mp h⟩

theorem of_owned (h : assertPdaOwned rt w ai s = .ok u) : rt.Derived ai.key :=
  ⟨s, (assertPdaOwned_eq_ok.mp h).1⟩

end Runtime.Derived

theorem Initialize.acts (price bps cap : ℕ) :
    Returns (Acts rt accounts [.create, .write, .log .config] w)
    (process rt w accounts price bps cap) := by
  have h₀ : Acts rt accounts [.create, .write, .log .config] w w := .refl w
  unfold process
  split
  · iterate 4 refine .step fun _ _ ↦ ?_
    refine .step fun _ hc ↦ .ite (fun _ ↦ ?_) fun _ ↦ .pure h₀
    have hc := Runtime.Derived.of_key hc
    refine .bind (h₀.createAccount (by simp) (by simp) (by simp) hc _) fun w₁ _ h₁ ↦ ?_
    refine .bind (h₁.writeAccountData (by simp) (by simp) hc _) fun w₂ _ h₂ ↦ ?_
    exact .pure (h₂.emit (by simp))
  · exact .error _

theorem UpdateServiceCharge.acts (bps : ℕ) :
    Returns (Acts rt accounts [.write, .log .config] w) (process rt w accounts bps) := by
  have h₀ : Acts rt accounts [.write, .log .config] w w := .refl w
  unfold process
  refine .step fun _ _ ↦ ?_
  split
  · refine .step fun _ hc ↦ ?_
    iterate 4 refine .step fun _ _ ↦ ?_
    refine .bind (h₀.writeAccountData (by simp) (by simp) (.of_owned hc) _) fun w₁ _ h₁ ↦ ?_
    exact .pure (h₁.emit (by simp))
  · exact .error _

theorem CreateLottery.acts :
    Returns (Acts rt accounts [.create, .write, .log .lottery] w) (process rt w accounts) := by
  have hcreate {w₁ : World K} (h₁ : Acts rt accounts [.create, .write, .log .lottery] w w₁)
      {payer new : AccountInfo K} (hp : payer ∈ accounts) (hn : new ∈ accounts)
      (hs : rt.Derived new.key) (space : ℕ) :
    Returns (Acts rt accounts [.create, .write, .log .lottery] w)
        (createIfForeign rt w₁ payer new space) := by
    unfold createIfForeign
    exact .ite (fun _ ↦ h₁.createAccount (by simp) hp hn hs _) fun _ ↦ .ok h₁
  unfold process
  split
  · refine .step fun _ hc ↦ ?_
    iterate 8 refine .step fun _ _ ↦ ?_
    refine .step fun _ hl ↦ .step fun _ hv ↦ ?_
    have hl := Runtime.Derived.of_key hl
    have hv := Runtime.Derived.of_key hv
    refine .bind (hcreate (.refl w) (by simp) (by simp) hl _) fun w₁ _ h₁ ↦ ?_
    refine .bind (hcreate h₁ (by simp) (by simp) hv _) fun w₂ _ h₂ ↦ ?_
    refine .step fun _ _ ↦ ?_
    refine .bind (h₂.writeAccountData (by simp) (by simp) hl _) fun w₃ _ h₃ ↦ ?_
    refine .bind (h₃.writeAccountData (by simp) (by simp) hv _) fun w₄ _ h₄ ↦ ?_
    refine .bind (h₄.writeAccountData (by simp) (by simp) (.of_owned hc) _) fun w₅ _ h₅ ↦ ?_
    exact .pure (h₅.emit (by simp))
  · exact .error _

theorem BeginRevealPhase.acts (a u : ℕ) :
    Returns (Acts rt accounts [.write, .log .phase, .log .reveals] w)
    (process rt w accounts a u) := by
  have h₀ : Acts rt accounts [.write, .log .phase, .log .reveals] w w := .refl w
  unfold process
  refine .step fun _ _ ↦ ?_
  split
  · iterate 4 refine .step fun _ _ ↦ ?_
    refine .step fun _ hl ↦ ?_
    iterate 4 refine .step fun _ _ ↦ ?_
    have hl : rt.Derived _ := ⟨_, (requireKeyMatch_eq_ok.mp hl).symm⟩
    refine .bind (h₀.writeAccountData (by simp) (by simp) hl _) fun w₁ _ h₁ ↦ ?_
    exact .pure ((h₁.ite_emit (by simp) _).emit (by simp))
  · exact .error _

namespace BuyTickets

theorem loadOrCreateParticipant_acts {kinds : List Kind} (h : Acts rt accounts kinds w₀ w)
    (hk : .create ∈ kinds) {l : Lottery K} {lotteryAi participantAi buyerAi : AccountInfo K}
    (hp : participantAi ∈ accounts) (hs : rt.Derived participantAi.key) (hb : buyerAi ∈ accounts)
    (proof : Option Bytes32) :
    Returns (fun x ↦ Acts rt accounts kinds w₀ x.1)
      (loadOrCreateParticipant rt w l lotteryAi participantAi buyerAi proof) := by
  unfold loadOrCreateParticipant
  refine .ite (fun _ ↦ ?_) fun _ ↦ ?_
  · iterate 3 refine .step fun _ _ ↦ ?_
    exact .pure h
  · refine .step fun _ _ ↦ .bind (h.createAccount hk hb hp hs _) fun w₁ _ h₁ ↦ ?_
    iterate 2 refine .step fun _ _ ↦ ?_
    exact .pure h₁

theorem acts (hash : Option Bytes32) (count : ℕ) :
    Returns (Acts rt accounts [.create, .transfer, .write, .log .purchase] w)
      (process rt w accounts hash count) := by
  have h₀ : Acts rt accounts [.create, .transfer, .write, .log .purchase] w w := .refl w
  unfold process
  split
  · iterate 11 refine .step fun _ _ ↦ ?_
    refine .step fun _ hl ↦ ?_
    iterate 5 refine .step fun _ _ ↦ ?_
    refine .step fun _ hp ↦ .step fun _ _ ↦ ?_
    have hp := Runtime.Derived.of_key hp
    refine .bind (loadOrCreateParticipant_acts h₀ (by simp) (by simp) hp (by simp) _)
      fun x _ h₁ ↦ ?_
    refine .step fun _ _ ↦ .bind (h₁.systemTransfer (by simp) (by simp) (by simp) _)
      fun w₂ _ h₂ ↦ ?_
    refine .step fun _ _ ↦ .bind (h₂.writeAccountData (by simp) (by simp) hp _) fun w₃ _ h₃ ↦ ?_
    refine .bind (h₃.writeAccountData (by simp) (by simp) (.of_owned hl) _) fun w₄ _ h₄ ↦ ?_
    exact .pure (h₄.emit (by simp))
  · exact .error _

end BuyTickets

theorem AttestUploaded.acts (pre : List (K × Bytes)) (vote : ℕ) :
    Returns (Acts rt accounts [.write, .log .attestation, .log .phase] w)
    (process rt w pre accounts vote) := by
  have h₀ : Acts rt accounts [.write, .log .attestation, .log .phase] w w := .refl w
  unfold process
  split
  · iterate 8 refine .step fun _ _ ↦ ?_
    refine .step fun _ hl ↦ .step fun _ hp ↦ ?_
    iterate 10 refine .step fun _ _ ↦ ?_
    refine .bind (h₀.writeAccountData (by simp) (by simp) (.of_owned hp) _) fun w₁ _ h₁ ↦ ?_
    refine .bind (h₁.writeAccountData (by simp) (by simp) (.of_owned hl) _) fun w₂ _ h₂ ↦ ?_
    exact .pure ((h₂.emit (by simp)).ite_emit (by simp) _)
  · exact .error _

namespace AttestReveal

theorem loadOrCreateTally_acts {kinds : List Kind} (h : Acts rt accounts kinds w₀ w)
    (hk : .create ∈ kinds) {l : Lottery K} {maxWinners : ℕ}
    {walletAi tallyAi lotteryAi : AccountInfo K}
    (hw : walletAi ∈ accounts) (ht : tallyAi ∈ accounts) (hs : rt.Derived tallyAi.key) :
    Returns (fun x ↦ Acts rt accounts kinds w₀ x.1)
      (loadOrCreateTally rt w l maxWinners walletAi tallyAi lotteryAi) := by
  unfold loadOrCreateTally
  refine .ite (fun _ ↦ ?_) fun _ ↦ ?_
  · refine .bind (h.createAccount hk hw ht hs _) fun w₁ _ h₁ ↦ ?_
    exact .pure h₁
  · iterate 2 refine .step fun _ _ ↦ ?_
    exact .pure h

theorem acts (vote : ℕ) (plaintext : Bytes) :
    Returns (Acts rt accounts [.create, .write, .log .attestation, .log .reveals] w)
    (process rt w accounts vote plaintext) := by
  have h₀ : Acts rt accounts [.create, .write, .log .attestation, .log .reveals] w w := .refl w
  unfold process
  split
  · iterate 11 refine .step fun _ _ ↦ ?_
    refine .step fun _ hl ↦ .step fun _ _ ↦ .step fun _ hp ↦ ?_
    iterate 10 refine .step fun _ _ ↦ ?_
    refine .step fun _ ht ↦ ?_
    have ht := Runtime.Derived.of_key ht
    refine .bind (loadOrCreateTally_acts h₀ (by simp) (by simp) (by simp) ht) fun x _ h₁ ↦ ?_
    iterate 2 refine .step fun _ _ ↦ ?_
    refine .bind (h₁.writeAccountData (by simp) (by simp) (.of_owned hp) _) fun w₂ _ h₂ ↦ ?_
    refine .bind (h₂.writeAccountData (by simp) (by simp) (.of_owned hl) _) fun w₃ _ h₃ ↦ ?_
    refine .bind (h₃.writeAccountData (by simp) (by simp) ht _) fun w₄ _ h₄ ↦ ?_
    exact .pure ((h₄.emit (by simp)).emit (by simp))
  · exact .error _

end AttestReveal

namespace UploadReveals

theorem loadOrCreateTally_acts {kinds : List Kind} (h : Acts rt accounts kinds w₀ w)
    (hk : .create ∈ kinds) (hk' : .write ∈ kinds) {l : Lottery K} {maxWinners : ℕ}
    {uploaderAi tallyAi lotteryAi : AccountInfo K} (hu : uploaderAi ∈ accounts)
    (ht : tallyAi ∈ accounts) (hs : rt.Derived tallyAi.key) :
    Returns (fun x ↦ Acts rt accounts kinds w₀ x.1)
      (loadOrCreateTally rt w l maxWinners uploaderAi tallyAi lotteryAi) := by
  unfold loadOrCreateTally
  refine .ite (fun _ ↦ ?_) fun _ ↦ ?_
  · refine .step fun _ _ ↦ .bind (h.createAccount hk hu ht hs _) fun w₁ _ h₁ ↦ ?_
    refine .bind (h₁.writeAccountData hk' ht hs _) fun w₂ _ h₂ ↦ ?_
    exact .pure h₂
  · iterate 3 refine .step fun _ _ ↦ ?_
    exact .pure h

theorem processEntries_acts {kinds : List Kind} (hk : .write ∈ kinds) {maxWinners : ℕ}
    {lotteryAi : AccountInfo K} {rest : List (AccountInfo K)} (hrest : ∀ ai ∈ rest, ai ∈ accounts)
    (entries : List (K × Bytes)) {t : VoteTally K} {digests : List Bytes32}
    (h : Acts rt accounts kinds w₀ w) :
    Returns (fun x ↦ Acts rt accounts kinds w₀ x.1)
      (processEntries rt maxWinners lotteryAi rest entries w t digests) := by
  induction entries generalizing w t digests with
  | nil => exact .ok h
  | cons entry entries ih =>
    unfold processEntries
    refine .step fun ai hai ↦ ?_
    have hmem := hrest ai (List.mem_of_find?_eq_some (okOr_eq_ok.mp hai))
    iterate 2 refine .step fun _ _ ↦ ?_
    refine .step fun _ hs ↦ ?_
    iterate 2 refine .step fun _ _ ↦ ?_
    refine .bind (h.writeAccountData hk hmem (.of_owned hs) _) fun w₁ _ h₁ ↦ ?_
    exact ih h₁

theorem acts (entries : List (K × Bytes)) :
    Returns (Acts rt accounts [.create, .write, .log .reveals] w)
    (process rt w accounts entries) := by
  have h₀ : Acts rt accounts [.create, .write, .log .reveals] w w := .refl w
  unfold process
  split
  · iterate 9 refine .step fun _ _ ↦ ?_
    refine .step fun _ hl ↦ ?_
    iterate 2 refine .step fun _ _ ↦ ?_
    refine .step fun _ ht ↦ ?_
    have ht := Runtime.Derived.of_key ht
    refine .bind (loadOrCreateTally_acts (h₀.ite_emit (by simp) _) (by simp) (by simp) (by simp)
      (by simp) ht) fun x _ h₁ ↦ ?_
    refine .step fun _ _ ↦ ?_
    refine .bind (processEntries_acts (by simp) (fun ai hai ↦ by simp [hai]) _ h₁) fun y _ h₂ ↦ ?_
    refine .step fun _ _ ↦ ?_
    refine .bind ((h₂.ite_emit (by simp) _).writeAccountData (by simp) (by simp) ht _)
      fun w₃ _ h₃ ↦ ?_
    exact (h₃.emit (by simp)).writeAccountData (by simp) (by simp) (.of_owned hl) _
  · exact .error _

end UploadReveals

namespace FinalizeWinners

variable {kinds : List Kind} {lotteryAi payerAi rootAi pageAi : AccountInfo K} {l : Lottery K}
  {root : FinalizationLedger K} {now : ℤ}

theorem loadOrCreateRoot_acts (h : Acts rt accounts kinds w₀ w) (hk : .create ∈ kinds)
    (hp : payerAi ∈ accounts) (hr : rootAi ∈ accounts) :
    Returns (fun x ↦ Acts rt accounts kinds w₀ x.1 ∧ rt.Derived rootAi.key)
      (loadOrCreateRoot rt w lotteryAi payerAi rootAi l now) := by
  unfold loadOrCreateRoot
  refine .step fun _ hs ↦ .ite (fun _ ↦ ?_) fun _ ↦ ?_
  · refine .bind (h.createAccount hk hp hr (.of_key hs) _) fun w₁ _ h₁ ↦ ?_
    exact .pure ⟨h₁, .of_key hs⟩
  · iterate 3 refine .step fun _ _ ↦ ?_
    exact .pure ⟨h, .of_key hs⟩

theorem readValidParticipant_derived {ai : AccountInfo K} {p : Participant K}
    (h : readValidParticipant rt w lotteryAi ai = .ok p) : rt.Derived ai.key := by
  simp only [readValidParticipant, bind_eq_ok, rejectIf_eq_ok, exists_const] at h
  obtain ⟨_, -, -, _, hs, -⟩ := h
  exact .of_owned hs

theorem participantLoop_acts (hk : .write ∈ kinds) {participantAccounts : List (AccountInfo K)}
    {body : FinalizationLedger K → Participant K →
      Result (FinalizationLedger K × Option (Participant K))}
    (hmem : ∀ ai ∈ participantAccounts, ai ∈ accounts) (h : Acts rt accounts kinds w₀ w) :
    Returns (fun x ↦ Acts rt accounts kinds w₀ x.1)
      (participantLoop rt body lotteryAi participantAccounts w root) := by
  induction participantAccounts generalizing w root with
  | nil => exact .ok h
  | cons ai rest ih =>
    have hrest := fun ai hai ↦ hmem ai (List.mem_cons_of_mem _ hai)
    have hwrite (hs : rt.Derived ai.key) (updated : Option (Participant K)) :
        Returns (Acts rt accounts kinds w₀) (writeUpdated rt w ai updated) := by
      cases updated with
      | none => exact .ok h
      | some p => exact h.writeAccountData hk (hmem ai List.mem_cons_self) hs p
    unfold participantLoop
    refine .step fun _ _ ↦ .step fun _ hread ↦ .step fun _ _ ↦ ?_
    exact .bind (hwrite (readValidParticipant_derived hread) _) fun w₁ _ h₁ ↦ ih hrest h₁

theorem loadOrCreateWinnerPage_acts {generation i : ℕ} (h : Acts rt accounts kinds w₀ w)
    (hk : .create ∈ kinds) (hp : payerAi ∈ accounts) (hpage : pageAi ∈ accounts) :
    Returns (fun x ↦ Acts rt accounts kinds w₀ x.1)
      (loadOrCreateWinnerPage rt w lotteryAi payerAi pageAi generation i) := by
  unfold loadOrCreateWinnerPage
  refine .step fun _ hs ↦ .ite (fun _ ↦ ?_) fun _ ↦ ?_
  · refine .bind (h.createAccount hk hp hpage (.of_key hs) _) fun w₁ _ h₁ ↦ ?_
    exact .pure h₁
  · iterate 3 refine .step fun _ _ ↦ ?_
    exact .pure h

/-- The entry is put behind the header that was just written. -/
theorem appendWinner_acts {page : WinnerPage K} {winner : SelectedWinner K}
    (h : Acts rt accounts kinds w₀ w) (hk : .write ∈ kinds) (hpage : pageAi ∈ accounts)
    (hs : rt.Derived pageAi.key) :
    Returns (Acts rt accounts kinds w₀) (appendWinner rt w pageAi page winner) := by
  unfold appendWinner
  refine .step fun _ _ ↦ .bind (h.writeAccountData hk hpage hs _) fun w₁ hw₁ h₁ ↦ ?_
  obtain ⟨-, hwr, howner, rfl⟩ := writeAccountData_eq_ok.mp hw₁
  refine .pure (h₁.act hk (.write hpage hs hwr ?_ ?_ (by simp)))
  · simp [World.setData, howner]
  · simp [World.setData, AccountType.wrap]

theorem finishRound_acts (h : Acts rt accounts kinds w₀ w) (hc : .create ∈ kinds)
    (hk : .write ∈ kinds) (hl : .log .winners ∈ kinds) (hp : payerAi ∈ accounts)
    (hpage : pageAi ∈ accounts)
    (hs : rt.Derived pageAi.key) :
    Returns (fun x ↦ Acts rt accounts kinds w₀ x.1)
      (finishRound rt w lotteryAi payerAi pageAi l root now) := by
  unfold finishRound
  refine .step fun _ _ ↦ .bind (loadOrCreateWinnerPage_acts h hc hp hpage) fun x _ h₁ ↦ ?_
  refine .bind (appendWinner_acts h₁ hk hpage hs) fun w₂ _ h₂ ↦ ?_
  iterate 2 refine .step fun _ _ ↦ ?_
  refine .pure ?_
  dsimp only
  split
  · exact ((h₂.emit (by exact hl)).emit (by exact hl)).emit (by exact hl)
  · exact h₂.emit (by exact hl)

theorem processAggregationChunk_acts {c : Config K} {participantAccounts : List (AccountInfo K)}
    (h : Acts rt accounts kinds w₀ w) (hk : .write ∈ kinds)
    (hmem : ∀ ai ∈ participantAccounts, ai ∈ accounts) :
    Returns (fun x ↦ Acts rt accounts kinds w₀ x.1)
      (processAggregationChunk rt w lotteryAi c l root participantAccounts) := by
  unfold processAggregationChunk
  refine .bind (participantLoop_acts hk hmem h) fun x _ h₁ ↦ ?_
  refine .step fun _ _ ↦ .ite (fun _ ↦ .step fun _ _ ↦ ?_) fun _ ↦ ?_
  · exact .pure h₁
  · exact .pure h₁

theorem processSelectionChunk_acts {participantAccounts : List (AccountInfo K)}
    (h : Acts rt accounts kinds w₀ w) (hc : .create ∈ kinds) (hk : .write ∈ kinds)
    (hl : .log .winners ∈ kinds) (hp : payerAi ∈ accounts) (hpage : pageAi ∈ accounts)
    (hs : rt.Derived pageAi.key) (hmem : ∀ ai ∈ participantAccounts, ai ∈ accounts) :
    Returns (fun x ↦ Acts rt accounts kinds w₀ x.1)
      (processSelectionChunk rt w lotteryAi payerAi pageAi l root participantAccounts now) := by
  unfold processSelectionChunk
  refine .bind (participantLoop_acts hk hmem h) fun x _ h₁ ↦ ?_
  refine .step fun _ _ ↦ .ite (fun _ ↦ ?_) fun _ ↦ ?_
  · exact finishRound_acts h₁ hc hk hl hp hpage hs
  · exact .pure h₁

theorem storeChunk_acts (h : Acts rt accounts kinds w₀ w) (hk : .write ∈ kinds)
    (hlot : lotteryAi ∈ accounts) (hs : rt.Derived lotteryAi.key) (hr : rootAi ∈ accounts)
    (hs' : rt.Derived rootAi.key) :
    Returns (Acts rt accounts kinds w₀) (storeChunk rt w lotteryAi rootAi l root) := by
  unfold storeChunk
  refine .bind (h.writeAccountData hk hr hs' _) fun w₁ _ h₁ ↦ ?_
  exact h₁.writeAccountData hk hlot hs _

theorem processChunk_acts {c : Config K} {participantAccounts : List (AccountInfo K)}
    (h : Acts rt accounts [.create, .write, .log .winners, .log .reveals] w₀ w)
    (hlot : lotteryAi ∈ accounts)
    (hs : rt.Derived lotteryAi.key)
    (hp : payerAi ∈ accounts) (hr : rootAi ∈ accounts) (hpage : pageAi ∈ accounts)
    (hmem : ∀ ai ∈ participantAccounts, ai ∈ accounts) :
    Returns (Acts rt accounts [.create, .write, .log .winners, .log .reveals] w₀)
      (processChunk rt w lotteryAi payerAi rootAi pageAi c l participantAccounts) := by
  unfold processChunk
  refine .step fun _ _ ↦ .bind (loadOrCreateRoot_acts h (by simp) hp hr) fun x _ hx ↦ ?_
  obtain ⟨h₁, hs'⟩ := hx
  refine .step fun _ hpda ↦ ?_
  dsimp only
  split
  · refine .bind (processAggregationChunk_acts h₁ (by simp) hmem) fun y _ h₂ ↦ ?_
    exact storeChunk_acts (h₂.emit (by simp [chunkEvent])) (by simp) hlot hs hr hs'
  · refine .bind (processSelectionChunk_acts h₁ (by simp) (by simp) (by simp) hp hpage
      (.of_key hpda) hmem) fun y _ h₂ ↦ ?_
    exact storeChunk_acts (h₂.emit (by simp [chunkEvent])) (by simp) hlot hs hr hs'
  · exact .pure h₁
  · exact .error _

theorem acts : Returns (Acts rt accounts [.create, .write, .log .winners, .log .reveals] w)
    (process rt w accounts) := by
  have h₀ : Acts rt accounts [.create, .write, .log .winners, .log .reveals] w w := .refl w
  unfold process
  split
  · iterate 11 refine .step fun _ _ ↦ ?_
    refine .step fun _ hl ↦ .step fun _ _ ↦ .step fun _ _ ↦ ?_
    refine .ite (fun _ ↦ .pure h₀) fun _ ↦ ?_
    iterate 2 refine .step fun _ _ ↦ ?_
    refine .ite (fun _ ↦ ?_) fun _ ↦ .step fun _ _ ↦ ?_
    · unfold processMissingReveals
      iterate 2 refine .step fun _ _ ↦ ?_
      refine .bind (h₀.writeAccountData (by simp) (by simp) (.of_owned hl) _) fun w₁ _ h₁ ↦ ?_
      exact .pure (h₁.emit (by simp))
    · exact processChunk_acts h₀ (by simp) (.of_owned hl) (by simp) (by simp) (by simp)
        fun ai hai ↦ by simp [hai]
  · exact .error _

end FinalizeWinners

namespace SettlePayoutBatch

variable {kinds : List Kind} {lotteryAi vaultAi authorityAi pageAi : AccountInfo K} {l : Lottery K}
  {page : WinnerPage K}

theorem payLoop_acts (h : Acts rt accounts kinds w₀ w) (hm : .move ∈ kinds) (hk : .write ∈ kinds)
    (hl : .log .payout ∈ kinds) {pageIndex expectedAmount batchIndex : ℕ} (hv : vaultAi ∈ accounts)
    (hd : rt.Derived vaultAi.key) (howner : (w₀.accounts vaultAi.key).owner = rt.programId)
    (hpage : pageAi ∈ accounts) (hs : rt.Derived pageAi.key) (hwr : pageAi.isWritable = true)
    (hown : (w₀.accounts pageAi.key).owner = rt.programId)
    (hne : (w₀.accounts pageAi.key).data ≠ .empty) (batch : List (WinnerProof K × AccountInfo K))
    (hbatch : ∀ x ∈ batch, x.2 ∈ accounts) :
    Returns (fun x ↦ Acts rt accounts kinds w₀ x.1)
      (payLoop lotteryAi vaultAi pageAi page pageIndex expectedAmount batchIndex batch w l) := by
  induction batch generalizing w l with
  | nil => exact .ok h
  | cons entry batch ih =>
    have hrest := fun x hx ↦ hbatch x (List.mem_cons_of_mem _ hx)
    unfold payLoop
    refine .step fun _ _ ↦ .ite (fun _ ↦ ih h hrest) fun _ ↦ ?_
    have hpay : Returns (fun x ↦ Acts rt accounts kinds w₀ x.1)
        (payEntry w l lotteryAi vaultAi pageAi page entry.2 batchIndex entry.1) := by
      unfold payEntry
      refine .step fun _ _ ↦ ?_
      refine .bind (h.movePositive hm hv (hbatch _ List.mem_cons_self) hd howner _) fun w₁ _ h₁ ↦ ?_
      refine .step fun data _ ↦ .step fun _ _ ↦ ?_
      have hlaw := h₁.lawful
      have h₂ := h₁.act hk (.write (d := .winnerPage page data) hpage hs hwr (hlaw.owned hown)
        (hlaw.present hne) (by simp))
      exact .pure (h₂.emit (by exact hl))
    exact .bind hpay fun x _ h₁ ↦ ih h₁ hrest

theorem closeVault_acts (h : Acts rt accounts kinds w₀ w) (hm : .move ∈ kinds)
    (hl : .log .payout ∈ kinds)
    (hv : vaultAi ∈ accounts) (ha : authorityAi ∈ accounts)
    (hd : rt.Derived vaultAi.key) (howner : (w₀.accounts vaultAi.key).owner = rt.programId) :
    Returns (fun x ↦ Acts rt accounts kinds w₀ x.1)
    (closeVault w l lotteryAi vaultAi authorityAi) := by
  unfold closeVault
  refine .step fun _ _ ↦ ?_
  refine .bind (h.movePositive hm hv ha hd howner _) fun w₁ _ h₁ ↦ ?_
  refine .bind (h₁.movePositive hm hv ha hd howner _) fun w₂ _ h₂ ↦ ?_
  refine .bind (h₂.moveLamports hm hv ha hd howner _) fun w₃ _ h₃ ↦ ?_
  refine .step fun _ _ ↦ ?_
  exact .pure ((h₃.emit (by exact hl)).ite_emit (by exact hl) _)

theorem processBatch_acts (hm : .move ∈ kinds) (hk : .write ∈ kinds) (hl : .log .payout ∈ kinds)
    {recipients : List (AccountInfo K)} {batchIndex : ℕ}
    {winners : List (WinnerProof K)} (hlot : lotteryAi ∈ accounts)
    (hs : rt.Derived lotteryAi.key) (hv : vaultAi ∈ accounts) (hd : rt.Derived vaultAi.key)
    (ha : authorityAi ∈ accounts) (hpage : pageAi ∈ accounts)
    (hrec : ∀ ai ∈ recipients, ai ∈ accounts)
    (howner : (w.accounts vaultAi.key).owner = rt.programId) :
    Returns (Acts rt accounts kinds w)
      (processBatch rt w l lotteryAi vaultAi authorityAi pageAi recipients batchIndex winners) := by
  have h₀ : Acts rt accounts kinds w w := .refl w
  unfold processBatch
  iterate 2 refine .step fun _ _ ↦ ?_
  refine .step fun _ hpda ↦ .step fun _ hwr ↦ .step fun page hread ↦ ?_
  iterate 2 refine .step fun _ _ ↦ ?_
  have hbatch : ∀ x ∈ winners.zip recipients, x.2 ∈ accounts := fun x hx ↦
    hrec _ (List.of_mem_zip hx).2
  refine .bind (payLoop_acts h₀ hm hk hl hv hd howner hpage (.of_owned hpda)
    (requireWritable_eq_ok.mp hwr) (assertPdaOwned_eq_ok.mp hpda).2
      (readAccountData_ne_empty hread) _ hbatch) fun x _ h₁ ↦ ?_
  have hclose : Returns (fun x ↦ Acts rt accounts kinds w x.1)
      (completeIfPaid x.1 x.2.incrementSettlementBatch lotteryAi vaultAi authorityAi) := by
    unfold completeIfPaid
    exact .ite (fun _ ↦ closeVault_acts h₁ hm hl hv ha hd howner) fun _ ↦ .ok h₁
  exact .bind hclose fun y _ h₂ ↦ h₂.writeAccountData hk hlot hs _

theorem acts (id batch : ℕ) (winners : List (WinnerProof K)) :
    Returns (Acts rt accounts [.move, .write, .log .payout] w)
    (process rt w accounts id batch winners) := by
  have h₀ : Acts rt accounts [.move, .write, .log .payout] w w := .refl w
  unfold process
  split
  · iterate 8 refine .step fun _ _ ↦ ?_
    refine .step fun _ hl ↦ .step fun _ hpda ↦ ?_
    iterate 2 refine .step fun _ _ ↦ ?_
    refine .ite (fun _ ↦ .pure h₀) fun _ ↦ .step fun _ _ ↦ ?_
    exact processBatch_acts (by simp) (by simp) (by simp) (by simp) (.of_owned hl) (by simp)
      (.of_owned hpda) (by simp) (by simp) (fun ai hai ↦ by simp [hai])
      (assertPdaOwned_eq_ok.mp hpda).2
  · exact .error _

end SettlePayoutBatch

theorem FinalizeNoAttesters.acts :
    Returns (Acts rt accounts [.write, .log .settlement] w) (process rt w accounts) := by
  have h₀ : Acts rt accounts [.write, .log .settlement] w w := .refl w
  unfold process
  split
  · iterate 6 refine .step fun _ _ ↦ ?_
    refine .step fun _ hl ↦ ?_
    iterate 3 refine .step fun _ _ ↦ ?_
    refine .ite (fun _ ↦ .pure h₀) fun _ ↦ ?_
    iterate 2 refine .step fun _ _ ↦ ?_
    refine .bind (h₀.writeAccountData (by simp) (by simp) (.of_owned hl) _) fun w₁ _ h₁ ↦ ?_
    exact .pure ((h₁.emit (by simp)).emit (by simp))
  · exact .error _

theorem ClaimRefund.acts :
    Returns (Acts rt accounts [.move, .write, .log .refund] w) (process rt w accounts) := by
  have h₀ : Acts rt accounts [.move, .write, .log .refund] w w := .refl w
  unfold process
  split
  · iterate 10 refine .step fun _ _ ↦ ?_
    refine .step fun _ hl ↦ .step fun _ _ ↦ .step fun _ hpda ↦ .step fun _ _ ↦ .step fun _ hp ↦ ?_
    iterate 5 refine .step fun _ _ ↦ ?_
    refine .bind (h₀.moveLamports (by simp) (by simp) (by simp) (.of_owned hpda)
      (assertPdaOwned_eq_ok.mp hpda).2 _) fun w₁ _ h₁ ↦ ?_
    refine .step fun _ _ ↦ ?_
    refine .bind (h₁.writeAccountData (by simp) (by simp) (.of_owned hp) _) fun w₂ _ h₂ ↦ ?_
    refine .bind (h₂.writeAccountData (by simp) (by simp) (.of_owned hl) _) fun w₃ _ h₃ ↦ ?_
    exact .pure (h₃.emit (by simp))
  · exact .error _

theorem CloseParticipant.acts :
    Returns (Acts rt accounts [.move, .log .closing] w) (process rt w accounts) := by
  have h₀ : Acts rt accounts [.move, .log .closing] w w := .refl w
  unfold process
  split
  · iterate 9 refine .step fun _ _ ↦ ?_
    refine .step fun _ hpda ↦ ?_
    iterate 3 refine .step fun _ _ ↦ ?_
    refine .bind (h₀.moveLamports (by simp) (by simp) (by simp) (.of_owned hpda)
      (assertPdaOwned_eq_ok.mp hpda).2 _) fun w₁ _ h₁ ↦ ?_
    exact .pure (h₁.emit (by simp))
  · exact .error _

theorem CloseRefundVault.acts :
    Returns (Acts rt accounts [.move, .log .closing] w) (process rt w accounts) := by
  have h₀ : Acts rt accounts [.move, .log .closing] w w := .refl w
  unfold process
  split
  · iterate 8 refine .step fun _ _ ↦ ?_
    refine .step fun _ hpda ↦ ?_
    iterate 5 refine .step fun _ _ ↦ ?_
    refine .bind (h₀.moveLamports (by simp) (by simp) (by simp) (.of_owned hpda)
      (assertPdaOwned_eq_ok.mp hpda).2 _) fun w₁ _ h₁ ↦ ?_
    exact .pure (h₁.emit (by simp))
  · exact .error _

/-- Every instruction is a series of changes of its kinds. -/
theorem processInstruction_acts (pre : List (K × Bytes)) (ix : Instruction K) :
    Returns (Acts rt accounts ix.kinds w) (processInstruction rt w pre ix accounts) := by
  cases ix with
  | initializeConfig price bps cap => exact Initialize.acts price bps cap
  | createLottery => exact CreateLottery.acts
  | buyTickets hash count => exact BuyTickets.acts hash count
  | attestUploaded vote => exact AttestUploaded.acts pre vote
  | attestReveal vote plaintext => exact AttestReveal.acts vote plaintext
  | uploadReveals entries => exact UploadReveals.acts entries
  | finalizeWinners => exact FinalizeWinners.acts
  | settlePayoutBatch id batch winners => exact SettlePayoutBatch.acts id batch winners
  | finalizeNoAttesters => exact FinalizeNoAttesters.acts
  | claimRefund => exact ClaimRefund.acts
  | closeParticipant => exact CloseParticipant.acts
  | closeRefundVault => exact CloseRefundVault.acts
  | updateServiceCharge bps => exact UpdateServiceCharge.acts bps
  | beginRevealNow a u => exact BeginRevealPhase.acts a u

/-- What an instruction does to the ledger it is run on, whatever that holds. -/
theorem instruction_lawful {pre : List (K × Bytes)} {ix : Instruction K}
    (h : processInstruction rt w pre ix accounts = .ok w') :
    Lawful rt accounts ix.kinds w w' :=
  (processInstruction_acts pre ix w' h).lawful

/-- The first purchase of wallet 20: the wallet pays, and the vault receives. -/
theorem instruction_lawful_sample : ∃ (w w' : World Sample.Key) (ix : Instruction Sample.Key)
    (accounts : List (AccountInfo Sample.Key)), Sample.buy 1 20 1 = .instruction [] ix accounts ∧
      (w'.accounts (.wallet 20)).lamports < (w.accounts (.wallet 20)).lamports ∧
      (w.accounts (.vault (Sample.lotteryKey 1))).lamports <
        (w'.accounts (.vault (Sample.lotteryKey 1))).lamports ∧
      Lawful Sample.rt accounts ix.kinds w w' := by
  obtain ⟨w, ws, -, -, hp⟩ := Sample.run_from [Sample.configure 1000 500 10, Sample.create 1]
    (fun w ↦ (exec Sample.rt Sample.Key.isWallet w (Sample.buy 1 20 1)).any fun w' ↦
      decide ((w'.accounts (.wallet 20)).lamports < (w.accounts (.wallet 20)).lamports ∧
        (w.accounts (.vault (Sample.lotteryKey 1))).lamports <
          (w'.accounts (.vault (Sample.lotteryKey 1))).lamports)) (by decide +kernel)
  obtain ⟨w', hs, hlt⟩ := Sample.step_ok hp
  obtain ⟨hpays, hreceives⟩ := of_decide_eq_true hlt
  generalize ha : Sample.buy 1 20 1 = a at hs
  cases hs with
  | instruction hsig hok =>
    cases ha
    exact ⟨w, w', _, _, rfl, hpays, hreceives, instruction_lawful hok⟩
  | tick | deposit | outside | reap => simp [Sample.buy] at ha

variable (rt) in
/-- What may take lamports from `k`: for an address of the program an instruction that pays out, for
any other one that creates or buys with its signature, or something outside the program. -/
def Action.MayDebit (k : K) : Action K → Prop
  | .instruction _ ix accounts =>
    .move ∈ ix.kinds ∧ rt.Derived k ∨
      (.create ∈ ix.kinds ∨ .transfer ∈ ix.kinds) ∧ rt.Foreign k ∧
        ∃ ai ∈ accounts, ai.key = k ∧ ai.isSigner = true
  | .outside key _ => key = k ∧ rt.Foreign k
  | .tick _ | .deposit .. | .reap _ => False

theorem Step.debit {a : Action K} {k : K} (hs : Step rt w a w')
    (hlt : (w'.accounts k).lamports < (w.accounts k).lamports) : a.MayDebit rt k := by
  cases hs with
  | @instruction _ pre ix accounts hsig hok =>
    rcases (processInstruction_acts pre ix w' hok).lawful.debit k hlt with
      ⟨hm, -, hd⟩ | ⟨hc, ⟨ai, hai, hk, hsigned⟩, -, -⟩
    · exact .inl ⟨hm, hd⟩
    · exact .inr ⟨hc, fun s ↦ hk ▸ hsig ai hai hsigned s, ai, hai, hk, hsigned⟩
  | tick => exact absurd hlt (lt_irrefl _)
  | deposit key n =>
    by_cases hk : k = key
    · subst hk
      simp [World.setLamports] at hlt
    · simp [World.setLamports, World.accounts_setAccount_of_ne _ _ hk] at hlt
  | @outside key account hforeign =>
    by_cases hk : k = key
    · subst hk
      exact ⟨rfl, hforeign⟩
    · simp [World.accounts_setAccount_of_ne _ _ hk] at hlt
  | @reap key hz =>
    by_cases hk : k = key
    · subst hk
      omega
    · simp [World.accounts_setAccount_of_ne _ _ hk] at hlt

/-- Nobody loses lamports without a say in it. -/
theorem debited_only_by {acts : List (Action K)} {k : K} (hp : (system rt).Path w acts w')
    (hlt : (w'.accounts k).lamports < (w.accounts k).lamports) : ∃ a ∈ acts, a.MayDebit rt k := by
  induction hp with
  | nil => exact absurd hlt (lt_irrefl _)
  | @cons w w₁ w' a acts hs _ ih =>
    by_cases hstep : (w₁.accounts k).lamports < (w.accounts k).lamports
    · exact ⟨a, List.mem_cons_self, Step.debit hs hstep⟩
    · obtain ⟨b, hb, hmay⟩ := ih (by omega)
      exact ⟨b, List.mem_cons_of_mem _ hb, hmay⟩

theorem debited_only_by_sample : ∃ w' : World Sample.Key,
    (w'.accounts (.wallet 20)).lamports < 10 ^ 12 ∧
      ∃ a ∈ [Sample.configure 1000 500 10, Sample.create 1, Sample.buy 1 20 1],
        a.MayDebit Sample.rt (.wallet 20) := by
  have hok : (execAll Sample.rt Sample.Key.isWallet
      [Sample.configure 1000 500 10, Sample.create 1, Sample.buy 1 20 1] Sample.genesis).any
      (fun w ↦ (w.accounts (.wallet 20)).lamports < 10 ^ 12) = true := by decide +kernel
  obtain ⟨w', hw, hlt⟩ := (Option.any_eq_true _ _).mp hok
  have hlt : (w'.accounts (.wallet 20)).lamports < 10 ^ 12 := by simpa using hlt
  exact ⟨w', hlt, debited_only_by (execAll_path Sample.foreign_of_isWallet hw) hlt⟩

/-- All accounts an action can reach lie in `s`, and nothing outside the program happens there. -/
def Action.Within (s : Finset K) : Action K → Prop
  | .instruction _ _ accounts => ∀ ai ∈ accounts, ai.key ∈ s
  | .outside key _ => key ∉ s
  | .tick _ | .deposit .. | .reap _ => True

/-- What a plain transfer brings in. -/
def Action.brings (s : Finset K) : Action K → ℕ
  | .deposit key n => if key ∈ s then n else 0
  | _ => 0

theorem Step.total {a : Action K} {s : Finset K} (hs : Step rt w a w') (ha : a.Within s) :
    ∑ k ∈ s, (w'.accounts k).lamports = (∑ k ∈ s, (w.accounts k).lamports) + a.brings s := by
  have hother {key : K} (hk : key ∉ s) (b : Account K) :
      ∑ k ∈ s, ((w.setAccount key b).accounts k).lamports = ∑ k ∈ s, (w.accounts k).lamports := by
    refine Finset.sum_congr rfl fun k hks ↦ ?_
    rw [World.accounts_setAccount_of_ne _ _ (ne_of_mem_of_not_mem hks hk)]
  cases hs with
  | @instruction _ pre ix accounts _ hok =>
    exact (processInstruction_acts pre ix w' hok).lawful.total s ha
  | tick => rfl
  | deposit key n =>
    by_cases hk : key ∈ s
    · have := total_setAccount (w := w) hk
        { w.accounts key with lamports := (w.accounts key).lamports + n }
      simp only [World.setLamports, Action.brings, if_pos hk] at this ⊢
      omega
    · simp only [World.setLamports, Action.brings, if_neg hk, hother hk, Nat.add_zero]
  | outside account => exact hother ha account
  | @reap key hz =>
    by_cases hk : key ∈ s
    · have := total_setAccount (w := w) hk .unused
      simp only [Account.unused, Action.brings, hz] at this ⊢
      omega
    · exact hother hk .unused

/-- The program makes no lamports and loses none. -/
theorem lamports_conserved {acts : List (Action K)} {s : Finset K} (hp : (system rt).Path w acts w')
    (hall : ∀ a ∈ acts, a.Within s) :
    ∑ k ∈ s, (w'.accounts k).lamports =
      (∑ k ∈ s, (w.accounts k).lamports) + (acts.map (Action.brings s)).sum := by
  induction hp with
  | nil => simp
  | @cons w w₁ w' a acts hs _ ih =>
    have hrest := ih fun b hb ↦ hall b (List.mem_cons_of_mem _ hb)
    have hstep := Step.total hs (hall a List.mem_cons_self)
    rw [List.map_cons, List.sum_cons]
    omega

theorem lamports_conserved_sample : ∃ (w' : World Sample.Key) (s : Finset Sample.Key),
    Sample.participantKey 1 20 ∈ s ∧ ∑ k ∈ s, (w'.accounts k).lamports =
      (∑ k ∈ s, (Sample.genesis.accounts k).lamports) + 7 := by
  have hok : (execAll Sample.rt Sample.Key.isWallet [Sample.configure 1000 500 10, Sample.create 1,
      Sample.buy 1 20 1, .deposit
        (.vault (Sample.lotteryKey 1)) 7] Sample.genesis).isSome = true := by
    decide +kernel
  obtain ⟨w', hw⟩ := Option.isSome_iff_exists.mp hok
  have htotal := lamports_conserved (s := {.config, Sample.authority, default, Sample.lotteryKey 1,
    .vault (Sample.lotteryKey 1), Sample.participantKey 1 20, .wallet 20})
    (execAll_path Sample.foreign_of_isWallet hw) (by
      simp [Action.Within, Sample.configure, Sample.create, Sample.buy, Sample.signer,
        Sample.writable])
  refine ⟨w', _, ?_, htotal.trans ?_⟩
  · simp
  · simp [Action.brings, Sample.configure, Sample.create, Sample.buy]

end DailyLottery
