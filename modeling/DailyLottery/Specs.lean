import DailyLottery.Round

set_option linter.unusedSectionVars false

namespace DailyLottery

open Lib

variable {K : Type} [DecidableEq K] [Inhabited K] {rt : Runtime K}

theorem Lottery.setSelectedWinners_ok {l l' : Lottery K} {n : ℕ}
    (h : l.setSelectedWinners n = .ok l') :
    l' = { l with selectedNumberOfWinners := n } ∧ n ≠ 0 ∧ 1 < l.participantsCount ∧
      n ≤ l.participantsCount - 1 := by
  simp only [Lottery.setSelectedWinners, bind_eq_ok, rejectIf_eq_ok, exists_const, pure_eq_ok,
    not_lt, not_le] at h
  exact ⟨h.2.2.2.symm, h.1, h.2.1, h.2.2.1⟩

theorem Lottery.beginRemediation_ok {l l' : Lottery K} {now : ℤ}
    (h : l.beginRemediation now = .ok l') :
    (l.remediationStartUnix ≠ 0 ∧ l' = l) ∨ l.remediationStartUnix = 0 ∧ l' = { l with
      remediationStartUnix := now
      remediationDeadlineUnix := now + Sizes.defaultRemediationWindowSecs } := by
  unfold Lottery.beginRemediation at h
  split at h
  · next hz =>
    simp only [bind_eq_ok, okOr_eq_ok, addI64_eq_some, pure_eq_ok] at h
    obtain ⟨_, ⟨-, rfl⟩, rfl⟩ := h
    exact .inr ⟨hz, rfl⟩
  · next hz => exact .inl ⟨hz, (pure_eq_ok.mp h).symm⟩

theorem Lottery.new_ok {l : Lottery K} {id bump bps price : ℕ}
    {config authority vault : K} {now : ℤ}
    (h : Lottery.new id config authority now vault bump bps price = .ok l) :
    l.id = id ∧ l.config = config ∧ l.vault = vault ∧ l.buyStartUnix = now ∧
      l.buyDeadlineUnix = now + 24 * 60 * 60 ∧ l.uploadStartUnix = now + 24 * 60 * 60 ∧
      l.uploadDeadlineUnix = now + 48 * 60 * 60 ∧ l.settlementStartUnix = 0 ∧ l.status = 0 ∧
      l.totalTickets = 0 ∧ l.totalFunds = 0 ∧ l.providerUploadedCount = 0 ∧
      l.pocAggregateHash = Vector.replicate 32 0 ∧ l.uploadsComplete = false ∧ l.settled = false ∧
      l.attestedCount = 0 ∧ l.participantsCount = 0 ∧ l.winnersCount = 0 ∧ l.totalPayout = 0 ∧
      l.paidWinnersBitmap = List.replicate ((Sizes.maxWinners + 7) / 8) 0 ∧
      l.settlementBatchesCompleted = 0 ∧ l.settlementComplete = false ∧
      l.remediationStartUnix = 0 ∧ l.remediationDeadlineUnix = 0 ∧ l.serviceChargeBps = bps ∧
      l.ticketPriceLamports = price := by
  simp only [Lottery.new, Lottery.calculateWindows, bind_eq_ok, okOr_eq_ok, addI64_eq_some,
    pure_eq_ok] at h
  obtain ⟨_, ⟨_, ⟨-, rfl⟩, _, ⟨-, rfl⟩, _, ⟨-, rfl⟩, rfl⟩, rfl⟩ := h
  exact ⟨rfl, rfl, rfl, rfl, rfl, rfl, rfl, rfl, rfl, rfl, rfl, rfl, rfl, rfl, rfl, rfl,
    rfl, rfl, rfl, rfl, rfl, rfl, rfl, rfl, rfl, rfl⟩

theorem Lottery.new_now_lt {l : Lottery K} {id bump bps price : ℕ} {config authority vault : K}
    {now : ℤ} (h : Lottery.new id config authority now vault bump bps price = .ok l) :
      now < 2 ^ 63 := by
  simp only [Lottery.new, Lottery.calculateWindows, bind_eq_ok, okOr_eq_ok, addI64_eq_some] at h
  obtain ⟨_, ⟨_, -, _, -, _, ⟨⟨-, hlt⟩, -⟩, -⟩, -⟩ := h
  omega

theorem Lottery.completeSettlement_ok {l l' : Lottery K} (h : l.completeSettlement = .ok l') :
    l' = { l with settlementComplete := true }.settle := by
  simp only [Lottery.completeSettlement, bind_eq_ok, rejectIf_eq_ok, exists_const, pure_eq_ok] at h
  exact h.2.symm

theorem Lottery.allWinnersPaid_of_completeSettlement {l l' : Lottery K}
    (h : l.completeSettlement = .ok l') : l.allWinnersPaid = true := by
  simp only [Lottery.completeSettlement, bind_eq_ok, rejectIf_eq_ok, exists_const, pure_eq_ok,
    Bool.not_eq_false] at h
  exact h.1

theorem Lottery.CanBuy.not_settled {l : Lottery K} {now : ℤ} {count : ℕ} (h : l.CanBuy now count) :
    l.settled = false := by
  have := h.active
  rw [Lottery.isActive, Bool.and_eq_true, Bool.not_eq_true'] at this
  exact this.2

theorem BeginRevealPhase.openWindow_ok {l l' : Lottery K} {now att upl : ℤ}
    (h : openWindow l now att upl = .ok l') : l' = { l with
      uploadStartUnix :=
        if l.uploadStartUnix = 0 ∨ now < l.uploadStartUnix then now else l.uploadStartUnix
      uploadDeadlineUnix :=
        max (max l.uploadDeadlineUnix (now + att))
          (max l.uploadDeadlineUnix (now + att) + upl) } := by
  simp only [openWindow, bind_eq_ok, okOr_eq_ok, addI64_eq_some, pure_eq_ok] at h
  obtain ⟨_, ⟨-, rfl⟩, _, ⟨-, rfl⟩, rfl⟩ := h
  rfl

theorem BeginRevealPhase.autoComplete_eq (l : Lottery K) : autoComplete rt l = { l with
    uploadsComplete := if l.participantsCount = 1 then true else l.uploadsComplete
    pocAggregateHash :=
      if l.participantsCount = 1 then aggregateHashes rt [] else l.pocAggregateHash
    selectedNumberOfWinners :=
      if l.participantsCount = 1 then 1 else l.selectedNumberOfWinners } := by
  unfold autoComplete
  split <;> rfl

theorem Participant.attest_eq {p p' p'' : Participant K} {vote : ℕ} {now : ℤ}
    (h : p.setVoteNumberOfWinners vote = .ok p') (h' : p'.attestUpload now = .ok p'') :
    p'' = p.attest vote now := by
  simp only [Participant.setVoteNumberOfWinners, Participant.attestUpload, bind_eq_ok,
    rejectIf_eq_ok, exists_const, pure_eq_ok] at h h'
  obtain ⟨-, rfl⟩ := h
  obtain ⟨-, rfl⟩ := h'
  rfl

theorem Lottery.phase_upload {l : Lottery K} {now : ℤ} (h : l.phase now = .upload) :
    l.settled = false ∧ ¬0 < l.settlementStartUnix ∧ 0 < l.uploadStartUnix ∧
      l.uploadStartUnix ≤ now ∧ now ≤ l.uploadDeadlineUnix := by
  unfold Lottery.phase at h
  split at h
  · cases h
  · next hs =>
    split at h
    · cases h
    · split at h
      · cases h
      · split at h
        · cases h
        · next hss =>
          split at h
          · next hw => exact ⟨by simpa using hs, hss, hw.1, hw.2.1, hw.2.2⟩
          · split at h <;> cases h

theorem Lottery.CanAttest.not_closable {l : Lottery K} {c : Config K} {now : ℤ}
    {p : Participant K} {vote : ℕ} (h : l.CanAttest c now p vote)
    (hcons : l.settlementComplete = true → l.settled = true) (q : Participant K) :
      ¬l.Closable q := by
  have hset := (Lottery.phase_upload h.phase).1
  rintro (⟨hs, -⟩ | ⟨hsc, -⟩)
  · simp [hset] at hs
  · simp [hset] at hcons
    simp [hcons] at hsc

namespace VoteTally

@[simp] theorem addVote_lottery (t : VoteTally K) (c n : ℕ) (at' : ℤ) :
    (t.addVote c n at').lottery = t.lottery := by
  unfold addVote
  split
  · rfl
  · split <;> rfl

@[simp] theorem addVote_maxWinners (t : VoteTally K) (c n : ℕ) (at' : ℤ) :
    (t.addVote c n at').maxWinners = t.maxWinners := by
  unfold addVote
  split
  · rfl
  · split <;> rfl

theorem addVote_totalAttested (t : VoteTally K) (n c k : ℕ) (at' : ℤ) :
    { t with totalAttested := n }.addVote c k at' =
      { t.addVote c k at' with totalAttested := n } := by
  unfold addVote
  split
  · rfl
  · split <;> rfl

@[simp] theorem addVote_processedCount (t : VoteTally K) (c n : ℕ) (at' : ℤ) :
    (t.addVote c n at').processedCount = t.processedCount := by
  unfold addVote
  split
  · rfl
  · split <;> rfl

end VoteTally

namespace AttestReveal

theorem attestParticipant_ok {p p' : Participant K} {vote : ℕ} {now : ℤ} {digest : Bytes32}
    (h : attestParticipant p vote now digest = .ok p') :
    p' = (p.attest vote now).includeVerifiedReveal digest := by
  simp only [attestParticipant, bind_eq_ok, pure_eq_ok] at h
  obtain ⟨_, h₁, _, h₂, rfl⟩ := h
  rw [Participant.attest_eq h₁ h₂]

theorem tallyParticipant_ok {t t' : VoteTally K} {l : Lottery K} {p : Participant K}
    (h : tallyParticipant t l p = .ok t') :
    t' = { ({ t with totalAttested := l.attestedCount }.addVote p.votedWinners p.ticketsBought
      p.attestedAtUnix) with processedCount := t.processedCount + 1 } := by
  simp only [tallyParticipant, bind_eq_ok, okOr_eq_ok, checkedAdd_eq_some, pure_eq_ok] at h
  obtain ⟨_, ⟨-, rfl⟩, rfl⟩ := h
  simp

theorem recordReveal_ok {l l' : Lottery K} {digest : Bytes32} (h : recordReveal l digest = .ok l') :
    l.attestedCount + 1 < 2 ^ 64 ∧ l' = { l with
      attestedCount := l.attestedCount + 1
      providerUploadedCount := saturatingAdd 64 l.providerUploadedCount 1
      pocAggregateHash := xorBytes l.pocAggregateHash digest } := by
  simp only [recordReveal, Lottery.addAttestation, bind_eq_ok, okOr_eq_ok, checkedAdd_eq_some,
    pure_eq_ok] at h
  obtain ⟨_, ⟨_, ⟨hlt, rfl⟩, rfl⟩, rfl⟩ := h
  exact ⟨hlt, rfl⟩

theorem updatePhase_eq (l : Lottery K) (now : ℤ) : updatePhase l now = { l with
    settlementStartUnix :=
      if l.allAttested = true ∧ l.settlementStartUnix = 0 then now else l.settlementStartUnix
    uploadsComplete :=
      if l.attestedCount ≤ l.providerUploadedCount ∧
          (l.allAttested = true ∨ l.uploadElapsed now = true) then true
      else l.uploadsComplete } := by
  unfold updatePhase
  by_cases h : l.allAttested = true ∧ l.settlementStartUnix = 0
  · simp only [if_pos h]
    split <;> rfl
  · simp only [if_neg h]
    split <;> rfl

theorem conclude_eq_updatePhase {l l' : Lottery K} {t : VoteTally K} {now : ℤ}
    (h : conclude l t now = .ok l') : l' = updatePhase { l with
      selectedNumberOfWinners := if 1 < l.participantsCount then
        t.selectedWinners l.participantsCount else l.selectedNumberOfWinners } now := by
  simp only [conclude, bind_eq_ok, pure_eq_ok] at h
  obtain ⟨l₁, h₁, rfl⟩ := h
  split at h₁
  · next hpc =>
    rw [(Lottery.setSelectedWinners_ok h₁).1, if_pos hpc]
  · next hpc =>
    rw [if_neg hpc, ← pure_eq_ok.mp h₁]

theorem conclude_ok {l l' : Lottery K} {t : VoteTally K} {now : ℤ} (h : conclude l t now = .ok l') :
    l' = { l with
      selectedNumberOfWinners := if 1 < l.participantsCount then
        t.selectedWinners l.participantsCount else l.selectedNumberOfWinners
      settlementStartUnix := if l.allAttested = true ∧ l.settlementStartUnix = 0 then now
        else l.settlementStartUnix
      uploadsComplete := if l.attestedCount ≤ l.providerUploadedCount ∧
        (l.allAttested = true ∨ l.uploadElapsed now = true) then true else l.uploadsComplete } := by
  rw [conclude_eq_updatePhase h, updatePhase_eq]
  rfl

end AttestReveal

namespace UploadReveals

theorem includeReveal_ok {mw : ℕ} {t t' : VoteTally K} {p p' : Participant K} {plaintext : Bytes}
    {digest : Bytes32} (h : includeReveal rt mw t p plaintext = .ok (t', p', digest)) :
    p.revealIncluded = false ∧ p.attestedUploaded = true ∧
      rt.sha256 plaintext = p.proofOfChanceHash ∧
      digest = computeRevealDigest rt p.wallet plaintext ∧
      t' = (if 0 < p.votedWinners ∧ p.votedWinners ≤ mw then
        t.addVote p.votedWinners p.ticketsBought p.attestedAtUnix else t) ∧
      p' = { p with revealScore := revealScore plaintext }.includeVerifiedReveal digest := by
  simp only [includeReveal, bind_eq_ok, rejectIf_eq_ok, exists_const, pure_eq_ok,
    Prod.mk.injEq, Bool.not_eq_true, Bool.not_eq_false, not_not, ne_eq] at h
  obtain ⟨hinc, hatt, hhash, rfl, rfl, rfl⟩ := h
  exact ⟨hinc, hatt, hhash, rfl, rfl, rfl⟩

theorem checkPhase_ok {l l' : Lottery K} {isAuthority : Bool} {now : ℤ}
    (h : checkPhase l isAuthority now = .ok l') :
    l.remediationExpired now = false ∧
      (isAuthority = true ∨ canRemediate l isAuthority now = true) ∧
      l.settled = false ∧ l.settlementComplete = false ∧ l.uploadsComplete = false ∧
      (l.uploadElapsed now = true ∨ l.allAttested = true ∨ l.settlementStartUnix ≠ 0) ∧
      l.attestedCount ≠ 0 ∧ l' = { l with
        settlementStartUnix := if l.settlementStartUnix = 0 then now else l.settlementStartUnix
        remediationStartUnix :=
          if canRemediate l isAuthority now = true ∧ l.remediationStartUnix = 0 then now
          else l.remediationStartUnix
        remediationDeadlineUnix :=
          if canRemediate l isAuthority now = true ∧ l.remediationStartUnix = 0 then
            now + Sizes.defaultRemediationWindowSecs
          else l.remediationDeadlineUnix } := by
  simp only [checkPhase, bind_eq_ok, rejectIf_eq_ok, exists_const, pure_eq_ok, not_or,
    Bool.not_eq_true, not_and_or, Bool.not_eq_false] at h
  obtain ⟨hexp, hwho, l₁, h₁, ⟨hset, hsc, huc⟩, hopen, hatt, rfl⟩ := h
  have hl₁ : l₁ = { l with
      remediationStartUnix :=
        if canRemediate l isAuthority now = true ∧ l.remediationStartUnix = 0 then now
        else l.remediationStartUnix
      remediationDeadlineUnix :=
        if canRemediate l isAuthority now = true ∧ l.remediationStartUnix = 0 then
          now + Sizes.defaultRemediationWindowSecs
        else l.remediationDeadlineUnix } := by
    split at h₁
    · next hc =>
      rcases Lottery.beginRemediation_ok h₁ with ⟨hne, -⟩ | ⟨-, rfl⟩
      · exact absurd hc.2 hne
      · rw [if_pos hc, if_pos hc]
    · next hc =>
      rw [if_neg hc, if_neg hc, ← pure_eq_ok.mp h₁]
  subst hl₁
  refine ⟨hexp, hwho, hset, hsc, huc, hopen, ?_, ?_⟩
  · simpa only [apply_ite Lottery.attestedCount, ite_self] using hatt
  · dsimp only
    split <;> rfl

theorem includeUploads_ok {l l' : Lottery K} {t : VoteTally K} {ds : List Bytes32}
    (h : includeUploads l t ds = .ok l') : 1 < l.participantsCount ∧ l' = { l with
      providerUploadedCount := saturatingAdd 64 l.providerUploadedCount ds.length
      uploadsComplete := l.uploadsComplete ||
        l.attestedCount ≤ saturatingAdd 64 l.providerUploadedCount ds.length
      pocAggregateHash := xorRevealDigests l.pocAggregateHash ds
      selectedNumberOfWinners := t.selectedWinners l.participantsCount } := by
  obtain ⟨hl, -, hpc, -⟩ := Lottery.setSelectedWinners_ok h
  exact ⟨hpc, hl⟩

end UploadReveals

namespace FinalizeWinners

theorem roundWinner_ok {root : FinalizationLedger K} {winner : SelectedWinner K}
    (h : roundWinner root = .ok winner) :
    root.pendingWinnerFound = true ∧ winner = ⟨root.pendingWinner, root.pendingWinnerTickets⟩ := by
  simp only [roundWinner, bind_eq_ok, rejectIf_eq_ok, exists_const, pure_eq_ok, not_or,
    Bool.not_eq_false] at h
  obtain ⟨_, -, ⟨-, hf⟩, rfl⟩ := h
  exact ⟨hf, rfl⟩

theorem recordWinner_ok {root root' : FinalizationLedger K} {winner : SelectedWinner K}
    (h : root.recordWinner rt winner = .ok root') :
    root.selectedCount < root.targetWinners ∧ root' = { root with
      selectedCount := root.selectedCount + 1
      selectedTicketsTotal := root.selectedTicketsTotal + winner.tickets
      winnersCommitment :=
        extendWinnersCommitment rt root.winnersCommitment root.selectedCount winner } := by
  simp only [FinalizationLedger.recordWinner, bind_eq_ok, rejectIf_eq_ok, exists_const, okOr_eq_ok,
    checkedAdd_eq_some, pure_eq_ok, not_le] at h
  obtain ⟨hlt, _, ⟨-, rfl⟩, _, ⟨-, rfl⟩, rfl⟩ := h
  exact ⟨hlt, rfl⟩

theorem append_ok {page page' : WinnerPage K} {data data' : PageData K} {winner : SelectedWinner K}
    (h : page.append data winner = .ok (page', data')) :
    page.count < winnersPerPage ∧ page' = { page with count := page.count + 1 } ∧
      data' = { data with entries := data.entries.setIfInBounds page.count winner } := by
  simp only [WinnerPage.append, bind_eq_ok, rejectIf_eq_ok, exists_const, okOr_eq_ok,
    checkedAdd_eq_some, pure_eq_ok, Prod.mk.injEq, not_le] at h
  obtain ⟨hlt, _, ⟨-, rfl⟩, rfl, rfl⟩ := h
  exact ⟨hlt, rfl, rfl⟩

theorem aggregateParticipant_ok {root root' : FinalizationLedger K} {p : Participant K}
    {updated : Option (Participant K)} (h : aggregateParticipant rt root p = .ok (root', updated)) :
    p.participantIndex = root.processedCount ∧ p.ticketsBought ≠ 0 ∧
      p.finalizationGeneration ≠ root.generation ∧
      updated = some (p.markFinalizedForGeneration root.generation) ∧
      root' = if p.revealIncluded then { root with
          processedCount := root.processedCount + 1
          eligibleCount := root.eligibleCount + 1
          totalEligibleTickets := root.totalEligibleTickets + p.ticketsBought
          participantsCommitment := extendParticipantsCommitment rt root.participantsCommitment
            p.participantIndex p.wallet p.ticketsBought p.revealDigest }
        else { root with processedCount := root.processedCount + 1 } := by
  simp only [aggregateParticipant, requireParticipantIndex, bind_eq_ok, rejectIf_eq_ok,
    exists_const,
    okOr_eq_ok, checkedAdd_eq_some, pure_eq_ok, Prod.mk.injEq, not_or, not_not, ne_eq] at h
  obtain ⟨hidx, ⟨htk, hgen⟩, _, ⟨-, rfl⟩, root₁, h₁, rfl, rfl⟩ := h
  refine ⟨hidx, htk, hgen, rfl, ?_⟩
  have hinc : (p.markFinalizedForGeneration root.generation).revealIncluded =
    p.revealIncluded := rfl
  rw [hinc] at h₁
  split at h₁
  · next hp =>
    simp only [addEligible, bind_eq_ok, okOr_eq_ok, checkedAdd_eq_some, pure_eq_ok] at h₁
    obtain ⟨_, ⟨-, rfl⟩, _, ⟨-, rfl⟩, rfl⟩ := h₁
    rw [if_pos hp]
    rfl
  · next hp =>
    rw [if_neg hp]
    exact (pure_eq_ok.mp h₁).symm

theorem selectParticipant_ok {root root' : FinalizationLedger K} {p : Participant K}
    {updated : Option (Participant K)} (h : selectParticipant root p = .ok (root', updated)) :
    p.participantIndex = root.roundProcessedCount ∧ p.finalizationGeneration = root.generation ∧
      p.ticketsBought ≠ 0 ∧
      (((p.revealIncluded && !p.selectedInGeneration root.generation) = false ∧
        root' = { root with roundProcessedCount := root.roundProcessedCount + 1 } ∧
        updated = none) ∨
      (p.revealIncluded && !p.selectedInGeneration root.generation) = true ∧
        ((root.pendingWinnerFound = false ∧ root.roundRemainingTicketsSeen ≤ root.roundDrawIndex ∧
          root.roundDrawIndex < root.roundRemainingTicketsSeen + p.ticketsBought ∧
          root' = { root with
            roundProcessedCount := root.roundProcessedCount + 1
            pendingWinner := p.wallet
            pendingWinnerTickets := p.ticketsBought
            pendingWinnerFound := true
            roundRemainingTicketsSeen := root.roundRemainingTicketsSeen + p.ticketsBought } ∧
          updated = some (p.markSelected root.generation root.currentRound)) ∨
        ¬(root.pendingWinnerFound = false ∧ root.roundRemainingTicketsSeen ≤ root.roundDrawIndex ∧
          root.roundDrawIndex < root.roundRemainingTicketsSeen + p.ticketsBought) ∧
          root' = { root with
            roundProcessedCount := root.roundProcessedCount + 1
            roundRemainingTicketsSeen := root.roundRemainingTicketsSeen + p.ticketsBought } ∧
          updated = none)) := by
  simp only [selectParticipant, requireParticipantIndex, bind_eq_ok, rejectIf_eq_ok, exists_const,
    okOr_eq_ok, checkedAdd_eq_some, not_or, not_not, ne_eq] at h
  obtain ⟨hidx, ⟨hgen, htk⟩, _, ⟨-, rfl⟩, h⟩ := h
  refine ⟨hidx, hgen, htk, ?_⟩
  split at h
  · next hc =>
    refine .inr ⟨hc, ?_⟩
    simp only [bind_eq_ok, okOr_eq_ok, checkedAdd_eq_some] at h
    obtain ⟨_, ⟨-, rfl⟩, h⟩ := h
    split at h
    · next hd =>
      simp only [pure_eq_ok, Prod.mk.injEq] at h
      obtain ⟨rfl, rfl⟩ := h
      exact .inl ⟨hd.1, hd.2.1, hd.2.2, rfl, rfl⟩
    · next hd =>
      simp only [pure_eq_ok, Prod.mk.injEq] at h
      obtain ⟨rfl, rfl⟩ := h
      exact .inr ⟨hd, rfl, rfl⟩
  · next hc =>
    simp only [pure_eq_ok, Prod.mk.injEq] at h
    obtain ⟨rfl, rfl⟩ := h
    exact .inl ⟨by simpa using hc, rfl, rfl⟩

theorem finishAggregation_ok {c : Config K} {l l' : Lottery K} {root root' : FinalizationLedger K}
    (h : finishAggregation rt c l root = .ok (l', root')) :
    ∃ target draw, target = min (min (max l.selectedNumberOfWinners 1)
        (c.effectiveMaxWinners l.participantsCount)) root.eligibleCount ∧
      root.eligibleCount ≠ 0 ∧ root.totalEligibleTickets ≠ 0 ∧
      root.selectedTicketsTotal ≤ root.totalEligibleTickets ∧
      drawIndex rt (computeSeed rt l.id root.eligibleCount root.totalEligibleTickets
        l.pocAggregateHash root.participantsCommitment) 0
        (root.totalEligibleTickets - root.selectedTicketsTotal) = .ok draw ∧
      l' = { l with selectedNumberOfWinners := target } ∧
      root' = { root with
        targetWinners := target
        seed := computeSeed rt l.id root.eligibleCount root.totalEligibleTickets
          l.pocAggregateHash root.participantsCommitment
        currentRound := 0 }.beginSelectionRound draw := by
  simp only [finishAggregation, FinalizationLedger.remainingTickets, bind_eq_ok, rejectIf_eq_ok,
    exists_const, pure_eq_ok, Prod.mk.injEq, not_or, not_lt] at h
  obtain ⟨⟨he, ht⟩, -, l₁, hl, _, ⟨hle, rfl⟩, draw, hdraw, rfl, rfl⟩ := h
  obtain rfl := (Lottery.setSelectedWinners_ok hl).1
  exact ⟨_, draw, rfl, he, ht, hle, hdraw, rfl, rfl⟩

theorem completeFinalization_ok {l l' : Lottery K} {root root' : FinalizationLedger K} {now : ℤ}
    (h : completeFinalization l root now = .ok (l', root')) :
    ∃ fee bitmap, computeServiceFee l.totalFunds l.serviceChargeBps = .ok fee ∧
      root.selectedCount ≠ 0 ∧ root.selectedCount ≤ l.totalFunds - fee ∧
      root.selectedCount ≤ Sizes.maxWinners ∧
      Lottery.clearBitmap l.paidWinnersBitmap ((root.selectedCount + 7) / 8) = .ok bitmap ∧
      l' = { l with
        winnersMerkleRoot := root.winnersCommitment
        winnersCount := root.selectedCount
        totalPayout := (l.totalFunds - fee) / root.selectedCount * root.selectedCount
        paidWinnersBitmap := bitmap
        settlementStartUnix := if l.settlementStartUnix = 0 then now else l.settlementStartUnix } ∧
      root' = root.complete now := by
  simp only [completeFinalization, settlementAmounts, Lottery.initializeSettlement, bind_eq_ok,
    rejectIf_eq_ok, exists_const, okOr_eq_ok, checkedMul_eq_some, pure_eq_ok, Prod.mk.injEq,
    Prod.exists, not_or, not_lt] at h
  obtain ⟨total, _, ⟨fee, hfee, ⟨hne, hle⟩, _, ⟨-, rfl⟩, rfl, rfl⟩, l₁, ⟨-, hmax, bitmap, hclear,
    rfl⟩, rfl, rfl⟩ := h
  refine ⟨fee, bitmap, hfee, hne, hle, hmax, hclear, ?_, rfl⟩
  by_cases hz : l.settlementStartUnix = 0 <;> simp [hz]

theorem nextRound_ok {l l' : Lottery K} {root root' : FinalizationLedger K} {now : ℤ}
    (h : nextRound rt l root now = .ok (l', root')) :
    (root.selectedCount = root.targetWinners ∧ completeFinalization l root now = .ok (l', root')) ∨
      root.selectedCount ≠ root.targetWinners ∧ l' = l ∧
        root.selectedTicketsTotal ≤ root.totalEligibleTickets ∧ ∃ draw,
        drawIndex rt root.seed (root.currentRound + 1)
          (root.totalEligibleTickets - root.selectedTicketsTotal) = .ok draw ∧
        root' = { root with currentRound := root.currentRound + 1 }.beginSelectionRound draw := by
  unfold nextRound at h
  split at h
  · next heq => exact .inl ⟨heq, h⟩
  · next hne =>
    simp only [FinalizationLedger.remainingTickets, bind_eq_ok, rejectIf_eq_ok, exists_const,
      okOr_eq_ok, checkedAdd_eq_some, pure_eq_ok, Prod.mk.injEq, not_lt] at h
    obtain ⟨_, ⟨-, rfl⟩, _, ⟨hle, rfl⟩, draw, hdraw, rfl, rfl⟩ := h
    exact .inr ⟨hne, rfl, hle, draw, hdraw, rfl⟩

end FinalizeWinners

/-- A participant but for the marks of a finalization. -/
def Participant.unmarked (p : Participant K) : Participant K :=
  { p with finalizationGeneration := 0, selectedGeneration := 0, selectedRound := 0 }

namespace Round

theorem unmarked_aggregateParticipant {root root' : FinalizationLedger K} {e : Unit}
    {p p' : Participant K}
    (h : PassVisit (FinalizeWinners.aggregateParticipant rt) root e p root' p') :
    p'.unmarked = p.unmarked := by
  obtain ⟨updated, h, rfl⟩ := h
  obtain ⟨-, -, -, rfl, -⟩ := FinalizeWinners.aggregateParticipant_ok h
  rfl

theorem unmarked_selectParticipant {root root' : FinalizationLedger K} {e : Unit}
    {p p' : Participant K} (h : PassVisit FinalizeWinners.selectParticipant root e p root' p') :
    p'.unmarked = p.unmarked := by
  obtain ⟨updated, h, rfl⟩ := h
  obtain ⟨-, -, -, ⟨-, -, rfl⟩ | ⟨-, ⟨-, -, -, -, rfl⟩ | ⟨-, -, rfl⟩⟩⟩ :=
    FinalizeWinners.selectParticipant_ok h
  all_goals rfl

end Round

theorem SettlePayoutBatch.checkEntry_ok {l : Lottery K} {page : WinnerPage K} {data : PageData K}
    {i amount : ℕ} {x : WinnerProof K} {b : Bool} (h : checkEntry l page data i amount x = .ok b) :
    x.index < l.winnersCount ∧ x.index / winnersPerPage = i ∧ x.amount = amount ∧
      (page.winner data (x.index % winnersPerPage)).map SelectedWinner.wallet = some x.recipient ∧
      page.isPaid data (x.index % winnersPerPage) = b ∧ l.isWinnerPaid x.index = b := by
  simp only [checkEntry, bind_eq_ok, rejectIf_eq_ok, exists_const, okOr_eq_ok, pure_eq_ok, not_or,
    not_not, ne_eq, not_le] at h
  obtain ⟨hlt, ⟨hi, ha⟩, stored, hs, hw, hb, rfl⟩ := h
  exact ⟨hlt, hi, ha, by rw [hs]; exact congrArg some hw, rfl, hb.symm⟩

theorem WinnerPage.winner_markPaid {page : WinnerPage K} {data data' : PageData K} {i : ℕ}
    (h : page.markPaid data i = .ok data') (j : ℕ) : page.winner data' j = page.winner data j := by
  simp only [WinnerPage.markPaid, bind_eq_ok, rejectIf_eq_ok, exists_const, pure_eq_ok] at h
  obtain ⟨-, rfl⟩ := h
  rfl

theorem Round.PayRun.lottery {page : WinnerPage K} {i amount : ℕ} {l l' : Lottery K}
    {data data' : PageData K} {winners : List (WinnerProof K)} {fresh : List ℕ}
    (h : Round.PayRun page i amount l data winners l' data' fresh) :
    ∃ bitmap, l' = { l with paidWinnersBitmap := bitmap } := by
  induction h with
  | nil l data => exact ⟨_, rfl⟩
  | skip _ _ ih => exact ih
  | pay _ _ hl _ ih =>
    simp only [Lottery.markWinnerPaid, bind_eq_ok, rejectIf_eq_ok, exists_const, pure_eq_ok] at hl
    obtain ⟨-, rfl⟩ := hl
    obtain ⟨bitmap, rfl⟩ := ih
    exact ⟨bitmap, rfl⟩

theorem Round.PayRun.winner {page : WinnerPage K} {i amount : ℕ} {l l' : Lottery K}
    {data data' : PageData K} {winners : List (WinnerProof K)} {fresh : List ℕ}
    (h : Round.PayRun page i amount l data winners l' data' fresh) (j : ℕ) :
    page.winner data' j = page.winner data j := by
  induction h with
  | nil => rfl
  | skip _ _ ih => exact ih
  | pay _ hm _ _ ih => exact ih.trans (WinnerPage.winner_markPaid hm j)

end DailyLottery
