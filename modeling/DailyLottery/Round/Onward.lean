import DailyLottery.Round.Invariant

set_option linter.unusedSectionVars false

namespace DailyLottery

open Lib

variable {K : Type} [DecidableEq K] [Inhabited K]

def Lottery.windows (l : Lottery K) : ℤ × ℤ × ℤ × ℤ :=
  (l.buyStartUnix, l.buyDeadlineUnix, l.uploadStartUnix, l.uploadDeadlineUnix)

namespace Round

variable {rt : Runtime K} {r r' r'' : Round K}

/-- What never goes back. -/
structure Onward (r r' : Round K) : Prop where
  now : r.now ≤ r'.now
  buyStart : r'.lottery.buyStartUnix = r.lottery.buyStartUnix
  buyDeadline : r'.lottery.buyDeadlineUnix = r.lottery.buyDeadlineUnix
  start : 0 < r.lottery.buyStartUnix → r'.lottery.uploadStartUnix ≤ r.lottery.uploadStartUnix
  deadline : r.lottery.uploadDeadlineUnix ≤ r'.lottery.uploadDeadlineUnix
  moved : r.lottery.attestedCount ≠ 0 →
    r'.lottery.uploadDeadlineUnix = r.lottery.uploadDeadlineUnix
  attested : r.lottery.attestedCount ≤ r'.lottery.attestedCount
  settling : r.lottery.settlementStartUnix ≠ 0 → r'.lottery.settlementStartUnix ≠ 0
  settled : r.lottery.settled = true → r'.lottery.settled = true
  ledger : r.ledger ≠ none → r'.ledger ≠ none

namespace Onward

theorem refl (r : Round K) : r.Onward r :=
  ⟨le_rfl, rfl, rfl, fun _ ↦ le_rfl, le_rfl, fun _ ↦ rfl, le_rfl, id, id, id⟩

theorem trans (h : r.Onward r') (h' : r'.Onward r'') : r.Onward r'' := by
  refine ⟨h.now.trans h'.now, h'.buyStart.trans h.buyStart, h'.buyDeadline.trans h.buyDeadline, ?_,
    h.deadline.trans h'.deadline, ?_, h.attested.trans h'.attested, h'.settling ∘ h.settling,
    h'.settled ∘ h.settled, h'.ledger ∘ h.ledger⟩
  · intro hpos
    exact (h'.start (by rw [h.buyStart]; exact hpos)).trans (h.start hpos)
  · intro hatt
    have := h.attested
    exact (h'.moved (by omega)).trans (h.moved hatt)

theorem same (hnow : r.now ≤ r'.now) (hw : r'.lottery.windows = r.lottery.windows)
    (hatt : r.lottery.attestedCount ≤ r'.lottery.attestedCount)
    (hsettling : r.lottery.settlementStartUnix ≠ 0 → r'.lottery.settlementStartUnix ≠ 0)
    (hset : r.lottery.settled = true → r'.lottery.settled = true)
    (hl : r.ledger ≠ none → r'.ledger ≠ none) : r.Onward r' := by
  simp only [Lottery.windows, Prod.mk.injEq] at hw
  obtain ⟨hbs, hbd, hus, hud⟩ := hw
  exact ⟨hnow, hbs, hbd, fun _ ↦ hus.le, hud.ge, fun _ ↦ hud, hatt, hsettling, hset, hl⟩

theorem of_step (hb : r.books.Sound) (hs : r.Step rt r') : r.Onward r' := by
  cases hs with
  | refl => exact .refl r
  | tick hle => exact .same hle rfl le_rfl id id id
  | reconfigure => exact .same le_rfl rfl le_rfl id id id
  | deposit => exact .same le_rfl rfl le_rfl id id id
  | buyFirst => exact .same le_rfl rfl le_rfl id id id
  | buyMore => exact .same le_rfl rfl le_rfl id id id
  | beginReveal _ hns _ _ _ _ _ _ _ hopen =>
    obtain rfl := BeginRevealPhase.openWindow_ok hopen
    rw [BeginRevealPhase.autoComplete_eq]
    have hstart : 0 < r.lottery.buyStartUnix → 0 < r.lottery.uploadStartUnix := hb.timely.start_pos
    refine ⟨le_rfl, rfl, rfl, fun hpos ↦ ?_, ?_, fun hatt ↦ ?_, le_rfl, id, id, id⟩ <;> dsimp only
    · have := hstart hpos
      split <;> omega
    · exact (le_max_left _ _).trans (le_max_left _ _)
    · exact absurd (hb.timely.started (.inl hatt)) hns
  | attestUploaded =>
    rw [Lottery.countAttestation_eq]
    refine .same le_rfl rfl (Nat.le_succ _) (fun hne ↦ ?_) id id
    dsimp only
    rwa [if_neg fun h ↦ hne h.2]
  | attestReveal _ _ _ _ _ _ _ hrec _ _ hconc =>
    obtain ⟨-, rfl⟩ := AttestReveal.recordReveal_ok hrec
    obtain rfl := AttestReveal.conclude_ok hconc
    refine .same le_rfl rfl (Nat.le_succ _) (fun hne ↦ ?_) id id
    dsimp only
    rwa [if_neg fun h ↦ hne h.2]
  | uploadReveals hadmit _ _ hinc =>
    obtain ⟨-, -, -, -, -, -, -, rfl⟩ := UploadReveals.checkPhase_ok hadmit
    obtain ⟨-, rfl⟩ := UploadReveals.includeUploads_ok hinc
    refine .same le_rfl rfl le_rfl (fun hne ↦ ?_) id id
    dsimp only
    rwa [if_neg hne]
  | beginRemediation _ _ _ _ _ _ hrem =>
    obtain ⟨-, rfl⟩ | ⟨-, rfl⟩ := Lottery.beginRemediation_ok hrem
    all_goals exact .same le_rfl rfl le_rfl id id id
  | aggregate _ _ _ _ _ hend =>
    split at hend
    · obtain ⟨_, _, _, _, _, _, _, rfl, -⟩ := FinalizeWinners.finishAggregation_ok hend
      exact .same le_rfl rfl le_rfl id id fun _ ↦ by simp
    · cases hend
      exact .same le_rfl rfl le_rfl id id fun _ ↦ by simp
  | select => exact .same le_rfl rfl le_rfl id id fun _ ↦ by simp
  | selectLast _ _ _ _ _ _ _ _ hnext =>
    rcases FinalizeWinners.nextRound_ok hnext with ⟨-, hcomp⟩ | ⟨-, rfl, -⟩
    · obtain ⟨fee, bitmap, -, -, -, -, -, rfl, -⟩ := FinalizeWinners.completeFinalization_ok hcomp
      refine .same le_rfl rfl le_rfl (fun hne ↦ ?_) id fun _ ↦ by simp
      dsimp only
      rwa [if_neg hne]
    · exact .same le_rfl rfl le_rfl id id fun _ ↦ by simp
  | payBatch hpays _ =>
    obtain ⟨old, -, hrun⟩ := hpays.page_eq
    obtain ⟨bitmap, rfl⟩ := hrun.lottery
    exact .same le_rfl rfl le_rfl id id id
  | payLast hpays _ _ hcomp =>
    obtain ⟨old, -, hrun⟩ := hpays.page_eq
    obtain ⟨bitmap, rfl⟩ := hrun.lottery
    obtain rfl := Lottery.completeSettlement_ok hcomp
    exact .same le_rfl rfl le_rfl id (fun _ ↦ rfl) id
  | finalizeNoAttesters => exact .same le_rfl rfl le_rfl id (fun _ ↦ rfl) id
  | claimRefund => exact .same le_rfl rfl le_rfl id id id
  | closeRefundVault => exact .same le_rfl rfl le_rfl id id id

theorem of_path {cs : List Unit} (hreach : (machine rt).Reachable r)
    (hp : (machine rt).Path r cs r') : r.Onward r' := by
  induction hp with
  | nil r => exact .refl r
  | @cons r t u c cs hs _ ih =>
    obtain ⟨as, ss, hh⟩ := hreach
    have hb := (invariant ⟨as, ss, hh⟩).books
    exact (of_step hb hs).trans (ih ⟨_, _, hh.step hs⟩)

end Onward

/-- The upload window opens no later than the sale was to close, and reveals are only missed where
there are two participants. -/
structure Windowed (r : Round K) : Prop where
  start_le : 0 < r.lottery.buyStartUnix →
    r.lottery.uploadStartUnix ≤ r.lottery.buyDeadlineUnix
  two_le : r.lottery.remediationStartUnix ≠ 0 → 1 < r.lottery.participantsCount

namespace Windowed

theorem init (h : r.Created rt) : r.Windowed := by
  obtain ⟨id, config, authority, vault, bump, bps, price, hnew, -, -⟩ := h.lottery
  obtain ⟨-, -, -, -, hbd, hus, -, -, -, -, -, -, -, -, -, -, -, -, -, -, -, -, hrs, -⟩ :=
    Lottery.new_ok hnew
  exact ⟨fun _ ↦ by rw [hbd, hus], fun hne ↦ absurd hrs hne⟩

theorem step (h : r.Windowed) (hb : r.books.Sound) (hs : r.Step rt r') :
    r'.Windowed := by
  have hon := Onward.of_step hb hs
  refine ⟨fun hpos ↦ ?_, ?_⟩
  · rw [hon.buyStart] at hpos
    rw [hon.buyDeadline]
    exact (hon.start hpos).trans (h.start_le hpos)
  cases hs with
  | refl => exact h.two_le
  | tick => exact h.two_le
  | reconfigure => exact h.two_le
  | deposit => exact h.two_le
  | buyFirst => exact fun hne ↦ (h.two_le hne).trans (Nat.lt_succ_self _)
  | buyMore => exact h.two_le
  | beginReveal _ _ _ _ _ _ _ _ _ hopen =>
    obtain rfl := BeginRevealPhase.openWindow_ok hopen
    rw [BeginRevealPhase.autoComplete_eq]
    exact h.two_le
  | attestUploaded =>
    rw [Lottery.countAttestation_eq]
    exact h.two_le
  | attestReveal _ _ _ _ _ _ _ hrec _ _ hconc =>
    obtain ⟨-, rfl⟩ := AttestReveal.recordReveal_ok hrec
    obtain rfl := AttestReveal.conclude_ok hconc
    exact h.two_le
  | uploadReveals hadmit _ _ hinc =>
    obtain ⟨-, -, -, -, -, -, -, rfl⟩ := UploadReveals.checkPhase_ok hadmit
    obtain ⟨hpc, rfl⟩ := UploadReveals.includeUploads_ok hinc
    exact fun _ ↦ hpc
  | beginRemediation _ _ hpc _ _ _ hrem =>
    obtain ⟨-, rfl⟩ | ⟨-, rfl⟩ := Lottery.beginRemediation_ok hrem
    all_goals exact fun _ ↦ hpc
  | aggregate hf _ _ _ _ hend =>
    split at hend
    · obtain ⟨_, _, _, _, _, _, _, rfl, -⟩ := FinalizeWinners.finishAggregation_ok hend
      exact fun _ ↦ hf.two_le
    · cases hend
      exact h.two_le
  | select => exact h.two_le
  | selectLast hf _ _ _ _ _ _ _ hnext =>
    rcases FinalizeWinners.nextRound_ok hnext with ⟨-, hcomp⟩ | ⟨-, rfl, -⟩
    · obtain ⟨fee, bitmap, -, -, -, -, -, rfl, -⟩ := FinalizeWinners.completeFinalization_ok hcomp
      exact fun _ ↦ hf.two_le
    · exact h.two_le
  | payBatch hpays _ =>
    obtain ⟨old, -, hrun⟩ := hpays.page_eq
    obtain ⟨bitmap, rfl⟩ := hrun.lottery
    exact h.two_le
  | payLast hpays _ _ hcomp =>
    obtain ⟨old, -, hrun⟩ := hpays.page_eq
    obtain ⟨bitmap, rfl⟩ := hrun.lottery
    obtain rfl := Lottery.completeSettlement_ok hcomp
    exact h.two_le
  | finalizeNoAttesters => exact h.two_le
  | claimRefund => exact h.two_le
  | closeRefundVault => exact h.two_le

end Windowed

theorem windowed (h : (machine rt).Reachable r) : r.Windowed := by
  obtain ⟨as, ss, hh⟩ := h
  have := hh.invariant (P := fun _ ss ↦ ∀ s ∈ ss.head?, Windowed s) ?_ ?_
  · exact this r (by simp)
  · rintro s hs t ht
    cases ht
    exact .init hs
  · rintro as ss s a t hst hP hs u hu
    cases hu
    have hi := invariant ⟨as, ss, hst⟩
    exact (hP s rfl).step hi.books hs

/-- Nothing of a settled lottery changes any more but its count of refunds. -/
structure Rests (r r' : Round K) : Prop where
  lottery : r'.lottery = r.lottery ∨
    r.lottery.winnersCount = 0 ∧ r'.lottery = r.lottery.countRefund
  ledger : r'.ledger = r.ledger
  pages : r'.pages = r.pages
  tally : r'.tally = r.tally

theorem Invariant.rests (h : r.Invariant rt) (hset : r.lottery.settled = true)
    (hs : r.Step rt r') : r.Rests r' := by
  have hfin (hf : r.Finalizable) : r.Rests r' := by
    simp [hf.not_settled] at hset
  have hbuy {count : ℕ} (hb : r.lottery.CanBuy r.now count) : r.Rests r' := by
    simp [hb.not_settled] at hset
  have hattest {c : Config K} {p : Participant K} {vote : ℕ}
    (ha : r.lottery.CanAttest c r.now p vote) :
      r.Rests r' := by
    simp [(Lottery.phase_upload ha.phase).1] at hset
  have hpays {winners : List (WinnerProof K)} {i : ℕ} {page : WinnerPage K} {l : Lottery K}
      {data : PageData K} {fresh : List ℕ} (hp : r.Pays winners i page l data fresh) :
      r.Rests r' := by
    simpa [hp.not_complete] using h.routed.paying hset hp.winners_pos
  cases hs with
  | refl => exact ⟨.inl rfl, rfl, rfl, rfl⟩
  | tick => exact ⟨.inl rfl, rfl, rfl, rfl⟩
  | reconfigure => exact ⟨.inl rfl, rfl, rfl, rfl⟩
  | deposit => exact ⟨.inl rfl, rfl, rfl, rfl⟩
  | buyFirst hb => exact hbuy hb
  | buyMore hb => exact hbuy hb
  | beginReveal hns => simp [hns] at hset
  | attestUploaded _ ha => exact hattest ha
  | attestReveal _ ha => exact hattest ha
  | uploadReveals hadmit => simp [(UploadReveals.checkPhase_ok hadmit).2.2.1] at hset
  | beginRemediation hns => simp [hns] at hset
  | aggregate hf => exact hfin hf
  | select hf => exact hfin hf
  | selectLast hf => exact hfin hf
  | payBatch hp => exact hpays hp
  | payLast hp => exact hpays hp
  | finalizeNoAttesters hns => simp [hns] at hset
  | claimRefund _ hwc => exact ⟨.inr ⟨hwc, rfl⟩, rfl, rfl, rfl⟩
  | closeRefundVault => exact ⟨.inl rfl, rfl, rfl, rfl⟩

theorem Rests.cancelled (h : r.Rests r')
    (hc : r.lottery.settled = true ∧ r.lottery.winnersCount = 0) :
    r'.lottery.settled = true ∧ r'.lottery.winnersCount = 0 := by
  rcases h.lottery with he | ⟨-, he⟩
  · rw [he]
    exact hc
  · rw [he]
    exact hc

theorem cancelled_of_path {cs : List Unit} (hreach : (machine rt).Reachable r)
    (hp : (machine rt).Path r cs r') (hc : r.lottery.settled = true ∧ r.lottery.winnersCount = 0) :
    r'.lottery.settled = true ∧ r'.lottery.winnersCount = 0 := by
  induction hp with
  | nil => exact hc
  | cons hs _ ih =>
    obtain ⟨as, ss, hh⟩ := hreach
    exact ih ⟨_, _, hh.step hs⟩ (((invariant ⟨as, ss, hh⟩).rests hc.1 hs).cancelled hc)

theorem unpaid_of_step (hs : r.Step rt r') (hz : r.lottery.winnersCount = 0)
    (hne : r'.lottery.winnersCount ≠ 0) : r'.lottery.paidWinners = ∅ := by
  cases hs with
  | refl => exact absurd hz hne
  | tick => exact absurd hz hne
  | reconfigure => exact absurd hz hne
  | deposit => exact absurd hz hne
  | buyFirst => exact absurd hz hne
  | buyMore => exact absurd hz hne
  | beginReveal _ _ _ _ _ _ _ _ _ hopen =>
    obtain rfl := BeginRevealPhase.openWindow_ok hopen
    rw [BeginRevealPhase.autoComplete_eq] at hne
    exact absurd hz hne
  | attestUploaded =>
    rw [Lottery.countAttestation_eq] at hne
    exact absurd hz hne
  | attestReveal _ _ _ _ _ _ _ hrec _ _ hconc =>
    obtain ⟨-, rfl⟩ := AttestReveal.recordReveal_ok hrec
    obtain rfl := AttestReveal.conclude_ok hconc
    exact absurd hz hne
  | uploadReveals hadmit _ _ hinc =>
    obtain ⟨-, -, -, -, -, -, -, rfl⟩ := UploadReveals.checkPhase_ok hadmit
    obtain ⟨-, rfl⟩ := UploadReveals.includeUploads_ok hinc
    exact absurd hz hne
  | beginRemediation _ _ _ _ _ _ hrem =>
    obtain ⟨-, rfl⟩ | ⟨-, rfl⟩ := Lottery.beginRemediation_ok hrem
    all_goals exact absurd hz hne
  | aggregate _ _ _ _ _ hend =>
    split at hend
    · obtain ⟨_, _, _, _, _, _, _, rfl, -⟩ := FinalizeWinners.finishAggregation_ok hend
      exact absurd hz hne
    · cases hend
      exact absurd hz hne
  | select => exact absurd hz hne
  | selectLast _ _ _ _ _ _ _ _ hnext =>
    rcases FinalizeWinners.nextRound_ok hnext with ⟨-, hcomp⟩ | ⟨-, rfl, -⟩
    · obtain ⟨fee, bitmap, -, -, -, -, hclear, rfl, -⟩ :=
        FinalizeWinners.completeFinalization_ok hcomp
      exact Lottery.paidWinners_cleared hclear ⟨rfl, rfl⟩
    · exact absurd hz hne
  | payBatch hpays => exact absurd hz hpays.winners_pos
  | payLast hpays => exact absurd hz hpays.winners_pos
  | finalizeNoAttesters => exact absurd hz hne
  | claimRefund _ hwc => exact absurd hwc hne
  | closeRefundVault _ hwc => exact absurd hwc hne

/-- The result of a completed finalization: only the paid bits of the pages may differ. -/
structure SameOutcome (r r' : Round K) : Prop where
  winnersCount : r'.lottery.winnersCount = r.lottery.winnersCount
  totalPayout : r'.lottery.totalPayout = r.lottery.totalPayout
  winnersMerkleRoot : r'.lottery.winnersMerkleRoot = r.lottery.winnersMerkleRoot
  ledger : r'.ledger = r.ledger
  missing : ∀ i, r.pages i = none → r'.pages i = none
  page : ∀ i page data, r.pages i = some (page, data) →
    ∃ data', r'.pages i = some (page, data') ∧ ∀ j, page.winner data' j = page.winner data j

namespace SameOutcome

theorem same (hw : r'.lottery.winnersCount = r.lottery.winnersCount)
    (htp : r'.lottery.totalPayout = r.lottery.totalPayout)
    (hroot : r'.lottery.winnersMerkleRoot = r.lottery.winnersMerkleRoot)
    (hl : r'.ledger = r.ledger) (hp : r'.pages = r.pages) : r.SameOutcome r' := by
  refine ⟨hw, htp, hroot, hl, ?_, ?_⟩
  · rw [hp]
    exact fun _ ↦ id
  · rw [hp]
    exact fun i page data h ↦ ⟨data, h, fun _ ↦ rfl⟩

theorem refl (r : Round K) : r.SameOutcome r := .same rfl rfl rfl rfl rfl

theorem trans (h : r.SameOutcome r') (h' : r'.SameOutcome r'') : r.SameOutcome r'' := by
  refine ⟨h'.winnersCount.trans h.winnersCount, h'.totalPayout.trans h.totalPayout,
    h'.winnersMerkleRoot.trans h.winnersMerkleRoot, h'.ledger.trans h.ledger,
    fun i hi ↦ h'.missing i (h.missing i hi), fun i page data hi ↦ ?_⟩
  obtain ⟨data₁, h₁, hw₁⟩ := h.page i page data hi
  obtain ⟨data₂, h₂, hw₂⟩ := h'.page i page data₁ h₁
  exact ⟨data₂, h₂, fun j ↦ (hw₂ j).trans (hw₁ j)⟩

theorem payout {winners : List (WinnerProof K)} {i : ℕ} {page : WinnerPage K}
    {l : Lottery K} {data : PageData K} {fresh : List ℕ}
    (h : r.Pays winners i page l data fresh)
    (hw : r'.lottery.winnersCount = l.winnersCount) (htp : r'.lottery.totalPayout = l.totalPayout)
    (hroot : r'.lottery.winnersMerkleRoot = l.winnersMerkleRoot) (hl : r'.ledger = r.ledger)
    (hp : r'.pages = Function.update r.pages i (some (page, data))) : r.SameOutcome r' := by
  obtain ⟨old, hpage, hrun⟩ := h.page_eq
  have hsame := hrun.lottery
  obtain ⟨bitmap, rfl⟩ := hsame
  refine ⟨hw, htp, hroot, hl, fun j hj ↦ ?_, fun j page₁ data₁ hj ↦ ?_⟩
  · have hne : j ≠ i := by
      rintro rfl
      simp [hpage] at hj
    rw [hp, Function.update_of_ne hne, hj]
  · rw [hp]
    by_cases hne : j = i
    · subst hne
      cases hpage.symm.trans hj
      exact ⟨data, Function.update_self .., hrun.winner⟩
    · exact ⟨data₁, by rw [Function.update_of_ne hne, hj], fun _ ↦ rfl⟩

theorem of_step {root : FinalizationLedger K} (hl : r.ledger = some root)
    (hph : root.phase = .completed) (hs : r.Step rt r') : r.SameOutcome r' := by
  have hopen : r.openLedger.phase = .completed := by rw [openLedger, hl]; exact hph
  cases hs with
  | refl => exact .refl r
  | tick => exact .same rfl rfl rfl rfl rfl
  | reconfigure => exact .same rfl rfl rfl rfl rfl
  | deposit => exact .same rfl rfl rfl rfl rfl
  | buyFirst => exact .same rfl rfl rfl rfl rfl
  | buyMore => exact .same rfl rfl rfl rfl rfl
  | beginReveal _ _ _ _ _ _ _ _ _ hbegin =>
    obtain rfl := BeginRevealPhase.openWindow_ok hbegin
    rw [BeginRevealPhase.autoComplete_eq]
    exact .same rfl rfl rfl rfl rfl
  | attestUploaded =>
    rw [Lottery.countAttestation_eq]
    exact .same rfl rfl rfl rfl rfl
  | attestReveal _ _ _ _ _ _ _ hrec _ _ hconc =>
    obtain ⟨-, rfl⟩ := AttestReveal.recordReveal_ok hrec
    obtain rfl := AttestReveal.conclude_ok hconc
    exact .same rfl rfl rfl rfl rfl
  | uploadReveals hadmit _ _ hinc =>
    obtain ⟨-, -, -, -, -, -, -, rfl⟩ := UploadReveals.checkPhase_ok hadmit
    obtain ⟨-, rfl⟩ := UploadReveals.includeUploads_ok hinc
    exact .same rfl rfl rfl rfl rfl
  | beginRemediation _ _ _ _ _ _ hrem =>
    obtain ⟨-, rfl⟩ | ⟨-, rfl⟩ := Lottery.beginRemediation_ok hrem
    all_goals exact .same rfl rfl rfl rfl rfl
  | aggregate _ h => simp [hopen] at h
  | select _ h => simp [hopen] at h
  | selectLast _ h => simp [hopen] at h
  | payBatch hpays => exact .payout hpays rfl rfl rfl rfl rfl
  | payLast hpays _ _ hcomp =>
    obtain rfl := Lottery.completeSettlement_ok hcomp
    exact .payout hpays rfl rfl rfl rfl rfl
  | finalizeNoAttesters => exact .same rfl rfl rfl rfl rfl
  | claimRefund => exact .same rfl rfl rfl rfl rfl
  | closeRefundVault => exact .same rfl rfl rfl rfl rfl

theorem of_path {cs : List Unit} (hp : (machine rt).Path r cs r') {root : FinalizationLedger K}
    (hl : r.ledger = some root) (hph : root.phase = .completed) : r.SameOutcome r' := by
  induction hp with
  | nil r => exact .refl r
  | cons hs _ ih =>
    have h := of_step hl hph hs
    exact h.trans (ih (h.ledger.trans hl))

end SameOutcome

theorem drained (h : (machine rt).Reachable r) (hc : r.vaultClosed = true) :
    r.vault ≤ r.donated := by
  obtain ⟨as, ss, hh⟩ := h
  have := hh.invariant (P := fun _ ss ↦ ∀ s ∈ ss.head?, s.vaultClosed = true →
    s.vault ≤ s.donated) ?_ ?_
  · exact this r (by simp) hc
  · rintro s hs t ht hc
    cases ht
    simp [hs.vaultClosed] at hc
  · rintro as ss s a t hst hP hs u hu hc
    cases hu
    have hi := invariant ⟨as, ss, hst⟩
    have hle := hP s rfl
    have hopen (hset : s.lottery.settled = false) : s.vaultClosed = false :=
      hi.funded.vault_open hset
    cases hs with
    | refl => exact hle hc
    | tick => exact hle hc
    | reconfigure => exact hle hc
    | deposit n => exact Nat.add_le_add_right (hle hc) n
    | buyFirst hb => simp [hopen hb.not_settled] at hc
    | buyMore hb => simp [hopen hb.not_settled] at hc
    | beginReveal => exact hle hc
    | attestUploaded => exact hle hc
    | attestReveal => exact hle hc
    | uploadReveals => exact hle hc
    | beginRemediation => exact hle hc
    | aggregate => exact hle hc
    | select => exact hle hc
    | selectLast => exact hle hc
    | payBatch => exact (Nat.sub_le _ _).trans (hle hc)
    | payLast => exact Nat.zero_le _
    | finalizeNoAttesters => exact hle hc
    | claimRefund => exact (Nat.sub_le _ _).trans (hle hc)
    | closeRefundVault => exact Nat.zero_le _

end Round

end DailyLottery
