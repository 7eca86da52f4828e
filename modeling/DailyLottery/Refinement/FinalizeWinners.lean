import DailyLottery.Refinement.Represents
import DailyLottery.Refinement.Log

set_option linter.unusedSectionVars false

namespace DailyLottery.FinalizeWinners

open Lib

variable {K : Type} [DecidableEq K] [Inhabited K] {rt : Runtime K} {w w' : World K}
  {accounts : List (AccountInfo K)}

/-- A winner waiting to be recorded is nobody's derived address. -/
def PendingForeign (rt : Runtime K) (root : FinalizationLedger K) : Prop :=
  root.pendingWinnerFound = true → rt.Foreign root.pendingWinner

/-- The ledger a chunk works on: the one stored, which must fit, or a new one. -/
def FindsRoot (rt : Runtime K) (v : View K) (id participantsCount : ℕ) (now : ℤ)
    (root : FinalizationLedger K) : Prop :=
  ((v .finalizationRoot).data = .finalizationLedger root ∧ root.requiredCount = participantsCount) ∨
    (v .finalizationRoot).data = .empty ∧ root = .new (rt.lotteryKey id) participantsCount now

theorem FindsRoot.openLedger {acts : List (Action K)} {ws : List (World K)} {id : ℕ} {r : Round K}
    {root : FinalizationLedger K} (hr : Represents rt acts w ws id r)
    (h : FindsRoot rt (w.view rt id) id r.lottery.participantsCount r.now root) :
    r.openLedger = root ∧ ∀ root' ∈ r.ledger,
      root'.requiredCount = r.lottery.participantsCount := by
  unfold Round.openLedger
  rcases h with ⟨hd, hreq⟩ | ⟨hd, rfl⟩
  · rw [hr.eq_ledger hd]
    refine ⟨rfl, fun root' h' ↦ ?_⟩
    obtain rfl : root = root' := by simpa using h'
    exact hreq
  · have hnone : r.ledger = none := by
      have hledger := hr.ledger
      rw [hd] at hledger
      cases hrl : r.ledger with
      | none => rfl
      | some root => simp [hrl] at hledger
    rw [hnone, ← hr.key]
    exact ⟨rfl, by simp⟩

theorem FindsRoot.holds {v : View K} {id n : ℕ} {now : ℤ} {root : FinalizationLedger K}
    (h : FindsRoot rt v id n now root) (hf : v.Fits rt id) :
    root.lottery = rt.lotteryKey id ∧ PendingForeign rt root := by
  rcases h with ⟨hd, -⟩ | ⟨-, rfl⟩
  · have hs := hf.holds (s := .finalizationRoot) (by simp [hd])
    rw [hd] at hs
    exact hs
  · exact ⟨rfl, fun h ↦ by cases h⟩

theorem loadOrCreateRoot_ok {id : ℕ} {l : Lottery K} {now : ℤ} {root : FinalizationLedger K}
    {lotteryAi payerAi rootAi : AccountInfo K} (hw : WellTyped rt w) (hf : rt.Foreign payerAi.key)
    (hlk : lotteryAi.key = rt.lotteryKey id)
    (h : loadOrCreateRoot rt w lotteryAi payerAi rootAi l now = .ok (w', root)) :
    rootAi.key = rt.slotKey id .finalizationRoot ∧
      FindsRoot rt (w.view rt id) id l.participantsCount now root ∧ Touches rt id w w' ∧
      (w.view rt id).Opened rt .finalizationRoot (w'.view rt id) ∧
      ((w.view rt id .finalizationRoot).data ≠ .empty → w' = w) := by
  simp only [loadOrCreateRoot, bind_eq_ok, assertPdaKey_eq_ok, exists_const] at h
  obtain ⟨hrk, h⟩ := h
  have hrk : rootAi.key = rt.slotKey id .finalizationRoot := by rw [← hrk, hlk]; rfl
  refine ⟨hrk, ?_⟩
  unfold dataIsEmpty at h
  rw [hrk, World.accounts_slotKey] at h
  split at h
  · next he =>
    rw [AccountData.isEmpty_eq_true] at he
    simp only [bind_eq_ok, hlk, pure_eq_ok, Prod.mk.injEq] at h
    obtain ⟨_, hcreate, rfl, rfl⟩ := h
    obtain ⟨ht, hopen⟩ := createAccount_opened hf hrk hcreate
    exact ⟨.inr ⟨he, rfl⟩, ht, hopen, fun hne ↦ absurd he hne⟩
  · next he =>
    simp only [bind_eq_ok, rejectIf_eq_ok, exists_const, pure_eq_ok, Prod.mk.injEq, not_or,
      not_not, ne_eq] at h
    obtain ⟨-, -, root', hroot, ⟨-, -, hreq⟩, rfl, rfl⟩ := h
    exact ⟨.inl ⟨(hw.readRoot hrk.symm hroot).1, hreq⟩, .refl _ _,
      .inl ⟨rfl, by simpa [AccountData.isEmpty_eq_true] using he⟩, fun _ ↦ rfl⟩

theorem loadOrCreateRoot_quiet {l : Lottery K} {now : ℤ} {root : FinalizationLedger K}
    {lotteryAi payerAi rootAi : AccountInfo K}
    (h : loadOrCreateRoot rt w lotteryAi payerAi rootAi l now = .ok (w', root)) : Quiet w w' := by
  simp only [loadOrCreateRoot, bind_eq_ok, assertPdaKey_eq_ok, exists_const] at h
  obtain ⟨-, h⟩ := h
  split at h
  · simp only [bind_eq_ok, pure_eq_ok, Prod.mk.injEq] at h
    obtain ⟨_, hcreate, rfl, -⟩ := h
    exact .create hcreate
  · simp only [bind_eq_ok, rejectIf_eq_ok, exists_const, pure_eq_ok, Prod.mk.injEq] at h
    obtain ⟨-, -, _, -, -, rfl, -⟩ := h
    exact .refl w

/-- What the body of a pass keeps. -/
structure Keeps (rt : Runtime K) (p : Participant K) (root root' : FinalizationLedger K)
    (updated : Option (Participant K)) : Prop where
  lottery : root'.lottery = root.lottery
  pending : rt.Foreign p.wallet → PendingForeign rt root → PendingForeign rt root'
  updated : ∀ p' ∈ updated, p'.lottery = p.lottery ∧ p'.wallet = p.wallet

theorem aggregateParticipant_keeps {root root' : FinalizationLedger K} {p : Participant K}
    {updated : Option (Participant K)} (h : aggregateParticipant rt root p = .ok (root', updated)) :
    Keeps rt p root root' updated := by
  obtain ⟨-, -, -, rfl, rfl⟩ := aggregateParticipant_ok h
  refine ⟨?_, fun _ hp ↦ ?_, ?_⟩
  · split <;> rfl
  · split <;> exact hp
  · rintro p' ⟨⟩
    exact ⟨rfl, rfl⟩

theorem selectParticipant_keeps {root root' : FinalizationLedger K} {p : Participant K}
    {updated : Option (Participant K)} (h : selectParticipant root p = .ok (root', updated)) :
    Keeps rt p root root' updated := by
  obtain ⟨-, -, -, ⟨-, rfl, rfl⟩ | ⟨-, ⟨-, -, -, rfl, rfl⟩ | ⟨-, rfl, rfl⟩⟩⟩ :=
    selectParticipant_ok h
  · exact ⟨rfl, fun _ hp ↦ hp, by simp⟩
  · refine ⟨rfl, fun hf _ _ ↦ hf, ?_⟩
    rintro p' ⟨⟩
    exact ⟨rfl, rfl⟩
  · exact ⟨rfl, fun _ hp ↦ hp, by simp⟩

section Loop

variable {id : ℕ} {lotteryAi : AccountInfo K} {l : Lottery K} {ps : List (Participant K)}
  {past : K → Option (Participant K)}

theorem readValidParticipant_ok {ai : AccountInfo K} {p : Participant K}
    (hlk : lotteryAi.key = rt.lotteryKey id) (hp : Passes rt id past l w w ps)
    (h : readValidParticipant rt w lotteryAi ai = .ok p) :
    ai.key = rt.slotKey id (.participant p.wallet) ∧
      (w.view rt id (.participant p.wallet)).data = .participant p := by
  simp only [readValidParticipant, bind_eq_ok, rejectIf_eq_ok, exists_const, assertPdaOwned_eq_ok,
    pure_eq_ok] at h
  obtain ⟨q, hread, -, ⟨hk, -⟩, rfl⟩ := h
  have hk : ai.key = rt.slotKey id (.participant q.wallet) := by rw [← hk, hlk]; rfl
  exact ⟨hk, ((hp.fits q.wallet).readParticipant hk.symm hread).1⟩

def Supplies (rt : Runtime K) (id : ℕ) (wallets : List K) (ai : AccountInfo K) (e : ℕ × Unit) :
    Prop :=
  ∃ wallet, wallets[e.1]? = some wallet ∧ ai.key = rt.slotKey id (.participant wallet)

theorem participantLoop_quiet {body : FinalizationLedger K → Participant K →
      Result (FinalizationLedger K × Option (Participant K))} {root root' : FinalizationLedger K}
    (h : participantLoop rt body lotteryAi accounts w root = .ok (w', root')) : Quiet w w' := by
  induction accounts generalizing w root with
  | nil =>
    simp only [participantLoop, Except.ok.injEq, Prod.mk.injEq] at h
    rw [h.1]
    exact .refl w'
  | cons ai rest ih =>
    simp only [participantLoop, bind_eq_ok, Prod.exists] at h
    obtain ⟨-, -, p, -, root₁, updated, -, w₁, hwrite, h⟩ := h
    refine Quiet.trans ?_ (ih h)
    cases updated with
    | none =>
      cases hwrite
      exact .refl w
    | some p' => exact .write hwrite

theorem participantLoop_ok {body : FinalizationLedger K → Participant K →
      Result (FinalizationLedger K × Option (Participant K))}
    (hbody : ∀ root p root' updated, body root p = .ok (root', updated) →
      Keeps rt p root root' updated)
    {root root' : FinalizationLedger K} (hlk : lotteryAi.key = rt.lotteryKey id)
    (hncl : ∀ q, ¬l.Closable q) (hp : Passes rt id past l w w ps)
    (h : participantLoop rt body lotteryAi accounts w root = .ok (w', root')) :
    ∃ es ps', List.Forall₂ (Supplies rt id (ps.map Participant.wallet)) accounts es ∧
      Sweep (Round.PassVisit body) ps root es ps' root' ∧ Passes rt id past l w w' ps' ∧
      root'.lottery = root.lottery ∧ (PendingForeign rt root → PendingForeign rt root') := by
  induction accounts generalizing w root ps with
  | nil =>
    simp only [participantLoop, Except.ok.injEq, Prod.mk.injEq] at h
    obtain ⟨rfl, rfl⟩ := h
    exact ⟨[], ps, .nil, .nil _ _, hp, rfl, fun h ↦ h⟩
  | cons ai rest ih =>
    simp only [participantLoop, bind_eq_ok, Prod.exists] at h
    obtain ⟨-, -, p, hread, root₁, updated, hvisit, w₁, hwrite, h⟩ := h
    obtain ⟨hk, hd⟩ := readValidParticipant_ok hlk hp hread
    obtain ⟨i, hi⟩ := hp.roster.getElem_of_data hd
    have hkeeps := hbody _ _ _ _ hvisit
    have hpass : Passes rt id past l w w₁ (ps.set i (updated.getD p)) := by
      cases updated with
      | none =>
        cases hwrite
        rw [Option.getD_none]
        obtain ⟨hi', rfl⟩ := List.getElem?_eq_some_iff.mp hi
        rwa [List.set_getElem_self]
      | some p' =>
        obtain ⟨hpl, hpw⟩ := hkeeps.updated p' rfl
        simp only [writeUpdated, writeAccountData_eq_ok] at hwrite
        obtain ⟨-, -, -, rfl⟩ := hwrite
        rw [hk]
        exact hp.write p' hi hd hpl hpw fun h ↦ absurd h (hncl p)
    obtain ⟨es, ps', hnames, hsweep, hpass', hl, hpending⟩ := ih (.refl hpass.fits hpass.roster) h
    have hwallets : (ps.set i (updated.getD p)).map Participant.wallet =
        ps.map Participant.wallet := by
      refine map_set_same hi ?_
      cases updated with
      | none => rfl
      | some p' => exact (hkeeps.updated p' rfl).2
    rw [hwallets] at hnames
    have hsupplies : Supplies rt id (ps.map Participant.wallet) ai (i, ()) :=
      ⟨p.wallet, by rw [List.getElem?_map, hi]; rfl, hk⟩
    refine ⟨(i, ()) :: es, ps', .cons hsupplies hnames, .cons hi ⟨updated, hvisit, rfl⟩ hsweep,
      hpass.trans hpass', hl.trans hkeeps.lottery, fun hr ↦ hpending (hkeeps.pending ?_ hr)⟩
    exact hp.roster.foreign p (List.mem_of_getElem? hi)

end Loop

/-- The fields of a lottery a chunk leaves alone. -/
def SameLottery (l l' : Lottery K) : Prop :=
  l'.id = l.id ∧ l'.config = l.config ∧ l'.vault = l.vault ∧ l'.settled = l.settled ∧
    l'.settlementComplete = l.settlementComplete

/-- The page the next winner goes to: the one stored, or a new one. -/
def FindsPage (rt : Runtime K) (v : View K) (id generation i : ℕ) (x : WinnerPage K × PageData K) :
    Prop :=
  (v (.winnerPage i)).data = .winnerPage x.1 x.2 ∨
    (v (.winnerPage i)).data = .empty ∧ x = (.new (rt.lotteryKey id) generation i, .zeroed)

theorem FindsPage.openPage {acts : List (Action K)} {ws : List (World K)} {id : ℕ} {r : Round K}
    {root : FinalizationLedger K} {x : WinnerPage K × PageData K}
    (hr : Represents rt acts w ws id r)
    (h : FindsPage rt (w.view rt id) id root.generation (root.selectedCount / winnersPerPage) x) :
    r.openPage root = x := by
  unfold Round.openPage
  rcases h with hd | ⟨hd, rfl⟩
  · rw [hr.eq_page hd]
    rfl
  · have hnone : r.pages (root.selectedCount / winnersPerPage) = none := by
      have hpage := hr.pages (root.selectedCount / winnersPerPage)
      rw [hd] at hpage
      cases hrp : r.pages (root.selectedCount / winnersPerPage) with
      | none => rfl
      | some x => simp [hrp] at hpage
    rw [hnone, ← hr.key]
    rfl

/-- A page as its address holds it. -/
def PageHolds (rt : Runtime K) (id i : ℕ) (page : WinnerPage K) (data : PageData K) : Prop :=
  page.lottery = rt.lotteryKey id ∧ page.pageIndex = i ∧
    ∀ offset winner, page.winner data offset = some winner → rt.Foreign winner.wallet

theorem FindsPage.holds {v : View K} {id g i : ℕ} {page : WinnerPage K} {data : PageData K}
    (h : FindsPage rt v id g i (page, data)) (hf : v.Fits rt id) : PageHolds rt id i page data := by
  rcases h with hd | ⟨-, he⟩
  · have hs := hf.holds (s := .winnerPage i) (by simp [hd])
    rw [hd] at hs
    exact hs
  · obtain ⟨rfl, rfl⟩ := Prod.mk.inj he
    exact ⟨rfl, rfl, fun offset winner h ↦ by simp [WinnerPage.winner, WinnerPage.new] at h⟩

theorem winner_append {page page' : WinnerPage K} {data data' : PageData K}
    {winner : SelectedWinner K} (h : page.append data winner = .ok (page', data')) (j : ℕ) :
    page'.winner data' j = if j = page.count then some winner else page.winner data j := by
  obtain ⟨hlt, rfl, rfl⟩ := append_ok h
  unfold WinnerPage.winner
  dsimp only
  rw [Vector.getElem?_setIfInBounds]
  by_cases hj : j = page.count
  · subst hj
    simp [hlt]
  · rw [if_neg (Ne.symm hj), if_neg hj]
    by_cases hle : page.count ≤ j
    · rw [if_pos (by omega), if_pos hle]
    · rw [if_neg (by omega), if_neg hle]

theorem PageHolds.append {id i : ℕ} {page page' : WinnerPage K} {data data' : PageData K}
    {winner : SelectedWinner K} (hp : PageHolds rt id i page data) (hf : rt.Foreign winner.wallet)
    (h : page.append data winner = .ok (page', data')) : PageHolds rt id i page' data' := by
  obtain ⟨hl, hi, hw⟩ := hp
  refine ⟨?_, ?_, fun offset winner' ho ↦ ?_⟩
  · rw [(append_ok h).2.1]
    exact hl
  · rw [(append_ok h).2.1]
    exact hi
  · rw [winner_append h] at ho
    split at ho
    · cases ho
      exact hf
    · exact hw offset winner' ho

theorem loadOrCreateWinnerPage_ok {id g i : ℕ} {page : WinnerPage K}
    {lotteryAi payerAi pageAi : AccountInfo K}
    (hw : (w.view rt id (.winnerPage i)).Fits rt (.winnerPage (rt.lotteryKey id) i))
    (hf : rt.Foreign payerAi.key) (hlk : lotteryAi.key = rt.lotteryKey id)
    (h : loadOrCreateWinnerPage rt w lotteryAi payerAi pageAi g i = .ok (w', page)) :
    ∃ data, pageAi.key = rt.slotKey id (.winnerPage i) ∧
      FindsPage rt (w.view rt id) id g i (page, data) ∧ Touches rt id w w' ∧
      (w.view rt id).Opened rt (.winnerPage i) (w'.view rt id) ∧
      (w'.view rt id (.winnerPage i)).data.pageData = data := by
  simp only [loadOrCreateWinnerPage, assertWinnerPageKey, bind_eq_ok, assertPdaKey_eq_ok,
    exists_const] at h
  obtain ⟨hpk, h⟩ := h
  have hpk : pageAi.key = rt.slotKey id (.winnerPage i) := by rw [← hpk, hlk]; rfl
  unfold dataIsEmpty at h
  rw [hpk, World.accounts_slotKey] at h
  split at h
  · next he =>
    rw [AccountData.isEmpty_eq_true] at he
    simp only [bind_eq_ok, hlk, pure_eq_ok, Prod.mk.injEq] at h
    obtain ⟨_, hcreate, rfl, rfl⟩ := h
    obtain ⟨-, ht, hv⟩ := createAccount_ok hf hpk hcreate
    refine ⟨.zeroed, hpk, .inr ⟨he, rfl⟩, ht, (createAccount_opened hf hpk hcreate).2, ?_⟩
    rw [hv]
    simp [AccountData.pageData]
  · next he =>
    simp only [bind_eq_ok, rejectIf_eq_ok, exists_const, pure_eq_ok, Prod.mk.injEq] at h
    obtain ⟨-, -, page', hread, -, rfl, rfl⟩ := h
    have hne : (w.view rt id (.winnerPage i)).data ≠ .empty := by
      simpa [AccountData.isEmpty_eq_true] using he
    obtain ⟨hu, -⟩ := Account.Fits.read hw (T := WinnerPage K) (by
      intro d hd
      cases d <;> simp_all [Holds]) hpk.symm hread
    obtain ⟨data, hd⟩ := unwrap_winnerPage.mp hu
    have hd : (w.view rt id (.winnerPage i)).data = .winnerPage page' data := hd
    refine ⟨data, hpk, .inl hd, .refl _ _, .inl ⟨rfl, hne⟩, ?_⟩
    rw [hd]
    rfl

theorem loadOrCreateWinnerPage_quiet {g i : ℕ} {page : WinnerPage K}
    {lotteryAi payerAi pageAi : AccountInfo K}
    (h : loadOrCreateWinnerPage rt w lotteryAi payerAi pageAi g i = .ok (w', page)) :
    Quiet w w' := by
  simp only [loadOrCreateWinnerPage, assertWinnerPageKey, bind_eq_ok, assertPdaKey_eq_ok,
    exists_const] at h
  obtain ⟨-, h⟩ := h
  split at h
  · simp only [bind_eq_ok, pure_eq_ok, Prod.mk.injEq] at h
    obtain ⟨_, hcreate, rfl, -⟩ := h
    exact .create hcreate
  · simp only [bind_eq_ok, rejectIf_eq_ok, exists_const, pure_eq_ok, Prod.mk.injEq] at h
    obtain ⟨-, -, _, -, -, rfl, -⟩ := h
    exact .refl w

theorem nextRound_same {l l' : Lottery K} {root root' : FinalizationLedger K} {now : ℤ}
    (h : nextRound rt l root now = .ok (l', root')) :
    SameLottery l l' ∧ l'.uploadsComplete = l.uploadsComplete ∧ root'.lottery = root.lottery ∧
      (PendingForeign rt root → PendingForeign rt root') := by
  unfold nextRound at h
  split at h
  · obtain ⟨fee, bitmap, -, -, -, -, -, rfl, rfl⟩ := completeFinalization_ok h
    exact ⟨⟨rfl, rfl, rfl, rfl, rfl⟩, rfl, rfl, fun h ↦ h⟩
  · simp only [bind_eq_ok, okOr_eq_ok, pure_eq_ok, Prod.mk.injEq] at h
    obtain ⟨_, -, _, -, _, -, rfl, rfl⟩ := h
    exact ⟨⟨rfl, rfl, rfl, rfl, rfl⟩, rfl, rfl, fun _ h ↦ by cases h⟩

theorem finishRound_ok {id : ℕ} {l l' : Lottery K} {root root' : FinalizationLedger K} {now : ℤ}
    {lotteryAi payerAi pageAi : AccountInfo K}
    (hw : (w.view rt id (.winnerPage (root.selectedCount / winnersPerPage))).Fits rt
      (.winnerPage (rt.lotteryKey id) (root.selectedCount / winnersPerPage)))
    (hf : rt.Foreign payerAi.key) (hlk : lotteryAi.key = rt.lotteryKey id)
    (h : finishRound rt w lotteryAi payerAi pageAi l root now = .ok (w', l', root')) :
    ∃ winner page data page' data' root₁ v, roundWinner root = .ok winner ∧
      FindsPage rt (w.view rt id) id root.generation (root.selectedCount / winnersPerPage)
        (page, data) ∧
      page.append data winner = .ok (page', data') ∧ root.recordWinner rt winner = .ok root₁ ∧
      nextRound rt l root₁ now = .ok (l', root') ∧ Touches rt id w w' ∧
      (w.view rt id).Opened rt (.winnerPage (root.selectedCount / winnersPerPage)) v ∧
      w'.view rt id = v.setData (.winnerPage (root.selectedCount / winnersPerPage))
        (.winnerPage page' data') := by
  simp only [finishRound, appendWinner, bind_eq_ok, Prod.exists, pure_eq_ok, Prod.mk.injEq,
    writeAccountData_eq_ok] at h
  obtain ⟨winner, hwinner, w₁, page, h₁, _, ⟨page', data', happ, _, ⟨-, -, -, rfl⟩, rfl⟩,
    root₁, hrec, l₁, root₂, hnext, hw', rfl, rfl⟩ := h
  obtain ⟨data, hpk, hfind, ht, hopen, hdata⟩ := loadOrCreateWinnerPage_ok hw hf hlk h₁
  rw [hpk, World.accounts_slotKey, hdata] at happ
  refine ⟨winner, page, data, page', data', root₁, _, hwinner, hfind, happ, hrec, hnext,
    ?_, hopen, ?_⟩
  · rw [← hw', hpk]
    split
    · exact ((((ht.setData _ _).setData _ _).emit _).emit _).emit _
    · exact ((ht.setData _ _).setData _ _).emit _
  · have hview : w'.view rt id = (((w₁.setData pageAi.key (AccountType.wrap page'
        (w₁.accounts pageAi.key).data)).setData pageAi.key (.winnerPage page' data'))).view rt id := by
      rw [← hw']
      split <;> rfl
    rw [hview, hpk, World.view_setData, World.view_setData, View.setData_setData]

theorem finishRound_announces {l l' : Lottery K} {root root' : FinalizationLedger K} {now : ℤ}
    {lotteryAi payerAi pageAi : AccountInfo K} {winner : SelectedWinner K}
    (hwinner : roundWinner root = .ok winner)
    (h : finishRound rt w lotteryAi payerAi pageAi l root now = .ok (w', l', root')) (key : K) :
    Announces key w w'
      (if lotteryAi.key = key then [winner.announced root.selectedCount] else []) := by
  simp only [finishRound, appendWinner, bind_eq_ok, Prod.exists, pure_eq_ok, Prod.mk.injEq,
    writeAccountData_eq_ok] at h
  obtain ⟨winner', hwinner', w₁, page, h₁, _, ⟨page', data', -, _, ⟨-, -, -, rfl⟩, rfl⟩, root₁, -,
    l₁, root₂, -, hw', -, -⟩ := h
  obtain rfl : winner = winner' := Except.ok.inj (hwinner.symm.trans hwinner')
  rw [← hw']
  have hselected := ((((loadOrCreateWinnerPage_quiet h₁).setData pageAi.key (AccountType.wrap page'
    (w₁.accounts pageAi.key).data)).setData pageAi.key (.winnerPage page' data')) key).emit
      (.winnerSelected l.id lotteryAi.key (rt.address (.participant lotteryAi.key winner.wallet))
        winner.wallet root.selectedCount winner.tickets (root.selectedCount / winnersPerPage)
        (root.selectedCount % winnersPerPage) now)
  have hsel : ((LotteryEvent.winnerSelected l.id lotteryAi.key
      (rt.address (.participant lotteryAi.key winner.wallet)) winner.wallet root.selectedCount
      winner.tickets (root.selectedCount / winnersPerPage) (root.selectedCount % winnersPerPage)
      now).selection key).toList =
        if lotteryAi.key = key then [winner.announced root.selectedCount] else [] := by
    rw [LotteryEvent.selection]
    split <;> rfl
  rw [List.nil_append, hsel] at hselected
  split
  · exact hselected.pad (.refl w) (((Quiet.refl _).emit _ fun _ ↦ rfl).emit _ fun _ ↦ rfl)
  · exact hselected

/-- A call that works on participants: what it opens and what it stores. -/
structure Chunk (rt : Runtime K) (w w' : World K) (c : Config K) (l : Lottery K)
    (root : FinalizationLedger K) (lotteryAi payerAi pageAi : AccountInfo K)
    (participantAccounts : List (AccountInfo K)) (w₁ w₂ : World K) (l' : Lottery K)
    (root' : FinalizationLedger K) : Prop where
  lotteryKey : lotteryAi.key = rt.lotteryKey l.id
  payer : rt.Foreign payerAi.key
  nonempty : participantAccounts ≠ []
  found : FindsRoot rt (w.view rt l.id) l.id l.participantsCount w.clock root
  opened : (w.view rt l.id).Opened rt .finalizationRoot (w₁.view rt l.id)
  before : Touches rt l.id w w₁
  after : Touches rt l.id w₂ w'
  quietBefore : Quiet w w₁
  quietAfter : Quiet w₂ w'
  view : w'.view rt l.id = ((w₂.view rt l.id).setData .finalizationRoot
    (.finalizationLedger root')).setData .lottery (.lottery l')
  pass : (root.phase = .aggregating ∧ processAggregationChunk rt w₁ lotteryAi c l root
      participantAccounts = .ok (w₂, l', root')) ∨
    root.phase = .selecting ∧ processSelectionChunk rt w₁ lotteryAi payerAi pageAi l root
      participantAccounts w.clock = .ok (w₂, l', root')

theorem processChunk_ok {c : Config K} {l : Lottery K}
    {lotteryAi payerAi rootAi pageAi : AccountInfo K} {participantAccounts : List (AccountInfo K)}
    (hw : WellTyped rt w) (hf : rt.Foreign payerAi.key) (hlk : lotteryAi.key = rt.lotteryKey l.id)
    (h : processChunk rt w lotteryAi payerAi rootAi pageAi c l participantAccounts = .ok w') :
    (w' = w ∧ ∃ root, (w.view rt l.id .finalizationRoot).data = .finalizationLedger root ∧
      root.phase = .completed) ∨
      ∃ root w₁ w₂ l' root', Chunk rt w w' c l root lotteryAi payerAi pageAi
      participantAccounts w₁ w₂ l' root' := by
  simp only [processChunk, bind_eq_ok, rejectIf_eq_ok, exists_const, Prod.exists] at h
  obtain ⟨hne, w₁, root, h₁, -, -, h⟩ := h
  obtain ⟨hrk, hfind, ht, hopen, hsame⟩ := loadOrCreateRoot_ok hw hf hlk h₁
  have hstore {w₂ : World K} {e : LotteryEvent K} {l' : Lottery K} {root' : FinalizationLedger K}
      (he : ∀ key, e.selection key = none)
      (h : storeChunk rt (w₂.emit e) lotteryAi rootAi l' root' = .ok w') :
      Touches rt l.id w₂ w' ∧ Quiet w₂ w' ∧
      w'.view rt l.id = ((w₂.view rt l.id).setData .finalizationRoot
        (.finalizationLedger root')).setData .lottery (.lottery l') := by
    simp only [storeChunk, bind_eq_ok, writeAccountData_eq_ok] at h
    obtain ⟨_, ⟨-, -, -, rfl⟩, -, -, -, rfl⟩ := h
    rw [← rt.slotKey_lottery] at hlk
    rw [hlk, hrk]
    exact ⟨(((Touches.refl _ _).emit _).setData _ _).setData _ _,
      (((Quiet.refl w₂).emit e he).setData _ _).setData _ _, by simp [AccountType.wrap]⟩
  split at h
  · next hph =>
    simp only [bind_eq_ok, Prod.exists] at h
    obtain ⟨w₂, l', root', hchunk, h⟩ := h
    obtain ⟨ht', hq, hv⟩ := hstore (fun _ ↦ rfl) h
    exact .inr ⟨root, w₁, w₂, l', root', hlk, hf, hne, hfind, hopen, ht, ht',
      loadOrCreateRoot_quiet h₁, hq, hv, .inl ⟨hph, hchunk⟩⟩
  · next hph =>
    simp only [bind_eq_ok, Prod.exists] at h
    obtain ⟨w₂, l', root', hchunk, h⟩ := h
    obtain ⟨ht', hq, hv⟩ := hstore (fun _ ↦ rfl) h
    exact .inr ⟨root, w₁, w₂, l', root', hlk, hf, hne, hfind, hopen, ht, ht',
      loadOrCreateRoot_quiet h₁, hq, hv, .inr ⟨hph, hchunk⟩⟩
  · next hph =>
    -- a completed ledger is an old one, so nothing was opened either
    rcases hfind with ⟨hd, -⟩ | ⟨-, rfl⟩
    · obtain rfl := hsame (by simp [hd])
      exact .inl ⟨(pure_eq_ok.mp h).symm, root, hd, hph⟩
    · cases hph
  · cases h

/-- The guards of the call and what it does after them. -/
inductive Effect (rt : Runtime K) (w w' : World K) (c : Config K) (l : Lottery K) : Prop
  | done : w' = w → (l.settlementComplete = true ∨ l.settled = true ∨
      1 < l.participantsCount ∧ l.attestedCount ≠ 0 ∧ l.hasMissingAttestedReveals = false ∧
        (l.uploadsComplete = true ∨ l.uploadElapsed w.clock = true) ∧
        ∃ root, (w.view rt l.id .finalizationRoot).data = .finalizationLedger root ∧
          root.phase = .completed) → Effect rt w w' c l
  | missing {l' : Lottery K} :
      l.settled = false → l.settlementComplete = false → 1 < l.participantsCount →
      l.hasMissingAttestedReveals = true → l.uploadElapsed w.clock = true →
      l.remediationStartUnix = 0 → l.beginRemediation w.clock = .ok l' → Touches rt l.id w w' →
      Quiet w w' → w'.view rt l.id = (w.view rt l.id).setData .lottery (.lottery l') →
        Effect rt w w' c l
  | chunk {root : FinalizationLedger K} {lotteryAi payerAi pageAi : AccountInfo K}
      {participantAccounts : List (AccountInfo K)} {w₁ w₂ : World K} {l' : Lottery K}
      {root' : FinalizationLedger K} :
      l.settled = false → l.settlementComplete = false → 1 < l.participantsCount →
      l.attestedCount ≠ 0 → l.hasMissingAttestedReveals = false →
      (l.uploadsComplete = true ∨ l.uploadElapsed w.clock = true) →
      Chunk rt w w' c l root lotteryAi payerAi pageAi participantAccounts w₁ w₂ l' root' →
      Effect rt w w' c l

theorem effect (hw : WellTyped rt w) (hs : SignersAreKeys rt accounts)
    (h : process rt w accounts = .ok w') :
    ∃ c l, (w.accounts rt.configKey).data = .config c ∧
    (w.view rt l.id .lottery).data = .lottery l ∧
      CallsOn rt accounts l.id ∧ Effect rt w w' c l := by
  unfold process at h
  split at h
  · next configAi lotteryAi vaultAi payerAi _ rootAi pageAi participantAccounts =>
    simp only [bind_eq_ok, assertPdaOwned_eq_ok, requireSigner_eq_ok, requireWritable_eq_ok,
      requireKeyMatch_eq_ok, exists_const] at h
    obtain ⟨⟨hck, -⟩, -, -, hsign, -, -, -, -, c, hc, l, hl, b, hb, ⟨hlk, -⟩, -, -, h⟩ := h
    have hf : rt.Foreign payerAi.key := hs payerAi (by simp) hsign
    obtain ⟨hlk, hld, -, -⟩ := hw.readLottery hlk hl
    refine ⟨c, l, (hw.readConfig hck hc).1, hld, congrArg some hlk, ?_⟩
    split at h
    · next hdone =>
      exact .done (pure_eq_ok.mp h).symm (hdone.imp_right .inl)
    · next hdone =>
      simp only [not_or, Bool.not_eq_true] at hdone
      simp only [bind_eq_ok, rejectIf_eq_ok, exists_const, not_le] at h
      obtain ⟨hpc, hatt, h⟩ := h
      split at h
      · next hmiss =>
        simp only [processMissingReveals, bind_eq_ok, rejectIf_eq_ok, exists_const, not_not,
          writeAccountData_eq_ok, pure_eq_ok] at h
        obtain ⟨⟨hel, hrem⟩, l', hbegin, _, ⟨-, -, -, rfl⟩, rfl⟩ := h
        refine .missing hdone.2 hdone.1 hpc hmiss hel hrem hbegin ?_ ?_ ?_
        · rw [hlk]
          exact ((Touches.refl _ _).setData _ _).emit _
        · exact ((Quiet.refl w).setData _ _).emit _ fun _ ↦ rfl
        · rw [hlk]
          simp only [World.view_emit, World.view_setData, AccountType.wrap]
      · next hmiss =>
        simp only [bind_eq_ok, rejectIf_eq_ok, exists_const, not_and_or, Bool.not_eq_false] at h
        obtain ⟨hel, h⟩ := h
        obtain ⟨rfl, hroot⟩ | ⟨root, w₁, w₂, l', root', hchunk⟩ := processChunk_ok hw hf hlk h
        · exact .done rfl (.inr (.inr ⟨hpc, hatt, by simpa using hmiss, hel, hroot⟩))
        · exact .chunk hdone.2 hdone.1 hpc hatt (by simpa using hmiss) hel hchunk
  · cases h

/-- What a call that works on participants does to its round, with the positions it visits and the
winner it announces. -/
inductive Turn (rt : Runtime K) (r : Round K) (es : List (ℕ × Unit)) :
    Option (ℕ × SelectedWinner K) → Round K → Prop
  | aggregate {ps : List (Participant K)} {root root' : FinalizationLedger K} {l : Lottery K} :
      r.Finalizable → r.openLedger.phase = .aggregating → es ≠ [] →
      Sweep (Round.PassVisit (aggregateParticipant rt)) r.participants r.openLedger es ps root →
      root.processedCount ≤ root.requiredCount →
      (if root.processedCount = root.requiredCount then
        finishAggregation rt r.config r.lottery root
      else pure (r.lottery, root)) = .ok (l, root') →
      Turn rt r es none { r with lottery := l, participants := ps, ledger := some root' }
  | select {ps : List (Participant K)} {root : FinalizationLedger K} :
      r.Finalizable → r.openLedger.phase = .selecting → es ≠ [] →
      Sweep (Round.PassVisit selectParticipant) r.participants r.openLedger es ps root →
      root.roundProcessedCount < root.requiredCount →
      Turn rt r es none { r with participants := ps, ledger := some root }
  | selectLast {ps : List (Participant K)} {root root₁ root' : FinalizationLedger K}
      {winner : SelectedWinner K} {page : WinnerPage K} {data : PageData K} {l : Lottery K} :
      r.Finalizable → r.openLedger.phase = .selecting → es ≠ [] →
      Sweep (Round.PassVisit selectParticipant) r.participants r.openLedger es ps root →
      root.roundProcessedCount = root.requiredCount → roundWinner root = .ok winner →
      (r.openPage root).1.append (r.openPage root).2 winner = .ok (page, data) →
      root.recordWinner rt winner = .ok root₁ →
        nextRound rt r.lottery root₁ r.now = .ok (l, root') →
      Turn rt r es (some (root.selectedCount, winner)) { r with
        lottery := l, participants := ps, ledger := some root'
        pages := Function.update r.pages (root.selectedCount / winnersPerPage) (some (page, data)) }

theorem Turn.step {r r' : Round K} {es : List (ℕ × Unit)} {x : Option (ℕ × SelectedWinner K)}
    (h : Turn rt r es x r') : r.Step rt r' := by
  cases h with
  | aggregate hfin hph hne hsweep hle hend => exact .aggregate hfin hph hne hsweep hle hend
  | select hfin hph hne hsweep hlt => exact .select hfin hph hne hsweep hlt
  | selectLast hfin hph hne hsweep hfull hwin happ hrec hnext =>
    exact .selectLast hfin hph hne hsweep hfull hwin happ hrec hnext

def announcements (x : Option (ℕ × SelectedWinner K)) : List (Selection K) :=
  x.toList.map fun x ↦ x.2.announced x.1

section Chunks

variable {acts : List (Action K)} {ws : List (World K)} {r : Round K}
  {root root' : FinalizationLedger K} {lotteryAi payerAi pageAi : AccountInfo K}
  {participantAccounts : List (AccountInfo K)} {w₁ w₂ wm : World K} {l' : Lottery K}
  {ps' : List (Participant K)} {pages' : ℕ → Option (WinnerPage K × PageData K)}

/-- The accounts of a lottery in the middle of a chunk, when its pass is over. -/
structure Midway (rt : Runtime K) (w w₂ : World K) (past : K → Option (Participant K))
    (l : Lottery K)
    (ps' : List (Participant K)) (pages' : ℕ → Option (WinnerPage K × PageData K)) : Prop where
  touches : Touches rt l.id w w₂
  same : ∀ s, s = .lottery ∨ s = .vault ∨ s = .voteTally → w₂.view rt l.id s = w.view rt l.id s
  roster : Roster rt (w₂.view rt l.id) past l ps'
  root : (w₂.view rt l.id .finalizationRoot).data ≠ .empty
  pages : ∀ i, (w₂.view rt l.id (.winnerPage i)).data =
    (pages' i).elim .empty fun x ↦ .winnerPage x.1 x.2
  fits : ∀ root, root.lottery = rt.lotteryKey l.id → PendingForeign rt root →
    ((w₂.view rt l.id).setData .finalizationRoot (.finalizationLedger root)).Fits rt l.id
  alive : (w₂.view rt l.id).Alive

theorem Midway.represents
    (hm : Midway rt w w₂ ((w.view rt r.lottery.id).lastIn (pastOf rt ws r.lottery.id)) r.lottery ps'
      pages')
    (hr : Represents rt acts w ws r.lottery.id r) (hset : r.lottery.settled = false)
    (hsc : r.lottery.settlementComplete = false) (hl : SameLottery r.lottery l')
    (hroot : root'.lottery = rt.lotteryKey r.lottery.id) (hpend : PendingForeign rt root')
    (hafter : Touches rt r.lottery.id w₂ w')
    (hv : w'.view rt r.lottery.id = ((w₂.view rt r.lottery.id).setData .finalizationRoot
      (.finalizationLedger root')).setData .lottery (.lottery l'))
    (pre : List (K × Bytes)) (ix : Instruction K) (accounts : List (AccountInfo K)) :
    Touches rt r.lottery.id w w' ∧ (w'.view rt r.lottery.id).Fits rt r.lottery.id ∧
      Represents rt (.instruction pre ix accounts :: acts) w' (w :: ws) r.lottery.id { r with
        lottery := l', participants := ps', ledger := some root', pages := pages' } := by
  have hncl (q : Participant K) : ¬r.lottery.Closable q := by simp [Lottery.Closable, hset, hsc]
  have ht := hm.touches.trans hafter
  have hlot : (w₂.view rt r.lottery.id .lottery).data = .lottery r.lottery := by
    rw [hm.same _ (.inl rfl)]
    exact hr.lottery
  have hvault := hm.same .vault (.inr (.inl rfl))
  have htally := hm.same .voteTally (.inr (.inr rfl))
  refine ⟨ht, ?_, ?_⟩
  · rw [hv]
    refine (hm.fits root' hroot hpend).setLottery (l := r.lottery) l' ?_ hl.1 hl.2.1 hl.2.2.1
    simpa using hlot
  · refine hr.next ht hv (fun _ ↦ rfl) ⟨rfl, rfl, rfl,
      rfl⟩ (by simp) ?_ ?_ .inl ?_ ?_ (by simp) ?_ ?_
    · simpa [hvault] using hr.vault
    · simp [hvault, hr.lamports]
    · exact (hm.roster.setOther (s := .finalizationRoot) (by simp) _).setLottery l' fun q _ h ↦
        absurd h (hncl q)
    · simp [htally, hr.tally]
    · simp [hm.pages]
    · exact (hm.alive.setData hm.root _).setData (by simp [hlot]) _

theorem Midway.of_passes (hw : WellTyped rt w) (hr : Represents rt acts w ws r.lottery.id r)
    (ht : Touches rt r.lottery.id w w₁)
    (hopen : (w.view rt r.lottery.id).Opened rt .finalizationRoot (w₁.view rt r.lottery.id))
    (hp : Passes rt r.lottery.id ((w.view rt r.lottery.id).lastIn (pastOf rt ws r.lottery.id))
      r.lottery w₁ wm ps') :
    Midway rt w wm ((w.view rt r.lottery.id).lastIn (pastOf rt ws r.lottery.id)) r.lottery ps'
      r.pages := by
  have hothers (s : Slot K) (hs : ∀ wallet, s ≠ .participant wallet)
      (hsr : s ≠ .finalizationRoot) : wm.view rt r.lottery.id s = w.view rt r.lottery.id s := by
    rw [hp.others s hs, hopen.apply_of_ne hsr]
  refine ⟨ht.trans hp.touches, ?_, hp.roster, ?_, ?_, ?_, hp.alive (hopen.alive hr.alive)⟩
  · rintro s (rfl | rfl | rfl) <;> exact hothers _ (by simp) (by simp)
  · rw [hp.others _ (by simp)]
    exact hopen.data_ne_empty
  · intro i
    rw [hothers _ (by simp) (by simp)]
    exact hr.pages i
  · intro root hl hpend s
    by_cases hsr : s = .finalizationRoot
    · subst hsr
      have := hopen.fits_setData (d := .finalizationLedger root) (hw.fits _) ⟨hl, hpend⟩
        .finalizationRoot
      simpa [hp.others] using this
    · rw [View.setData_apply, if_neg hsr]
      by_cases hs : ∃ wallet, s = .participant wallet
      · obtain ⟨wallet, rfl⟩ := hs
        exact hp.fits wallet
      · rw [not_exists] at hs
        rw [hothers s hs hsr]
        exact hw.fits _ s

theorem Midway.setPage {i : ℕ} {page : WinnerPage K} {data : PageData K} {v : View K}
    {past : K → Option (Participant K)} {l : Lottery K}
    (hm : Midway rt w wm past l ps' pages') (ht : Touches rt l.id wm w₂)
    (hopen : (wm.view rt l.id).Opened rt (.winnerPage i) v)
    (hv : w₂.view rt l.id = v.setData (.winnerPage i) (.winnerPage page data))
    (hpage : PageHolds rt l.id i page data) :
    Midway rt w w₂ past l ps' (Function.update pages' i (some (page, data))) := by
  refine ⟨hm.touches.trans ht, ?_, ?_, ?_, ?_, ?_, ?_⟩
  · rintro s (rfl | rfl | rfl) <;> rw [hv] <;> simp [hopen.apply_of_ne, hm.same]
  · rw [hv]
    exact (hm.roster.opened hopen (by simp)).setOther (by simp) _
  · rw [hv]
    simpa [hopen.apply_of_ne] using hm.root
  · intro j
    rw [hv]
    by_cases hj : j = i
    · subst hj
      simp
    · simp [hj, hopen.apply_of_ne, hm.pages]
  · intro root hl hpend s
    have hfits := hm.fits root hl hpend
    have hopen' : ((wm.view rt l.id).setData .finalizationRoot (.finalizationLedger root)).Opened rt
        (.winnerPage i) (v.setData .finalizationRoot (.finalizationLedger root)) := by
      rcases hopen with ⟨rfl, hne⟩ | ⟨he, n, space, hn, rfl⟩
      · exact .inl ⟨rfl, by simpa using hne⟩
      · refine .inr ⟨by simpa using he, n, space, hn, ?_⟩
        funext s
        by_cases hs : s = .finalizationRoot
        · simp [hs]
        · by_cases hs' : s = .winnerPage i <;> simp [hs, hs']
    rw [hv, View.setData_comm (by simp)]
    exact hopen'.fits_setData (d := .winnerPage page data) hfits hpage s
  · rw [hv]
    exact (hopen.alive hm.alive).setData hopen.data_ne_empty _

theorem Chunk.simulated (hw : WellTyped rt w)
    (hr : Represents rt acts w ws r.lottery.id r) (hset : r.lottery.settled = false)
    (hsc : r.lottery.settlementComplete = false) (hpc : 1 < r.lottery.participantsCount)
    (hatt : r.lottery.attestedCount ≠ 0) (hmiss : r.lottery.hasMissingAttestedReveals = false)
    (hel : r.lottery.uploadsComplete = true ∨ r.lottery.uploadElapsed w.clock = true)
    (hc : Chunk rt w w' r.config r.lottery root lotteryAi payerAi pageAi participantAccounts w₁ w₂ l'
      root') (pre : List (K × Bytes)) (ix : Instruction K) (accounts : List (AccountInfo K)) :
    Touches rt r.lottery.id w w' ∧ (w'.view rt r.lottery.id).Fits rt r.lottery.id ∧
      ∃ es x r', Turn rt r es x r' ∧
        List.Forall₂ (Supplies rt r.lottery.id (r.participants.map Participant.wallet))
          participantAccounts es ∧
        (∀ key, Announces key w w' (if lotteryAi.key = key then announcements x else [])) ∧
        SameLottery r.lottery r'.lottery ∧
        r'.lottery.uploadsComplete = r.lottery.uploadsComplete ∧
        r'.participants.map Participant.unmarked = r.participants.map Participant.unmarked ∧
        Represents rt (.instruction pre ix accounts :: acts) w' (w :: ws) r.lottery.id r' := by
  have hncl (q : Participant K) : ¬r.lottery.Closable q := by simp [Lottery.Closable, hset, hsc]
  obtain ⟨hlot, hpend⟩ := hc.found.holds (hw.fits _)
  have hfound := hc.found
  rw [hr.now] at hfound hel
  obtain ⟨rfl, hreq⟩ := hfound.openLedger hr
  have hfin : r.Finalizable := ⟨hset, hsc, hpc, hatt, hmiss, hel, hreq⟩
  have hp₁ : Passes rt r.lottery.id ((w.view rt r.lottery.id).lastIn (pastOf rt ws r.lottery.id))
      r.lottery w₁ w₁ r.participants := by
    refine .refl (fun wallet ↦ ?_) (hr.roster.push.opened hc.opened (by simp))
    rw [hc.opened.apply_of_ne (by simp)]
    exact hw.fits _ _
  have hnil {es : List (ℕ × Unit)} (hnames : List.Forall₂ (Supplies rt r.lottery.id
      (r.participants.map Participant.wallet)) participantAccounts es) : es ≠ [] := by
    rintro rfl
    exact hc.nonempty (List.length_eq_zero_iff.mp hnames.length_eq)
  have hnothing (key : K) (hq : Quiet w₁ w₂) :
      Announces key w w' (if lotteryAi.key = key then announcements none else []) := by
    have hall := ((hc.quietBefore.trans hq).trans hc.quietAfter) key
    split
    · exact hall
    · exact hall
  rcases hc.pass with ⟨hph, hpass⟩ | ⟨hph, hpass⟩
  · simp only [processAggregationChunk, bind_eq_ok, rejectIf_eq_ok, exists_const, Prod.exists,
      not_lt] at hpass
    obtain ⟨wm, root₁, hloop, hle, hpass⟩ := hpass
    obtain ⟨es, ps', hnames, hsweep, hp, hl₁, hpend₁⟩ :=
      participantLoop_ok (fun _ _ _ _ ↦ aggregateParticipant_keeps) hc.lotteryKey hncl hp₁ hloop
    have hmid := Midway.of_passes hw hr hc.before hc.opened hp
    have hfinish : wm = w₂ ∧ (if root₁.processedCount = root₁.requiredCount then
        finishAggregation rt r.config r.lottery root₁ else pure (r.lottery, root₁)) =
          .ok (l', root') := by
      split at hpass
      · next hfull =>
        simp only [bind_eq_ok, pure_eq_ok, Prod.mk.injEq, Prod.exists] at hpass
        obtain ⟨_, _, h, rfl, rfl, rfl⟩ := hpass
        exact ⟨rfl, by rwa [if_pos hfull]⟩
      · next hfull =>
        simp only [pure_eq_ok, Prod.mk.injEq] at hpass
        obtain ⟨rfl, rfl, rfl⟩ := hpass
        exact ⟨rfl, by rw [if_neg hfull]; rfl⟩
    obtain ⟨rfl, hfinish⟩ := hfinish
    have hsame : SameLottery r.lottery l' ∧ root'.lottery = root₁.lottery ∧
        (PendingForeign rt root₁ → PendingForeign rt root') ∧
        l'.uploadsComplete = r.lottery.uploadsComplete := by
      split at hfinish
      · obtain ⟨target, draw, -, -, -, -, -, rfl, rfl⟩ := finishAggregation_ok hfinish
        exact ⟨⟨rfl, rfl, rfl, rfl, rfl⟩, rfl, fun _ h ↦ (by cases h), rfl⟩
      · simp only [pure_eq_ok, Prod.mk.injEq] at hfinish
        obtain ⟨rfl, rfl⟩ := hfinish
        exact ⟨⟨rfl, rfl, rfl, rfl, rfl⟩, rfl, fun h ↦ h, rfl⟩
    obtain ⟨ht, hf, hr'⟩ := hmid.represents hr hset hsc hsame.1
      (hsame.2.1.trans (hl₁.trans hlot)) (hsame.2.2.1 (hpend₁ hpend)) hc.after hc.view pre ix
      accounts
    exact ⟨ht, hf, es, none, _, .aggregate hfin hph (hnil hnames) hsweep hle hfinish, hnames,
      fun key ↦ hnothing key (participantLoop_quiet hloop), hsame.1, hsame.2.2.2,
      hsweep.map_eq fun _ _ _ _ _ ↦ Round.unmarked_aggregateParticipant, hr'⟩
  · simp only [processSelectionChunk, bind_eq_ok, rejectIf_eq_ok, exists_const, Prod.exists,
      not_lt] at hpass
    obtain ⟨wm, root₁, hloop, hle, hpass⟩ := hpass
    obtain ⟨es, ps', hnames, hsweep, hp, hl₁, hpend₁⟩ :=
      participantLoop_ok (fun _ _ _ _ ↦ selectParticipant_keeps) hc.lotteryKey hncl hp₁ hloop
    have hmid := Midway.of_passes hw hr hc.before hc.opened hp
    have hloud := hc.quietBefore.trans (participantLoop_quiet hloop)
    split at hpass
    · next hfull =>
      have hpagefit : (wm.view rt r.lottery.id
          (.winnerPage (root₁.selectedCount / winnersPerPage))).Fits rt
          (.winnerPage (rt.lotteryKey r.lottery.id) (root₁.selectedCount / winnersPerPage)) := by
        have := hmid.fits root₁ (hl₁.trans hlot) (hpend₁ hpend)
          (.winnerPage (root₁.selectedCount / winnersPerPage))
        rwa [View.setData_apply, if_neg (by simp)] at this
      obtain ⟨winner, page, data, page', data', root₂, v, hwinner, hfind, happ, hrec,
        hnext, ht, hopen, hv⟩ := finishRound_ok hpagefit hc.payer hc.lotteryKey hpass
      obtain ⟨hsame, huc, hl₂, hpend₂⟩ := nextRound_same hnext
      obtain ⟨hfound₁, hwin⟩ := roundWinner_ok hwinner
      have hrec₂ := (recordWinner_ok hrec).2
      have hwf : rt.Foreign winner.wallet := by
        rw [hwin]
        exact hpend₁ hpend hfound₁
      -- the page as the round has it
      have hpagesame : wm.view rt r.lottery.id
        (.winnerPage (root₁.selectedCount / winnersPerPage)) =
          w.view rt r.lottery.id (.winnerPage (root₁.selectedCount / winnersPerPage)) := by
        rw [hp.others _ (by simp), hc.opened.apply_of_ne (by simp)]
      unfold FindsPage at hfind
      rw [hpagesame] at hfind
      have hholds := (FindsPage.holds hfind (hw.fits _)).append hwf happ
      have hopenPage := FindsPage.openPage hr hfind
      have hmid' := hmid.setPage ht hopen hv hholds
      have hroot₂ : root₂.lottery = root₁.lottery ∧ PendingForeign rt root₂ := by
        rw [hrec₂]
        exact ⟨rfl, hpend₁ hpend⟩
      obtain ⟨ht', hf, hr'⟩ := hmid'.represents hr hset hsc hsame
        (hl₂.trans (hroot₂.1.trans (hl₁.trans hlot)))
        (hpend₂ hroot₂.2) hc.after hc.view pre ix accounts
      rw [hr.now] at hnext
      refine ⟨ht', hf, es, some (root₁.selectedCount, winner), _, .selectLast hfin hph (hnil hnames)
        hsweep hfull hwinner (by rw [hopenPage]; exact happ) hrec hnext, hnames,
          fun key ↦ ?_, hsame,
        huc, hsweep.map_eq fun _ _ _ _ _ ↦ Round.unmarked_selectParticipant, hr'⟩
      exact (finishRound_announces hwinner hpass key).pad hloud hc.quietAfter
    · next hfull =>
      simp only [pure_eq_ok, Prod.mk.injEq] at hpass
      obtain ⟨rfl, rfl, rfl⟩ := hpass
      obtain ⟨ht, hf, hr'⟩ := hmid.represents hr hset hsc ⟨rfl, rfl, rfl, rfl, rfl⟩
        (hl₁.trans hlot) (hpend₁ hpend) hc.after hc.view pre ix accounts
      exact ⟨ht, hf, es, none, _, .select hfin hph (hnil hnames) hsweep (by omega), hnames,
        fun key ↦ hnothing key (participantLoop_quiet hloop), ⟨rfl, rfl, rfl, rfl, rfl⟩, rfl,
        hsweep.map_eq fun _ _ _ _ _ ↦ Round.unmarked_selectParticipant, hr'⟩

end Chunks

theorem simulated (hw : WellTyped rt w) (hs : SignersAreKeys rt accounts)
    (h : process rt w accounts = .ok w') (pre : List (K × Bytes)) (ix : Instruction K) :
    Simulated rt (.instruction pre ix accounts) w w' := by
  obtain ⟨c, l, hc, hl, -, heff⟩ := effect hw hs h
  cases heff with
  | done he =>
    subst he
    exact .refl hw l.id (by simp [hl]) fun _ _ ↦ rfl
  | @missing l' hset hsc hpc hmiss hel hrem hbegin ht _ hv =>
    refine .intro l.id (by simp [hl]) ht ?_ ?_
    · rw [hv]
      rcases Lottery.beginRemediation_ok hbegin with ⟨hne, -⟩ | ⟨-, rfl⟩
      · exact absurd hrem hne
      · exact (hw.fits l.id).setLottery _ hl rfl rfl rfl
    · intro acts ws r _ hr
      obtain rfl := hr.eq_lottery hl
      rw [hr.now] at hel hbegin
      refine ⟨_, .beginRemediation hset hsc hpc hmiss hel hrem hbegin, ?_⟩
      refine hr.next ht hv (fun _ ↦ rfl) ⟨rfl, rfl, rfl, rfl⟩ (by simp) (by simpa using hr.vault)
        (by simp [hr.lamports]) .inl ?_ (by simp [hr.tally]) (by simp [hr.ledger])
        (by simp [hr.pages]) (hr.alive.setData (by simp [hl]) _)
      refine hr.roster.push.setLottery l' fun p _ hcl ↦ ?_
      simp [Lottery.Closable, hset, hsc] at hcl
  | chunk hset hsc hpc hatt hmiss hel hchunk =>
    refine ⟨l.id, by simp [hl], fun acts ws r _ hr ↦ ?_⟩
    obtain rfl := hr.eq_lottery hl
    obtain rfl := hr.eq_config hc
    obtain ⟨ht, hf, es, x, r', hturn, -, -, -, -, -, hr'⟩ :=
      hchunk.simulated hw hr hset hsc hpc hatt hmiss hel pre ix accounts
    exact ⟨ht, hf, r', hturn.step, hr'⟩

end DailyLottery.FinalizeWinners
