import DailyLottery.Runs.Isolated
import DailyLottery.Twins.Instructions

set_option linter.unusedSectionVars false

namespace DailyLottery

open Lib

variable {K : Type} [DecidableEq K] [Inhabited K] {rt : Runtime K} {N : K → Prop}
  {acts : List (Action K)} {a : Action K} {w w' w₁ w₂ w₁' w₂' : World K} {ws : List (World K)}
  {pre : List (K × Bytes)} {ix : Instruction K} {accounts : List (AccountInfo K)} {id : ℕ}

/-- An instruction that works on one lottery. -/
def Instruction.OnLottery : Instruction K → Prop
  | .initializeConfig _ _ _ => False
  | .createLottery => False
  | .updateServiceCharge _ => False
  | _ => True

/-- A call on a lottery goes the same way in alike worlds. -/
theorem processInstruction_alike (h : Alike rt N w w') (hix : ix.OnLottery)
    (hN : ∀ ai ∈ accounts.tail, N ai.key) :
    Lockstep (Alike rt N) (processInstruction rt w pre ix accounts)
      (processInstruction rt w' pre ix accounts) := by
  have htail {i : ℕ} {ai : AccountInfo K} (hi : accounts[i + 1]? = some ai) : N ai.key := by
    refine hN ai (List.mem_of_getElem? (i := i) ?_)
    rwa [List.getElem?_tail]
  have hdrop {n : ℕ} {ai : AccountInfo K} (hai : ai ∈ accounts.drop (n + 1)) : N ai.key := by
    refine hN ai (List.mem_of_mem_drop (i := n) ?_)
    rwa [List.drop_tail]
  have hnamed (places : List ℕ) (hpos : 0 ∉ places) : Named N accounts places := by
    intro i hi ai hai
    cases i with
    | zero => exact absurd hi hpos
    | succ i => exact htail hai
  cases ix with
  | initializeConfig => exact hix.elim
  | createLottery => exact hix.elim
  | updateServiceCharge => exact hix.elim
  | buyTickets hash count => exact BuyTickets.process_alike h (hnamed _ (by decide)) hash count
  | beginRevealNow att upl =>
    exact BeginRevealPhase.process_alike h (hnamed _ (by decide)) att upl
  | attestUploaded vote => exact AttestUploaded.process_alike h (hnamed _ (by decide)) pre vote
  | attestReveal vote plaintext =>
    exact AttestReveal.process_alike h (hnamed _ (by decide)) vote plaintext
  | uploadReveals entries =>
    exact UploadReveals.process_alike h (hnamed _ (by decide)) fun ai hai _ ↦ hdrop hai
  | finalizeWinners =>
    refine FinalizeWinners.process_alike h (hnamed _ (by decide)) ?_
    rintro configAi lotteryAi vaultAi payerAi systemProgramAi rootAi pageAi rest l rfl -
    exact ⟨hN rootAi (by simp), fun _ ↦ hN pageAi (by simp), fun _ _ _ _ ai hai ↦
      hN ai (by simp [hai])⟩
  | settlePayoutBatch i batch winners =>
    exact SettlePayoutBatch.process_alike h (hnamed _ (by decide)) (fun ai hai ↦ hdrop hai) i batch
      winners
  | finalizeNoAttesters => exact FinalizeNoAttesters.process_alike h (hnamed _ (by decide))
  | claimRefund => exact ClaimRefund.process_alike h (hnamed _ (by decide))
  | closeParticipant => exact CloseParticipant.process_alike h (hnamed _ (by decide))
  | closeRefundVault => exact CloseRefundVault.process_alike h (hnamed _ (by decide))

theorem Consistent.config_owner (hc : Consistent rt acts w ws) {c : Config K}
    (hcd : (w.accounts rt.configKey).data = .config c) :
    (w.accounts rt.configKey).owner = rt.programId := by
  obtain ⟨he, -⟩ | ⟨howner, -⟩ := hc.typed .config
  · cases he.symm.trans hcd
  · exact howner

theorem Step.charged (hc : Consistent rt acts w ws) (hs : Step rt w a w') {c : Config K}
    (hcd : (w.accounts rt.configKey).data = .config c) :
    ∃ c', (w'.accounts rt.configKey).data = .config c' ∧ c.Charged c' := by
  have hsame (hdata : (w'.accounts rt.configKey).data = (w.accounts rt.configKey).data) :
      ∃ c', (w'.accounts rt.configKey).data = .config c' ∧ c.Charged c' :=
    ⟨c, hdata.trans hcd, c.serviceChargeBps, c.lotteryCount, rfl⟩
  cases hs with
  | instruction hsig hok =>
    cases hc.effect hsig hok with
    | unchanged he => exact hsame (by rw [he])
    | configured hconf _ hold =>
      obtain ⟨he, -⟩ | ⟨old, bps, ho, rfl⟩ := hold
      · cases he.symm.trans hcd
      · obtain rfl := AccountData.config.inj (hcd.symm.trans ho)
        exact ⟨_, hconf.data, bps, c.lotteryCount, rfl⟩
    | @created c₀ l bump w₁ hcd₀ _ _ _ _ hconf =>
      obtain rfl := AccountData.config.inj (hcd.symm.trans hcd₀)
      exact ⟨_, hconf.data, c.serviceChargeBps, c.lotteryCount + 1, rfl⟩
    | simulated hsim =>
      obtain ⟨i, ht, -⟩ := hc.simulated hsim
      exact hsame (by rw [ht.config])
  | tick => exact hsame rfl
  | deposit key n =>
    refine hsame ?_
    by_cases hk : rt.configKey = key
    · rw [World.setLamports, ← hk, World.accounts_setAccount_self]
    · rw [World.setLamports, World.accounts_setAccount_of_ne _ _ hk]
  | @outside key account hk =>
    have hne : rt.configKey ≠ key := (hk .config).symm
    exact hsame (by rw [World.accounts_setAccount_of_ne _ _ hne])
  | @reap key hz =>
    refine hsame ?_
    by_cases hk : rt.configKey = key
    · have hpos := (hc.config c hcd).2
      rw [hk, hz] at hpos
      cases hpos
    · rw [World.accounts_setAccount_of_ne _ _ hk]

variable (rt) (id) in
def Own (k : K) : Prop := ∃ s, k = rt.slotKey id s

theorem Alike.view (h : Alike rt (Own rt id) w w') : w'.view rt id = w.view rt id :=
  funext fun s ↦ h.named _ ⟨s, rfl⟩

theorem Step.alike (hc : Consistent rt acts w ws) (hs : Step rt w a w')
    (hne : (w.view rt id .lottery).data ≠ .empty) (hclock : w'.clock = w.clock)
    (hview : w'.view rt id = w.view rt id)
    (howner : (w'.accounts rt.configKey).owner = (w.accounts rt.configKey).owner) :
    Alike rt (Own rt id) w w' := by
  obtain ⟨c, hcd, -⟩ := (hc.exists_iff id).mp hne
  obtain ⟨c', hcd', hcharged⟩ := hs.charged hc hcd
  refine ⟨hclock, ?_, howner, ?_⟩
  · rintro k ⟨s, rfl⟩
    exact congrFun hview s
  · rw [hcd, hcd']
    exact .config hcharged

theorem Initialize.names_config {price bps cap : ℕ}
    (h : Initialize.process rt w accounts price bps cap = .ok w') :
    accounts[1]?.map AccountInfo.key = some rt.configKey := by
  unfold Initialize.process at h
  split at h
  · simp only [bind_eq_ok, requireSigner_eq_ok, requireKeyMatch_eq_ok, rejectIf_eq_ok,
      assertPdaKey_eq_ok, exists_const] at h
    obtain ⟨-, -, -, -, hck, -⟩ := h
    exact congrArg some hck.symm
  · cases h

theorem UpdateServiceCharge.names_signer {bps : ℕ}
    (h : UpdateServiceCharge.process rt w accounts bps = .ok w') :
    ∃ ai, accounts[1]? = some ai ∧ ai.isSigner = true := by
  simp only [UpdateServiceCharge.process, bind_eq_ok, rejectIf_eq_ok, exists_const] at h
  obtain ⟨-, h⟩ := h
  split at h
  · simp only [bind_eq_ok, assertPdaOwned_eq_ok, requireSigner_eq_ok, exists_const] at h
    obtain ⟨-, hsign, -⟩ := h
    exact ⟨_, rfl, hsign⟩
  · cases h

/-- An instruction on the program as a whole does not name a lottery second, but for the one it
creates. -/
theorem Step.onLottery (hc : Consistent rt acts w ws)
    (hs : Step rt w (.instruction pre ix accounts) w')
    (hne : (w.view rt id .lottery).data ≠ .empty) (hon : CallsOn rt accounts id) :
      ix.OnLottery := by
  cases hs with
  | instruction hsig hok =>
    cases ix with
    | initializeConfig price bps cap =>
      have hkey : rt.configKey = rt.slotKey id .lottery :=
        Option.some.inj ((Initialize.names_config hok).symm.trans hon)
      exact absurd hkey rt.configKey_ne_slotKey
    | createLottery =>
      obtain ⟨c, hcd, hnext⟩ := CreateLottery.callsOn hc.typed hok
      obtain rfl := hon.eq hnext
      exact absurd (hc.next_empty hcd).1 hne
    | updateServiceCharge bps =>
      obtain ⟨ai, hai, hsign⟩ := UpdateServiceCharge.names_signer hok
      have hkey : some ai.key = some (rt.lotteryKey id) := (congrArg _ hai.symm).trans hon
      exact absurd (Option.some.inj hkey) (hsig ai (List.mem_of_getElem? hai) hsign _)
    | _ => trivial

theorem Step.instruction_alike (hc : Consistent rt acts w ws)
    (hs : Step rt w (.instruction pre ix accounts) w')
    (hne : (w.view rt id .lottery).data ≠ .empty) (hon : ¬CallsOn rt accounts id) :
    Alike rt (Own rt id) w w' := by
  obtain ⟨c, hcd, -⟩ := (hc.exists_iff id).mp hne
  have hown := hc.config_owner hcd
  have hview : w'.view rt id = w.view rt id := by
    obtain hall | ⟨i, hi, hother⟩ := hs.touches hc
    · exact hall id
    · refine hother id ?_
      rintro rfl
      exact hon hi
  suffices h : w'.clock = w.clock ∧ (w'.accounts rt.configKey).owner = rt.programId by
    exact hs.alike hc hne h.1 hview (h.2.trans hown.symm)
  cases hs with
  | instruction hsig hok =>
    cases hc.effect hsig hok with
    | unchanged he =>
      rw [he]
      exact ⟨rfl, hown⟩
    | configured hconf => exact ⟨hconf.clock, hconf.owner⟩
    | created _ _ _ ht _ hconf => exact ⟨hconf.clock.trans ht.clock, hconf.owner⟩
    | simulated hsim =>
      obtain ⟨i, ht, -⟩ := hc.simulated hsim
      rw [ht.config]
      exact ⟨ht.clock, hown⟩

theorem Step.unique (hs : Step rt w (.instruction pre ix accounts) w')
    (hs' : Step rt w (.instruction pre ix accounts) w₁) : w' = w₁ := by
  cases hs with
  | instruction _ hok =>
    cases hs' with
    | instruction _ hok' => exact Except.ok.inj (hok.symm.trans hok')

variable (rt) in
/-- An action tried: one that cannot be carried out changes nothing. -/
def Attempt (w : World K) (a : Action K) (w' : World K) : Prop :=
  Step rt w a w' ∨ w' = w ∧ ∀ w'', ¬Step rt w a w''

variable (rt) (id) in
/-- Two runs, from a reachable world where lottery `id` exists, of the same attempted actions, but
for updates of the service charge attempted in one alone. Both worlds and the action satisfy
`cond` before each action of both. -/
inductive Twins (cond : World K → World K → Action K → Prop) : World K → World K → Prop
  | start {w : World K} : (system rt).Reachable w → (w.view rt id .lottery).data ≠ .empty →
      Twins cond w w
  | both {w₁ w₂ w₁' w₂' : World K} {a : Action K} : Twins cond w₁ w₂ → cond w₁ w₂ a →
      Attempt rt w₁ a w₁' → Attempt rt w₂ a w₂' → Twins cond w₁' w₂'
  | left {w₁ w₂ w₁' : World K} {pre : List (K × Bytes)} {bps : ℕ}
    {accounts : List (AccountInfo K)} :
      Twins cond w₁ w₂ → Attempt rt w₁ (.instruction pre (.updateServiceCharge bps) accounts) w₁' →
      Twins cond w₁' w₂
  | right {w₁ w₂ w₂' : World K} {pre : List (K × Bytes)} {bps : ℕ}
    {accounts : List (AccountInfo K)} :
      Twins cond w₁ w₂ → Attempt rt w₂ (.instruction pre (.updateServiceCharge bps) accounts) w₂' →
      Twins cond w₁ w₂'

variable (rt) (id) in
/-- The accounts an instruction on the lottery names after the config, apart from the lottery's own,
hold the same in both worlds. -/
def SameNamed (w₁ w₂ : World K) : Action K → Prop
  | .instruction _ _ accounts => CallsOn rt accounts id → ∀ ai ∈ accounts.tail,
      ¬Own rt id ai.key → w₂.accounts ai.key = w₁.accounts ai.key
  | _ => True

variable (rt) (id) in
/-- What the two worlds of twin runs have in common. -/
structure Twin (w₁ w₂ : World K) : Prop where
  left : (system rt).Reachable w₁
  right : (system rt).Reachable w₂
  present : (w₁.view rt id .lottery).data ≠ .empty
  alike : Alike rt (Own rt id) w₁ w₂

theorem Attempt.reachable (h : (system rt).Reachable w) (ha : Attempt rt w a w') :
    (system rt).Reachable w' := by
  obtain hs | ⟨rfl, -⟩ := ha
  · exact h.step hs
  · exact h

theorem Attempt.cases (ha : Attempt rt w a w') {P : Prop} {x : World K}
    (hstep : ∀ w', Step rt w a w' ↔ P ∧ w' = x) : P ∧ w' = x ∨ ¬P ∧ w' = w := by
  obtain hs | ⟨rfl, hno⟩ := ha
  · exact .inl ((hstep w').mp hs)
  · exact .inr ⟨fun hp ↦ hno x ((hstep x).mpr ⟨hp, rfl⟩), rfl⟩

theorem step_tick {time : ℤ} (w' : World K) :
    Step rt w (.tick time) w' ↔ (w.clock ≤ time ∧ time < 2 ^ 63) ∧
    w' = { w with clock := time } := by
  constructor
  · intro hs
    cases hs with
    | tick hle hlt => exact ⟨⟨hle, hlt⟩, rfl⟩
  · rintro ⟨⟨hle, hlt⟩, rfl⟩
    exact .tick hle hlt

theorem step_deposit {key : K} {n : ℕ} (w' : World K) : Step rt w (.deposit key n) w' ↔
    True ∧ w' = w.setLamports key ((w.accounts key).lamports + n) := by
  constructor
  · intro hs
    cases hs
    exact ⟨trivial, rfl⟩
  · rintro ⟨-, rfl⟩
    exact .deposit key n

theorem step_outside {key : K} {account : Account K} (w' : World K) :
    Step rt w (.outside key account) w' ↔
      (∀ s, key ≠ rt.address s) ∧ w' = w.setAccount key account := by
  constructor
  · intro hs
    cases hs with
    | outside _ hk => exact ⟨hk, rfl⟩
  · rintro ⟨hk, rfl⟩
    exact .outside account hk

theorem step_reap {key : K} (w' : World K) : Step rt w (.reap key) w' ↔
    (w.accounts key).lamports = 0 ∧ w' = w.setAccount key .unused := by
  constructor
  · intro hs
    cases hs with
    | reap hz => exact ⟨hz, rfl⟩
  · rintro ⟨hz, rfl⟩
    exact .reap hz

theorem Attempt.reap_alike {key : K} (hw : (system rt).Reachable w)
    (hne : (w.view rt id .lottery).data ≠ .empty) (hk : ¬Own rt id key)
    (ha : Attempt rt w (.reap key) w') : Alike rt (Own rt id) w w' := by
  obtain ⟨acts, ws, hh⟩ := hw
  obtain ⟨hz, rfl⟩ | ⟨-, rfl⟩ := ha.cases step_reap
  · refine .elsewhere hk fun he ↦ ?_
    have hc := consistent hh
    obtain ⟨c, hcd, -⟩ := (hc.exists_iff id).mp hne
    have hpos := (hc.config c hcd).2
    rw [he, hz] at hpos
    cases hpos
  · exact .refl _

namespace Twin

theorem symm (h : Twin rt id w₁ w₂) : Twin rt id w₂ w₁ :=
  ⟨h.right, h.left, by rw [h.alike.view]; exact h.present, h.alike.symm⟩

theorem call (h : Twin rt id w₁ w₂) (hon : CallsOn rt accounts id)
    (hsame : SameNamed rt id w₁ w₂ (.instruction pre ix accounts))
    (hs : Step rt w₁ (.instruction pre ix accounts) w₁') :
    ∃ w₂', Step rt w₂ (.instruction pre ix accounts) w₂' ∧ Alike rt (Own rt id) w₁' w₂' ∧
      ∀ ai ∈ accounts.tail, w₂'.accounts ai.key = w₁'.accounts ai.key := by
  obtain ⟨acts, ws, hleft⟩ := h.left
  have hix := hs.onLottery (consistent hleft) h.present hon
  have hnamed : Alike rt (fun k ↦ Own rt id k ∨ ∃ ai ∈ accounts.tail, ai.key = k) w₁ w₂ := by
    refine ⟨h.alike.clock, ?_, h.alike.owner, h.alike.config⟩
    rintro k (hk | ⟨ai, hai, rfl⟩)
    · exact h.alike.named k hk
    · by_cases hk : Own rt id ai.key
      · exact h.alike.named _ hk
      · exact hsame hon ai hai hk
  cases hs with
  | instruction hsig hok =>
    obtain ⟨w₂', hok', halike⟩ :=
      (processInstruction_alike hnamed hix fun ai hai ↦ .inr ⟨ai, hai, rfl⟩).ok_right hok
    exact ⟨w₂', .instruction hsig hok', halike.mono fun k hk ↦ .inl hk,
      fun ai hai ↦ halike.named _ (.inr ⟨ai, hai, rfl⟩)⟩

theorem environment (h : Twin rt id w₁ w₂)
    (ha : ∀ pre ix accounts, a ≠ .instruction pre ix accounts)
    (h₁ : Attempt rt w₁ a w₁') (h₂ : Attempt rt w₂ a w₂') : Alike rt (Own rt id) w₁' w₂' := by
  have halike := h.alike
  cases a with
  | instruction pre ix accounts => exact absurd rfl (ha pre ix accounts)
  | tick time =>
    have h₂ := h₂.cases step_tick
    rw [halike.clock] at h₂
    obtain ⟨ht, rfl⟩ | ⟨ht, rfl⟩ := h₁.cases step_tick
    · obtain ⟨-, rfl⟩ := h₂.resolve_right fun hno ↦ hno.1 ht
      exact ⟨rfl, halike.named, halike.owner, halike.config⟩
    · obtain ⟨-, rfl⟩ := h₂.resolve_left fun hyes ↦ ht hyes.1
      exact halike
  | deposit key n =>
    obtain ⟨-, rfl⟩ := (h₁.cases step_deposit).resolve_right fun hno ↦ hno.1 trivial
    obtain ⟨-, rfl⟩ := (h₂.cases step_deposit).resolve_right fun hno ↦ hno.1 trivial
    by_cases hk : Own rt id key
    · rw [halike.named key hk]
      exact halike.setLamports hk _
    · have hone (w : World K) (n : ℕ) : Alike rt (Own rt id) w (w.setLamports key n) :=
        .elsewhere hk fun _ ↦ ⟨rfl, rfl⟩
      exact ((hone w₁ _).symm.trans halike).trans (hone w₂ _)
  | outside key account =>
    obtain ⟨hk, rfl⟩ | ⟨hk, rfl⟩ := h₁.cases step_outside
    · obtain ⟨-, rfl⟩ := (h₂.cases step_outside).resolve_right fun hno ↦ hno.1 hk
      exact halike.setAccount _ _
    · obtain ⟨-, rfl⟩ := (h₂.cases step_outside).resolve_left fun hyes ↦ hk hyes.1
      exact halike
  | reap key =>
    by_cases hk : Own rt id key
    · have h₂ := h₂.cases step_reap
      rw [halike.named key hk] at h₂
      obtain ⟨hz, rfl⟩ | ⟨hz, rfl⟩ := h₁.cases step_reap
      · obtain ⟨-, rfl⟩ := h₂.resolve_right fun hno ↦ hno.1 hz
        exact halike.setAccount _ _
      · obtain ⟨-, rfl⟩ := h₂.resolve_left fun hyes ↦ hz hyes.1
        exact halike
    · have hone := h₁.reap_alike h.left h.present hk
      have htwo := h₂.reap_alike h.right h.symm.present hk
      exact (hone.symm.trans halike).trans htwo

theorem attempt_call (h : Twin rt id w₁ w₂) (hon : CallsOn rt accounts id)
    (hsame : SameNamed rt id w₁ w₂ (.instruction pre ix accounts))
    (h₁ : Attempt rt w₁ (.instruction pre ix accounts) w₁')
    (h₂ : Attempt rt w₂ (.instruction pre ix accounts) w₂') : Alike rt (Own rt id) w₁' w₂' := by
  have hsame' : SameNamed rt id w₂ w₁ (.instruction pre ix accounts) :=
    fun hon ai hai hk ↦ (hsame hon ai hai hk).symm
  obtain hs₁ | ⟨rfl, hno₁⟩ := h₁
  · obtain ⟨w₂'', hs, halike, -⟩ := h.call hon hsame hs₁
    obtain hs₂ | ⟨-, hno₂⟩ := h₂
    · obtain rfl := hs.unique hs₂
      exact halike
    · exact absurd hs (hno₂ _)
  · obtain hs₂ | ⟨rfl, -⟩ := h₂
    · obtain ⟨w₁'', hs, -⟩ := h.symm.call hon hsame' hs₂
      exact absurd hs (hno₁ _)
    · exact h.alike

end Twin

theorem Attempt.alike (hw : (system rt).Reachable w)
    (hne : (w.view rt id .lottery).data ≠ .empty) (hon : ¬(CallsOn rt accounts id ∧ ix.OnLottery))
    (ha : Attempt rt w (.instruction pre ix accounts) w') : Alike rt (Own rt id) w w' := by
  obtain ⟨acts, ws, hh⟩ := hw
  have hc := consistent hh
  obtain hs | ⟨rfl, -⟩ := ha
  · exact hs.instruction_alike hc hne fun hcalls ↦ hon ⟨hcalls, hs.onLottery hc hne hcalls⟩
  · exact .refl _

theorem Attempt.present (hw : (system rt).Reachable w)
    (hne : (w.view rt id .lottery).data ≠ .empty) (ha : Attempt rt w a w') :
    (w'.view rt id .lottery).data ≠ .empty := by
  obtain ⟨acts, ws, hh⟩ := hw
  have hc := consistent hh
  obtain hs | ⟨rfl, -⟩ := ha
  · obtain ⟨r, hreach, hr⟩ := hc.round id hne
    obtain ⟨r', -, hr'⟩ := hc.follow hs hr (Round.invariant hreach)
    simp [hr'.lottery]
  · exact hne

/-- Twin runs leave the lottery alike. -/
theorem Twins.twin (h : Twins rt id (SameNamed rt id) w₁ w₂) : Twin rt id w₁ w₂ := by
  have hupdate (bps : ℕ) (accounts : List (AccountInfo K)) : ¬(CallsOn rt accounts id ∧
      (Instruction.updateServiceCharge bps : Instruction K).OnLottery) := fun hon ↦ hon.2
  induction h with
  | start hw hne => exact ⟨hw, hw, hne, .refl _⟩
  | @both w₁ w₂ w₁' w₂' a _ hsame h₁ h₂ ih =>
    refine ⟨h₁.reachable ih.left, h₂.reachable ih.right, h₁.present ih.left ih.present, ?_⟩
    by_cases ha : ∃ pre ix accounts, a = .instruction pre ix accounts
    · obtain ⟨pre, ix, accounts, rfl⟩ := ha
      by_cases hon : CallsOn rt accounts id
      · exact ih.attempt_call hon hsame h₁ h₂
      · have hone := h₁.alike ih.left ih.present fun h ↦ hon h.1
        have htwo := h₂.alike ih.right ih.symm.present fun h ↦ hon h.1
        exact (hone.symm.trans ih.alike).trans htwo
    · exact ih.environment (fun pre ix accounts he ↦ ha ⟨pre, ix, accounts, he⟩) h₁ h₂
  | left _ ha ih =>
    have hone := ha.alike ih.left ih.present (hupdate _ _)
    exact ⟨ha.reachable ih.left, ih.right, ha.present ih.left ih.present,
      hone.symm.trans ih.alike⟩
  | right _ ha ih =>
    have hone := ha.alike ih.right ih.symm.present (hupdate _ _)
    exact ⟨ih.left, ha.reachable ih.right, ih.present, ih.alike.trans hone⟩

theorem charged_path (h : (system rt).Reachable w) {as : List (Action K)}
    (hp : (system rt).Path w as w') {c : Config K}
    (hcd : (w.accounts rt.configKey).data = .config c) :
    ∃ c', (w'.accounts rt.configKey).data = .config c' ∧ c.Charged c' := by
  induction hp generalizing c with
  | nil => exact ⟨c, hcd, c.serviceChargeBps, c.lotteryCount, rfl⟩
  | cons hs _ ih =>
    obtain ⟨acts, ws, hh⟩ := h
    obtain ⟨c₁, hcd₁, hone⟩ := Step.charged (consistent hh) hs hcd
    obtain ⟨c', hcd', hrest⟩ := ih (System.Reachable.step ⟨acts, ws, hh⟩ hs) hcd₁
    exact ⟨c', hcd', hone.trans hrest⟩

theorem Step.initialize {price bps cap : ℕ} {c : Config K}
    (hs : Step rt w (.instruction pre (.initializeConfig price bps cap) accounts) w')
    (hcd : (w.accounts rt.configKey).data = .config c) : w' = w := by
  cases hs with
  | instruction hsig hok =>
    obtain he | ⟨he, -⟩ := Initialize.effect hsig hok
    · exact he
    · cases he.symm.trans hcd

theorem UpdateServiceCharge.elsewhere {bps : ℕ}
    (h : UpdateServiceCharge.process rt w accounts bps = .ok w') {k : K} (hk : k ≠ rt.configKey) :
    w'.accounts k = w.accounts k := by
  simp only [UpdateServiceCharge.process, bind_eq_ok, rejectIf_eq_ok, exists_const] at h
  obtain ⟨-, h⟩ := h
  split at h
  · simp only [bind_eq_ok, assertPdaOwned_eq_ok, requireSigner_eq_ok, rejectIf_eq_ok, exists_const,
      writeAccountData_eq_ok, pure_eq_ok] at h
    obtain ⟨⟨hck, -⟩, -, -, c, -, -, _, ⟨-, -, -, rfl⟩, rfl⟩ := h
    exact World.accounts_setAccount_of_ne _ _ fun he ↦ hk (he.trans hck.symm)
  · cases h

namespace Sample

/-- The sample runtime built with the updates of the service charge. -/
def updatable : Runtime Key := { Sample.rt with allowServiceChargeUpdate := true }

theorem updatable_foreign (k : Key) (h : k.isWallet = true) (s : Seeds Key) :
    k ≠ updatable.address s := foreign_of_isWallet k h s

theorem updatable_derived (k : Key) (h : k.isWallet = false) : ∃ s, k = updatable.address s :=
  derived_of_not_isWallet k h

def update (bps : ℕ) : Action Key :=
  .instruction [] (.updateServiceCharge bps) [writable .config, signer authority]

theorem updatable_reachable {acts : List (Action Key)} {w : World Key}
    (h : execAll updatable Key.isWallet acts genesis = some w) :
      (system updatable).Reachable w := by
  have hg : Genesis updatable genesis := ⟨genesis_genesis.unused, by decide, by decide⟩
  obtain ⟨ws, hh, -⟩ := (System.History.init hg).extend (execAll_path updatable_foreign h)
  exact ⟨_, ws, hh⟩

def attempt (w : World Key) (a : Action Key) : World Key :=
  (exec updatable Key.isWallet w a).getD w

theorem attempt_attempt (w : World Key) (a : Action Key) : Attempt updatable w a (attempt w a) := by
  unfold attempt
  cases he : exec updatable Key.isWallet w a with
  | some w' => exact .inl (exec_step updatable_foreign he)
  | none =>
    refine .inr ⟨rfl, fun w' hs ↦ ?_⟩
    cases he.symm.trans (step_exec updatable_derived hs)

theorem twins_attempts {id : ℕ} {w₁ w₂ : World Key} (as : List (Action Key))
    (h : Twins updatable id (fun _ _ _ ↦ True) w₁ w₂) :
    Twins updatable id (fun _ _ _ ↦ True) (as.foldl attempt w₁) (as.foldl attempt w₂) := by
  induction as generalizing w₁ w₂ with
  | nil => exact h
  | cons a as ih => exact ih (.both h trivial (attempt_attempt _ a) (attempt_attempt _ a))

theorem start {cond : World Key → World Key → Action Key → Prop} {acts : List (Action Key)}
    {w : World Key} {id : ℕ} {l : Lottery Key}
    (h : execAll updatable Key.isWallet acts genesis = some w) (hl : lotteryOf w id = some l) :
    Twins updatable id cond w w := by
  have hdata : (w.view updatable id .lottery).data = .lottery l := unwrap_lottery.mp hl
  refine .start (updatable_reachable h) ?_
  rw [hdata]
  simp

def opening : List (Action Key) :=
  [configure (10 ^ 9) 0 10, create 1, buy 1 20 1, buy 1 22 1]

/-- A second lottery is run and its winner, who has spent all else, paid the whole pool. -/
def second : List (Action Key) :=
  [create 2, buy 2 20 1, buy 2 22 1, .tick (1000 + 24 * 60 * 60), attest 2 20 1, attest 2 22 1,
    finalize 2 0 [20, 22], finalize 2 0 [20, 22], .outside (.wallet 22) ⟨0, default, .empty⟩,
    pay 2 0 (2 * 10 ^ 9) [(0, 22)]]

end Sample

/-- In two runs that differ only by updates of the service charge, the accounts of a lottery are the
same, and an instruction on it goes through in both, with the same outcome for the accounts it
names, or in neither, as long as the other accounts it names hold the same in both. Nothing but the
service charge and the number of lotteries of a config ever changes, and `Initialize` changes
nothing of it. -/
theorem charges_frozen (h : Twins rt id (SameNamed rt id) w₁ w₂) :
    w₂.view rt id = w₁.view rt id ∧
      (∀ pre ix accounts, CallsOn rt accounts id →
        SameNamed rt id w₁ w₂ (.instruction pre ix accounts) →
        ((∃ w₁', Step rt w₁ (.instruction pre ix accounts) w₁') ↔
          ∃ w₂', Step rt w₂ (.instruction pre ix accounts) w₂') ∧
        ∀ w₁' w₂', Step rt w₁ (.instruction pre ix accounts) w₁' →
          Step rt w₂ (.instruction pre ix accounts) w₂' →
            w₂'.view rt id = w₁'.view rt id ∧
              ∀ ai ∈ accounts.tail, w₂'.accounts ai.key = w₁'.accounts ai.key) ∧
      ∀ w c, (system rt).Reachable w → (w.accounts rt.configKey).data = .config c →
        (∀ pre price bps cap accounts w',
          Step rt w (.instruction pre (.initializeConfig price bps cap) accounts) w' → w' = w) ∧
        ∀ as w', (system rt).Path w as w' → ∃ c', (w'.accounts rt.configKey).data = .config c' ∧
          c'.authority = c.authority ∧ c'.ticketPriceLamports = c.ticketPriceLamports ∧
          c'.maxWinnersCap = c.maxWinnersCap := by
  have htwin := h.twin
  refine ⟨htwin.alike.view, fun pre ix accounts hon hsame ↦ ⟨⟨?_, ?_⟩, ?_⟩, ?_⟩
  · rintro ⟨w₁', hs⟩
    obtain ⟨w₂', hs', -⟩ := htwin.call hon hsame hs
    exact ⟨w₂', hs'⟩
  · rintro ⟨w₂', hs⟩
    obtain ⟨w₁', hs', -⟩ := htwin.symm.call hon (fun hon ai hai hk ↦ (hsame hon ai hai hk).symm) hs
    exact ⟨w₁', hs'⟩
  · intro w₁' w₂' hs₁ hs₂
    obtain ⟨w₂'', hs, halike, hnamed⟩ := htwin.call hon hsame hs₁
    obtain rfl := hs.unique hs₂
    exact ⟨halike.view, hnamed⟩
  · intro w c hw hcd
    refine ⟨fun pre price bps cap accounts w' hs ↦ hs.initialize hcd, fun as w' hp ↦ ?_⟩
    obtain ⟨c', hcd', bps, count, rfl⟩ := charged_path hw hp hcd
    exact ⟨_, hcd', rfl, rfl, rfl⟩

/-- An update, and then an attestation that goes through in both worlds. -/
theorem charges_frozen_sample : ∃ (w₁ w₂ w₁' w₂' : World Sample.Key),
    Step Sample.updatable w₁ (Sample.update 5000) w₂ ∧
      Step Sample.updatable w₁ (Sample.attest 1 22 1) w₁' ∧
      Step Sample.updatable w₂ (Sample.attest 1 22 1) w₂' ∧
      w₂'.view Sample.updatable 1 = w₁'.view Sample.updatable 1 := by
  have hrun : (execAll Sample.updatable Sample.Key.isWallet
      (Sample.opening ++ [.tick (1000 + 24 * 60 * 60)]) Sample.genesis).any
      (fun w ↦ (Sample.lotteryOf w 1).isSome &&
        (exec Sample.updatable Sample.Key.isWallet w (Sample.update 5000)).isSome &&
        (exec Sample.updatable Sample.Key.isWallet w (Sample.attest 1 22 1)).isSome) = true := by
    decide +kernel
  obtain ⟨w₁, hw, hp⟩ := (Option.any_eq_true _ _).mp hrun
  simp only [Bool.and_eq_true, Option.isSome_iff_exists] at hp
  obtain ⟨⟨⟨l, hl⟩, w₂, hupdate⟩, w₁', hattest⟩ := hp
  have hupdate := exec_step Sample.updatable_foreign hupdate
  have hattest := exec_step Sample.updatable_foreign hattest
  have hstart : Twins Sample.updatable 1 (SameNamed Sample.updatable 1) w₁ w₁ := Sample.start hw hl
  obtain ⟨-, hcalls, -⟩ := charges_frozen (hstart.right (.inl hupdate))
  have hsame : SameNamed Sample.updatable 1 w₁ w₂ (Sample.attest 1 22 1) := by
    intro _ ai hai _
    cases hupdate with
    | instruction _ hok =>
      have hok : UpdateServiceCharge.process Sample.updatable w₁
        [Sample.writable .config, Sample.signer Sample.authority] 5000 = .ok w₂ := hok
      refine UpdateServiceCharge.elsewhere hok fun hk ↦ ?_
      simp only [List.tail_cons, List.mem_cons, List.not_mem_nil, or_false] at hai
      rcases hai with rfl | rfl | rfl | rfl | rfl <;> cases hk
  have hcall := fun hon ↦ hcalls _ _ _ hon hsame
  obtain ⟨hiff, hboth⟩ := hcall rfl
  obtain ⟨w₂', hattest'⟩ := hiff.mp ⟨w₁', hattest⟩
  exact ⟨w₁, w₂, w₁', w₂', hupdate, hattest, hattest', (hboth w₁' w₂' hattest hattest').1⟩

/-- Without that condition the claim fails: the second lottery, created after the update, takes a
fee, so its winner is not paid the whole pool and lacks the rent for an attestation in the first. -/
theorem charges_reach_wallets : ∃ (w₁ w₂ w₁' : World Sample.Key),
    Twins Sample.updatable 1 (fun _ _ _ ↦ True) w₁ w₂ ∧
      Step Sample.updatable w₁ (Sample.attest 1 22 1) w₁' ∧
      ∀ w₂', ¬Step Sample.updatable w₂ (Sample.attest 1 22 1) w₂' := by
  have hrun : (execAll Sample.updatable Sample.Key.isWallet Sample.opening Sample.genesis).any
      (fun w ↦ (Sample.lotteryOf w 1).isSome &&
        (exec Sample.updatable Sample.Key.isWallet (Sample.second.foldl Sample.attempt w)
          (Sample.attest 1 22 1)).isSome &&
        (exec Sample.updatable Sample.Key.isWallet
          (Sample.second.foldl Sample.attempt (Sample.attempt w (Sample.update 5000)))
          (Sample.attest 1 22 1)).isNone) = true := by decide +kernel
  obtain ⟨w, hw, hp⟩ := (Option.any_eq_true _ _).mp hrun
  simp only [Bool.and_eq_true] at hp
  obtain ⟨⟨hl, hsome⟩, hnone⟩ := hp
  obtain ⟨l, hl⟩ := Option.isSome_iff_exists.mp hl
  have hstart : Twins Sample.updatable 1 (fun _ _ _ ↦ True) w w := Sample.start hw hl
  have hcharged := hstart.right (Sample.attempt_attempt w (Sample.update 5000))
  obtain ⟨w₁', hs⟩ := Option.isSome_iff_exists.mp hsome
  refine ⟨_, _, w₁', Sample.twins_attempts Sample.second hcharged,
    exec_step Sample.updatable_foreign hs, fun w₂' hs' ↦ ?_⟩
  have hsome := step_exec Sample.updatable_derived hs'
  cases (Option.isNone_iff_eq_none.mp hnone).symm.trans hsome

end DailyLottery
