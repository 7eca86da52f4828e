import DailyLottery.Runs.Roll
import DailyLottery.Round.Onward

set_option linter.unusedSectionVars false

namespace DailyLottery

open Lib

variable {K : Type} [DecidableEq K] [Inhabited K]

namespace AccountInfo

def readonly (k : K) : AccountInfo K := ⟨k, false, false⟩
def writable (k : K) : AccountInfo K := ⟨k, false, true⟩
def signer (k : K) : AccountInfo K := ⟨k, true, true⟩

end AccountInfo

open AccountInfo

variable (rt : Runtime K) (id : ℕ)

def FinalizeNoAttesters.accounts (authority : K) : List (AccountInfo K) :=
  [readonly rt.configKey, writable (rt.lotteryKey id), writable (rt.slotKey id .vault),
    writable authority]

def ClaimRefund.accounts (wallet : K) : List (AccountInfo K) :=
  [readonly rt.configKey, writable (rt.lotteryKey id), writable (rt.slotKey id .vault),
    writable (rt.slotKey id (.participant wallet)), signer wallet]

structure Mounted (w : World K) (c : Config K) (l : Lottery K) : Prop where
  typed : WellTyped rt w
  config : (w.accounts rt.configKey).data = .config c
  lottery : (w.view rt id .lottery).data = .lottery l

variable {rt} {id} {w w' : World K} {c : Config K} {l : Lottery K}

namespace Mounted

theorem owner (h : Mounted rt id w c l) {s : Slot K} (hne : (w.view rt id s).data ≠ .empty) :
    (w.accounts (rt.slotKey id s)).owner = rt.programId := (h.typed.fits id).owner hne

theorem owner_config (h : Mounted rt id w c l) :
    (w.accounts rt.configKey).owner = rt.programId := by
  rcases h.typed .config with ⟨he, -⟩ | ⟨ho, -⟩
  · have := h.config
    rw [Runtime.configKey, he] at this
    cases this
  · exact ho

theorem owner_lottery (h : Mounted rt id w c l) :
    (w.accounts (rt.lotteryKey id)).owner = rt.programId := h.owner (s := .lottery)
    (by simp [h.lottery])

theorem lottery_eq (h : Mounted rt id w c l) :
    l.id = id ∧ l.config = rt.configKey ∧ l.vault = rt.slotKey id .vault := by
  have hs := (h.typed.fits id).holds (s := .lottery) (by simp [h.lottery])
  rw [h.lottery] at hs
  exact hs.2

theorem authority (h : Mounted rt id w c l) : rt.Foreign c.authority := by
  rcases h.typed .config with ⟨he, -⟩ | ⟨-, hs⟩
  · have := h.config
    rw [Runtime.configKey, he] at this
    cases this
  · have hd : (w.accounts (rt.address .config)).data = .config c := h.config
    rw [hd] at hs
    exact hs

theorem read_config (h : Mounted rt id w c l) {ai : AccountInfo K} (hk : ai.key = rt.configKey) :
    readAccountData rt w (Config K) ai = .ok c := by
  apply readAccountData_ok <;> rw [hk, h.config]
  · simp
  · exact unwrap_config.mpr rfl

theorem read {T : Type} [AccountType K T] {t : T} {s : Slot K} {ai : AccountInfo K}
    (hk : ai.key = rt.slotKey id s) (hne : (w.view rt id s).data ≠ .empty)
    (hu : AccountType.unwrap (w.view rt id s).data = some t) :
      readAccountData rt w T ai = .ok t := by
  apply readAccountData_ok <;> rw [hk]
  · exact hne
  · exact hu

theorem read_lottery (h : Mounted rt id w c l) {ai : AccountInfo K}
    (hk : ai.key = rt.lotteryKey id) :
    readAccountData rt w (Lottery K) ai = .ok l :=
  read (s := .lottery) hk (by simp [h.lottery]) (unwrap_lottery.mpr h.lottery)

theorem tick (h : Mounted rt id w c l) (t : ℤ) : Mounted rt id { w with clock := t } c l :=
  ⟨h.typed, h.config, h.lottery⟩

end Mounted

theorem mounted {acts : List (Action K)} {ws : List (World K)}
    (h : (system rt).History acts (w :: ws)) (hl : (w.view rt id .lottery).data = .lottery l) :
    ∃ c, Mounted rt id w c l := by
  have hc := consistent h
  obtain ⟨c, hcfg, -⟩ := (hc.exists_iff id).mp (by simp [hl])
  exact ⟨c, hc.typed, hcfg, hl⟩

namespace FinalizeNoAttesters

theorem accounts_keys {authority : K} : SignersAreKeys rt (accounts rt id authority) := by
  simp [SignersAreKeys, accounts, readonly, writable]

theorem succeeds (h : Mounted rt id w c l) {b : Vault K}
    (hv : (w.view rt id .vault).data = .vault b)
    (hset : l.settled = false)
    (hready : (l.participantsCount = 1 ∧ l.uploadsComplete = true) ∨
      (0 < l.uploadDeadlineUnix ∧ l.uploadDeadlineUnix ≤ w.clock))
    (hcase : l.attestedCount = 0 ∨ l.remediationExpired w.clock = true) :
    ∃ w', process rt w (accounts rt id c.authority) = .ok w' := by
  obtain ⟨hid, hcfg, hvk⟩ := h.lottery_eq
  have hv' := h.owner (s := .vault) (by simp [hv])
  have hl' : (w.accounts (rt.lotteryKey id)).data = .lottery l := h.lottery
  simp only [process, accounts, exists_bind_eq_ok, requireWritable_eq_ok, requireKeyMatch_eq_ok,
    assertPdaOwned_eq_ok, exists_const, readonly, writable]
  refine ⟨⟨rfl, h.owner_config⟩, trivial, trivial, trivial, c, h.read_config rfl, l,
    h.read_lottery rfl, ⟨by rw [hid]; rfl, h.owner_lottery⟩, ⟨rfl, hv'⟩, hvk.symm, rfl, ?_⟩
  simp only [hset, Bool.false_eq_true, if_false, exists_bind_eq_ok, exists_const, rejectIf_eq_ok,
    writeAccountData_eq_ok, pure_eq_ok]
  refine ⟨?_, ?_, _, ⟨?_, trivial, h.owner_lottery, rfl⟩, _, rfl⟩
  · rw [not_and_or, not_not, not_not]
    exact hready
  · rw [not_not]
    exact hcase
  · rw [hl']
    rfl

end FinalizeNoAttesters

namespace ClaimRefund

theorem accounts_keys {wallet : K} (hf : rt.Foreign wallet) :
    SignersAreKeys rt (accounts rt id wallet) := by
  simpa [SignersAreKeys, accounts, readonly, writable, signer, Runtime.Foreign] using hf

theorem succeeds (h : Mounted rt id w c l) {b : Vault K}
    (hv : (w.view rt id .vault).data = .vault b)
    {p : Participant K} (hp : (w.view rt id (.participant p.wallet)).data = .participant p)
    (hset : l.settled = true) (hwc : l.winnersCount = 0) (htp : l.totalPayout = 0)
    (htk : p.ticketsBought ≠ 0) (hcl : p.refundClaimed = false)
    (hlt : l.ticketPriceLamports * p.ticketsBought < 2 ^ 64)
    (hle : l.ticketPriceLamports * p.ticketsBought ≤ (w.view rt id .vault).lamports)
    (hcnt : l.settlementBatchesCompleted + 1 < 2 ^ 32) :
    ∃ w', process rt w (accounts rt id p.wallet) = .ok w' := by
  obtain ⟨hid, hcfg, hvk⟩ := h.lottery_eq
  have hv' := h.owner (s := .vault) (by simp [hv])
  have hp' := h.owner (s := .participant p.wallet) (by simp [hp])
  have hs := (h.typed.fits id).holds (s := .participant p.wallet) (by simp [hp])
  rw [hp] at hs
  obtain ⟨hpl, -, hf⟩ := hs
  have hl' : (w.accounts (rt.slotKey id .lottery)).data = .lottery l := h.lottery
  have hlo : (w.accounts (rt.slotKey id .lottery)).owner = rt.programId := h.owner_lottery
  have hpd : (w.accounts (rt.slotKey id (.participant p.wallet))).data = .participant p := hp
  have hvl : (rt.slotKey id .vault) ≠ p.wallet := (hf.ne_slotKey rt id _).symm
  have hkeys {s t : Slot K} (hst : s ≠ t) : rt.slotKey id s ≠ rt.slotKey id t := by simp [hst]
  have hlk : rt.lotteryKey id = rt.slotKey id .lottery := rfl
  simp only [process, accounts, exists_bind_eq_ok, requireWritable_eq_ok, requireKeyMatch_eq_ok,
    requireSigner_eq_ok, assertPdaOwned_eq_ok, exists_const, readonly, writable, signer,
    rejectIf_eq_ok, okOr_eq_ok, checkedMul_eq_some, checkedAdd_eq_some, moveLamports_eq_ok,
    writeAccountData_eq_ok, pure_eq_ok]
  refine ⟨⟨rfl, h.owner_config⟩, trivial, trivial, trivial, trivial, trivial, c,
    h.read_config rfl, l,
    h.read_lottery rfl, b, Mounted.read rfl (by simp [hv]) (unwrap_vault.mpr hv), p,
    Mounted.read rfl (by simp [hp]) (unwrap_participant.mpr hp),
      ⟨by rw [hid]; rfl, h.owner_lottery⟩,
    by simp [hcfg], ⟨rfl, hv'⟩, hvk.symm, ⟨rfl, hp'⟩, by simp [hpl], by simp [hset, hwc, htp], htk,
    by simp [hcl], _, ⟨hlt, rfl⟩, _, ⟨hvl, hle, trivial, trivial, rfl⟩, _, ⟨hcnt, rfl⟩, _,
      ⟨?_, trivial, ?_, rfl⟩,
    _, ⟨?_, trivial, ?_, rfl⟩, _, rfl⟩
  all_goals
    simp [World.setLamports, World.setData, World.setAccount, Function.update_apply, hlk, hkeys,
      (hf.ne_slotKey rt id _).symm, hpd, hp', hl', hlo, AccountData.isEmpty]

end ClaimRefund

end DailyLottery
