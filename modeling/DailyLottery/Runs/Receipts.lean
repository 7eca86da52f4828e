import DailyLottery.Lib.Ed25519
import DailyLottery.Runs.Commitments

set_option linter.unusedSectionVars false

namespace DailyLottery

open Lib

variable {K : Type} [DecidableEq K] [Inhabited K] {rt : Runtime K} {acts : List (Action K)}
  {w w' : World K} {ws : List (World K)} {accounts : List (AccountInfo K)} {c : Config K}
  {l : Lottery K} {p : Participant K} {pre : List (K × Bytes)} {vote : ℕ} {data : Bytes}

namespace AttestUploaded

/-- `parseEd25519Ix` access by access, with no result where the code would read outside the data. -/
def parseEd25519IxAccesses (data : Bytes) : Option (Option (Bytes × Bytes)) :=
  if data.length < 16 then some none
  else (data[0]?).bind fun num ↦
    if num ≠ 1 then some none
    else do
      let sigOff ← u16At data 2
      let sigIx ← u16At data 4
      let pkOff ← u16At data 6
      let pkIx ← u16At data 8
      let msgOff ← u16At data 10
      let msgSz ← u16At data 12
      let msgIx ← u16At data 14
      if sigIx ≠ 0xFFFF ∨ pkIx ≠ 0xFFFF ∨ msgIx ≠ 0xFFFF then some none
      else if data.length ≤ sigOff then some none
      else if data.length < pkOff + 32 then some none
      else if data.length < msgOff + msgSz then some none
      else
        let pk ← bytesAt data pkOff 32
        let msg ← bytesAt data msgOff msgSz
        if data.length < sigOff + 64 then some none else some (some (pk, msg))

theorem u16At_eq {off : ℕ} (h : off + 1 < data.length) :
    u16At data off = some (readU16 data off) := by
  have hlo := List.getElem?_eq_getElem (l := data) (i := off) (by omega)
  have hhi := List.getElem?_eq_getElem h
  rw [u16At, hlo, hhi, readU16, drop_take_two hlo hhi]
  rfl

theorem head_eq (h : 16 ≤ data.length) : data[0]? = some (data.headD 0) := by
  cases data with
  | nil => simp at h
  | cons b bs => rfl

/-- The parser reads within the data it is given, whatever they are. -/
theorem parseEd25519IxAccesses_eq (data : Bytes) :
    parseEd25519IxAccesses data = some (parseEd25519Ix data) := by
  unfold parseEd25519IxAccesses parseEd25519Ix
  by_cases hlen : data.length < 16
  · rw [if_pos hlen, if_pos hlen]
  · rw [if_neg hlen, if_neg hlen, head_eq (by omega), Option.bind_some]
    by_cases hnum : data.headD 0 ≠ 1
    · rw [if_pos hnum, if_pos hnum]
    · rw [if_neg hnum, if_neg hnum, u16At_eq (by omega), u16At_eq (by omega), u16At_eq (by omega),
        u16At_eq (by omega), u16At_eq (by omega), u16At_eq (by omega), u16At_eq (by omega)]
      simp only [Option.bind_eq_bind, Option.bind_some]
      split_ifs with _ _ hpk hmsg hsig
      · rfl
      · rfl
      · rfl
      · rfl
      · rw [bytesAt_eq (by omega), Option.bind_some, bytesAt_eq (by omega), Option.bind_some]
      · rw [bytesAt_eq (by omega), Option.bind_some, bytesAt_eq (by omega), Option.bind_some]
        rfl

/-- What the parser accepts is, for the ed25519 program too, one signature of the key and the message
it returns, whatever else the transaction holds. -/
theorem checks_of_parse {pk msg : Bytes} (h : parseEd25519Ix data = some (pk, msg)) :
    ∃ signature, ∀ instructions,
      Ed25519.checks instructions data = some [⟨signature, pk, msg⟩] := by
  unfold parseEd25519Ix at h
  by_cases hlen : data.length < 16
  · simp [if_pos hlen] at h
  · rw [if_neg hlen] at h
    dsimp only at h
    split_ifs at h with hnum hix hsig hpk hmsg hend
    simp only [not_or, not_not] at hnum hix
    obtain ⟨hsigIx, hpkIx, hmsgIx⟩ := hix
    simp only [Option.some.injEq, Prod.mk.injEq] at h
    obtain ⟨rfl, rfl⟩ := h
    refine ⟨slice data (readU16 data 2) 64, fun instructions ↦ ?_⟩
    refine Ed25519.checks_one (by omega) (by rw [head_eq (by omega), hnum]) ?_
    have hcheck {off len : ℕ} (h : off + len ≤ data.length) :
        Ed25519.dataSlice instructions data 0xFFFF off len = some (slice data off len) :=
      Ed25519.dataSlice_own instructions h
    rw [Ed25519.checkAt, u16At_eq (by omega), u16At_eq (by omega), u16At_eq (by omega),
      u16At_eq (by omega), u16At_eq (by omega), u16At_eq (by omega), u16At_eq (by omega), hsigIx,
      hpkIx, hmsgIx]
    simp only [Option.bind_eq_bind, Option.bind_some, hcheck (Nat.le_of_not_lt hend),
      hcheck (Nat.le_of_not_lt hpk), hcheck (Nat.le_of_not_lt hmsg)]
    rfl

theorem expectedMessage_inj {lottery lottery' wallet wallet' : K} {hash hash' : Bytes32}
    {vote vote' : ℕ} (hv : vote < 2 ^ 64) (hv' : vote' < 2 ^ 64)
    (h : expectedMessage rt lottery wallet hash vote =
      expectedMessage rt lottery' wallet' hash' vote') :
    rt.keyBytes lottery = rt.keyBytes lottery' ∧ rt.keyBytes wallet = rt.keyBytes wallet' ∧
      hash = hash' ∧ vote = vote' := by
  unfold expectedMessage at h
  obtain ⟨h, hvote⟩ := List.append_inj' h (by simp [leBytes])
  obtain ⟨h, hhash⟩ := List.append_inj' h (by simp)
  obtain ⟨h, hwallet⟩ := List.append_inj' h (by simp)
  obtain ⟨-, hlottery⟩ := List.append_inj' h (by simp)
  exact ⟨Vector.toList_inj.mp hlottery, Vector.toList_inj.mp hwallet, Vector.toList_inj.mp hhash,
    leBytes_inj (by simpa using hv) (by simpa using hv') hvote⟩

theorem providerSigOk_eq_true {authority : K} {message : Bytes}
    (h : providerSigOk rt pre authority message = true) :
    ∃ j data, pre.length ≤ j + 10 ∧ pre[j]? = some (rt.ed25519Program, data) ∧
      parseEd25519Ix data = some ((rt.keyBytes authority).toList, message) := by
  obtain ⟨⟨program, data⟩, hmem, hix⟩ := List.any_eq_true.mp h
  obtain ⟨i, hi, hget⟩ := List.getElem_of_mem hmem
  simp only [List.length_take, List.length_reverse, Nat.lt_min] at hi
  rw [List.getElem_take, List.getElem_reverse] at hget
  simp only [Bool.and_eq_true, decide_eq_true_eq] at hix
  obtain ⟨rfl, hparse⟩ := hix
  refine ⟨pre.length - 1 - i, data, by omega, ?_, ?_⟩
  · rw [List.getElem?_eq_getElem (by omega), hget]
  · split at hparse
    · next pk msg hsome =>
      simp only [Bool.and_eq_true, beq_iff_eq] at hparse
      rw [hsome, hparse.1, hparse.2]
    · cases hparse

end AttestUploaded

/-- The ed25519 program verifies one signature for these data, wherever they stand: the authority's
over the attestation message of a lottery, a wallet, a commitment and a vote. -/
def Receipt (rt : Runtime K) (data : Bytes) (authority lottery wallet : K) (hash : Bytes32)
    (vote : ℕ) : Prop :=
  ∃ signature, ∀ instructions, Ed25519.checks instructions data =
    some [⟨signature, (rt.keyBytes authority).toList,
      AttestUploaded.expectedMessage rt lottery wallet hash vote⟩]

/-- One receipt is about one lottery, wallet, commitment and vote. A key is told by its bytes. -/
theorem Receipt.inj {authority authority' lottery lottery' wallet wallet' : K}
    {hash hash' : Bytes32}
    {vote' : ℕ} (h : Receipt rt data authority lottery wallet hash vote)
    (h' : Receipt rt data authority' lottery' wallet' hash' vote') (hv : vote < 2 ^ 64)
    (hv' : vote' < 2 ^ 64) :
    rt.keyBytes lottery = rt.keyBytes lottery' ∧ rt.keyBytes wallet = rt.keyBytes wallet' ∧
      hash = hash' ∧ vote = vote' := by
  obtain ⟨_, h⟩ := h
  obtain ⟨_, h'⟩ := h'
  have hsame := (h []).symm.trans (h' [])
  simp only [Option.some.injEq, List.cons.injEq, Ed25519.Check.mk.injEq, and_true] at hsame
  exact AttestUploaded.expectedMessage_inj hv hv' hsame.2.2

/-- Where the keys at hand have bytes of their own, it is about one lottery and one wallet. -/
theorem Receipt.unique {authority authority' lottery lottery' wallet wallet' : K}
    {hash hash' : Bytes32} {vote' : ℕ}
    (hinj : Set.InjOn rt.keyBytes {lottery, lottery', wallet, wallet'})
    (h : Receipt rt data authority lottery wallet hash vote)
    (h' : Receipt rt data authority' lottery' wallet' hash' vote') (hv : vote < 2 ^ 64)
    (hv' : vote' < 2 ^ 64) : lottery = lottery' ∧ wallet = wallet' := by
  obtain ⟨hlottery, hwallet, -, -⟩ := h.inj h' hv hv'
  exact ⟨hinj (by simp) (by simp) hlottery, hinj (by simp) (by simp) hwallet⟩

/-- What a successful `AttestUploaded` shows of the instructions before it, and of every later one. -/
structure Authentic (rt : Runtime K) (pre : List (K × Bytes)) (w' : World K) (c : Config K)
    (l : Lottery K) (p : Participant K) (vote : ℕ) : Prop where
  receipt : ∃ j data, pre.length ≤ j + 10 ∧ pre[j]? = some (rt.ed25519Program, data) ∧
    Receipt rt data c.authority (rt.lotteryKey l.id) p.wallet p.proofOfChanceHash vote
  bounds : ∀ data, AttestUploaded.parseEd25519IxAccesses data =
    some (AttestUploaded.parseEd25519Ix data)
  -- receipts for something else would not have done
  exclusive : ∀ authority lottery wallet hash vote', vote' < 2 ^ 64 →
    (∀ ix ∈ pre, ix.1 = rt.ed25519Program → Receipt rt ix.2 authority lottery wallet hash vote') →
    rt.keyBytes lottery = rt.keyBytes (rt.lotteryKey l.id) ∧
      rt.keyBytes wallet = rt.keyBytes p.wallet ∧ hash = p.proofOfChanceHash ∧ vote' = vote
  once : ∀ as w₁ w₂ pre' vote' accounts', (system rt).Path w' as w₁ → CallsOn rt accounts' l.id →
    accounts'[3]?.map AccountInfo.key = some p.wallet →
    ¬Step rt w₁ (.instruction pre' (.attestUploaded vote') accounts') w₂

/-- An attestation rests on a signature of the authority over just this attestation, and cannot be
made twice. -/
theorem receipts_authentic (h : (system rt).History acts (w :: ws))
    (hs : Step rt w (.instruction pre (.attestUploaded vote) accounts) w') :
    ∃ c l p, (w.accounts rt.configKey).data = .config c ∧
      (w.view rt l.id .lottery).data = .lottery l ∧ CallsOn rt accounts l.id ∧
      accounts[3]?.map AccountInfo.key = some p.wallet ∧
      (w.view rt l.id (.participant p.wallet)).data = .participant p ∧
      Authentic rt pre w' c l p vote := by
  have hs' := hs
  cases hs with
  | instruction hsig hok =>
    obtain ⟨c, l, p, hc, hl, hon, hwallet, hp, hsigned, hcan, -, hv⟩ :=
      AttestUploaded.effect (consistent h).typed hok
    have hvote : vote < 2 ^ 64 := (Round.vote_lt hcan).trans (by norm_num)
    obtain ⟨j, data, hj, hget, hparse⟩ := AttestUploaded.providerSigOk_eq_true hsigned
    have hreceipt : Receipt rt data c.authority
      (rt.lotteryKey l.id) p.wallet p.proofOfChanceHash vote :=
      AttestUploaded.checks_of_parse hparse
    refine ⟨c, l, p, hc, hl, hon, hwallet, hp, ⟨j, data, hj, hget, hreceipt⟩,
      AttestUploaded.parseEd25519IxAccesses_eq, ?_, ?_⟩
    · intro authority lottery wallet hash vote' hvote' hall
      exact (hall _ (List.mem_of_getElem? hget) rfl).inj hreceipt hvote' hvote
    · intro as w₁ w₂ pre' vote' accounts' hpath hon' hwallet' hs₁
      have hl' : (w'.view rt l.id .lottery).data = .lottery (l.countAttestation w.clock) := by
        rw [hv]
        simp
      have hp' : (w'.view rt l.id (.participant p.wallet)).data =
          .participant (p.attest vote w.clock) := by
        rw [hv]
        simp
      obtain ⟨ws₁, q, hq, hkept⟩ := kept_of_path (h.step hs') hpath hl' (pastOf_of_data hp')
      obtain ⟨ts, hh, -⟩ := (h.step hs').extend hpath
      cases hs₁ with
      | instruction hsig₁ hok₁ =>
        obtain ⟨c₁, l₁, p₁, -, -, hon₁, hwallet₁, hp₁, -, hcan₁, -⟩ :=
          AttestUploaded.effect (consistent hh).typed hok₁
        rw [← hon'.eq hon₁, Option.some.inj (hwallet₁.symm.trans hwallet')] at hp₁
        rw [pastOf_of_data hp₁] at hq
        cases hq
        simpa [hcan₁.fresh] using hkept.attested rfl

/-- A participant attests with a signature of the authority in front. A receipt for a second lottery
would not have done. -/
theorem receipts_authentic_sample :
    ∃ (pre : List (Sample.Key × Bytes)) (w w' : World Sample.Key) (c : Config Sample.Key)
      (l : Lottery Sample.Key) (p : Participant Sample.Key),
      (w.view Sample.rt 1 .lottery).data = .lottery l ∧
      (w.view Sample.rt 1 (.participant p.wallet)).data = .participant p ∧
      Authentic Sample.rt pre w' c l p 1 ∧
      ∀ wallet hash vote, vote < 2 ^ 64 → ¬∀ ix ∈ pre, ix.1 = Sample.rt.ed25519Program →
        Receipt Sample.rt ix.2 Sample.authority (Sample.lotteryKey 2) wallet hash vote := by
  obtain ⟨w, ws, l, h, hl, hp⟩ := Sample.run_lottery
    [Sample.configure 1000 500 10, Sample.create 1, Sample.buy 1 20 1, Sample.buy 1 21 2,
      .tick (1000 + 24 * 60 * 60)] 1
    (fun w _ ↦ (exec Sample.rt Sample.Key.isWallet w (Sample.attestSigned 1 20 1)).any fun _ ↦ true)
    (by decide +kernel)
  obtain ⟨w', hs, -⟩ := Sample.step_ok hp
  obtain ⟨c, l₀, p, -, hl₀, hon, -, hp, ha⟩ := receipts_authentic h hs
  have hcall : CallsOn Sample.rt [Sample.writable .config, Sample.writable (Sample.lotteryKey 1),
    Sample.writable (Sample.participantKey 1 20), Sample.signer (.wallet 20),
    Sample.writable Sample.rt.instructionsSysvar] 1 := rfl
  obtain hid : 1 = l₀.id := hcall.eq hon
  rw [← hid] at hl₀ hp
  refine ⟨_, w, w', c, l₀, p, hl₀, hp, ha, fun wallet hash vote hvote hall ↦ ?_⟩
  obtain ⟨hkey, -⟩ := ha.exclusive _ _ _ _ _ hvote hall
  rw [← hid] at hkey
  exact absurd hkey (by decide +kernel)

end DailyLottery
