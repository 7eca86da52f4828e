import DailyLottery.Lib.Returns
import DailyLottery.Execute

set_option linter.unusedSectionVars false

namespace DailyLottery

open Lib

inductive Topic
  | config
  | lottery
  | purchase
  | phase
  | attestation
  | reveals
  | winners
  | payout
  | settlement
  | refund
  | closing
  deriving DecidableEq

/-- The ways the runtime lets a program change its ledger. -/
inductive Kind
  | write
  | create
  | transfer
  | move
  | log (topic : Topic)
  deriving DecidableEq

variable {K : Type} [DecidableEq K] [Inhabited K]

@[simp] def LotteryEvent.topic : LotteryEvent K → Topic
  | .systemInitialized .. | .serviceChargeUpdated .. => .config
  | .lotteryCreated .. => .lottery
  | .ticketsPurchased .. => .purchase
  | .uploadPhaseBegan .. | .settlementPhaseBegan .. => .phase
  | .attestationSubmitted .. => .attestation
  | .revealsUploaded .. | .revealRemediationBegan .. | .revealRemediationCompleted .. => .reveals
  | .winnersComputed .. | .winnersFinalized .. | .winnerSelected ..
  | .finalizationChunkProcessed .. => .winners
  | .winnerPaid .. | .payoutsComplete .. | .serviceFeePaid .. => .payout
  | .lotterySettled .. | .refundsIssued .. => .settlement
  | .refundClaimed .. => .refund
  | .refundVaultClosed .. | .participantClosed .. => .closing

/-- What a state type writes is never the empty data. -/
class NeverEmpty (K T : Type) [AccountType K T] : Prop where
  wrap_ne_empty : ∀ (t : T) (d : AccountData K), AccountType.wrap t d ≠ .empty

instance : NeverEmpty K (Config K) := ⟨fun _ _ ↦ nofun⟩
instance : NeverEmpty K (Lottery K) := ⟨fun _ _ ↦ nofun⟩
instance : NeverEmpty K (Participant K) := ⟨fun _ _ ↦ nofun⟩
instance : NeverEmpty K (Vault K) := ⟨fun _ _ ↦ nofun⟩
instance : NeverEmpty K (VoteTally K) := ⟨fun _ _ ↦ nofun⟩
instance : NeverEmpty K (FinalizationLedger K) := ⟨fun _ _ ↦ nofun⟩
instance : NeverEmpty K (WinnerPage K) := ⟨fun _ _ ↦ nofun⟩

def Runtime.Derived (rt : Runtime K) (k : K) : Prop := ∃ s, rt.address s = k

/-- One change, made with the accounts of the call: data written over data the program owns, an
account created, lamports transferred by a signer or moved out of an account the program owns, an
event logged. Apart from what a signer pays, only derived addresses are written or debited. -/
inductive Act (rt : Runtime K) (accounts : List (AccountInfo K)) (w : World K) :
    Kind → World K → Prop
  | write {ai : AccountInfo K} {d : AccountData K} : ai ∈ accounts → rt.Derived ai.key →
      ai.isWritable = true → (w.accounts ai.key).owner = rt.programId →
      (w.accounts ai.key).data ≠ .empty → d ≠ .empty → Act rt accounts w .write (w.setData ai.key d)
  | create {payer new : AccountInfo K} {space : ℕ} {w' : World K} : payer ∈ accounts →
      new ∈ accounts → rt.Derived new.key → createAccount rt w payer new space = .ok w' →
      Act rt accounts w .create w'
  | transfer {source target : AccountInfo K} {n : ℕ} {w' : World K} : source ∈ accounts →
      target ∈ accounts → systemTransfer w source target n = .ok w' →
      Act rt accounts w .transfer w'
  | move {source target : AccountInfo K} {n : ℕ} {w' : World K} : source ∈ accounts →
      target ∈ accounts → rt.Derived source.key → (w.accounts source.key).owner = rt.programId →
      moveLamports w source target n = .ok w' → Act rt accounts w .move w'
  | log (e : LotteryEvent K) : Act rt accounts w (.log e.topic) (w.emit e)

variable {rt : Runtime K} {accounts : List (AccountInfo K)} {kinds : List Kind}
  {w w₀ w' w'' : World K} {ai : AccountInfo K}

theorem systemTransfer_ok {source target : AccountInfo K} {n : ℕ}
    (h : systemTransfer w source target n = .ok w') :
    (source.isSigner = true ∧ source.isWritable = true ∧ target.isWritable = true) ∧
      (w.accounts source.key).data.isEmpty = true ∧ (w.accounts source.key).owner = default ∧
      n ≤ (w.accounts source.key).lamports ∧
      ((source.key = target.key ∧ w' = w) ∨ source.key ≠ target.key ∧
        w' = (w.setLamports source.key
          ((w.accounts source.key).lamports - n)).setLamports target.key
          ((w.accounts target.key).lamports + n)) := by
  by_cases hne : source.key = target.key
  · simp only [systemTransfer, bind_eq_ok, rejectIf_eq_ok, exists_const, pure_eq_ok, not_or, not_lt,
      Bool.not_eq_false, not_not, ne_eq] at h
    obtain ⟨hflags, ⟨hdata, howner⟩, hn, rfl⟩ := h
    refine ⟨⟨hflags.1, hflags.2.1, hflags.2.2⟩, hdata, howner, hn, .inl ⟨hne, ?_⟩⟩
    rw [← hne]
    simp only [World.setLamports, World.setAccount, Function.update_self, Function.update_idem,
      Nat.sub_add_cancel hn]
    exact congrArg (fun f ↦ { w with accounts := f })
      (Function.update_eq_self source.key w.accounts)
  · obtain ⟨hflags, hdata, howner, hn, rfl⟩ := (systemTransfer_eq_ok hne).mp h
    exact ⟨hflags, hdata, howner, hn, .inr ⟨hne, rfl⟩⟩

/-- An account that can pay: it signs the call and holds lamports only. -/
def Pays (accounts : List (AccountInfo K)) (w : World K) (k : K) : Prop :=
  (∃ ai ∈ accounts, ai.key = k ∧ ai.isSigner = true) ∧ (w.accounts k).owner = default ∧
    (w.accounts k).data = .empty

/-- What a program can do with the accounts it is given, by the kinds of changes it makes. -/
structure Lawful (rt : Runtime K) (accounts : List (AccountInfo K)) (kinds : List Kind)
    (w w' : World K) : Prop where
  clock : w'.clock = w.clock
  log : ∃ es, w'.log = w.log ++ es ∧ ∀ e ∈ es, .log e.topic ∈ kinds
  readonly : ∀ k, (∀ ai ∈ accounts, ai.key = k → ai.isWritable = false) →
    w'.accounts k = w.accounts k
  total : ∀ s : Finset K, (∀ ai ∈ accounts, ai.key ∈ s) →
    ∑ k ∈ s, (w'.accounts k).lamports = ∑ k ∈ s, (w.accounts k).lamports
  credit : ∀ k, (w.accounts k).lamports < (w'.accounts k).lamports →
    (.create ∈ kinds ∧ (w'.accounts k).owner = rt.programId ∧ (w'.accounts k).data ≠ .empty) ∨
      .transfer ∈ kinds ∨ .move ∈ kinds
  debit : ∀ k, (w'.accounts k).lamports < (w.accounts k).lamports →
    .move ∈ kinds ∧ (w.accounts k).owner = rt.programId ∧ rt.Derived k ∨
      (.create ∈ kinds ∨ .transfer ∈ kinds) ∧ Pays accounts w k
  owner : ∀ k, (w'.accounts k).owner ≠ (w.accounts k).owner →
    .create ∈ kinds ∧ (w.accounts k).owner = default ∧ (w.accounts k).data = .empty ∧
      (w'.accounts k).owner = rt.programId ∧ rt.Derived k ∧
      ((w.accounts k).lamports = 0 ∨ Pays accounts w k)
  data : ∀ k, (w'.accounts k).data ≠ (w.accounts k).data →
    (.write ∈ kinds ∨ .create ∈ kinds) ∧ (w'.accounts k).owner = rt.programId ∧ rt.Derived k ∧
      (w'.accounts k).data ≠ .empty

namespace Lawful

theorem congr (h : Lawful rt accounts kinds w w') (he : w' = w'') :
    Lawful rt accounts kinds w w'' :=
  he ▸ h

theorem refl (w : World K) : Lawful rt accounts kinds w w where
  clock := rfl
  log := ⟨[], (List.append_nil _).symm, nofun⟩
  readonly _ _ := rfl
  total _ _ := rfl
  credit _ h := absurd h (lt_irrefl _)
  debit _ h := absurd h (lt_irrefl _)
  owner _ h := absurd rfl h
  data _ h := absurd rfl h

section Facts

variable (h : Lawful rt accounts kinds w w')

include h

theorem owned {k : K} (hk : (w.accounts k).owner = rt.programId) :
    (w'.accounts k).owner = rt.programId := by
  by_contra hne
  obtain ⟨-, hd, -⟩ := h.owner k fun he ↦ hne (he.trans hk)
  exact rt.programId_ne_default (hk.symm.trans hd)

theorem present {k : K} (hk : (w.accounts k).data ≠ .empty) : (w'.accounts k).data ≠ .empty := by
  by_cases he : (w'.accounts k).data = (w.accounts k).data
  · rwa [he]
  · exact (h.data k he).2.2.2

theorem plain {k : K} (ho : (w'.accounts k).owner = default) (hd : (w'.accounts k).data = .empty) :
    (w.accounts k).owner = default ∧ (w.accounts k).data = .empty := by
  constructor
  · by_contra hne
    obtain ⟨-, -, -, hp, -⟩ := h.owner k fun he ↦ hne (he.symm.trans ho)
    exact rt.programId_ne_default (hp.symm.trans ho)
  · by_contra hne
    exact h.present hne hd

theorem pays {k : K} (hk : Pays accounts w' k) : Pays accounts w k :=
  ⟨hk.1, h.plain hk.2.1 hk.2.2⟩

end Facts

theorem trans (h : Lawful rt accounts kinds w w') (h' : Lawful rt accounts kinds w' w'') :
    Lawful rt accounts kinds w w'' where
  clock := h'.clock.trans h.clock
  log := by
    obtain ⟨es, hlog, hall⟩ := h.log
    obtain ⟨es', hlog', hall'⟩ := h'.log
    refine ⟨es ++ es', by rw [hlog', hlog, List.append_assoc], fun e he ↦ ?_⟩
    exact (List.mem_append.mp he).elim (hall e) (hall' e)
  readonly k hk := (h'.readonly k hk).trans (h.readonly k hk)
  total s hs := (h'.total s hs).trans (h.total s hs)
  credit k hk := by
    by_cases hlt : (w.accounts k).lamports < (w'.accounts k).lamports
    · exact (h.credit k hlt).imp_left fun hc ↦ ⟨hc.1, h'.owned hc.2.1, h'.present hc.2.2⟩
    · exact h'.credit k (by omega)
  debit k hk := by
    by_cases hlt : (w'.accounts k).lamports < (w.accounts k).lamports
    · exact h.debit k hlt
    · rcases h'.debit k (by omega) with ⟨hm, ho, hs⟩ | ⟨hc, hp⟩
      · by_cases he : (w'.accounts k).owner = (w.accounts k).owner
        · exact .inl ⟨hm, he ▸ ho, hs⟩
        -- taken over on the way: it held nothing, or had paid before
        · obtain ⟨hc, -, -, -, -, hz | hp⟩ := h.owner k he
          · omega
          · exact .inr ⟨.inl hc, hp⟩
      · exact .inr ⟨hc, h.pays hp⟩
  owner k hk := by
    by_cases he : (w'.accounts k).owner = (w.accounts k).owner
    · obtain ⟨hc, hd, hempty, ho, hs, hz⟩ := h'.owner k fun he' ↦ hk (he'.trans he)
      obtain ⟨hd₀, hempty₀⟩ := h.plain hd hempty
      refine ⟨hc, hd₀, hempty₀, ho, hs, ?_⟩
      rcases hz with hz | hp
      · by_cases hz₀ : (w.accounts k).lamports = 0
        · exact .inl hz₀
        · rcases h.debit k (by omega) with ⟨-, hown, -⟩ | ⟨-, hp⟩
          · exact absurd (hown.symm.trans hd₀) rt.programId_ne_default
          · exact .inr hp
      · exact .inr (h.pays hp)
    · obtain ⟨hc, hd, hempty, ho, hs, hz⟩ := h.owner k he
      exact ⟨hc, hd, hempty, h'.owned ho, hs, hz⟩
  data k hk := by
    by_cases he : (w'.accounts k).data = (w.accounts k).data
    · exact h'.data k fun he' ↦ hk (he'.trans he)
    · obtain ⟨hc, ho, hs, hne⟩ := h.data k he
      exact ⟨hc, h'.owned ho, hs, h'.present hne⟩

end Lawful

theorem total_setAccount {s : Finset K} {k : K} (hk : k ∈ s) (a : Account K) :
    (∑ k' ∈ s, ((w.setAccount k a).accounts k').lamports) + (w.accounts k).lamports =
      (∑ k' ∈ s, (w.accounts k').lamports) + a.lamports := by
  have hrest : ∑ k' ∈ s.erase k, ((w.setAccount k a).accounts k').lamports =
      ∑ k' ∈ s.erase k, (w.accounts k').lamports := by
    refine Finset.sum_congr rfl fun k' hk' ↦ ?_
    rw [World.accounts_setAccount_of_ne _ _ (Finset.ne_of_mem_erase hk')]
  rw [← Finset.add_sum_erase s _ hk, ← Finset.add_sum_erase s (fun j ↦ (w.accounts j).lamports) hk,
    hrest, World.accounts_setAccount_self]
  omega

theorem total_move {s : Finset K} {k k' : K} {n : ℕ} (hne : k ≠ k') (hk : k ∈ s) (hk' : k' ∈ s)
    (hn : n ≤ (w.accounts k).lamports) :
    ∑ j ∈ s, (((w.setLamports k ((w.accounts k).lamports - n)).setLamports k'
      ((w.accounts k').lamports + n)).accounts j).lamports = ∑ j ∈ s, (w.accounts j).lamports := by
  have hfrom := total_setAccount (w := w) hk
    { w.accounts k with lamports := (w.accounts k).lamports - n }
  have hto := total_setAccount (w := w.setLamports k ((w.accounts k).lamports - n)) hk'
    { (w.setLamports k ((w.accounts k).lamports - n)).accounts k' with
      lamports := (w.accounts k').lamports + n }
  have hsame : ((w.setLamports k ((w.accounts k).lamports - n)).accounts k').lamports =
      (w.accounts k').lamports := by
    rw [World.setLamports, World.accounts_setAccount_of_ne _ _ hne.symm]
  rw [hsame] at hto
  simp only [World.setLamports] at hfrom hto ⊢
  omega

namespace Lawful

theorem move {source target : AccountInfo K} {n : ℕ} (hs : source ∈ accounts)
    (ht : target ∈ accounts) (hne : source.key ≠ target.key)
    (hn : n ≤ (w.accounts source.key).lamports)
    (hws : source.isWritable = true) (hwt : target.isWritable = true)
    (hkinds : (.create ∈ kinds ∧ (w.accounts target.key).owner = rt.programId ∧
      (w.accounts target.key).data ≠ .empty) ∨ .transfer ∈ kinds ∨ .move ∈ kinds)
    (hmay : .move ∈ kinds ∧ (w.accounts source.key).owner = rt.programId ∧ rt.Derived source.key ∨
      (.create ∈ kinds ∨ .transfer ∈ kinds) ∧ Pays accounts w source.key) :
    Lawful rt accounts kinds w
      ((w.setLamports source.key ((w.accounts source.key).lamports - n)).setLamports target.key
        ((w.accounts target.key).lamports + n)) where
  clock := rfl
  log := ⟨[], (List.append_nil _).symm, nofun⟩
  readonly k hk := by
    have hks : k ≠ source.key := fun he ↦ by simp [hk source hs he.symm] at hws
    have hkt : k ≠ target.key := fun he ↦ by simp [hk target ht he.symm] at hwt
    simp [World.setLamports, World.setAccount, hks, hkt]
  total s hall := total_move hne (hall source hs) (hall target ht) hn
  credit k hk := by
    by_cases hkt : k = target.key
    · subst hkt
      simpa [World.setLamports, World.setAccount, hne.symm] using hkinds
    · by_cases hks : k = source.key
      · subst hks
        simp [World.setLamports, World.setAccount, hne] at hk
        omega
      · simp [World.setLamports, World.setAccount, hks, hkt] at hk
  debit k hk := by
    by_cases hks : k = source.key
    · rwa [hks]
    · by_cases hkt : k = target.key
      · subst hkt
        simp [World.setLamports, World.setAccount] at hk
      · simp [World.setLamports, World.setAccount, hks, hkt] at hk
  owner k hk := by
    refine absurd ?_ hk
    by_cases hkt : k = target.key <;> by_cases hks : k = source.key <;>
      simp [World.setLamports, World.setAccount, hks, hkt, hne, hne.symm]
  data k hk := by
    refine absurd ?_ hk
    by_cases hkt : k = target.key <;> by_cases hks : k = source.key <;>
      simp [World.setLamports, World.setAccount, hks, hkt, hne, hne.symm]

theorem setAccount (hai : ai ∈ accounts) (hs : rt.Derived ai.key) (hwr : ai.isWritable = true)
    {a : Account K}
    (hl : a.lamports = (w.accounts ai.key).lamports)
    (howner : a.owner ≠ (w.accounts ai.key).owner → .create ∈ kinds ∧
      (w.accounts ai.key).owner = default ∧ (w.accounts ai.key).data = .empty ∧
      a.owner = rt.programId ∧ ((w.accounts ai.key).lamports = 0 ∨ Pays accounts w ai.key))
    (hdata : (.write ∈ kinds ∨ .create ∈ kinds) ∧ a.owner = rt.programId ∧ a.data ≠ .empty) :
    Lawful rt accounts kinds w (w.setAccount ai.key a) where
  clock := rfl
  log := ⟨[], (List.append_nil _).symm, nofun⟩
  readonly k hk := by
    refine World.accounts_setAccount_of_ne _ _ fun he ↦ ?_
    simp [hk ai hai he.symm] at hwr
  total s hall := by
    have := total_setAccount (w := w) (hall ai hai) a
    omega
  credit k hk := by
    by_cases he : k = ai.key
    · subst he
      rw [World.accounts_setAccount_self] at hk
      omega
    · rw [World.accounts_setAccount_of_ne _ _ he] at hk
      omega
  debit k hk := by
    by_cases he : k = ai.key
    · subst he
      rw [World.accounts_setAccount_self] at hk
      omega
    · rw [World.accounts_setAccount_of_ne _ _ he] at hk
      omega
  owner k hk := by
    by_cases he : k = ai.key
    · subst he
      rw [World.accounts_setAccount_self] at hk ⊢
      obtain ⟨hc, hd, hempty, ho, hz⟩ := howner hk
      exact ⟨hc, hd, hempty, ho, hs, hz⟩
    · exact absurd (by rw [World.accounts_setAccount_of_ne _ _ he]) hk
  data k hk := by
    by_cases he : k = ai.key
    · subst he
      rw [World.accounts_setAccount_self]
      exact ⟨hdata.1, hdata.2.1, hs, hdata.2.2⟩
    · exact absurd (by rw [World.accounts_setAccount_of_ne _ _ he]) hk

theorem create {payer new : AccountInfo K} {space : ℕ} (hp : payer ∈ accounts) (hn : new ∈ accounts)
    (hs : rt.Derived new.key) (hk : .create ∈ kinds)
    (h : createAccount rt w payer new space = .ok w') : Lawful rt accounts kinds w w' := by
  obtain ⟨⟨hsig, hwp, hwn⟩, hunused, hdata, howner, hle, rfl⟩ := createAccount_eq_ok.mp h
  have hpos := rt.minimumBalance_pos space
  have hne : payer.key ≠ new.key := by
    intro he
    rw [he, hunused] at hle
    exact absurd hle (by simpa [Account.unused] using hpos.ne')
  have hempty : (w.accounts payer.key).data = .empty := by
    cases hd : (w.accounts payer.key).data <;> simp [hd, AccountData.isEmpty] at hdata
    rfl
  -- taken over while it holds nothing, then funded
  have htake : Lawful rt accounts kinds w (w.setAccount new.key ⟨0, rt.programId,
    .zeroed space⟩) := by
    refine setAccount hn hs hwn (by rw [hunused, Account.unused]) (fun _ ↦ ?_) ⟨.inr hk,
      rfl, by simp⟩
    rw [hunused]
    exact ⟨hk, rfl, rfl, rfl, .inl rfl⟩
  have hsame : (w.setAccount new.key ⟨0, rt.programId, .zeroed space⟩).accounts payer.key =
      w.accounts payer.key := World.accounts_setAccount_of_ne _ _ hne
  have hfund : Lawful rt accounts kinds (w.setAccount new.key ⟨0, rt.programId, .zeroed space⟩) _ :=
    move (n := rt.minimumBalance space) hp hn hne (by rwa [hsame]) hwp hwn (.inl ⟨hk, by simp⟩)
      (.inr ⟨.inl hk, ⟨payer, hp, rfl, hsig⟩, by rwa [hsame], by rwa [hsame]⟩)
  refine (htake.trans hfund).congr ?_
  simp only [World.setLamports, World.setAccount, Function.update_self, Function.update_of_ne hne,
    Function.update_of_ne hne.symm, Nat.zero_add]
  rw [Function.update_comm hne.symm, Function.update_idem]

theorem transfer {source target : AccountInfo K} {n : ℕ} (hs : source ∈ accounts)
    (ht : target ∈ accounts) (hk : .transfer ∈ kinds)
    (h : systemTransfer w source target n = .ok w') : Lawful rt accounts kinds w w' := by
  obtain ⟨⟨hsig, hws, hwt⟩, hdata, howner, hn, ⟨-, rfl⟩ | ⟨hne, rfl⟩⟩ := systemTransfer_ok h
  · exact .refl _
  · refine move hs ht hne hn hws hwt (.inr (.inl hk))
      (.inr ⟨.inr hk, ⟨source, hs, rfl, hsig⟩, howner, ?_⟩)
    cases hd : (w.accounts source.key).data <;> simp [hd, AccountData.isEmpty] at hdata
    rfl

theorem of_act {kind : Kind} (hk : kind ∈ kinds) (h : Act rt accounts w kind w') :
    Lawful rt accounts kinds w w' := by
  cases h with
  | write hai hs hwr howner _ hd =>
    exact setAccount hai hs hwr rfl (fun hne ↦ absurd rfl hne) ⟨.inl hk, howner, hd⟩
  | create hp hn hs h => exact create hp hn hs hk h
  | transfer hs ht h => exact transfer hs ht hk h
  | move hs ht hd howner h =>
    obtain ⟨hne, hn, hws, hwt, rfl⟩ := moveLamports_eq_ok.mp h
    exact move hs ht hne hn hws hwt (.inr (.inr hk)) (.inl ⟨hk, howner, hd⟩)
  | log e =>
    exact { refl w with log := ⟨[e], rfl, List.forall_mem_singleton.mpr hk⟩ }

end Lawful

variable (rt) (accounts) (kinds) in
def Acts : World K → World K → Prop :=
  Relation.ReflTransGen fun w w' ↦ ∃ kind ∈ kinds, Act rt accounts w kind w'

namespace Acts

theorem lawful (h : Acts rt accounts kinds w w') : Lawful rt accounts kinds w w' := by
  induction h with
  | refl => exact .refl w
  | tail _ ha ih =>
    obtain ⟨kind, hk, ha⟩ := ha
    exact ih.trans (.of_act hk ha)

theorem refl (w : World K) : Acts rt accounts kinds w w := Relation.ReflTransGen.refl

theorem act (h : Acts rt accounts kinds w₀ w) {kind : Kind} (hk : kind ∈ kinds)
    (ha : Act rt accounts w kind w') : Acts rt accounts kinds w₀ w' := .tail h ⟨kind, hk, ha⟩

section Steps

variable (h : Acts rt accounts kinds w₀ w)

include h

theorem emit {e : LotteryEvent K} (hk : .log e.topic ∈ kinds) :
    Acts rt accounts kinds w₀ (w.emit e) :=
  h.act hk (.log e)

theorem ite_emit {e : LotteryEvent K} (hk : .log e.topic ∈ kinds) (c : Prop) [Decidable c] :
    Acts rt accounts kinds w₀ (if c then w.emit e else w) := by
  split
  · exact h.emit hk
  · exact h

theorem writeAccountData {T : Type} [AccountType K T] [NeverEmpty K T] (hk : .write ∈ kinds)
    (hai : ai ∈ accounts) (hs : rt.Derived ai.key) (t : T) :
    Returns (Acts rt accounts kinds w₀) (writeAccountData rt w ai t) := by
  intro w' hw'
  obtain ⟨hne, hwr, howner, rfl⟩ := writeAccountData_eq_ok.mp hw'
  refine h.act hk (.write hai hs hwr howner ?_ (NeverEmpty.wrap_ne_empty t _))
  intro he
  simp [he, AccountData.isEmpty] at hne

theorem createAccount (hk : .create ∈ kinds) {payer new : AccountInfo K} (hp : payer ∈ accounts)
    (hn : new ∈ accounts) (hs : rt.Derived new.key) (space : ℕ) :
    Returns (Acts rt accounts kinds w₀) (createAccount rt w payer new space) :=
  fun _ hw ↦ h.act hk (.create hp hn hs hw)

theorem systemTransfer (hk : .transfer ∈ kinds) {source target : AccountInfo K}
    (hs : source ∈ accounts) (ht : target ∈ accounts) (n : ℕ) :
    Returns (Acts rt accounts kinds w₀) (systemTransfer w source target n) :=
  fun _ hw ↦ h.act hk (.transfer hs ht hw)

theorem moveLamports (hk : .move ∈ kinds) {source target : AccountInfo K} (hs : source ∈ accounts)
    (ht : target ∈ accounts) (hd : rt.Derived source.key)
    (howner : (w₀.accounts source.key).owner = rt.programId) (n : ℕ) :
    Returns (Acts rt accounts kinds w₀) (moveLamports w source target n) :=
  fun _ hw ↦ h.act hk (.move hs ht hd (h.lawful.owned howner) hw)

theorem movePositive (hk : .move ∈ kinds) {source target : AccountInfo K} (hs : source ∈ accounts)
    (ht : target ∈ accounts) (hd : rt.Derived source.key)
    (howner : (w₀.accounts source.key).owner = rt.programId) (n : ℕ) :
    Returns (Acts rt accounts kinds w₀) (movePositive w source target n) :=
  .ite (fun _ ↦ h.moveLamports hk hs ht hd howner n) fun _ ↦ .ok h

end Steps

end Acts

end DailyLottery
