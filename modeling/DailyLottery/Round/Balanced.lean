import DailyLottery.Round.Timely

set_option linter.unusedSectionVars false

namespace DailyLottery

open Lib Ballot

variable {K : Type} [DecidableEq K] [Inhabited K]

namespace Ballot

/-- A reveal comes after an attestation, and that with a vote for at most `maxWinners`. -/
structure Valid (maxWinners : ℕ) (x : Ballot K) : Prop where
  attested : x.included = true → x.attested = true
  vote_pos : x.attested = true → 1 ≤ x.vote
  vote_le : x.attested = true → x.vote ≤ maxWinners
  time_le : x.attested = true → x.attestedAt ≤ i64Max

theorem Valid.of_unattested {mw : ℕ} {x : Ballot K} (ha : x.attested = false)
    (hi : x.included = false) : x.Valid mw := by
  constructor <;> simp [ha, hi]

theorem includedOf_le {bs : List (Ballot K)} (h : ∀ x ∈ bs, x.included = true → x.attested = true) :
    includedOf bs ≤ attestedOf bs := List.countP_mono_left h

theorem attestedOf_le (bs : List (Ballot K)) : attestedOf bs ≤ bs.length := List.countP_le_length

/-- A tally agrees with the reveals included in `bs`. -/
structure Counted (mw : ℕ) (bs : List (Ballot K)) (t : VoteTally K) : Prop where
  counts : t.Counts bs
  maxWinners : t.maxWinners = mw
  valid : ∀ x ∈ bs, x.Valid mw

theorem Counted.join {mw : ℕ} {bs : List (Ballot K)} {t : VoteTally K} {i : ℕ} {x x' : Ballot K}
    (h : Counted mw bs t) (hj : Joins bs i x x') (hlt : (bs.map Ballot.tickets).sum < 2 ^ 64)
    (ht : x'.tickets = x.tickets) (hv : x'.Valid mw) :
    Counted mw (bs.set i x') (t.addVote x'.vote x'.tickets x'.attestedAt) := by
  have hatt := hv.attested hj.after
  refine ⟨h.counts.addVote hj (hv.vote_pos hatt) (by rw [h.maxWinners]; exact hv.vote_le hatt) ?_,
    by rw [VoteTally.addVote_maxWinners, h.maxWinners], ?_⟩
  · have hset := weightOf_set hj x'.vote
    have hle := weightOf_le (bs.set i x') x'.vote
    rw [map_set_same hj.get ht] at hle
    rw [if_pos rfl] at hset
    omega
  · intro y hy
    rcases eq_or_of_mem_set hy with rfl | ⟨j, -, hy⟩
    · exact hv
    · exact h.valid y (List.mem_of_getElem? hy)

end Ballot

namespace Books

/-- The counters, the hash and the tally are folds over the participants. -/
structure Balanced (b : Books K) : Prop where
  attested : b.lottery.attestedCount = attestedOf b.ballots
  included : b.lottery.providerUploadedCount = includedOf b.ballots
  valid : ∀ x ∈ b.ballots, x.Valid b.maxWinners
  hash : b.lottery.pocAggregateHash = digestOf b.ballots ∨
    (b.lottery.participantsCount = 1 ∧ b.lottery.uploadsComplete = true)
  complete : b.lottery.uploadsComplete = true →
    b.lottery.participantsCount = 1 ∨ attestedOf b.ballots = includedOf b.ballots
  untallied : b.tally = none → includedOf b.ballots = 0
  tallied : ∀ t ∈ b.tally, t.Counts b.ballots ∧ t.maxWinners = b.maxWinners ∧
    t.processedCount = includedOf b.ballots

namespace Balanced

variable {b b' : Books K}

theorem included_le (h : b.Balanced) : includedOf b.ballots ≤ attestedOf b.ballots :=
  includedOf_le fun x hx ↦ (h.valid x hx).attested

theorem openTally (h : b.Balanced) {t : VoteTally K} (ht : b.OpenTally t) :
    Counted b.maxWinners b.ballots t ∧ t.processedCount = includedOf b.ballots := by
  rcases ht with ⟨ht, -⟩ | ⟨ht, key, n, rfl⟩
  · obtain ⟨hc, hmw, hp⟩ := h.tallied t (Option.mem_def.mpr ht)
    exact ⟨⟨hc, hmw, h.valid⟩, hp⟩
  · have hz := h.untallied ht
    exact ⟨⟨.new hz, rfl, h.valid⟩, hz.symm⟩

theorem attestedOf_join {i : ℕ} {x y : Ballot K} {bs : List (Ballot K)} (hx : bs[i]? = some x)
    (hatt : x.attested = false) (hatt' : y.attested = true) :
    attestedOf (bs.set i y) = attestedOf bs + 1 := by
  have := countP_set (y := y) Ballot.attested hx
  simpa [hatt, hatt', attestedOf] using this

theorem unattested (h : b.Balanced) (hatt : b.lottery.attestedCount = 0) :
    ∀ x ∈ b.ballots, x.attested = false ∧ x.included = false := by
  intro x hx
  have hz := List.countP_eq_zero.mp (h.attested.symm.trans hatt) x hx
  refine ⟨by simpa using hz, ?_⟩
  by_contra hinc
  exact hz ((h.valid x hx).attested (by simpa using hinc))

/-- The state of an upload after some entries. -/
structure Uploading (b : Books K) (bs : List (Ballot K))
    (s : VoteTally K × List Bytes32) : Prop where
  counted : Counted b.maxWinners bs s.1
  processed : s.1.processedCount = includedOf b.ballots
  included : includedOf bs = includedOf b.ballots + s.2.length
  attested : attestedOf bs = attestedOf b.ballots
  tickets : bs.map Ballot.tickets = b.ballots.map Ballot.tickets
  hash : xorRevealDigests (digestOf b.ballots) s.2 = digestOf bs

theorem Uploading.visit {bs : List (Ballot K)} {s s' : VoteTally K × List Bytes32} {i : ℕ}
    {plaintext : Bytes} {x x' : Ballot K} (h : Uploading b bs s) (he : b.Enrolled)
    (hx : bs[i]? = some x) (hv : IncludeVisit b.maxWinners s plaintext x s' x') :
    Uploading b (bs.set i x') s' := by
  obtain ⟨hinc, hatt, digest, hs, rfl, ht⟩ := hv
  have hvx := h.counted.valid x (List.mem_of_getElem? hx)
  rw [if_pos ⟨hvx.vote_pos hatt, hvx.vote_le hatt⟩] at ht
  have hj : Joins bs i x { x with included := true, digest := digest } := ⟨hx, hinc, rfl⟩
  have hsum : (bs.map Ballot.tickets).sum < 2 ^ 64 := by
    rw [h.tickets, ← he.tickets]
    exact he.tickets_lt
  refine ⟨?_, ?_, ?_, ?_, ?_, ?_⟩
  · rw [ht]
    exact h.counted.join hj hsum rfl ⟨fun _ ↦ hatt, hvx.vote_pos, hvx.vote_le, hvx.time_le⟩
  · rw [ht, VoteTally.addVote_processedCount]
    exact h.processed
  · rw [includedOf_set hj, h.included, hs, List.length_append, List.length_singleton, Nat.add_assoc]
  · have := countP_set (y := { x with included := true, digest := digest }) Ballot.attested hx
    rw [← h.attested]
    simpa [attestedOf] using this
  · rw [map_set_same hx (by rfl)]
    exact h.tickets
  · rw [hs, xorRevealDigests, List.foldl_append, List.foldl_cons, List.foldl_nil, digestOf_set hj,
      ← h.hash, xorBytes_comm, xorRevealDigests]

theorem init (hb : b.ballots = []) (ht : b.tally = none) (ha : b.lottery.attestedCount = 0)
    (hp : b.lottery.providerUploadedCount = 0)
    (hh : b.lottery.pocAggregateHash = Vector.replicate 32 0)
    (hc : b.lottery.uploadsComplete = false) : b.Balanced := by
  refine ⟨by rw [hb, ha]; rfl, by rw [hb, hp]; rfl, ?_, .inl (by rw [hb, hh]; rfl), ?_,
    fun _ ↦ by rw [hb]; rfl, ?_⟩
  · intro x hx
    simp [hb] at hx
  · intro h
    simp [hc] at h
  · intro t h
    simp [ht] at h

theorem step (h : b.Balanced) (he : b.Enrolled) (ht : b.Timely) (hs : b.Step b') : b'.Balanced := by
  have hcount : includedOf b.ballots ≤ b.lottery.participantsCount ∧
      attestedOf b.ballots ≤ b.lottery.participantsCount := by
    have := attestedOf_le b.ballots
    have := h.included_le
    have := he.length
    omega
  have hmax : Sizes.maxParticipants < 2 ^ 63 := by decide
  have hpcle := he.le
  cases hs with
  | @quiet now config l _ _ hcap hl _ =>
    have hl := Lottery.sameSales hl
    have hmw : { b with now := now, config := config, lottery := l }.maxWinners = b.maxWinners := by
      simp only [maxWinners, Config.effectiveMaxWinners, hcap, hl.participantsCount]
    refine ⟨hl.attestedCount.trans h.attested,
      hl.providerUploadedCount.trans h.included, ?_, ?_, ?_, h.untallied, ?_⟩
    · rw [hmw]
      exact h.valid
    · dsimp only
      rw [hl.pocAggregateHash, hl.participantsCount, hl.uploadsComplete]
      exact h.hash
    · dsimp only
      rw [hl.participantsCount, hl.uploadsComplete]
      exact h.complete
    · rw [hmw]
      exact h.tallied
  | @buyFirst wallet count hbuy _ _ =>
    obtain ⟨hatt, huc, htally⟩ := ht.unstarted hbuy
    have hno := h.unattested hatt
    have hpoc := h.hash.resolve_right fun hc ↦ by simp [huc] at hc
    refine ⟨?_, ?_, ?_, .inl ?_, ?_, ?_, ?_⟩
    · exact h.attested.trans (by simp [attestedOf])
    · exact h.included.trans (by simp [includedOf])
    · intro x hx
      rcases List.mem_append.mp hx with hx | hx
      · exact .of_unattested (hno x hx).1 (hno x hx).2
      · rw [List.mem_singleton.mp hx]
        exact .of_unattested rfl rfl
    · simpa [digestOf, Lottery.sell] using hpoc
    · intro hc
      exact absurd (huc.symm.trans hc) (by decide)
    · simpa [includedOf] using h.untallied
    · intro t' ht'
      simp [htally] at ht'
  | @buyMore i x count hbuy hx =>
    obtain ⟨hatt, huc, htally⟩ := ht.unstarted hbuy
    have hno := h.unattested hatt
    have hpoc := h.hash.resolve_right fun hc ↦ by simp [huc] at hc
    have hmem := List.mem_of_getElem? hx
    have hset := includedOf_set_of_not (c := { x with tickets := x.tickets + count }) hx
      (hno x hmem).2 (hno x hmem).2
    refine ⟨?_, h.included.trans hset.symm, ?_, .inl ?_, ?_, ?_, ?_⟩
    · have hsame := countP_set (y := { x with tickets := x.tickets + count }) Ballot.attested hx
      exact h.attested.trans (Nat.add_right_cancel hsame).symm
    · intro y hy
      rcases eq_or_of_mem_set hy with rfl | ⟨j, -, hy⟩
      · exact .of_unattested (hno x hmem).1 (hno x hmem).2
      · exact h.valid y (List.mem_of_getElem? hy)
    · exact hpoc.trans (digestOf_set_of_not (c := { x with tickets := x.tickets + count }) hx
        (hno x hmem).2 (hno x hmem).2).symm
    · intro hc
      exact absurd (huc.symm.trans hc) (by decide)
    · intro _
      exact hset.trans (h.untallied htally)
    · intro t' ht'
      simp [htally] at ht'
  | @beginReveal att upl start deadline complete hash selected hns _ huc _ _ _ _ hpc =>
    have hatt : b.lottery.attestedCount = 0 := by
      by_contra hne
      exact hns (ht.started (.inl hne))
    refine ⟨h.attested, h.included, h.valid, ?_, ?_, h.untallied, h.tallied⟩
    · rcases hpc with ⟨-, rfl, rfl⟩ | ⟨hpc, rfl⟩
      · exact .inl (h.hash.resolve_right fun hc ↦ by simp [huc] at hc)
      · exact .inr ⟨hpc, rfl⟩
    · intro hc
      rcases hpc with ⟨-, rfl, -⟩ | ⟨hpc, -⟩
      · cases hc
      · exact .inl hpc
  | @attest i x vote hx hph hvp hvl hatt =>
    have hmem := List.mem_of_getElem? hx
    have hinc : x.included = false := by
      by_contra hne
      simp [(h.valid x hmem).attested (by simpa using hne)] at hatt
    have hset := includedOf_set_of_not (c := { x with
      attested := true, attestedAt := b.now, vote := vote, included := false }) hx hinc rfl
    have hjoin := attestedOf_join (y := { x with
      attested := true, attestedAt := b.now, vote := vote, included := false }) hx hatt rfl
    have hnow : b.now ≤ i64Max := by
      have := ht.now_lt
      simp only [i64Max]
      omega
    have hlt := (List.getElem?_eq_some_iff.mp hx).1
    rw [Lottery.countAttestation_eq]
    refine ⟨?_, h.included.trans hset.symm, ?_, ?_, ?_, ?_, ?_⟩
    · rw [hjoin, ← h.attested]
    · intro y hy
      rcases eq_or_of_mem_set hy with rfl | ⟨j, -, hy⟩
      · exact ⟨fun _ ↦ rfl, fun _ ↦ hvp, fun _ ↦ hvl, fun _ ↦ hnow⟩
      · exact h.valid y (List.mem_of_getElem? hy)
    · rw [digestOf_set_of_not hx hinc rfl]
      exact h.hash
    · intro hc
      refine (ht.complete hc).imp_right fun hs ↦ ?_
      exact absurd (ht.settling hs).1 (Lottery.phase_upload hph).2.1
    · rw [hset]
      exact h.untallied
    · intro t' ht'
      obtain ⟨hc, hmw, hp⟩ := h.tallied t' ht'
      exact ⟨hc.set_of_not hx hinc rfl, hmw, hp.trans hset.symm⟩
  | @reveal i x vote selected digest l t hx hph hvp hvl hatt hinc hopen hl =>
    subst hl
    obtain ⟨hcounted, hp⟩ := h.openTally hopen
    have hj : Joins b.ballots i x { x with
      attested := true, attestedAt := b.now, vote := vote, included := true, digest := digest } :=
      ⟨hx, hinc, rfl⟩
    have hnow : b.now ≤ i64Max := by
      have := ht.now_lt
      simp only [i64Max]
      omega
    have hsum : (b.ballots.map Ballot.tickets).sum < 2 ^ 64 := by
      rw [← he.tickets]
      exact he.tickets_lt
    have hjoined := hcounted.join hj hsum rfl
      ⟨fun _ ↦ rfl, fun _ ↦ hvp, fun _ ↦ hvl, fun _ ↦ hnow⟩
    have hatt' := attestedOf_join (y := { x with
      attested := true, attestedAt := b.now, vote := vote, included := true, digest := digest }) hx
      hatt rfl
    have hinc' := includedOf_set hj
    rw [AttestReveal.updatePhase_eq]
    refine ⟨?_, ?_, hjoined.valid, ?_, ?_, ?_, ?_⟩ <;> dsimp only
    · rw [hatt', h.attested]
    · rw [hinc', h.included, saturatingAdd_of_lt (by omega)]
    · rcases h.hash with hh | ⟨hpc, huc⟩
      · left
        rw [digestOf_set hj, hh, xorBytes_comm]
      · refine .inr ⟨hpc, ?_⟩
        split
        · rfl
        · exact huc
    · intro hc
      split at hc
      · next hle =>
        right
        have := h.included_le
        have := h.attested
        have := h.included
        rw [saturatingAdd_of_lt (by omega)] at hle
        omega
      · refine (ht.complete hc).imp_right fun hs ↦ ?_
        exact absurd (ht.settling hs).1 (Lottery.phase_upload hph).2.1
    · intro hnone
      cases hnone
    · intro t' ht'
      cases ht'
      refine ⟨?_, hjoined.maxWinners, ?_⟩
      · exact ⟨hjoined.counts.1, hjoined.counts.2, hjoined.counts.3, hjoined.counts.4⟩
      · rw [hinc', ← hp]
  | @upload entries n start rstart rdeadline selected t t' bs digests huc hpc _ hatt _ hopen hsweep =>
    obtain ⟨hcounted, hp⟩ := h.openTally hopen
    have hup : Uploading b bs (t', digests) := by
      refine hsweep.invariant (P := Uploading b) ?_ fun _ _ _ _ _ _ _ hu hx hv ↦ hu.visit he hx hv
      refine ⟨⟨?_, hcounted.maxWinners, hcounted.valid⟩, hp, rfl, rfl, rfl, rfl⟩
      exact ⟨hcounted.counts.1, hcounted.counts.2, hcounted.counts.3, hcounted.counts.4⟩
    have hinc := hup.included
    have hle := includedOf_le fun x hx ↦ (hup.counted.valid x hx).attested
    rw [hup.attested, hinc] at hle
    have hcnt : saturatingAdd 64 b.lottery.providerUploadedCount digests.length =
      includedOf bs := by
      rw [saturatingAdd_of_lt (by rw [h.included]; dsimp only at hle; omega), h.included, hinc]
    have hpoc := h.hash.resolve_right fun hc ↦ by omega
    refine ⟨h.attested.trans hup.attested.symm, hcnt, hup.counted.valid, .inl ?_, ?_, ?_, ?_⟩
    · rw [← hup.hash, ← hpoc]
    · rw [hcnt]
      intro hc
      have hc := of_decide_eq_true hc
      have hatt := h.attested
      have hsame := hup.attested
      refine .inr (?_ : attestedOf bs = includedOf bs)
      dsimp only at hle hinc
      omega
    · intro hnone
      cases hnone
    · intro t'' ht''
      cases ht''
      refine ⟨?_, hup.counted.maxWinners, ?_⟩
      · have hc := hup.counted.counts
        exact ⟨hc.1, hc.2, hc.3, hc.4⟩
      · have := hup.processed
        dsimp only at this ⊢
        rw [hinc, this, saturatingAdd_of_lt (by dsimp only at hle; omega)]

end Balanced

structure Sound (b : Books K) : Prop where
  enrolled : b.Enrolled
  timely : b.Timely
  balanced : b.Balanced

theorem Sound.step {b b' : Books K} (h : b.Sound) (hs : b.Step b') : b'.Sound :=
  ⟨h.enrolled.step hs, h.timely.step hs, h.balanced.step h.enrolled h.timely hs⟩

end Books

theorem Round.Created.sound {rt : Runtime K} {r : Round K} (h : r.Created rt) : r.books.Sound := by
  obtain ⟨id, config, authority, vault, bump, bps, price, hnew, -, -⟩ := h.lottery
  have hnow := Lottery.new_now_lt hnew
  obtain ⟨-, -, -, hbuy, hbd, hus, hud, hss, -, htt, htf, hp, hpoc, huc, -, hatt, hpc, -⟩ :=
    Lottery.new_ok hnew
  have hbs : r.books.ballots = [] := by
    unfold Round.books
    rw [h.participants]
    rfl
  refine ⟨.init hbs hpc htt htf, ?_, .init hbs h.tally hatt hp hpoc huc⟩
  refine ⟨hnow, ?_, ?_, ?_, ?_, ?_, ?_, ?_, ?_⟩ <;> dsimp only [Round.books]
  · rw [hbuy]
  · rw [hbuy, hud]
    omega
  · rw [hbd, hud]
    omega
  · rw [hpc]
    omega
  · rw [hbuy, hus]
    omega
  · simp [hatt, huc, h.tally]
  · simp [hss]
  · simp [huc]

/-- The rule for invariants of a lottery's machine. -/
theorem Round.reachable_invariant {rt : Runtime K} {P : Round K → Prop} {r : Round K}
    (h : (Round.machine rt).Reachable r) (hinit : ∀ r, r.Created rt → P r)
    (hstep : ∀ r r', (Round.machine rt).Reachable r → P r → r.Step rt r' → P r') : P r := by
  obtain ⟨as, ss, h⟩ := h
  have := h.invariant (P := fun _ ss ↦ ∀ s ∈ ss.head?, P s) ?_ ?_
  · exact this r rfl
  · intro s hs t ht
    cases ht
    exact hinit s hs
  · intro as ss s a t hh hP hst u hu
    cases hu
    exact hstep s t ⟨as, ss, hh⟩ (hP s rfl) hst

end DailyLottery
