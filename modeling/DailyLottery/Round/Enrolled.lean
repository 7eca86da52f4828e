import DailyLottery.Round.Books

set_option linter.unusedSectionVars false

namespace DailyLottery

open Lib Ballot

variable {K : Type} [DecidableEq K] [Inhabited K]

namespace Ballot

/-- What the purchases alone decide. -/
def stake (x : Ballot K) : K × ℕ × ℕ := (x.wallet, x.index, x.tickets)

end Ballot

namespace Books

/-- The participants stand in the order of their indices and the totals are their sums. -/
structure Enrolled (b : Books K) : Prop where
  length : b.ballots.length = b.lottery.participantsCount
  le : b.lottery.participantsCount ≤ Sizes.maxParticipants
  index : ∀ (i : ℕ) (x : Ballot K), b.ballots[i]? = some x → x.index = i
  wallets : (b.ballots.map Ballot.wallet).Nodup
  tickets_pos : ∀ x ∈ b.ballots, 0 < x.tickets
  tickets : b.lottery.totalTickets = (b.ballots.map Ballot.tickets).sum
  funds : b.lottery.totalFunds = b.lottery.ticketPriceLamports * b.lottery.totalTickets
  tickets_lt : b.lottery.totalTickets < 2 ^ 64
  funds_lt : b.lottery.totalFunds < 2 ^ 64

namespace Enrolled

variable {b b' : Books K}

theorem init (hb : b.ballots = []) (hc : b.lottery.participantsCount = 0)
    (ht : b.lottery.totalTickets = 0) (hf : b.lottery.totalFunds = 0) : b.Enrolled := by
  refine ⟨by rw [hb, hc]; rfl, by rw [hc]; exact Nat.zero_le _, ?_,
    by rw [hb]; exact List.nodup_nil, ?_,
    by rw [hb, ht]; rfl, by rw [hf, ht]; rfl, by rw [ht]; decide, by rw [hf]; decide⟩
  · intro i x hx
    simp [hb] at hx
  · intro x hx
    simp [hb] at hx

theorem congr (h : b.Enrolled) (hs : b'.ballots.map stake = b.ballots.map stake)
    (hl : b'.lottery.participantsCount = b.lottery.participantsCount ∧
      b'.lottery.totalTickets = b.lottery.totalTickets ∧
      b'.lottery.totalFunds = b.lottery.totalFunds ∧
      b'.lottery.ticketPriceLamports = b.lottery.ticketPriceLamports) : b'.Enrolled := by
  obtain ⟨hpc, htt, htf, htp⟩ := hl
  have hw : b'.ballots.map Ballot.wallet = b.ballots.map Ballot.wallet := by
    have := congrArg (List.map Prod.fst) hs
    simpa [stake, Function.comp_def] using this
  have ht : b'.ballots.map Ballot.tickets = b.ballots.map Ballot.tickets := by
    have := congrArg (List.map fun x ↦ x.2.2) hs
    simpa [stake, Function.comp_def] using this
  have hlen : b'.ballots.length = b.ballots.length := by simpa using congrArg List.length hs
  refine ⟨by rw [hlen, hpc]; exact h.length, by rw [hpc]; exact h.le, ?_,
    by rw [hw]; exact h.wallets,
    ?_, by rw [htt, ht]; exact h.tickets, by rw [htf, htp, htt]; exact h.funds,
    by rw [htt]; exact h.tickets_lt, by rw [htf]; exact h.funds_lt⟩
  · intro i x hx
    have hget := congrArg (·[i]?) hs
    simp only [List.getElem?_map, hx, Option.map_some] at hget
    obtain ⟨y, hy, hxy⟩ := Option.map_eq_some_iff.mp hget.symm
    rw [← h.index i y hy]
    exact (congrArg (fun s ↦ s.2.1) hxy).symm
  · intro x hx
    have hmem : x.tickets ∈ b.ballots.map Ballot.tickets := ht ▸ List.mem_map_of_mem hx
    obtain ⟨y, hy, hxy⟩ := List.mem_map.mp hmem
    exact hxy ▸ h.tickets_pos y hy

theorem stake_includeVisit {mw : ℕ} {s s' : VoteTally K × List Bytes32} {plaintext : Bytes}
    {x x' : Ballot K} (h : IncludeVisit mw s plaintext x s' x') : x'.stake = x.stake := by
  obtain ⟨-, -, digest, -, rfl, -⟩ := h
  rfl

theorem step (h : b.Enrolled) (hs : b.Step b') : b'.Enrolled := by
  cases hs with
  | quiet _ _ _ hl _ =>
    have hl := Lottery.sameSales hl
    exact h.congr rfl ⟨hl.participantsCount, hl.totalTickets, hl.totalFunds, hl.ticketPriceLamports⟩
  | @buyFirst wallet count hbuy hnew hmax =>
    refine ⟨?_, hmax, ?_, ?_, ?_, ?_, ?_, hbuy.tickets_lt, hbuy.funds_lt⟩
    · simp [h.length]
    · intro i x hx
      rw [List.getElem?_append] at hx
      split at hx
      · exact h.index i x hx
      · next hi =>
        obtain ⟨hlt, rfl⟩ := List.getElem?_eq_some_iff.mp hx
        simp only [List.length_singleton] at hlt
        simp only [List.getElem_singleton]
        rw [← h.length]
        omega
    · rw [List.map_append, List.map_singleton, ← List.concat_eq_append]
      exact h.wallets.concat hnew
    · intro x hx
      rcases List.mem_append.mp hx with hx | hx
      · exact h.tickets_pos x hx
      · rw [List.mem_singleton.mp hx]
        exact hbuy.count_pos
    · simp [Lottery.sell, h.tickets]
    · simp only [Lottery.sell, h.funds]
      ring
  | @buyMore i x count hbuy hx =>
    refine ⟨?_, h.le, ?_, ?_, ?_, ?_, ?_, hbuy.tickets_lt, hbuy.funds_lt⟩
    · rw [List.length_set]
      exact h.length
    · intro j y hy
      rw [List.getElem?_set] at hy
      split at hy
      · next hij =>
        subst hij
        split at hy
        · cases hy
          exact h.index i x hx
        · cases hy
      · exact h.index j y hy
    · rw [map_set_same hx (by rfl)]
      exact h.wallets
    · intro y hy
      rcases eq_or_of_mem_set hy with rfl | ⟨j, -, hj⟩
      · exact Nat.lt_of_lt_of_le hbuy.count_pos (Nat.le_add_left _ _)
      · exact h.tickets_pos y (List.mem_of_getElem? hj)
    · have hsum := sum_map_set (y := { x with tickets := x.tickets + count }) Ballot.tickets hx
      have := h.tickets
      simp only [Lottery.sell] at hsum ⊢
      omega
    · simp only [Lottery.sell, h.funds]
      ring
  | beginReveal => exact h.congr rfl ⟨rfl, rfl, rfl, rfl⟩
  | attest hx =>
    refine h.congr (map_set_same hx (by rfl)) ?_
    unfold Lottery.countAttestation
    dsimp only
    split <;> exact ⟨rfl, rfl, rfl, rfl⟩
  | reveal hx _ _ _ _ _ _ hl =>
    refine h.congr (map_set_same hx (by rfl)) ?_
    rw [AttestReveal.updatePhase_eq, hl]
    exact ⟨rfl, rfl, rfl, rfl⟩
  | upload _ _ _ _ _ _ hsweep =>
    refine h.congr ?_ ⟨rfl, rfl, rfl, rfl⟩
    exact hsweep.map_eq fun _ _ _ _ _ ↦ stake_includeVisit

end Enrolled

end Books

end DailyLottery
