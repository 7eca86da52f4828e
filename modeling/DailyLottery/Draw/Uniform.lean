import DailyLottery.Codec.Bytes
import DailyLottery.Execute
import DailyLottery.Lib.Residues

namespace DailyLottery

open Lib

variable {K : Type} [Inhabited K] (rt : Runtime K)

theorem rejectionFloor_eq {modulus : ℕ} (hm : 0 < modulus) (hle : modulus ≤ 2 ^ 128) :
    rejectionFloor modulus = 2 ^ 128 % modulus := by
  unfold rejectionFloor
  rw [Nat.mod_eq_of_lt (Nat.sub_lt (by decide) hm)]
  exact (Nat.mod_eq_sub_mod hle).symm

theorem drawSample_lt (seed : Bytes32) (round nonce : ℕ) :
    drawSample rt seed round nonce < 2 ^ 128 := by
  have h := ofLeBytes_lt ((rt.sha256 (rpdDrawDomain ++ seed.toList ++ leBytes 8 round ++
    leBytes 4 nonce)).toList.take 16)
  rw [List.length_take, Vector.length_toList] at h
  exact h

/-- Each residue has the same number of accepted samples; the draw is the residue of the first
accepted one. -/
theorem drawIndex_unbiased {remaining : ℕ} (hlt : remaining < 2 ^ 64) :
    (1 ≤ remaining →
      rejectionFloor remaining = 2 ^ 128 % remaining ∧
      ((Finset.range (2 ^ 128)).filter fun s ↦ s < rejectionFloor remaining).card < remaining ∧
      ∀ r < remaining, ((Finset.range (2 ^ 128)).filter fun s ↦
        rejectionFloor remaining ≤ s ∧ s % remaining = r).card =
          (2 ^ 128 - 2 ^ 128 % remaining) / remaining) ∧
    ∀ (seed : Bytes32) (round : ℕ),
      (∀ nonce, drawSample rt seed round nonce < 2 ^ 128) ∧
      (∀ d, drawIndex rt seed round remaining = .ok d ↔ remaining ≠ 0 ∧
        ∃ nonce < 2 ^ 32,
          (∀ k < nonce, drawSample rt seed round k < rejectionFloor remaining) ∧
          rejectionFloor remaining ≤ drawSample rt seed round nonce ∧
          d = drawSample rt seed round nonce % remaining) ∧
      (∀ d, drawIndex rt seed round remaining = .ok d → d < remaining) ∧
      ((∃ e, drawIndex rt seed round remaining = .error e) ↔ remaining = 0 ∨
        ∀ nonce < 2 ^ 32, drawSample rt seed round nonce < rejectionFloor remaining) := by
  refine ⟨fun hpos ↦ ?_, fun seed round ↦ ⟨drawSample_lt rt seed round, fun d ↦ ?_,
    fun d h ↦ drawIndex_lt rt h, ?_⟩⟩
  · have hfloor : rejectionFloor remaining = 2 ^ 128 % remaining :=
      rejectionFloor_eq hpos (hlt.le.trans (by decide))
    have hsmall : 2 ^ 128 % remaining < remaining := Nat.mod_lt _ hpos
    refine ⟨hfloor, ?_, fun r hr ↦ ?_⟩
    · have hsub : ((Finset.range (2 ^ 128)).filter fun s ↦ s < rejectionFloor remaining) ⊆
          Finset.range (rejectionFloor remaining) := by
        intro s hs
        exact Finset.mem_range.mpr (Finset.mem_filter.mp hs).2
      have hcard := Finset.card_le_card hsub
      rw [Finset.card_range] at hcard
      omega
    · rw [hfloor, card_residue hr, sub_mod_div]
  · simp only [drawIndex, bind_eq_ok, rejectIf_eq_ok, exists_const, drawLoop_eq_ok, Nat.zero_add]
  · have hloop : (∃ e, drawLoop (drawSample rt seed round) remaining (2 ^ 32) 0 = .error e) ↔
        ∀ nonce < 2 ^ 32, drawSample rt seed round nonce < rejectionFloor remaining := by
      constructor
      · rintro ⟨e, h⟩ nonce hnonce
        have hrej := (drawLoop_eq_error.mp h).2 nonce hnonce
        rwa [Nat.zero_add] at hrej
      · intro h
        refine ⟨_, drawLoop_eq_error.mpr ⟨rfl, fun k hk ↦ ?_⟩⟩
        rw [Nat.zero_add]
        exact h k hk
    rw [drawIndex, ← hloop]
    by_cases hz : remaining = 0
    · simp [hz, rejectIf]
    · simp [hz, rejectIf]

/-- The values below five have the same number of samples each, and the zero seed draws one. -/
theorem drawIndex_unbiased_sample :
    (∀ r < 5, ((Finset.range (2 ^ 128)).filter fun s ↦ rejectionFloor 5 ≤ s ∧ s % 5 = r).card =
      (2 ^ 128 - 2 ^ 128 % 5) / 5) ∧
    ∃ d < 5, drawIndex Sample.rt (Vector.replicate 32 0) 0 5 = .ok d := by
  obtain ⟨hcard, hdraw⟩ := drawIndex_unbiased Sample.rt (show 5 < 2 ^ 64 by decide)
  obtain ⟨-, hok, hlt, -⟩ := hdraw (Vector.replicate 32 0) 0
  have hd : drawIndex Sample.rt (Vector.replicate 32 0) 0 5 =
      .ok (drawSample Sample.rt (Vector.replicate 32 0) 0 0 % 5) := by
    refine (hok _).mpr ⟨by decide, 0, by decide, fun k hk ↦ absurd hk (Nat.not_lt_zero k), ?_, rfl⟩
    decide +kernel
  exact ⟨(hcard (by decide)).2.2, _, hlt _ hd, hd⟩

end DailyLottery
