import DailyLottery.State.VoteTally
import DailyLottery.State.Lottery

set_option linter.unusedSectionVars false

namespace DailyLottery

open Lib

structure Vote where
  count : ℕ
  weight : ℕ
  attestedAt : ℤ
  deriving DecidableEq

namespace Vote

def forCount (votes : List Vote) (count : ℕ) : List Vote := votes.filter fun v ↦ v.count = count

def weightFor (votes : List Vote) (count : ℕ) : ℕ := ((forCount votes count).map weight).sum

/-- The earliest attestation among the votes for a count. -/
def earliest (votes : List Vote) (count : ℕ) : ℤ :=
  ((forCount votes count).map attestedAt).min?.getD i64Max

/-- `c` goes before `d`: more weight, then the earlier attestation, then the smaller count. -/
def Outranks (votes : List Vote) (c d : ℕ) : Prop :=
  weightFor votes d < weightFor votes c ∨
    weightFor votes d = weightFor votes c ∧
      (earliest votes c < earliest votes d ∨ earliest votes c = earliest votes d ∧ c < d)

/-- The count with votes that goes before every other one up to `maxCount`. -/
structure Elects (votes : List Vote) (maxCount c : ℕ) : Prop where
  one_le : 1 ≤ c
  le : c ≤ maxCount
  pos : 0 < weightFor votes c
  first : ∀ d, 1 ≤ d → d ≤ maxCount → d ≠ c → Outranks votes c d

/-- Weight up, time and count down: the order of the scan. -/
def rank (weight : ℕ) (time : ℤ) (count : ℕ) : ℕ ×ₗ ℤᵒᵈ ×ₗ ℕᵒᵈ :=
  toLex (weight, toLex (OrderDual.toDual time, OrderDual.toDual count))

theorem rank_lt {w w' c c' : ℕ} {t t' : ℤ} : rank w t c < rank w' t' c' ↔
    w < w' ∨ w = w' ∧ (t' < t ∨ t = t' ∧ c' < c) := by
  simp [rank, Prod.Lex.toLex_lt_toLex]

theorem le_of_rank_le {w w' c c' : ℕ} {t t' : ℤ} (h : rank w t c ≤ rank w' t' c') : w ≤ w' := by
  by_contra hlt
  exact absurd (rank_lt.mpr (Or.inl (Nat.lt_of_not_le hlt))) (not_lt.mpr h)

theorem rank_inj {w w' c c' : ℕ} {t t' : ℤ} (h : rank w t c = rank w' t' c') : c = c' := by
  simp only [rank, EmbeddingLike.apply_eq_iff_eq, Prod.mk.injEq] at h
  exact h.2.2

end Vote

namespace VoteTally

variable {K : Type} {t : VoteTally K}

def Best.rank (b : Best) : ℕ ×ₗ ℤᵒᵈ ×ₗ ℕᵒᵈ := Vote.rank b.weight b.time b.count

theorem Best.better_eq {b : Best} {count weight : ℕ} {time : ℤ} :
    b.better count weight time = true ↔ b.rank < Vote.rank weight time count := by
  rw [Best.better, decide_eq_true_eq, Best.rank, Vote.rank_lt]
  omega

theorem scan_greatest {counts : List ℕ} (h : ∀ c ∈ counts, c < t.weights.length) (b : Best) :
    b.rank ≤ (t.scan counts b).rank ∧
    (∀ c ∈ counts, 0 < t.weights.getD c 0 →
      Vote.rank (t.weights.getD c 0) (t.firstSeen.getD c i64Max) c ≤ (t.scan counts b).rank) ∧
    (t.scan counts b = b ∨ ∃ c ∈ counts, 0 < t.weights.getD c 0 ∧
      t.scan counts b = ⟨c, t.weights.getD c 0, t.firstSeen.getD c i64Max⟩) := by
  induction counts generalizing b with
  | nil => exact ⟨le_rfl, by simp, Or.inl rfl⟩
  | cons c counts ih =>
    have hc := h c List.mem_cons_self
    have hrest := ih fun d hd ↦ h d (List.mem_cons_of_mem _ hd)
    rw [scan, if_neg (Nat.not_le.mpr hc)]
    simp only
    by_cases hz : t.weights.getD c 0 = 0
    · rw [if_pos hz]
      obtain ⟨hle, hall, hend⟩ := hrest b
      refine ⟨hle, fun d hd hpos ↦ ?_, hend.imp_right ?_⟩
      · rcases List.mem_cons.mp hd with rfl | hd
        · exact absurd hz hpos.ne'
        · exact hall d hd hpos
      · rintro ⟨d, hd, hscan⟩
        exact ⟨d, List.mem_cons_of_mem _ hd, hscan⟩
    · rw [if_neg hz]
      by_cases hb : b.better c (t.weights.getD c 0) (t.firstSeen.getD c i64Max) = true
      · rw [if_pos hb]
        obtain ⟨hle, hall, hend⟩ :=
          hrest ⟨c, t.weights.getD c 0, t.firstSeen.getD c i64Max⟩
        have hlt := Best.better_eq.mp hb
        refine ⟨hlt.le.trans hle, fun d hd hpos ↦ ?_, Or.inr ?_⟩
        · rcases List.mem_cons.mp hd with rfl | hd
          · exact hle
          · exact hall d hd hpos
        · rcases hend with hend | ⟨d, hd, hscan⟩
          · exact ⟨c, List.mem_cons_self, Nat.pos_of_ne_zero hz, hend⟩
          · exact ⟨d, List.mem_cons_of_mem _ hd, hscan⟩
      · rw [if_neg hb]
        obtain ⟨hle, hall, hend⟩ := hrest b
        refine ⟨hle, fun d hd hpos ↦ ?_, hend.imp_right ?_⟩
        · rcases List.mem_cons.mp hd with rfl | hd
          · exact (not_lt.mp fun hlt ↦ hb (Best.better_eq.mpr hlt)).trans hle
          · exact hall d hd hpos
        · rintro ⟨d, hd, hscan⟩
          exact ⟨d, List.mem_cons_of_mem _ hd, hscan⟩

def addVotes (t : VoteTally K) (votes : List Vote) : VoteTally K :=
  votes.foldl (fun t v ↦ t.addVote v.count v.weight v.attestedAt) t

end VoteTally

namespace Vote

variable {votes : List Vote} {v : Vote} {c : ℕ}

theorem weightFor_concat : weightFor (votes ++ [v]) c =
    if v.count = c then weightFor votes c + v.weight else weightFor votes c := by
  rw [weightFor, forCount, List.filter_append, ← forCount, List.map_append, List.sum_append,
    ← weightFor]
  by_cases h : v.count = c <;> simp [h]

theorem weightFor_le : weightFor votes c ≤ (votes.map weight).sum :=
  (List.filter_sublist.map weight).sum_le_sum fun _ _ ↦ Nat.zero_le _

theorem min?_concat (ts : List ℤ) {a m : ℤ} (ha : a ≤ m) :
    (ts ++ [a]).min?.getD m = min (ts.min?.getD m) a := by
  cases ts with
  | nil => exact (min_eq_right ha).symm
  | cons t ts =>
    rw [List.cons_append, List.min?_cons', List.min?_cons', List.foldl_append]
    rfl

theorem earliest_concat (ht : v.attestedAt ≤ i64Max) : earliest (votes ++ [v]) c =
    if v.count = c then min (earliest votes c) v.attestedAt else earliest votes c := by
  rw [earliest, forCount, List.filter_append, ← forCount, List.map_append]
  by_cases h : v.count = c
  · have hone : [v].filter (fun v ↦ v.count = c) = [v] := by simp [h]
    rw [if_pos h, hone, List.map_singleton, min?_concat _ ht, earliest]
  · simp [h, earliest]

theorem earliest_perm {votes' : List Vote} (h : (forCount votes' c).Perm (forCount votes c)) :
    earliest votes' c = earliest votes c := by
  have hperm := h.map attestedAt
  rw [earliest, earliest]
  cases hmin : ((forCount votes c).map attestedAt).min? with
  | none =>
    rw [List.min?_eq_none_iff] at hmin
    rw [hmin, List.perm_nil] at hperm
    rw [hperm]
    rfl
  | some a =>
    rw [List.min?_eq_some_iff] at hmin
    have hsome : ((forCount votes' c).map attestedAt).min? = some a :=
      List.min?_eq_some_iff.mpr ⟨hperm.mem_iff.mpr hmin.1,
        fun b hb ↦ hmin.2 b (hperm.mem_iff.mp hb)⟩
    rw [hsome]

/-- An array with a slot for each count up to `maxWinners`; the one of zero stays unused. -/
def column {α : Type} (maxWinners : ℕ) (unused : α) (f : ℕ → α) : List α :=
  (List.range (maxWinners + 1)).map fun c ↦ if c = 0 then unused else f c

section Columns

variable {α : Type} {maxWinners : ℕ} {unused : α} {f g : ℕ → α}

@[simp] theorem length_column : (column maxWinners unused f).length = maxWinners + 1 := by
  simp [column]

theorem getD_column (hc : c ≠ 0) (hle : c ≤ maxWinners) (d : α) :
    (column maxWinners unused f).getD c d = f c := by
  simp [column, List.getD, Nat.lt_succ_of_le hle, hc]

theorem column_congr (h : ∀ c, c ≠ 0 → c ≤ maxWinners → f c = g c) :
    column maxWinners unused f = column maxWinners unused g := by
  refine List.map_congr_left fun c hc ↦ ?_
  rw [List.mem_range] at hc
  by_cases hz : c = 0
  · rw [if_pos hz, if_pos hz]
  · rw [if_neg hz, if_neg hz, h c hz (Nat.le_of_lt_succ hc)]

theorem column_set (hc : c ≠ 0) (a : α) : (column maxWinners unused f).set c a =
    column maxWinners unused fun d ↦ if d = c then a else f d := by
  refine List.ext_getElem (by simp) fun j hj hj' ↦ ?_
  simp only [column, List.getElem_set, List.getElem_map, List.getElem_range]
  by_cases h : j = c
  · simp [h, hc]
  · simp [h, Ne.symm h]

theorem column_const : column maxWinners unused (fun _ ↦ unused) =
    List.replicate (maxWinners + 1) unused := by
  simp [column, List.map_const']

end Columns

end Vote

namespace VoteTally

open Vote

variable {K : Type} {votes : List Vote} {lottery : K} {maxWinners totalAttested : ℕ}

theorem addVotes_concat (t : VoteTally K) (votes : List Vote) (v : Vote) :
    t.addVotes (votes ++ [v]) = (t.addVotes votes).addVote v.count v.weight v.attestedAt := by
  rw [addVotes, List.foldl_append]
  rfl

/-- The tally that holds, for each count, the weight and the earliest time of its votes. -/
def ofVotes (lottery : K) (maxWinners totalAttested : ℕ) (votes : List Vote) : VoteTally K :=
  { VoteTally.new lottery maxWinners totalAttested with
    weights := column maxWinners 0 (weightFor votes)
    firstSeen := column maxWinners i64Max (earliest votes) }

theorem addVote_outside {t : VoteTally K} {v : Vote} (hv : v.count = 0 ∨ t.maxWinners < v.count) :
    t.addVote v.count v.weight v.attestedAt = t := if_pos hv

theorem ofVotes_outside {v : Vote} (hv : v.count = 0 ∨ maxWinners < v.count)
    (ht : v.attestedAt ≤ i64Max) : ofVotes lottery maxWinners totalAttested (votes ++ [v]) =
      ofVotes lottery maxWinners totalAttested votes := by
  have hweights : column maxWinners 0 (weightFor (votes ++ [v])) =
      column maxWinners 0 (weightFor votes) :=
    column_congr fun c hc hle ↦ by rw [weightFor_concat, if_neg (by omega)]
  have htimes : column maxWinners i64Max (earliest (votes ++ [v])) =
      column maxWinners i64Max (earliest votes) :=
    column_congr fun c hc hle ↦ by rw [earliest_concat ht, if_neg (by omega)]
  rw [ofVotes, ofVotes, hweights, htimes]

theorem addVote_inside {v : Vote} (hcount : v.count ≠ 0) (hle : v.count ≤ maxWinners)
    (hsum : weightFor votes v.count + v.weight < 2 ^ 128) (ht : v.attestedAt ≤ i64Max) :
    (ofVotes lottery maxWinners totalAttested votes).addVote v.count v.weight v.attestedAt =
      ofVotes lottery maxWinners totalAttested (votes ++ [v]) := by
  have hin : ¬(v.count = 0 ∨ (ofVotes lottery maxWinners totalAttested votes).maxWinners <
      v.count) := by
    simp only [ofVotes, VoteTally.new]
    omega
  have hlen : ¬(ofVotes lottery maxWinners totalAttested votes).weights.length ≤ v.count := by
    simp only [ofVotes, length_column]
    omega
  have hweights : (column maxWinners 0 (weightFor votes)).set v.count
      (weightFor votes v.count + v.weight) = column maxWinners 0 (weightFor (votes ++ [v])) := by
    rw [column_set hcount]
    refine column_congr fun c _ _ ↦ ?_
    rw [weightFor_concat]
    by_cases hc : c = v.count
    · rw [if_pos hc, hc, if_pos rfl]
    · rw [if_neg hc, if_neg (Ne.symm hc)]
  have htimes : (if v.attestedAt < earliest votes v.count then
      (column maxWinners i64Max (earliest votes)).set v.count v.attestedAt
      else column maxWinners i64Max (earliest votes)) =
        column maxWinners i64Max (earliest (votes ++ [v])) := by
    split
    · next hearly =>
      rw [column_set hcount]
      refine column_congr fun c _ _ ↦ ?_
      rw [earliest_concat ht]
      by_cases hc : c = v.count
      · rw [if_pos hc, hc, if_pos rfl, min_eq_right hearly.le]
      · rw [if_neg hc, if_neg (Ne.symm hc)]
    · next hlate =>
      refine column_congr fun c _ _ ↦ ?_
      rw [earliest_concat ht]
      split
      · next hc => rw [← hc, min_eq_left (not_lt.mp hlate)]
      · rfl
  rw [addVote, if_neg hin, if_neg hlen]
  simp only [ofVotes, getD_column hcount hle, saturatingAdd_of_lt hsum, hweights, htimes]

theorem addVotes_eq (hw : (votes.map Vote.weight).sum < 2 ^ 128)
    (ht : ∀ v ∈ votes, v.attestedAt < i64Max) :
    (VoteTally.new lottery maxWinners totalAttested).addVotes votes =
      ofVotes lottery maxWinners totalAttested votes := by
  induction votes using List.reverseRecOn with
  | nil =>
    have hzero : weightFor [] = fun _ ↦ 0 := rfl
    have hlate : earliest [] = fun _ ↦ i64Max := rfl
    rw [ofVotes, hzero, hlate, column_const, column_const]
    rfl
  | append_singleton votes v ih =>
    rw [List.map_append, List.sum_append, List.map_singleton, List.sum_singleton] at hw
    have hv := ht v (by simp)
    have hprev := ih (by omega) fun u hu ↦ ht u (List.mem_append_left _ hu)
    rw [addVotes_concat, hprev]
    by_cases hout : v.count = 0 ∨ maxWinners < v.count
    · rw [addVote_outside hout, ofVotes_outside hout hv.le]
    · have hsum := @weightFor_le votes v.count
      exact addVote_inside (by omega) (by omega) (by omega) hv.le

theorem scan_ofVotes {t : VoteTally K} (h : t = ofVotes lottery maxWinners totalAttested votes)
    {maxCount : ℕ} (hmax : maxCount ≤ maxWinners) :
    ((∀ c, 1 ≤ c → c ≤ maxCount → weightFor votes c = 0) ∧
      t.scan (List.range' 1 maxCount) ⟨1, 0, i64Max⟩ = ⟨1, 0, i64Max⟩) ∨
    ∃ c, Elects votes maxCount c ∧ t.scan (List.range' 1 maxCount) ⟨1, 0, i64Max⟩ =
      ⟨c, weightFor votes c, earliest votes c⟩ := by
  subst h
  have hmem (c : ℕ) : c ∈ List.range' 1 maxCount ↔ 1 ≤ c ∧ c ≤ maxCount := by
    rw [List.mem_range'_1]
    omega
  have hlen : ∀ c ∈ List.range' 1 maxCount,
      c < (ofVotes lottery maxWinners totalAttested votes).weights.length := by
    intro c hc
    have hrange := (hmem c).mp hc
    simp only [ofVotes, length_column]
    omega
  have hw {c : ℕ} (hc : 1 ≤ c) (hle : c ≤ maxCount) :
      (ofVotes lottery maxWinners totalAttested votes).weights.getD c 0 = weightFor votes c :=
    getD_column (by omega) (hle.trans hmax) 0
  have hf {c : ℕ} (hc : 1 ≤ c) (hle : c ≤ maxCount) :
      (ofVotes lottery maxWinners totalAttested votes).firstSeen.getD c i64Max =
        earliest votes c := getD_column (by omega) (hle.trans hmax) i64Max
  obtain ⟨-, hall, hend⟩ := scan_greatest hlen ⟨1, 0, i64Max⟩
  rcases hend with hend | ⟨c, hc, hpos, hend⟩
  · refine Or.inl ⟨fun c hc hle ↦ ?_, hend⟩
    by_contra hne
    have hle' := hall c ((hmem c).mpr ⟨hc, hle⟩) (by rw [hw hc hle]; exact Nat.pos_of_ne_zero hne)
    rw [hend, hw hc hle] at hle'
    exact hne (Nat.le_zero.mp (le_of_rank_le hle'))
  · obtain ⟨hc, hle⟩ := (hmem c).mp hc
    rw [hw hc hle, hf hc hle] at hend
    rw [hw hc hle] at hpos
    refine Or.inr ⟨c, ⟨hc, hle, hpos, fun d hd hdle hne ↦ ?_⟩, hend⟩
    by_cases hz : weightFor votes d = 0
    · exact Or.inl (by omega)
    · have hrank := hall d ((hmem d).mpr ⟨hd, hdle⟩)
        (by rw [hw hd hdle]; exact Nat.pos_of_ne_zero hz)
      rw [hend, hw hd hdle, hf hd hdle] at hrank
      have hlt : rank (weightFor votes d) (earliest votes d) d <
          rank (weightFor votes c) (earliest votes c) c :=
        lt_of_le_of_ne hrank fun heq ↦ hne (rank_inj heq)
      have hout := rank_lt.mp hlt
      unfold Outranks
      omega

theorem ofVotes_congr {votes' : List Vote}
    (h : ∀ c, c ≠ 0 → c ≤ maxWinners → (forCount votes' c).Perm (forCount votes c)) :
    ofVotes lottery maxWinners totalAttested votes' =
      ofVotes lottery maxWinners totalAttested votes := by
  have hweights : column maxWinners 0 (weightFor votes') = column maxWinners 0 (weightFor votes) :=
    column_congr fun c hc hle ↦ ((h c hc hle).map Vote.weight).sum_eq
  have htimes : column maxWinners i64Max (earliest votes') =
      column maxWinners i64Max (earliest votes) :=
    column_congr fun c hc hle ↦ earliest_perm (h c hc hle)
  rw [ofVotes, ofVotes, hweights, htimes]

/-- What a tally elects: one winner where no count in the range has weight, and otherwise the
count in the range that goes before the others. -/
theorem selectedWinners_elected {participantsCount : ℕ} (hn : 2 ≤ participantsCount)
    (hw : (votes.map Vote.weight).sum < 2 ^ 128) (ht : ∀ v ∈ votes, v.attestedAt < i64Max) :
    let tally := (VoteTally.new lottery maxWinners totalAttested).addVotes votes
    let maxCount := min maxWinners (participantsCount - 1)
    ((∀ c, 1 ≤ c → c ≤ maxCount → weightFor votes c = 0) →
      tally.selectedWinners participantsCount = 1) ∧
    ((∃ c, 1 ≤ c ∧ c ≤ maxCount ∧ 0 < weightFor votes c) →
      Elects votes maxCount (tally.selectedWinners participantsCount)) ∧
    (VoteTally.new lottery maxWinners totalAttested).addVotes
      (votes.filter fun v ↦ 1 ≤ v.count ∧ v.count ≤ maxWinners) = tally ∧
    (∀ votes' : List Vote, votes'.Perm votes →
      (VoteTally.new lottery maxWinners totalAttested).addVotes votes' = tally) ∧
    ∀ l : Lottery K, l.participantsCount = participantsCount →
      l.setSelectedWinners (tally.selectedWinners participantsCount) =
        .ok { l with selectedNumberOfWinners := tally.selectedWinners participantsCount } := by
  intro tally maxCount
  have htally : tally = ofVotes lottery maxWinners totalAttested votes := addVotes_eq hw ht
  have hsel : tally.selectedWinners participantsCount =
      if (tally.scan (List.range' 1 maxCount) ⟨1, 0, i64Max⟩).weight = 0 then 1
      else (tally.scan (List.range' 1 maxCount) ⟨1, 0, i64Max⟩).count := by
    rw [selectedWinners, if_neg (by omega), htally]
    rfl
  have hscan := scan_ofVotes htally (min_le_left maxWinners (participantsCount - 1))
  have hbounds : 1 ≤ tally.selectedWinners participantsCount ∧
      tally.selectedWinners participantsCount ≤ participantsCount - 1 := by
    rcases hscan with ⟨-, hscan⟩ | ⟨c, helects, hscan⟩
    · rw [hsel, hscan, if_pos rfl]
      omega
    · have hpos := helects.pos
      rw [hsel, hscan, if_neg hpos.ne']
      exact ⟨helects.one_le, helects.le.trans (min_le_right _ _)⟩
  refine ⟨fun hzero ↦ ?_, fun ⟨c, hc, hle, hpos⟩ ↦ ?_, ?_, fun votes' hperm ↦ ?_, fun l hl ↦ ?_⟩
  · rcases hscan with ⟨-, hscan⟩ | ⟨c, helects, -⟩
    · rw [hsel, hscan, if_pos rfl]
    · exact absurd (hzero c helects.one_le helects.le) helects.pos.ne'
  · rcases hscan with ⟨hzero, -⟩ | ⟨c, helects, hscan⟩
    · exact absurd (hzero c hc hle) hpos.ne'
    · have hpos := helects.pos
      rwa [hsel, hscan, if_neg hpos.ne']
  · have hsum : ((votes.filter fun v ↦ 1 ≤ v.count ∧ v.count ≤ maxWinners).map
        Vote.weight).sum ≤ (votes.map Vote.weight).sum :=
      (List.filter_sublist.map Vote.weight).sum_le_sum fun _ _ ↦ Nat.zero_le _
    have hfor (c : ℕ) (hc : c ≠ 0) (hle : c ≤ maxWinners) :
        forCount (votes.filter fun v ↦ 1 ≤ v.count ∧
          v.count ≤ maxWinners) c = forCount votes c := by
      rw [forCount, List.filter_filter]
      refine List.filter_congr fun v _ ↦ ?_
      by_cases hv : v.count = c
      · simp [hv, hle, Nat.one_le_iff_ne_zero.mpr hc]
      · simp [hv]
    rw [htally, addVotes_eq (hsum.trans_lt hw) fun v hv ↦ ht v (List.mem_of_mem_filter hv)]
    exact ofVotes_congr fun c hc hle ↦ .of_eq (hfor c hc hle)
  · have hsum : (votes'.map Vote.weight).sum = (votes.map Vote.weight).sum :=
      (hperm.map Vote.weight).sum_eq
    rw [htally, addVotes_eq (hsum ▸ hw) fun v hv ↦ ht v (hperm.mem_iff.mp hv)]
    exact ofVotes_congr fun c _ _ ↦ hperm.filter _
  · simp only [Lottery.setSelectedWinners, bind_eq_ok, rejectIf_eq_ok, exists_const, pure_eq_ok, hl]
    exact ⟨by omega, by omega, by omega, trivial⟩

/-- A tie on weight decided by time, with a heavier vote out of range. -/
theorem selectedWinners_elected_sample :
    let votes : List Vote := [⟨2, 5, 10⟩, ⟨1, 3, 12⟩, ⟨3, 9, 1⟩, ⟨1, 2, 9⟩, ⟨7, 50, 2⟩]
    Elects votes 2 1 ∧
      ((VoteTally.new () 4 5).addVotes votes.reverse).selectedWinners 3 = 1 := by
  intro votes
  obtain ⟨-, helects, -, hperm, -⟩ :=
    @selectedWinners_elected Unit votes () 4 5 3 (by decide) (by decide) (by decide)
  have hsel : ((VoteTally.new () 4 5).addVotes votes).selectedWinners 3 = 1 := by decide
  refine ⟨hsel ▸ helects ⟨2, by decide, by decide, by decide⟩, ?_⟩
  rw [hperm _ (List.reverse_perm votes), hsel]

end VoteTally

end DailyLottery
