import DailyLottery.Codec.Bytes

namespace DailyLottery

/-- The seeds of an address as the program passes them on, end to end. -/
def Seeds.bytes : Seeds Bytes32 → Bytes
  -- "config"
  | .config => [0x63, 0x6f, 0x6e, 0x66, 0x69, 0x67]
  -- "lottery"
  | .lottery configKey id =>
    [0x6c, 0x6f, 0x74, 0x74, 0x65, 0x72, 0x79] ++ configKey.toList ++ leBytes 8 id
  -- "participant"
  | .participant lotteryKey wallet =>
    [0x70, 0x61, 0x72, 0x74, 0x69, 0x63, 0x69, 0x70, 0x61, 0x6e, 0x74] ++ lotteryKey.toList ++
      wallet.toList
  -- "vault"
  | .vault lotteryKey => [0x76, 0x61, 0x75, 0x6c, 0x74] ++ lotteryKey.toList
  -- "vote_tally"
  | .voteTally lotteryKey =>
    [0x76, 0x6f, 0x74, 0x65, 0x5f, 0x74, 0x61, 0x6c, 0x6c, 0x79] ++ lotteryKey.toList
  -- "finalization_root_v2"
  | .finalizationRoot lotteryKey =>
    [0x66, 0x69, 0x6e, 0x61, 0x6c, 0x69, 0x7a, 0x61, 0x74, 0x69, 0x6f, 0x6e, 0x5f, 0x72, 0x6f, 0x6f,
      0x74, 0x5f, 0x76, 0x32] ++ lotteryKey.toList
  -- "winner_page"
  | .winnerPage lotteryKey pageIndex =>
    [0x77, 0x69, 0x6e, 0x6e, 0x65, 0x72, 0x5f, 0x70, 0x61, 0x67, 0x65] ++ lotteryKey.toList ++
      leBytes 4 pageIndex

/-- Ids are `u64` and page indices `u32`. -/
def Seeds.InRange {K : Type} : Seeds K → Prop
  | .lottery _ id => id < 2 ^ 64
  | .winnerPage _ pageIndex => pageIndex < 2 ^ 32
  | _ => True

/-- What the address hash is taken of, the program's id apart. -/
def Seeds.hashed (s : Seeds Bytes32) (bump : UInt8) : Bytes := s.bytes ++ [bump]

theorem Seeds.length_bytes (s : Seeds Bytes32) : s.bytes.length = match s with
    | .config => 6
    | .lottery _ _ => 47
    | .participant _ _ => 75
    | .vault _ => 37
    | .voteTally _ => 42
    | .finalizationRoot _ => 52
    | .winnerPage _ _ => 47 := by
  cases s <;> simp [Seeds.bytes]

theorem Seeds.hashed_inj {s t : Seeds Bytes32} (hs : s.InRange) (ht : t.InRange) {b c : UInt8} :
    s.hashed b = t.hashed c ↔ s = t ∧ b = c := by
  refine ⟨fun h ↦ ?_, fun h ↦ by rw [h.1, h.2]⟩
  obtain ⟨hbytes, hbump⟩ := List.append_inj' h rfl
  refine ⟨?_, List.singleton_inj.mp hbump⟩
  have hlen := congrArg List.length hbytes
  rw [Seeds.length_bytes, Seeds.length_bytes] at hlen
  -- the lengths tell the kinds apart, but for lotteries and pages
  cases s <;> cases t <;> simp only [Nat.reduceEqDiff] at hlen
  all_goals simp only [Seeds.bytes, List.append_assoc, List.append_cancel_left_eq] at hbytes
  case lottery.winnerPage => exact absurd (List.cons.inj hbytes).1 (by decide)
  case winnerPage.lottery => exact absurd (List.cons.inj hbytes).1 (by decide)
  case config.config => rfl
  case lottery.lottery =>
    obtain ⟨rfl, hid⟩ := vector_append_inj.mp hbytes
    rw [leBytes_inj hs ht hid]
  case participant.participant =>
    obtain ⟨rfl, hwallet⟩ := vector_append_inj.mp hbytes
    rw [Vector.toList_inj.mp hwallet]
  case vault.vault => rw [Vector.toList_inj.mp hbytes]
  case voteTally.voteTally => rw [Vector.toList_inj.mp hbytes]
  case finalizationRoot.finalizationRoot => rw [Vector.toList_inj.mp hbytes]
  case winnerPage.winnerPage =>
    obtain ⟨rfl, hpage⟩ := vector_append_inj.mp hbytes
    rw [leBytes_inj hs ht hpage]

section Derivation

variable {A : Type} (hash : Bytes → A) (offCurve : A → Bool)

/-- `find_program_address`: the first bump from 255 down whose address is off the curve. -/
def findProgramAddress (s : Seeds Bytes32) : Option (A × UInt8) :=
  ((List.range' 1 255).reverse.map UInt8.ofNat).findSome? fun bump ↦
    if offCurve (hash (s.hashed bump)) then some (hash (s.hashed bump), bump) else none

variable {hash offCurve}

theorem findProgramAddress_eq {s : Seeds Bytes32} {key : A} {bump : UInt8}
    (h : findProgramAddress hash offCurve s = some (key, bump)) : hash (s.hashed bump) = key := by
  obtain ⟨b, -, hb⟩ := List.exists_of_findSome?_eq_some h
  rw [Option.ite_none_right_eq_some, Option.some.injEq, Prod.mk.injEq] at hb
  obtain ⟨-, hkey, rfl⟩ := hb
  exact hkey

/-- What is hashed for two addresses differs unless kind, parameters and bump agree, so under a
hash without collisions no address is derived twice. -/
theorem addresses_distinct {s t : Seeds Bytes32} (hs : s.InRange) (ht : t.InRange) :
    (∀ b c, s.hashed b = t.hashed c ↔ s = t ∧ b = c) ∧
    ∀ {A : Type} (hash : Bytes → A) (offCurve : A → Bool),
      Set.InjOn hash {x | ∃ u b, Seeds.InRange u ∧ x = Seeds.hashed u b} →
      ∀ key b c, findProgramAddress hash offCurve s = some (key, b) →
        findProgramAddress hash offCurve t = some (key, c) → s = t := by
  refine ⟨fun b c ↦ Seeds.hashed_inj hs ht, fun hash offCurve hinj key b c hsk htk ↦ ?_⟩
  have heq : hash (s.hashed b) = hash (t.hashed c) := by
    rw [findProgramAddress_eq hsk, findProgramAddress_eq htk]
  have hstr := hinj ⟨s, b, hs, rfl⟩ ⟨t, c, ht, rfl⟩ heq
  exact ((Seeds.hashed_inj hs ht).mp hstr).1

end Derivation

/-- A lottery and a winner page: two kinds of one length. -/
theorem addresses_distinct_sample :
    let s : Seeds Bytes32 := .lottery (Vector.replicate 32 0) 7
    let t : Seeds Bytes32 := .winnerPage (Vector.replicate 32 0) 7
    (s.hashed 255).length = (t.hashed 255).length ∧
      findProgramAddress id (fun _ ↦ true) s ≠ findProgramAddress id (fun _ ↦ true) t := by
  intro s t
  refine ⟨by decide, fun h ↦ ?_⟩
  have hs : findProgramAddress id (fun _ ↦ true) s = some (s.hashed 255, 255) := rfl
  have hid : s.InRange := show 7 < 2 ^ 64 by decide
  have hpage : t.InRange := show 7 < 2 ^ 32 by decide
  have hst : s = t := (addresses_distinct hid hpage).2 id (fun _ ↦ true)
    Function.injective_id.injOn _ _ _ hs (h ▸ hs)
  simp [s, t] at hst

end DailyLottery
