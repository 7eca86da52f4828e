import DailyLottery.Refinement.Simulation

set_option linter.unusedSectionVars false

namespace DailyLottery

open Lib Ballot

variable {K : Type} [DecidableEq K] [Inhabited K] {rt : Runtime K} {acts : List (Action K)}
  {w w' : World K} {ws : List (World K)} {id : ℕ} {r : Round K} {ps : List (Participant K)}

variable (rt) in
/-- The participants a lottery ever had, each as its account was last seen. -/
structure Roll (ws : List (World K)) (id : ℕ) (ps : List (Participant K)) : Prop where
  mem_iff : ∀ wallet p, pastOf rt ws id wallet = some p ↔ p ∈ ps ∧ p.wallet = wallet
  nodup : (ps.map Participant.wallet).Nodup
  index : ps.map Participant.participantIndex = List.range ps.length

/-- Where the data of a participant account is as before, or gone, so is what is known of it. -/
theorem pastOf_of_same {wallet : K}
    (h : (w'.view rt id (.participant wallet)).data = (w.view rt id (.participant wallet)).data ∨
      (w'.view rt id (.participant wallet)).data = .empty) :
    pastOf rt (w' :: w :: ws) id wallet = pastOf rt (w :: ws) id wallet := by
  rw [pastOf_cons, pastOf_cons]
  unfold View.lastIn
  rcases h with h | h
  · rw [h]
    cases (w.view rt id (.participant wallet)).data <;> rfl
  · rw [h]

theorem pastOf_of_data {wallet : K} {p : Participant K}
    (h : (w.view rt id (.participant wallet)).data = .participant p) :
    pastOf rt (w :: ws) id wallet = some p := by
  rw [pastOf_cons, View.lastIn, h]

namespace Roll

theorem mem_of_data (h : Roll rt (w :: ws) id ps) {wallet : K} {p : Participant K}
    (hd : (w.view rt id (.participant wallet)).data = .participant p) : p ∈ ps ∧
    p.wallet = wallet := by
  rw [← h.mem_iff, pastOf_cons, View.lastIn, hd]

theorem getElem_index (h : Roll rt ws id ps) {i : ℕ} {p : Participant K} (hp : ps[i]? = some p) :
    p.participantIndex = i := by
  have hget := congrArg (·[i]?) h.index
  simp only [List.getElem?_map, hp, Option.map_some] at hget
  obtain ⟨hlt, -⟩ := List.getElem?_eq_some_iff.mp hp
  rw [List.getElem?_range hlt] at hget
  simpa using hget

theorem eq_of_wallet (h : Roll rt ws id ps) {p q : Participant K} (hp : p ∈ ps) (hq : q ∈ ps)
    (hw : p.wallet = q.wallet) : p = q := by
  have := (h.mem_iff p.wallet p).mpr ⟨hp, rfl⟩
  rw [hw, (h.mem_iff q.wallet q).mpr ⟨hq, rfl⟩] at this
  exact (Option.some.inj this).symm

end Roll

namespace Represents

theorem pastOf_eq (hr : Represents rt acts w ws id r) (wallet : K) (p : Participant K) :
    pastOf rt (w :: ws) id wallet = some p ↔ p ∈ r.participants ∧ p.wallet = wallet := by
  rw [pastOf_cons]
  constructor
  · intro hl
    by_cases hw : wallet ∈ r.participants.map Participant.wallet
    · obtain ⟨q, hq, rfl⟩ := List.mem_map.mp hw
      have hlast := hr.roster.last q hq
      rw [hl] at hlast
      cases hlast
      exact ⟨hq, rfl⟩
    · rw [(hr.roster.absent wallet hw).1] at hl
      cases hl
  · rintro ⟨hp, rfl⟩
    exact hr.roster.last p hp

theorem roll (hr : Represents rt acts w ws id r) (hb : r.books.Sound) :
    Roll rt (w :: ws) id r.participants := by
  refine ⟨hr.pastOf_eq, hr.roster.nodup, ?_⟩
  refine List.ext_getElem? fun i ↦ ?_
  rw [List.getElem?_map]
  cases hp : r.participants[i]? with
  | none =>
    rw [List.getElem?_eq_none_iff] at hp
    rw [List.getElem?_eq_none (by simpa using hp)]
    rfl
  | some p =>
    obtain ⟨hlt, -⟩ := List.getElem?_eq_some_iff.mp hp
    rw [List.getElem?_range hlt]
    exact congrArg some (hb.enrolled.index i p.ballot (Round.ballots_get hp))

theorem stored (hr : Represents rt acts w ws id r) (hroute : r.Routed) {p : Participant K}
    (hp : p ∈ r.participants) :
    (w.view rt id (.participant p.wallet)).data = .participant p ∨
      (w.view rt id (.participant p.wallet)).data = .empty ∧ r.lottery.settled = true := by
  refine (hr.roster.stored p hp).imp And.left fun ⟨he, hcl⟩ ↦ ⟨he, ?_⟩
  rcases hcl with ⟨hs, -⟩ | ⟨hc, -⟩
  · exact hs
  · exact (hroute.complete hc).1

theorem tally_eq (hr : Represents rt acts w ws id r) {t : VoteTally K} (ht : r.tally = some t) :
    (w.view rt id .voteTally).data = .voteTally t := by
  rw [hr.tally, ht]
  rfl

end Represents

end DailyLottery
