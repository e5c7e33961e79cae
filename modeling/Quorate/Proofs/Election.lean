import Mathlib.Data.Prod.Lex
import Quorate.Proofs.Quorum.Tally
import Quorate.Proofs.Stamp.Order
import Quorate.Election

/-!
# Who wins an election

A round is decided exactly if the live participants are a majority of all
(`exists_elect_eq_elected_iff`). Its winner is one of them (`mem_of_elect_eq_elected`), and
none of them has a greater last stamp than the winner (`stamp_le_of_elected`). Candidates are
ranked by their stamps and then by their ids. No two of them have the same rank, so that it
does not matter in which order they are listed (`lastCandidate?_eq_some_iff`).
-/

namespace Quorate

/-- The participants that are live, with the stamps they stand with. -/
def candidates (r : Roster) (live : IdSet) (last : ServerId → Option Stamp) :
    List (Stamp × ServerId) :=
  (r.voters.filter live.contains).ids.map fun id => ((last id).getD .zero, id)

theorem mem_of_lastCandidate? {candidates : List (Stamp × ServerId)} {c : Stamp × ServerId}
    (h : lastCandidate? candidates = some c) : c ∈ candidates := by
  induction candidates generalizing c with
  | nil => cases h
  | cons a rest ih =>
      unfold lastCandidate? at h
      cases hrest : lastCandidate? rest with
      | none =>
          rw [hrest] at h
          cases h
          exact List.mem_cons_self
      | some b =>
          rw [hrest] at h
          have hc : (if candidateBelow b a then a else b) = c := Option.some.inj h
          split at hc
          · exact hc ▸ List.mem_cons_self
          · exact hc ▸ List.mem_cons_of_mem _ (ih hrest)

theorem lastCandidate?_eq_none_iff {candidates : List (Stamp × ServerId)} :
    lastCandidate? candidates = none ↔ candidates = [] := by
  cases candidates with
  | nil => simp [lastCandidate?]
  | cons a rest =>
      unfold lastCandidate?
      cases lastCandidate? rest <;> simp

/-- The rank of a candidate, which is its stamp first and then its id. -/
def rank (c : Stamp × ServerId) : Stamp ×ₗ Nat :=
  toLex (c.1, c.2.toNat)

theorem rank_injective : Function.Injective rank := by
  rintro ⟨stamp, id⟩ ⟨stamp', id'⟩ h
  obtain ⟨rfl, hid⟩ := Prod.mk.inj (toLex_inj.1 h)
  exact Prod.ext rfl (UInt64.toNat_inj.1 hid)

theorem candidateBelow_iff {a b : Stamp × ServerId} :
    candidateBelow a b = true ↔ rank a < rank b := by
  rw [rank, rank, Prod.Lex.toLex_lt_toLex]
  simp [candidateBelow, UInt64.lt_iff_toNat_lt]

theorem le_lastCandidate? {candidates : List (Stamp × ServerId)} {c x : Stamp × ServerId}
    (h : lastCandidate? candidates = some c) (hx : x ∈ candidates) : rank x ≤ rank c := by
  induction candidates generalizing c with
  | nil => cases hx
  | cons a rest ih =>
      unfold lastCandidate? at h
      cases hrest : lastCandidate? rest with
      | none =>
          rw [hrest] at h
          cases h
          rw [lastCandidate?_eq_none_iff.1 hrest] at hx
          exact le_of_eq (congrArg rank (List.mem_singleton.1 hx))
      | some b =>
          rw [hrest] at h
          have hc : (if candidateBelow b a then a else b) = c := Option.some.inj h
          rcases List.mem_cons.1 hx with rfl | hin
          · split at hc
            · exact le_of_eq (congrArg rank hc)
            · rename_i hnot
              exact hc ▸ not_lt.1 fun hlt => hnot (candidateBelow_iff.2 hlt)
          · have hxb := ih hrest hin
            split at hc
            · rename_i hbelow
              exact hc ▸ hxb.trans (candidateBelow_iff.1 hbelow).le
            · exact hc ▸ hxb

/-- The last candidate is the greatest one, whatever the order in which they are listed. -/
theorem lastCandidate?_eq_some_iff {candidates : List (Stamp × ServerId)}
    {c : Stamp × ServerId} :
    lastCandidate? candidates = some c ↔
      c ∈ candidates ∧ ∀ x ∈ candidates, rank x ≤ rank c := by
  constructor
  · intro h
    exact ⟨mem_of_lastCandidate? h, fun _ hx => le_lastCandidate? h hx⟩
  · rintro ⟨hc, hgreatest⟩
    cases hlast : lastCandidate? candidates with
    | none =>
        rw [lastCandidate?_eq_none_iff.1 hlast] at hc
        cases hc
    | some d =>
        have hle := hgreatest d (mem_of_lastCandidate? hlast)
        rw [rank_injective (le_antisymm hle (le_lastCandidate? hlast hc))]

section Decided

variable {r : Roster} {live : IdSet} {last : ServerId → Option Stamp} {winner : ServerId}

theorem mem_candidates_iff {stamp : Stamp} {id : ServerId} :
    (stamp, id) ∈ candidates r live last ↔
      (id ∈ r.voters ∧ id ∈ live) ∧ (last id).getD .zero = stamp := by
  simp only [candidates, List.mem_map, ← IdSet.mem_iff, IdSet.mem_filter, IdSet.contains_iff,
    Prod.mk.injEq]
  constructor
  · rintro ⟨a, hin, hstamp, rfl⟩
    exact ⟨hin, hstamp⟩
  · rintro ⟨hin, hstamp⟩
    exact ⟨id, hin, hstamp, rfl⟩

/-- A decided round: the winner is the last candidate, and those live are enough votes. The
convention that a vote without voters is won has no part in it, since there is no candidate. -/
theorem elect_eq_elected_iff :
    elect r live last = .elected winner ↔
      (∃ stamp, lastCandidate? (candidates r live last) = some (stamp, winner)) ∧
        r.IsMajority (r.participants.toFinset.filter (· ∈ live)) := by
  have hwon : r.majority.tally (fun id => if live.contains id then some true else none) = .won ↔
      r.participants = [] ∨ r.IsMajority (r.participants.toFinset.filter (· ∈ live)) := by
    simpa using @Roster.tally_majority_eq_won_iff r
      fun id => if live.contains id then some true else none
  unfold elect
  dsimp only
  rw [← candidates]
  cases hlast : lastCandidate? (candidates r live last) with
  | none => simp
  | some candidate =>
      obtain ⟨hvoter, _⟩ := (mem_candidates_iff.1 (mem_of_lastCandidate? hlast)).1
      have hsome : r.participants ≠ [] := List.ne_nil_of_mem (Roster.mem_voters_iff.1 hvoter)
      rw [or_iff_right hsome] at hwon
      dsimp only
      split
      · rename_i h
        simp [Prod.ext_iff, hwon.1 h]
      · rename_i h
        simp [hwon.not.1 h]

theorem mem_of_elect_eq_elected (h : elect r live last = .elected winner) :
    winner ∈ r.voters ∧ winner ∈ live := by
  obtain ⟨⟨_, hlast⟩, _⟩ := elect_eq_elected_iff.1 h
  exact (mem_candidates_iff.1 (mem_of_lastCandidate? hlast)).1

theorem stamp_le_of_elected (h : elect r live last = .elected winner) {id : ServerId}
    (hvoter : id ∈ r.voters) (hlive : id ∈ live) :
    (last id).getD .zero ≤ (last winner).getD .zero := by
  obtain ⟨⟨stamp, hlast⟩, _⟩ := elect_eq_elected_iff.1 h
  obtain ⟨_, hstamp⟩ := mem_candidates_iff.1 (mem_of_lastCandidate? hlast)
  rw [hstamp]
  exact Prod.Lex.monotone_fst _ _
    (le_lastCandidate? hlast (mem_candidates_iff.2 ⟨⟨hvoter, hlive⟩, rfl⟩))

theorem isMajority_of_elected (h : elect r live last = .elected winner) :
    r.IsMajority (r.participants.toFinset.filter (· ∈ live)) :=
  (elect_eq_elected_iff.1 h).2

theorem exists_elect_eq_elected_iff :
    (∃ winner, elect r live last = .elected winner) ↔
      r.IsMajority (r.participants.toFinset.filter (· ∈ live)) := by
  refine ⟨fun ⟨_, h⟩ => isMajority_of_elected h, fun h => ?_⟩
  -- A majority that is live holds a candidate.
  have hne : (r.participants.toFinset.filter (· ∈ live)).Nonempty := by
    rw [Finset.nonempty_iff_ne_empty]
    intro hempty
    have hcard := h.2
    rw [hempty, Finset.card_empty] at hcard
    exact absurd hcard (Nat.not_lt_zero _)
  obtain ⟨id, hid⟩ := hne
  obtain ⟨hvoter, hlive⟩ := Finset.mem_filter.1 hid
  have hmem : ((last id).getD .zero, id) ∈ candidates r live last :=
    mem_candidates_iff.2 ⟨⟨Roster.mem_voters_iff.2 (List.mem_toFinset.1 hvoter), hlive⟩, rfl⟩
  cases hlast : lastCandidate? (candidates r live last) with
  | none =>
      rw [lastCandidate?_eq_none_iff.1 hlast] at hmem
      cases hmem
  | some candidate => exact ⟨candidate.2, elect_eq_elected_iff.2 ⟨⟨candidate.1, hlast⟩, h⟩⟩

end Decided

end Quorate
