import Quorate.Proofs.Quorum.Overlap

/-!
# Counts of votes

Whether a vote is won and whether acknowledgements are a quorum are decided by separate
counts. Both say that the voters concerned are a majority (`tally_majority_eq_won_iff`,
`isQuorum_iff`), and they differ in one point: without voters every vote is won, and there
is no quorum. So what a log accepts, under one roster or in the handover to the next, is a
quorum of each roster that has a participant (`accepts_majority_iff`,
`accepts_handover_iff`).
-/

namespace Quorate

theorem Majority.count_eq_card (m : Majority) (vote : ServerId → Option Bool) (answer : Bool) :
    m.count vote answer = (m.voters.toFinset.filter (vote · = some answer)).card := by
  rw [count, List.countP_eq_length_filter,
    ← List.toFinset_card_of_nodup (m.voters.nodup_ids.filter _), List.toFinset_filter]
  simp [IdSet.toFinset]

theorem Majority.tally_eq_won_iff {m : Majority} {vote : ServerId → Option Bool} :
    m.tally vote = .won ↔
      m.voters.isEmpty = true ∨ m.voters.size < 2 * m.count vote true := by
  have hmore : majoritySize m.voters.size ≤ m.count vote true ↔
      m.voters.size < 2 * m.count vote true := by
    rw [majoritySize]
    omega
  rw [← hmore, tally]
  split
  · rename_i hempty
    simp [hempty]
  · rename_i hvoters
    split
    · rename_i hwon
      simp [hwon]
    · rename_i hnot
      split <;> simp [hvoters, hnot]

theorem Joint.tally_eq_won_iff {j : Joint} {vote : ServerId → Option Bool} :
    j.tally vote = .won ↔ j.incoming.tally vote = .won ∧ j.outgoing.tally vote = .won := by
  rw [tally]
  cases j.incoming.tally vote <;> cases j.outgoing.tally vote <;> simp

namespace Roster

theorem isEmpty_voters_iff {r : Roster} : r.voters.isEmpty = true ↔ r.participants = [] := by
  rw [← not_iff_not, Bool.not_eq_true, IdSet.isEmpty_eq_false_iff, nonempty_voters_iff]

theorem isMajority_filter_iff {r : Roster} {p : ServerId → Prop} [DecidablePred p] :
    r.IsMajority (r.participants.toFinset.filter p) ↔
      r.participants.toFinset.card < 2 * (r.participants.toFinset.filter p).card :=
  and_iff_right (Finset.filter_subset _ _)

theorem tally_majority_eq_won_iff {r : Roster} {vote : ServerId → Option Bool} :
    r.majority.tally vote = .won ↔
      r.participants = [] ∨ r.IsMajority (r.participants.toFinset.filter (vote · = some true)) := by
  rw [Majority.tally_eq_won_iff, Majority.count_eq_card, isMajority_filter_iff,
    ← isEmpty_voters_iff, ← toFinset_voters, IdSet.card_toFinset]
  rfl

theorem isQuorum_iff {r : Roster} {acks : List ServerId} :
    r.isQuorum acks = true ↔ r.IsMajority (r.participants.toFinset.filter (· ∈ acks)) := by
  have hacked : (IdSet.ofList (acks.filter r.voters.contains)).toFinset =
      r.participants.toFinset.filter (· ∈ acks) := by
    ext id
    simp [IdSet.toFinset_ofList, voters, and_comm]
  rw [isQuorum, decide_eq_true_iff, isMajority_filter_iff, ← hacked, ← toFinset_voters,
    IdSet.card_toFinset, IdSet.card_toFinset]
  omega

theorem participants_ne_nil_of_isMajority {r : Roster} {A : Finset ServerId}
    (h : r.IsMajority A) : r.participants ≠ [] := by
  obtain ⟨hsub, hcard⟩ := h
  intro hnil
  rw [hnil, List.toFinset_nil, Finset.subset_empty] at hsub
  rw [hnil, hsub, List.toFinset_nil] at hcard
  exact absurd hcard (by decide)

theorem accepts_majority_iff {r : Roster} {acks : List ServerId} :
    Electorate.accepts r.majority acks = true ↔
      r.participants = [] ∨ r.isQuorum acks = true := by
  have htally : r.majority.tally (fun id => some (acks.contains id)) = .won ↔
      r.participants = [] ∨ r.isQuorum acks = true := by
    rw [tally_majority_eq_won_iff, isQuorum_iff]
    simp
  rw [Electorate.accepts, decide_eq_true_iff]
  exact htally

theorem accepts_handover_iff {old new : Roster} {acks : List ServerId} :
    Electorate.accepts (old.handover new) acks = true ↔
      (new.participants = [] ∨ new.isQuorum acks = true) ∧
        (old.participants = [] ∨ old.isQuorum acks = true) := by
  rw [← accepts_majority_iff, ← accepts_majority_iff]
  simp only [Electorate.accepts, decide_eq_true_iff]
  exact Joint.tally_eq_won_iff

end Roster

end Quorate
