import Quorate.Proofs.IdSet
import Quorate.Quorum.Overlap

/-!
# Majorities that meet

`Roster.IsMajority r A` says that `A` is a set of more than half of the participants of
`r`. If `quorumsMeet` accepts two rosters then each has a participant, and every majority
of one shares a server with every majority of the other (`exists_mem_of_quorumsMeet`). The
count behind it is `card_le_of_disjoint`: of two disjoint majorities, each must find what
it lacks among the participants that the rosters share.
-/

namespace Quorate.Roster

/-- More than half of the participants, and no one else. -/
def IsMajority (r : Roster) (A : Finset ServerId) : Prop :=
  A ⊆ r.participants.toFinset ∧ r.participants.toFinset.card < 2 * A.card

theorem toFinset_voters (r : Roster) : r.voters.toFinset = r.participants.toFinset :=
  IdSet.toFinset_ofList r.participants

theorem mem_voters_iff {r : Roster} {id : ServerId} : id ∈ r.voters ↔ id ∈ r.participants :=
  IdSet.mem_ofList

theorem nonempty_voters_iff {r : Roster} : r.voters.toFinset.Nonempty ↔ r.participants ≠ [] := by
  rw [toFinset_voters, List.toFinset_nonempty_iff]

theorem participantChanges_eq_zero_iff {a b : Roster} :
    a.participantChanges b = 0 ↔ a.participants.toFinset = b.participants.toFinset := by
  rw [participantChanges, Nat.add_eq_zero_iff, IdSet.size_diff_eq_zero_iff,
    IdSet.size_diff_eq_zero_iff, toFinset_voters, toFinset_voters]
  exact Finset.Subset.antisymm_iff.symm

theorem quorumsMeet_iff {a b : Roster} :
    a.quorumsMeet b = true ↔
      a.voters.toFinset.Nonempty ∧ b.voters.toFinset.Nonempty ∧
        (a.voters.inter b.voters).size <
          (majoritySize a.voters.size - (a.voters.size - (a.voters.inter b.voters).size)) +
            (majoritySize b.voters.size - (b.voters.size - (a.voters.inter b.voters).size)) := by
  rw [← IdSet.isEmpty_eq_false_iff, ← IdSet.isEmpty_eq_false_iff, quorumsMeet]
  cases a.voters.isEmpty with
  | true => simp
  | false =>
      cases b.voters.isEmpty with
      | true => simp
      | false => simp

/-- A set of participants has all but those outside of `S` in `S`. -/
theorem card_sub_le_card_inter {A P S : Finset ServerId} (hA : A ⊆ P) (hS : S ⊆ P) :
    A.card - (P.card - S.card) ≤ (A ∩ S).card := by
  have hsplit := Finset.card_sdiff_add_card_inter A S
  have hout : (A \ S).card ≤ (P \ S).card :=
    Finset.card_le_card (Finset.sdiff_subset_sdiff hA (Finset.Subset.refl S))
  rw [Finset.card_sdiff_of_subset hS] at hout
  omega

theorem card_le_of_disjoint {A B P Q : Finset ServerId} (hA : A ⊆ P) (hB : B ⊆ Q)
    (h : ∀ id ∈ A, id ∉ B) :
    (A.card - (P.card - (P ∩ Q).card)) + (B.card - (Q.card - (P ∩ Q).card)) ≤
      (P ∩ Q).card := by
  have hP : P ∩ Q ⊆ P := Finset.inter_subset_left
  have hQ : P ∩ Q ⊆ Q := Finset.inter_subset_right
  have hAS := card_sub_le_card_inter hA hP
  have hBS := card_sub_le_card_inter hB hQ
  have hdisjoint : Disjoint (A ∩ (P ∩ Q)) (B ∩ (P ∩ Q)) := by
    rw [Finset.disjoint_left]
    intro id hid hid'
    exact h id (Finset.mem_inter.1 hid).1 (Finset.mem_inter.1 hid').1
  have hunion : (A ∩ (P ∩ Q) ∪ B ∩ (P ∩ Q)).card ≤ (P ∩ Q).card :=
    Finset.card_le_card (Finset.union_subset Finset.inter_subset_right Finset.inter_subset_right)
  rw [Finset.card_union_of_disjoint hdisjoint] at hunion
  omega

theorem exists_mem_of_quorumsMeet {a b : Roster} (h : a.quorumsMeet b = true)
    {A B : Finset ServerId} (hA : a.IsMajority A) (hB : b.IsMajority B) :
    ∃ id, id ∈ A ∧ id ∈ B := by
  obtain ⟨_, _, hlt⟩ := quorumsMeet_iff.1 h
  obtain ⟨hsubA, hcardA⟩ := hA
  obtain ⟨hsubB, hcardB⟩ := hB
  rw [← toFinset_voters] at hsubA hcardA hsubB hcardB
  by_contra hnone
  have hdisjoint : ∀ id ∈ A, id ∉ B := by
    intro id hid hid'
    exact hnone ⟨id, hid, hid'⟩
  have hle := card_le_of_disjoint hsubA hsubB hdisjoint
  rw [← IdSet.toFinset_inter] at hle
  simp only [IdSet.card_toFinset] at hle hcardA hcardB
  simp only [majoritySize] at hlt
  omega

theorem participants_ne_nil_of_quorumsMeet {a b : Roster} (h : a.quorumsMeet b = true) :
    b.participants ≠ [] := by
  obtain ⟨_, hb, _⟩ := quorumsMeet_iff.1 h
  exact nonempty_voters_iff.1 hb

end Quorate.Roster
