import Quorate.Proofs.Quorum.Overlap

/-!
# The test on quorums is exact

`quorumsMeet` answers a question about all pairs of majorities by a count. It accepts no
pair of rosters too many, since majorities that it accepts meet, and refuses none too many:
if what two majorities still need of the shared participants is no more than there are, then
each takes in all participants of its own, and the shared ones are dealt out between them
(`exists_disjoint`). So the answer is that of the question itself
(`quorumsMeet_eq_true_iff`), and depends on the sets of participants alone.
-/

namespace Quorate.Roster

/-- Sets of given sizes can be chosen apart from each other if the elements that both may
take are enough for what each lacks. -/
theorem exists_disjoint {α : Type*} [DecidableEq α] {P Q : Finset α} {m n : Nat}
    (h : (m - (P.card - (P ∩ Q).card)) + (n - (Q.card - (P ∩ Q).card)) ≤ (P ∩ Q).card) :
    ∃ A B, A ⊆ P ∧ B ⊆ Q ∧ m ≤ A.card ∧ n ≤ B.card ∧ ∀ a ∈ A, a ∉ B := by
  have hP : (P \ Q).card + (P ∩ Q).card = P.card := Finset.card_sdiff_add_card_inter P Q
  have hQ : (Q \ P).card + (P ∩ Q).card = Q.card := by
    rw [Finset.inter_comm]
    exact Finset.card_sdiff_add_card_inter Q P
  obtain ⟨S, hS, hcardS⟩ :=
    Finset.exists_subset_card_eq ((Nat.le_add_right _ _).trans h)
  have hrest : n - (Q.card - (P ∩ Q).card) ≤ ((P ∩ Q) \ S).card := by
    rw [Finset.card_sdiff_of_subset hS]
    omega
  obtain ⟨T, hT, hcardT⟩ := Finset.exists_subset_card_eq hrest
  have hSP : ∀ a ∈ S, a ∈ P ∧ a ∈ Q := fun a ha => Finset.mem_inter.1 (hS ha)
  have hTQ : ∀ a ∈ T, (a ∈ P ∧ a ∈ Q) ∧ a ∉ S := by
    intro a ha
    obtain ⟨hin, hout⟩ := Finset.mem_sdiff.1 (hT ha)
    exact ⟨Finset.mem_inter.1 hin, hout⟩
  have hdisjoint : Disjoint (P \ Q) S := by
    rw [Finset.disjoint_left]
    intro a ha hs
    exact (Finset.mem_sdiff.1 ha).2 (hSP a hs).2
  have hdisjoint' : Disjoint (Q \ P) T := by
    rw [Finset.disjoint_left]
    intro a ha ht
    exact (Finset.mem_sdiff.1 ha).2 (hTQ a ht).1.1
  refine ⟨P \ Q ∪ S, Q \ P ∪ T, ?_, ?_, ?_, ?_, ?_⟩
  · exact Finset.union_subset Finset.sdiff_subset fun a ha => (hSP a ha).1
  · exact Finset.union_subset Finset.sdiff_subset fun a ha => (hTQ a ha).1.2
  · rw [Finset.card_union_of_disjoint hdisjoint, hcardS]
    omega
  · rw [Finset.card_union_of_disjoint hdisjoint', hcardT]
    omega
  · intro a ha hb
    have hs := hSP a
    have ht := hTQ a
    simp only [Finset.mem_union, Finset.mem_sdiff] at ha hb
    tauto

theorem isMajority_of_majoritySize_le {r : Roster} {A : Finset ServerId}
    (hsub : A ⊆ r.voters.toFinset) (hcard : majoritySize r.voters.size ≤ A.card) :
    r.IsMajority A := by
  rw [IsMajority, ← toFinset_voters]
  refine ⟨hsub, ?_⟩
  rw [IdSet.card_toFinset]
  rw [majoritySize] at hcard
  omega

/-- Where the count allows for it, two majorities are apart. -/
theorem exists_disjoint_majorities {a b : Roster} (ha : a.voters.toFinset.Nonempty)
    (hb : b.voters.toFinset.Nonempty) (h : a.quorumsMeet b = false) :
    ∃ A B, a.IsMajority A ∧ b.IsMajority B ∧ ∀ id ∈ A, id ∉ B := by
  have hle : (majoritySize a.voters.size - (a.voters.size - (a.voters.inter b.voters).size)) +
      (majoritySize b.voters.size - (b.voters.size - (a.voters.inter b.voters).size)) ≤
        (a.voters.inter b.voters).size := by
    by_contra hlt
    rw [quorumsMeet_iff.2 ⟨ha, hb, Nat.not_le.1 hlt⟩] at h
    cases h
  simp only [← IdSet.card_toFinset, IdSet.toFinset_inter] at hle
  obtain ⟨A, B, hA, hB, hcardA, hcardB, hapart⟩ := exists_disjoint hle
  rw [IdSet.card_toFinset] at hcardA hcardB
  exact ⟨A, B, isMajority_of_majoritySize_le hA hcardA, isMajority_of_majoritySize_le hB hcardB,
    hapart⟩

theorem quorumsMeet_eq_true_iff {a b : Roster} :
    a.quorumsMeet b = true ↔
      a.participants ≠ [] ∧ b.participants ≠ [] ∧
        ∀ A B, a.IsMajority A → b.IsMajority B → ∃ id, id ∈ A ∧ id ∈ B := by
  constructor
  · intro h
    obtain ⟨ha, hb, _⟩ := quorumsMeet_iff.1 h
    exact ⟨nonempty_voters_iff.1 ha, nonempty_voters_iff.1 hb,
      fun _ _ hA hB => exists_mem_of_quorumsMeet h hA hB⟩
  · rintro ⟨ha, hb, hmeet⟩
    by_contra hfalse
    obtain ⟨A, B, hA, hB, hapart⟩ := exists_disjoint_majorities (nonempty_voters_iff.2 ha)
      (nonempty_voters_iff.2 hb) (Bool.eq_false_iff.2 hfalse)
    obtain ⟨id, hidA, hidB⟩ := hmeet A B hA hB
    exact hapart id hidA hidB

/-- Two majorities of one roster meet. -/
theorem quorumsMeet_self {r : Roster} (h : r.participants ≠ []) : r.quorumsMeet r = true := by
  refine quorumsMeet_eq_true_iff.2 ⟨h, h, ?_⟩
  rintro A B ⟨hA, hcardA⟩ ⟨hB, hcardB⟩
  have hcard : r.participants.toFinset.card < A.card + B.card := by omega
  obtain ⟨id, hid⟩ := Finset.inter_nonempty_of_card_lt_card_add_card hA hB hcard
  exact ⟨id, Finset.mem_inter.1 hid⟩

theorem quorumsMeet_comm (a b : Roster) : b.quorumsMeet a = a.quorumsMeet b := by
  rw [Bool.eq_iff_iff, quorumsMeet_eq_true_iff, quorumsMeet_eq_true_iff]
  constructor
  · rintro ⟨hb, ha, hmeet⟩
    exact ⟨ha, hb, fun A B hA hB => (hmeet B A hB hA).imp fun _ => And.symm⟩
  · rintro ⟨ha, hb, hmeet⟩
    exact ⟨hb, ha, fun B A hB hA => (hmeet A B hA hB).imp fun _ => And.symm⟩

/-- Which sets are majorities, and whether there are any, is a matter of the set of
participants: neither observers nor the order of members have a part in it. -/
theorem quorumsMeet_congr {a a' b b' : Roster}
    (ha : a'.participants.toFinset = a.participants.toFinset)
    (hb : b'.participants.toFinset = b.participants.toFinset) :
    a'.quorumsMeet b' = a.quorumsMeet b := by
  rw [Bool.eq_iff_iff, quorumsMeet_eq_true_iff, quorumsMeet_eq_true_iff]
  simp only [IsMajority, ← List.toFinset_nonempty_iff, ha, hb]

/-- The test holds exactly if both rosters have a participant and each majority of one
meets each majority of the other; it is symmetric, and the sets of participants decide it. -/
theorem quorumsMeet_exact (a b : Roster) :
    (a.quorumsMeet b = true ↔
      a.participants ≠ [] ∧ b.participants ≠ [] ∧
        ∀ A B, a.IsMajority A → b.IsMajority B → ∃ id, id ∈ A ∧ id ∈ B) ∧
    b.quorumsMeet a = a.quorumsMeet b ∧
    ∀ a' b' : Roster, a'.participants.toFinset = a.participants.toFinset →
      b'.participants.toFinset = b.participants.toFinset →
      a'.quorumsMeet b' = a.quorumsMeet b :=
  ⟨quorumsMeet_eq_true_iff, quorumsMeet_comm a b, fun _ _ => quorumsMeet_congr⟩

end Quorate.Roster
