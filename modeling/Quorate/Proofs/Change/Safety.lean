import Mathlib.Algebra.Group.Nat.Even
import Mathlib.Data.Finset.SymmDiff
import Quorate.Proofs.Change
import Quorate.Proofs.Election.Durability

/-!
# What is refused for safety

Whether all majorities of two rosters meet is decided by the number of servers that are
participants of one of them alone, and by a parity (`quorumsMeet_iff_card_symmDiff`). One such
server is always safe. With two of them the rosters have numbers of participants of the same
parity, and are safe if these are even. More than two never are.

So one participant may always be added or removed, while one participant may be exchanged for
another only if their number is even, and two may never be exchanged at once
(`checkSafety_exact`).
-/

namespace Quorate.Roster

variable {a b : Roster} {k : Nat}

/-- `b` has other servers in place of `k` participants of `a`, and none of them was one before. -/
def Exchanges (a b : Roster) (k : Nat) : Prop :=
  ∃ leaving joining : Finset ServerId,
    leaving ⊆ a.participants.toFinset ∧ Disjoint joining a.participants.toFinset ∧
      leaving.card = k ∧ joining.card = k ∧
        b.participants.toFinset = (a.participants.toFinset \ leaving) ∪ joining

/-- What two majorities need of the participants that are shared, if there are `m` and `n`
others, is more than there are only if there are few others. -/
theorem lt_needs_iff {shared m n : Nat} (ha : 0 < m + shared) (hb : 0 < n + shared) :
    shared < (majoritySize (m + shared) - m) + (majoritySize (n + shared) - n) ↔
      m + n ≤ 1 ∨ m + n = 2 ∧ (m + shared) % 2 = 0 := by
  unfold majoritySize
  omega

theorem card_symmDiff (P Q : Finset ServerId) :
    (symmDiff P Q).card = (P \ Q).card + (Q \ P).card := by
  rw [Finset.symmDiff_def, Finset.card_union_of_disjoint disjoint_sdiff_sdiff]

theorem quorumsMeet_iff_card_symmDiff :
    a.quorumsMeet b = true ↔
      a.participants ≠ [] ∧ b.participants ≠ [] ∧
        ((symmDiff a.participants.toFinset b.participants.toFinset).card ≤ 1 ∨
          (symmDiff a.participants.toFinset b.participants.toFinset).card = 2 ∧
            Even a.participants.length) := by
  have hA := Finset.card_sdiff_add_card_inter a.participants.toFinset b.participants.toFinset
  have hB := Finset.card_sdiff_add_card_inter b.participants.toFinset a.participants.toFinset
  rw [Finset.inter_comm] at hB
  rw [quorumsMeet_iff, card_symmDiff, nonempty_voters_iff, nonempty_voters_iff,
    Nat.even_iff, ← card_toFinset_participants]
  simp only [← IdSet.card_toFinset, IdSet.toFinset_inter, toFinset_voters]
  refine and_congr_right fun ha => and_congr_right fun hb => ?_
  have hposA : 0 < a.participants.toFinset.card :=
    Finset.card_pos.2 ((List.toFinset_nonempty_iff _).2 ha)
  have hposB : 0 < b.participants.toFinset.card :=
    Finset.card_pos.2 ((List.toFinset_nonempty_iff _).2 hb)
  rw [← hA] at hposA
  rw [← hB] at hposB
  rw [← hA, ← hB, Nat.add_sub_cancel_right, Nat.add_sub_cancel_right]
  exact lt_needs_iff hposA hposB

theorem Exchanges.card_symmDiff_eq (h : a.Exchanges b k) :
    (symmDiff a.participants.toFinset b.participants.toFinset).card = 2 * k := by
  obtain ⟨leaving, joining, hleaving, hjoining, hleft, hjoined, heq⟩ := h
  have hgone : a.participants.toFinset \ b.participants.toFinset = leaving := by
    rw [heq]
    ext id
    have hmember : id ∈ leaving → id ∈ a.participants.toFinset := fun hid => hleaving hid
    have hstranger : id ∈ joining → id ∉ a.participants.toFinset := fun hid =>
      Finset.disjoint_left.1 hjoining hid
    simp only [Finset.mem_sdiff, Finset.mem_union]
    tauto
  have hnew : b.participants.toFinset \ a.participants.toFinset = joining := by
    rw [heq, Finset.union_sdiff_distrib, Finset.sdiff_eq_empty_iff_subset.2 Finset.sdiff_subset,
      Finset.empty_union]
    exact Finset.sdiff_eq_self_of_disjoint hjoining
  rw [card_symmDiff, hgone, hnew, hleft, hjoined, Nat.two_mul]

/-- Of rosters that have participants, the move from one to the other is safe in both directions
if they differ in one participant at most. If they differ by an exchange, it is safe exactly if
one of an even number is exchanged. -/
theorem checkSafety_exact (ha : a.participants ≠ []) (hb : b.participants ≠ []) :
    ((symmDiff a.participants.toFinset b.participants.toFinset).card ≤ 1 →
      a.checkSafety b = .ok () ∧ b.checkSafety a = .ok ()) ∧
    ∀ k, 1 ≤ k → a.Exchanges b k →
      (a.checkSafety b = .ok () ↔ k = 1 ∧ Even a.participants.length) := by
  constructor
  · intro hfew
    have hmeet := quorumsMeet_iff_card_symmDiff.2 ⟨ha, hb, Or.inl hfew⟩
    exact ⟨checkSafety_eq_ok_iff.2 hmeet,
      checkSafety_eq_ok_iff.2 ((quorumsMeet_comm a b).trans hmeet)⟩
  · intro k hk hexchange
    rw [checkSafety_eq_ok_iff, quorumsMeet_iff_card_symmDiff, hexchange.card_symmDiff_eq,
      and_iff_right ha, and_iff_right hb]
    have htwo : ¬ 2 * k ≤ 1 := by omega
    have hone : 2 * k = 2 ↔ k = 1 := by omega
    rw [or_iff_right htwo, hone]

/-- Of four servers the first one has made way for a fifth one. -/
def rotated : Roster :=
  ⟨.make 3 0, [.onPorts 2 20, .onPorts 3 30, .onPorts 4 40, .onPorts 5 50], by decide +kernel⟩

/-- Of three servers the third one has become an observer, and a fourth one votes in its place. -/
def substituted : Roster :=
  ⟨.make 1 1, [.onPorts 1 10, .onPorts 2 20, .onPorts 3 30 .observer, .onPorts 4 40],
    by decide +kernel⟩

/-- A fourth server may join three others and leave them again. One of four may be exchanged at a
time, but none of three. -/
theorem checkSafety_exact_quartet :
    (trio.checkSafety quartet = .ok () ∧ quartet.checkSafety trio = .ok ()) ∧
      quartet.checkSafety rotated = .ok () ∧ trio.checkSafety substituted ≠ .ok () := by
  have htrio : trio.participants ≠ [] := by decide +kernel
  have hquartet : quartet.participants ≠ [] := by decide +kernel
  refine ⟨?_, ?_, ?_⟩
  · exact (checkSafety_exact htrio hquartet).1 (by decide +kernel)
  · have hexchange : quartet.Exchanges rotated 1 :=
      ⟨{1}, {5}, by decide +kernel, by decide +kernel, rfl, rfl, by decide +kernel⟩
    exact ((checkSafety_exact hquartet (by decide +kernel)).2 1 le_rfl hexchange).2
      ⟨rfl, by decide +kernel⟩
  · have hexchange : trio.Exchanges substituted 1 :=
      ⟨{3}, {4}, by decide +kernel, by decide +kernel, rfl, rfl, by decide +kernel⟩
    intro hok
    have heven := ((checkSafety_exact htrio (by decide +kernel)).2 1 le_rfl hexchange).1 hok
    exact absurd heven.2 (by decide +kernel)

end Quorate.Roster
