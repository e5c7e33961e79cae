import Mathlib.Data.Finset.Card
import Quorate.IdSet

/-!
# Sets of ids as finite sets

`IdSet.toFinset` forgets the order in which a set of ids is kept. It carries membership,
intersections and sizes over, so that sets of ids are counted by the lemmas on `Finset`.
-/

namespace Quorate.IdSet

/-- The elements as a finite set. -/
def toFinset (s : IdSet) : Finset UInt64 :=
  s.ids.toFinset

theorem nodup_ids (s : IdSet) : s.ids.Nodup := by
  refine s.ascending.imp ?_
  rintro a b hlt rfl
  exact UInt64.lt_irrefl a hlt

@[simp] theorem mem_toFinset {id : UInt64} {s : IdSet} : id ∈ s.toFinset ↔ id ∈ s := by
  rw [toFinset, List.mem_toFinset, mem_iff]

@[simp] theorem card_toFinset (s : IdSet) : s.toFinset.card = s.size :=
  List.toFinset_card_of_nodup s.nodup_ids

theorem toFinset_ofList (ids : List UInt64) : (ofList ids).toFinset = ids.toFinset := by
  ext id
  simp

@[simp] theorem mem_inter {id : UInt64} {s t : IdSet} : id ∈ s.inter t ↔ id ∈ s ∧ id ∈ t := by
  simp [inter]

theorem toFinset_inter (s t : IdSet) : (s.inter t).toFinset = s.toFinset ∩ t.toFinset := by
  ext id
  simp

theorem isEmpty_eq_false_iff {s : IdSet} : s.isEmpty = false ↔ s.toFinset.Nonempty := by
  rw [isEmpty, toFinset, List.isEmpty_eq_false_iff, List.toFinset_nonempty_iff]

/-- A set is determined by its elements. -/
theorem toFinset_inj {s t : IdSet} : s.toFinset = t.toFinset ↔ s = t := by
  refine ⟨fun h => ?_, congrArg toFinset⟩
  obtain ⟨xs, hxs⟩ := s
  obtain ⟨ys, hys⟩ := t
  have hperm : xs.Perm ys :=
    (List.perm_ext_iff_of_nodup (nodup_ids ⟨xs, hxs⟩) (nodup_ids ⟨ys, hys⟩)).2
      fun id => by simpa [toFinset] using Finset.ext_iff.1 h id
  have heq : xs = ys := hperm.eq_of_pairwise
    (fun a b _ _ hab hba => absurd hba (UInt64.lt_asymm hab)) hxs hys
  subst heq
  rfl

theorem size_diff_eq_zero_iff {s t : IdSet} :
    (s.diff t).size = 0 ↔ s.toFinset ⊆ t.toFinset := by
  rw [size, List.length_eq_zero_iff, List.eq_nil_iff_forall_not_mem]
  refine forall_congr' fun id => ?_
  rw [← mem_iff, diff, mem_filter]
  simp

end Quorate.IdSet
