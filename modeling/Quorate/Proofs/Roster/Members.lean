import Mathlib.Data.Finset.Card
import Mathlib.Data.List.Perm.Subperm
import Quorate.Proofs.Roster.Valid

/-!
# The members of a roster

No two members of a roster have the same id. So a look-up finds the one member with an id
(`get?_eq_some_iff`), and a test that counts the members of two rosters and looks up those of
the first in the second says whether the rosters list the same members
(`sameMembers_iff_perm`).
-/

namespace Quorate.Roster

variable {r a b c : Roster} {id : ServerId}

theorem nodup_ids (r : Roster) : r.ids.Nodup :=
  r.validMembers.distinct

theorem nodup_members (r : Roster) : r.members.Nodup :=
  .of_map _ r.nodup_ids

theorem nodup_participants (r : Roster) : r.participants.Nodup :=
  r.nodup_ids.sublist (List.filter_sublist.map _)

theorem card_toFinset_participants (r : Roster) :
    r.participants.toFinset.card = r.participants.length :=
  List.toFinset_card_of_nodup r.nodup_participants

theorem get?_eq_some_iff {m : Member} : r.get? id = some m ↔ m ∈ r.members ∧ m.id = id := by
  constructor
  · intro h
    exact ⟨List.mem_of_find?_eq_some h, by simpa using List.find?_some h⟩
  · rintro ⟨hm, hid⟩
    obtain ⟨a, ha⟩ := Option.isSome_iff_exists.1
      (List.find?_isSome.2 ⟨m, hm, decide_eq_true hid⟩ :
        (r.members.find? (·.id = id)).isSome)
    have heq : a.id = id := by simpa using List.find?_some ha
    rw [get?, ha, List.inj_on_of_nodup_map r.nodup_ids (List.mem_of_find?_eq_some ha) hm
      (heq.trans hid.symm)]

theorem contains_iff : r.contains id = true ↔ id ∈ r.ids := by
  simp [contains, get?, ids, List.find?_isSome]

theorem get?_eq_none_iff : r.get? id = none ↔ id ∉ r.ids := by
  rw [← contains_iff, contains, Option.not_isSome_iff_eq_none]

theorem mem_ids_iff : id ∈ r.ids ↔ ∃ m ∈ r.members, m.id = id :=
  List.mem_map

theorem mem_ids_of_mem {m : Member} (h : m ∈ r.members) : m.id ∈ r.ids :=
  List.mem_map_of_mem h

theorem standing?_eq_some_iff {standing : Standing} :
    r.standing? id = some standing ↔ ∃ m ∈ r.members, m.id = id ∧ m.standing = standing := by
  rw [standing?, Option.map_eq_some_iff]
  simp only [get?_eq_some_iff, and_assoc]

theorem standing?_eq_none_iff : r.standing? id = none ↔ id ∉ r.ids := by
  rw [standing?, Option.map_eq_none_iff, get?_eq_none_iff]

theorem mem_participants_iff : id ∈ r.participants ↔ r.standing? id = some .participant := by
  rw [standing?_eq_some_iff, participants, List.mem_map]
  simp only [List.mem_filter, Member.isParticipant, decide_eq_true_iff]
  exact exists_congr fun m => and_assoc.trans (and_congr_right fun _ => and_comm)

theorem mem_observers_iff : id ∈ r.observers ↔ r.standing? id = some .observer := by
  have hobserver : ∀ m : Member, (!m.isParticipant) = true ↔ m.standing = .observer := by
    intro m
    rw [Member.isParticipant]
    cases m.standing <;> decide
  rw [standing?_eq_some_iff, observers, List.mem_map]
  simp only [List.mem_filter, hobserver]
  exact exists_congr fun m => and_assoc.trans (and_congr_right fun _ => and_comm)

theorem isParticipant_iff : r.isParticipant id = true ↔ id ∈ r.participants := by
  rw [isParticipant, decide_eq_true_iff, mem_participants_iff]

/-- Of two lists without repetitions that are equally long, one contains the other only if they
are the same up to their order. -/
theorem sameMembers_iff_perm : a.sameMembers b = true ↔ a.members.Perm b.members := by
  have hfound : ∀ m, b.get? m.id = some m ↔ m ∈ b.members := by
    intro m
    rw [get?_eq_some_iff, and_iff_left rfl]
  simp only [sameMembers, Bool.and_eq_true, decide_eq_true_iff, List.all_eq_true, hfound]
  constructor
  · rintro ⟨hlength, hsub⟩
    have hsubperm := List.subperm_of_subset a.nodup_members hsub
    exact hsubperm.perm_of_length_le (Nat.le_of_eq hlength.symm)
  · intro h
    exact ⟨h.length_eq, fun m hm => h.mem_iff.1 hm⟩

theorem sameMembers_comm (a b : Roster) : b.sameMembers a = a.sameMembers b := by
  rw [Bool.eq_iff_iff, sameMembers_iff_perm, sameMembers_iff_perm, List.perm_comm]

theorem sameMembers_trans (hab : a.sameMembers b = true) (hbc : b.sameMembers c = true) :
    a.sameMembers c = true :=
  sameMembers_iff_perm.2 ((sameMembers_iff_perm.1 hab).trans (sameMembers_iff_perm.1 hbc))

end Quorate.Roster
