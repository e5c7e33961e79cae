import Mathlib.Data.List.Nodup
import Quorate.Roster

/-!
# Lists of members without a fault

`firstFault` finds none exactly if no id is zero, no id is listed twice, and no two of the
addresses of all members are the same (`firstFault_eq_none_iff`). The lists that it carries
along hold what was seen before in reverse, so that a clash is a repetition in the list of
what was seen and what is still to come.
-/

namespace Quorate

/-- What makes a list of members a roster. -/
structure ValidMembers (members : List Member) : Prop where
  positive : ∀ m ∈ members, m.id ≠ 0
  distinct : (members.map (·.id)).Nodup
  apart : (members.flatMap (·.addresses)).Nodup

theorem firstClash_eq_none_iff {server : ServerId} {taken addresses : List Address}
    (h : taken.Nodup) :
    firstClash server taken addresses = none ↔ (addresses.reverse ++ taken).Nodup := by
  induction addresses generalizing taken with
  | nil => simpa [firstClash] using h
  | cons a rest ih =>
      rw [firstClash, List.reverse_cons, List.append_assoc, List.singleton_append]
      by_cases ha : a ∈ taken
      · have hnot : ¬ (rest.reverse ++ a :: taken).Nodup := by
          intro hnodup
          exact (List.nodup_cons.1 hnodup.of_append_right).1 ha
        simp [ha, hnot]
      · rw [if_neg ha, ih (List.nodup_cons.2 ⟨ha, h⟩)]

theorem firstFaultAfter_eq_none_iff {ids : List ServerId} {taken : List Address}
    {members : List Member} (hids : ids.Nodup) (htaken : taken.Nodup) :
    firstFaultAfter ids taken members = none ↔
      (∀ m ∈ members, m.id ≠ 0) ∧ ((members.map (·.id)).reverse ++ ids).Nodup ∧
        ((members.flatMap (·.addresses)).reverse ++ taken).Nodup := by
  induction members generalizing ids taken with
  | nil => simp [firstFaultAfter, hids, htaken]
  | cons m ms ih =>
      rw [firstFaultAfter, List.map_cons, List.reverse_cons, List.append_assoc,
        List.singleton_append, List.flatMap_cons, List.reverse_append, List.append_assoc,
        List.forall_mem_cons]
      by_cases hzero : m.id = 0
      · simp [hzero]
      by_cases hid : m.id ∈ ids
      · have hnot : ¬ ((ms.map (·.id)).reverse ++ m.id :: ids).Nodup := by
          intro hnodup
          exact (List.nodup_cons.1 hnodup.of_append_right).1 hid
        simp [hzero, hid, hnot]
      rw [if_neg hzero, if_neg hid]
      cases hclash : firstClash m.id taken m.addresses with
      | some cause =>
          have hnot : ¬ ((ms.flatMap (·.addresses)).reverse ++
              (m.addresses.reverse ++ taken)).Nodup := by
            intro hnodup
            rw [(firstClash_eq_none_iff htaken).2 hnodup.of_append_right] at hclash
            cases hclash
          simp [hnot]
      | none =>
          have hnext := (firstClash_eq_none_iff htaken).1 hclash
          rw [ih (List.nodup_cons.2 ⟨hid, hids⟩) hnext]
          simp [hzero]

theorem firstFault_eq_none_iff {members : List Member} :
    firstFault members = none ↔ ValidMembers members := by
  rw [firstFault, firstFaultAfter_eq_none_iff List.nodup_nil List.nodup_nil, List.append_nil,
    List.append_nil, List.nodup_reverse, List.nodup_reverse]
  constructor
  · rintro ⟨hpositive, hdistinct, hapart⟩
    exact ⟨hpositive, hdistinct, hapart⟩
  · intro h
    exact ⟨h.positive, h.distinct, h.apart⟩

theorem Roster.validMembers (r : Roster) : ValidMembers r.members :=
  firstFault_eq_none_iff.1 r.sound

/-- A member whose addresses are three ports in a row on one host. -/
def Member.onPorts (id : ServerId) (port : UInt16) (standing : Standing := .participant) :
    Member :=
  ⟨id, ⟨"h", port⟩, ⟨"h", port + 1⟩, ⟨"h", port + 2⟩, standing⟩

def Roster.trio : Roster :=
  ⟨.zero, [.onPorts 1 10, .onPorts 2 20, .onPorts 3 30], by decide +kernel⟩

end Quorate
