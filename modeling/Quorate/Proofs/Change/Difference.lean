import Quorate.Proofs.Change

/-!
# What is recorded of a change

The records of a change are the difference between the members before and after it, one record
for each server that differs (`mem_records_iff`, `nodup_ids_records`). A server is recorded as
updated if it is a member both before and after, but not the same. Both forms of a request are
recorded alike, since a request that is granted makes the change of the replacement by its outcome
(`records_exact`).
-/

namespace Quorate.Change

variable {current : Roster} {change : MemberChange} {c : Change} {members : List Member}
  {id : ServerId} {kind : ChangeKind}

/-- How a server differs in two lists of members, one before a change and one after it. -/
def Differs (before after : List Member) (id : ServerId) : ChangeKind → Prop
  | .add => id ∈ after.map (·.id) ∧ id ∉ before.map (·.id)
  | .remove => id ∈ before.map (·.id) ∧ id ∉ after.map (·.id)
  | .update => ∃ old ∈ before, ∃ new ∈ after, old.id = id ∧ new.id = id ∧ old ≠ new

theorem recordOf_eq_some_iff {m : Member} :
    recordOf current m = some (id, kind) ↔
      m.id = id ∧ (kind = .add ∧ current.get? id = none ∨
        kind = .update ∧ ∃ old, current.get? id = some old ∧ old ≠ m) := by
  unfold recordOf
  cases h : current.get? m.id with
  | none =>
      constructor
      · rintro ⟨⟩
        exact ⟨rfl, Or.inl ⟨rfl, h⟩⟩
      · rintro ⟨rfl, ⟨rfl, _⟩ | ⟨_, old, hold, _⟩⟩
        · rfl
        · cases h.symm.trans hold
  | some old =>
      by_cases heq : old = m
      · simp only [if_pos heq, reduceCtorEq, false_iff]
        rintro ⟨rfl, ⟨_, hnone⟩ | ⟨_, other, hother, hne⟩⟩
        · cases h.symm.trans hnone
        · cases h.symm.trans hother
          exact hne heq
      · simp only [if_neg heq]
        constructor
        · rintro ⟨⟩
          exact ⟨rfl, Or.inr ⟨rfl, old, h, heq⟩⟩
        · rintro ⟨rfl, ⟨_, hnone⟩ | ⟨rfl, _⟩⟩
          · cases h.symm.trans hnone
          · rfl

theorem ids_recordOf_sublist (current : Roster) (members : List Member) :
    ((members.filterMap (recordOf current)).map Prod.fst).Sublist (members.map (·.id)) := by
  induction members with
  | nil => exact .refl _
  | cons m ms ih =>
      rw [List.filterMap_cons, List.map_cons]
      cases hrecord : recordOf current m with
      | none => exact ih.cons _
      | some record =>
          rw [List.map_cons, ← (recordOf_eq_some_iff.1 hrecord).1]
          exact ih.cons_cons _

theorem nodup_ids_records (h : (members.map (·.id)).Nodup) :
    ((replacement current members).records.map Prod.fst).Nodup := by
  have hremoved : ((current.ids.filter fun id => members.all (·.id ≠ id)).map
      fun id => (id, ChangeKind.remove)).map Prod.fst =
        current.ids.filter fun id => members.all (·.id ≠ id) := by
    rw [List.map_map]
    exact List.map_id _
  rw [replacement, List.map_append, hremoved]
  refine (h.sublist (ids_recordOf_sublist current members)).append
    (current.nodup_ids.filter _) ?_
  intro id hkept hgone
  obtain ⟨m, hm, rfl⟩ := List.mem_map.1 ((ids_recordOf_sublist current members).mem hkept)
  have hall := List.all_eq_true.1 (List.mem_filter.1 hgone).2 m hm
  exact of_decide_eq_true hall rfl

theorem mem_records_iff :
    (id, kind) ∈ (replacement current members).records ↔
      Differs current.members members id kind := by
  have hremoved : (id, kind) ∈ ((current.ids.filter fun id => members.all (·.id ≠ id)).map
      fun id => (id, ChangeKind.remove)) ↔
        kind = .remove ∧ id ∈ current.ids ∧ id ∉ members.map (·.id) := by
    simp only [List.mem_map, List.mem_filter, List.all_eq_true, decide_eq_true_iff,
      Prod.mk.injEq]
    constructor
    · rintro ⟨_, ⟨hid, hgone⟩, rfl, rfl⟩
      exact ⟨rfl, hid, fun ⟨m, hm, heq⟩ => hgone m hm heq⟩
    · rintro ⟨rfl, hid, hgone⟩
      exact ⟨id, ⟨hid, fun m hm heq => hgone ⟨m, hm, heq⟩⟩, rfl, rfl⟩
  rw [replacement, List.mem_append, List.mem_filterMap, hremoved]
  simp only [recordOf_eq_some_iff]
  cases kind with
  | add =>
      simp only [Roster.get?_eq_none_iff, reduceCtorEq, true_and, false_and, or_false, Differs]
      constructor
      · rintro ⟨m, hm, rfl, hstranger⟩
        exact ⟨List.mem_map_of_mem hm, hstranger⟩
      · rintro ⟨hid, hstranger⟩
        obtain ⟨m, hm, rfl⟩ := List.mem_map.1 hid
        exact ⟨m, hm, rfl, hstranger⟩
  | remove => simp [Differs, Roster.ids]
  | update =>
      simp only [Roster.get?_eq_some_iff, reduceCtorEq, true_and, false_and, or_false, false_or,
        Differs]
      constructor
      · rintro ⟨m, hm, hid, old, ⟨hold, holdid⟩, hne⟩
        exact ⟨old, hold, m, hm, holdid, hid, hne⟩
      · rintro ⟨old, hold, m, hm, holdid, hid, hne⟩
        exact ⟨m, hm, hid, old, ⟨hold, holdid⟩, hne⟩

/-- A granted request is recorded as the difference that it makes, each server at most once, and
the replacement by its outcome is granted as the same change. -/
theorem records_exact (h : compute current change = .ok c) :
    (c.records.map Prod.fst).Nodup ∧
      (∀ id kind, (id, kind) ∈ c.records ↔ Differs current.members c.members id kind) ∧
        compute current (.replacement c.members) = .ok c := by
  obtain ⟨⟨hadmissible, hviable⟩, rfl⟩ := compute_eq_ok_iff.1 h
  exact ⟨nodup_ids_records hadmissible.nodup_ids, fun _ _ => mem_records_iff,
    compute_eq_ok_iff.2 ⟨⟨hadmissible.nodup_ids, hviable⟩, rfl⟩⟩

/-- Each of the three kinds of records: of three servers the first is left out, the second is to
be an observer, and the third stays as it is beside a fourth one. -/
example :
    (replacement .trio [.onPorts 3 30, .onPorts 4 40, .onPorts 2 20 .observer]).records =
      [(4, .add), (2, .update), (1, .remove)] := by
  decide +kernel

/-- Of three servers the second leaves, which is asked for twice, and a fourth one joins. -/
theorem records_exact_trio :
    compute .trio (.incremental [.onPorts 4 40] [2, 2]) =
        .ok ⟨[.onPorts 1 10, .onPorts 3 30, .onPorts 4 40], [(4, .add), (2, .remove)]⟩ ∧
      compute .trio (.replacement [.onPorts 1 10, .onPorts 3 30, .onPorts 4 40]) =
        .ok ⟨[.onPorts 1 10, .onPorts 3 30, .onPorts 4 40], [(4, .add), (2, .remove)]⟩ := by
  have h : compute .trio (.incremental [.onPorts 4 40] [2, 2]) =
      .ok ⟨[.onPorts 1 10, .onPorts 3 30, .onPorts 4 40], [(4, .add), (2, .remove)]⟩ :=
    compute_eq_ok_iff.2 ⟨by decide +kernel, by decide +kernel⟩
  exact ⟨h, (records_exact h).2.2⟩

end Quorate.Change
