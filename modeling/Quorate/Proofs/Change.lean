import Quorate.Change
import Quorate.Proofs.Fault
import Quorate.Proofs.Roster.Members

/-!
# What a change of members comes to

Both forms of a request lead to a list of members (`MemberChange.outcome`), and what is recorded
of a change depends on that list alone: the incremental form, where it is admissible, makes the
change of the replacement by its outcome (`incremental_eq_ok_iff`). So a request is accepted
exactly if it is admissible and its outcome is that of a roster with a participant
(`compute_eq_ok_iff`), and this is the same as that the request is legal (`compute_exact`).
-/

namespace Quorate

/-- One of the members votes, their ids are positive, and no two of the addresses, of which each
member has three, are the same. -/
structure Viable (members : List Member) : Prop where
  votes : ∃ m ∈ members, m.isParticipant = true
  positive : ∀ m ∈ members, 0 < m.id
  apart : (members.flatMap (·.addresses)).Nodup

instance (members : List Member) : Decidable (Viable members) :=
  decidable_of_iff
    ((∃ m ∈ members, m.isParticipant = true) ∧ (∀ m ∈ members, 0 < m.id) ∧
      (members.flatMap (·.addresses)).Nodup)
    ⟨fun ⟨votes, positive, apart⟩ => ⟨votes, positive, apart⟩,
      fun ⟨votes, positive, apart⟩ => ⟨votes, positive, apart⟩⟩

theorem viable_iff {members : List Member} (h : (members.map (·.id)).Nodup) :
    Viable members ↔ (∃ m ∈ members, m.isParticipant = true) ∧ ValidMembers members := by
  constructor
  · rintro ⟨hvotes, hpositive, hapart⟩
    exact ⟨hvotes, fun m hm => UInt64.pos_iff_ne_zero.1 (hpositive m hm), h, hapart⟩
  · rintro ⟨hvotes, hvalid⟩
    exact ⟨hvotes, fun m hm => UInt64.pos_iff_ne_zero.2 (hvalid.positive m hm), hvalid.apart⟩

namespace MemberChange

/-- The members that a request leads to: those that do not leave, in their order, and then those
that join, or the list that is given. -/
def outcome (current : Roster) : MemberChange → List Member
  | .incremental joining leaving => (current.members.filter fun m => m.id ∉ leaving) ++ joining
  | .replacement members => members

/-- Only members leave, only strangers join, and no one joins twice; a list names no one twice. -/
def Admissible (current : Roster) : MemberChange → Prop
  | .incremental joining leaving =>
    (∀ id ∈ leaving, id ∈ current.ids) ∧
      (∀ m ∈ joining, m.id ∉ current.ids ∧ m.id ∉ leaving) ∧ (joining.map (·.id)).Nodup
  | .replacement members => (members.map (·.id)).Nodup

instance (current : Roster) : (change : MemberChange) → Decidable (change.Admissible current)
  | .incremental _ leaving =>
    haveI : Decidable (∀ id ∈ leaving, id ∈ current.ids) := List.decidableBAll _ leaving
    inferInstanceAs (Decidable (_ ∧ _ ∧ _))
  | .replacement _ => inferInstanceAs (Decidable (List.Nodup _))

theorem Admissible.nodup_ids {current : Roster} {change : MemberChange}
    (h : change.Admissible current) : ((change.outcome current).map (·.id)).Nodup := by
  cases change with
  | replacement members => exact h
  | incremental joining leaving =>
      obtain ⟨_, hjoining, hdistinct⟩ := h
      rw [outcome, List.map_append]
      refine (current.nodup_ids.sublist (List.filter_sublist.map _)).append hdistinct ?_
      intro id hstays hjoins
      obtain ⟨m, hm, rfl⟩ := List.mem_map.1 hstays
      obtain ⟨other, hother, heq⟩ := List.mem_map.1 hjoins
      exact (hjoining other hother).1 (heq ▸ Roster.mem_ids_of_mem (List.mem_of_mem_filter hm))

/-- A request that may be granted: it is admissible, and it leads to members that are viable. -/
def Legal (current : Roster) (change : MemberChange) : Prop :=
  change.Admissible current ∧ Viable (change.outcome current)

instance (current : Roster) (change : MemberChange) : Decidable (change.Legal current) :=
  inferInstanceAs (Decidable (_ ∧ _))

end MemberChange

namespace Change

variable {current : Roster} {change : MemberChange} {c : Change} {joining : List Member}
  {leaving joined : List ServerId}

theorem joiningFault_eq_none_iff (hjoined : joined.Nodup) :
    joiningFault current leaving joined joining = none ↔
      (∀ m ∈ joining, m.id ∉ current.ids ∧ m.id ∉ leaving) ∧
        ((joining.map (·.id)).reverse ++ joined).Nodup := by
  induction joining generalizing joined with
  | nil => simp [joiningFault, hjoined]
  | cons m ms ih =>
      rw [joiningFault, List.map_cons, List.reverse_cons, List.append_assoc,
        List.singleton_append, List.forall_mem_cons]
      by_cases hleaving : m.id ∈ leaving
      · simp [hleaving]
      by_cases hmember : m.id ∈ current.ids
      · simp [hleaving, hmember, Roster.contains_iff.2 hmember]
      by_cases hagain : m.id ∈ joined
      · have hnot : ¬ ((ms.map (·.id)).reverse ++ m.id :: joined).Nodup := by
          intro hnodup
          exact (List.nodup_cons.1 hnodup.of_append_right).1 hagain
        simp [hleaving, hagain, hnot]
      have hstranger : current.contains m.id = false := by
        rw [← Bool.not_eq_true, Roster.contains_iff]
        exact hmember
      rw [if_neg hleaving, if_neg (by simp [hstranger, hagain]),
        ih (List.nodup_cons.2 ⟨hagain, hjoined⟩)]
      simp [hleaving, hmember]

/-- Those who stay are as they were, so that only those who join and those who leave are recorded
when the outcome is taken for a replacement. -/
theorem replacement_outcome
    (h : (MemberChange.incremental joining leaving).Admissible current) :
    replacement current ((MemberChange.incremental joining leaving).outcome current) =
      { members := (current.members.filter fun m => m.id ∉ leaving) ++ joining
        records := joining.map (fun m => (m.id, .add)) ++
          (current.members.filter fun m => m.id ∈ leaving).map fun m => (m.id, .remove) } := by
  obtain ⟨_, hjoining, _⟩ := h
  have hstay : (current.members.filter fun m => m.id ∉ leaving).filterMap
      (recordOf current) = [] := by
    refine List.filterMap_eq_nil_iff.2 fun m hm => ?_
    have hfound : current.get? m.id = some m :=
      Roster.get?_eq_some_iff.2 ⟨List.mem_of_mem_filter hm, rfl⟩
    simp [recordOf, hfound]
  have hjoin : joining.filterMap (recordOf current) = joining.map fun m => (m.id, .add) := by
    rw [← List.filterMap_eq_map]
    refine List.filterMap_congr fun m hm => ?_
    simp [recordOf, Roster.get?_eq_none_iff.2 (hjoining m hm).1]
  have hleave : (current.ids.filter fun id =>
      ((MemberChange.incremental joining leaving).outcome current).all (·.id ≠ id)) =
        (current.members.filter fun m => m.id ∈ leaving).map (·.id) := by
    rw [Roster.ids, List.filter_map]
    refine congrArg _ (List.filter_congr fun m hm => ?_)
    have hgone : (∀ other ∈ (MemberChange.incremental joining leaving).outcome current,
        other.id ≠ m.id) ↔ m.id ∈ leaving := by
      constructor
      · intro h
        by_contra hnot
        exact h m (List.mem_append_left _ (List.mem_filter.2 ⟨hm, decide_eq_true hnot⟩)) rfl
      · intro hleaving other hother heq
        rcases List.mem_append.1 hother with hstays | hjoins
        · exact of_decide_eq_true (List.mem_filter.1 hstays).2 (heq ▸ hleaving)
        · exact (hjoining other hjoins).1 (heq ▸ Roster.mem_ids_of_mem hm)
    rw [Bool.eq_iff_iff, Function.comp_apply, List.all_eq_true]
    simp only [decide_eq_true_iff]
    exact hgone
  rw [replacement, hleave, MemberChange.outcome, List.filterMap_append, hstay, hjoin,
    List.nil_append, List.map_map]
  rfl

theorem incremental_eq_ok_iff :
    incremental current joining leaving = .ok c ↔
      (MemberChange.incremental joining leaving).Admissible current ∧
        c = replacement current ((MemberChange.incremental joining leaving).outcome current) := by
  have hstrangers : leaving.find? (!current.contains ·) = none ↔
      ∀ id ∈ leaving, id ∈ current.ids := by
    simp [List.find?_eq_none, Roster.contains_iff]
  have hjoiners : joiningFault current leaving [] joining = none ↔
      (∀ m ∈ joining, m.id ∉ current.ids ∧ m.id ∉ leaving) ∧ (joining.map (·.id)).Nodup := by
    rw [joiningFault_eq_none_iff List.nodup_nil, List.append_nil, List.nodup_reverse]
  have hadmissible : (MemberChange.incremental joining leaving).Admissible current ↔
      leaving.find? (!current.contains ·) = none ∧
        joiningFault current leaving [] joining = none := by
    rw [hstrangers, hjoiners]
    rfl
  rw [hadmissible, incremental]
  cases hstranger : leaving.find? (!current.contains ·) with
  | some stranger => simp
  | none =>
      cases hjoiner : joiningFault current leaving [] joining with
      | some cause => simp
      | none =>
          rw [replacement_outcome (hadmissible.2 ⟨hstranger, hjoiner⟩)]
          simp [eq_comm]

theorem participants_ne_nil_iff :
    c.participants ≠ [] ↔ ∃ m ∈ c.members, m.isParticipant = true := by
  simp [participants, List.filter_eq_nil_iff]

theorem compute_of_ok {d : Change} (h : ofRequest current change = .ok d) :
    compute current change = .ok c ↔
      (∃ m ∈ d.members, m.isParticipant = true) ∧ ValidMembers d.members ∧ c = d := by
  rw [← participants_ne_nil_iff, ← firstFault_eq_none_iff, compute, h]
  change (if d.participants = [] then _ else _) = _ ↔ _
  split
  · rename_i hnone
    simp [hnone]
  · rename_i hsome
    cases hfault : firstFault d.members with
    | some cause => simp
    | none => simp [hsome, pure, Except.pure, eq_comm]

theorem ofRequest_of_admissible (h : change.Admissible current) :
    ofRequest current change = .ok (replacement current (change.outcome current)) := by
  cases change with
  | replacement members => rfl
  | incremental joining leaving => exact incremental_eq_ok_iff.2 ⟨h, rfl⟩

/-- A legal request is granted what the replacement by its outcome would be. -/
theorem compute_eq_ok_iff :
    compute current change = .ok c ↔
      change.Legal current ∧ c = replacement current (change.outcome current) := by
  constructor
  · intro h
    obtain ⟨d, hd, _⟩ := bind_eq_ok_iff.1 h
    obtain ⟨hvotes, hvalid, rfl⟩ := (compute_of_ok hd).1 h
    have hmade : change.Admissible current ∧
        c = replacement current (change.outcome current) := by
      cases change with
      | replacement members =>
          cases hd
          exact ⟨hvalid.distinct, rfl⟩
      | incremental joining leaving => exact incremental_eq_ok_iff.1 hd
    obtain ⟨hadmissible, rfl⟩ := hmade
    exact ⟨⟨hadmissible, (viable_iff hadmissible.nodup_ids).2 ⟨hvotes, hvalid⟩⟩, rfl⟩
  · rintro ⟨⟨hadmissible, hviable⟩, rfl⟩
    obtain ⟨hvotes, hvalid⟩ := (viable_iff hadmissible.nodup_ids).1 hviable
    exact (compute_of_ok (ofRequest_of_admissible hadmissible)).2 ⟨hvotes, hvalid, rfl⟩

theorem validMembers_of_compute (h : compute current change = .ok c) : ValidMembers c.members := by
  obtain ⟨⟨hadmissible, hviable⟩, rfl⟩ := compute_eq_ok_iff.1 h
  exact ((viable_iff hadmissible.nodup_ids).1 hviable).2

theorem ofRequest_error {fault : Fault} (h : ofRequest current change = .error fault) :
    ∃ cause, fault = .invalidMembership cause := by
  cases change with
  | replacement members => cases h
  | incremental joining leaving =>
      rw [ofRequest, incremental] at h
      split at h
      · cases h
        exact ⟨_, rfl⟩
      · split at h <;> cases h
        exact ⟨_, rfl⟩

theorem compute_error {fault : Fault} (h : compute current change = .error fault) :
    ∃ cause, fault = .invalidMembership cause := by
  rcases bind_eq_error_iff.1 h with h | ⟨c, _, h⟩
  · exact ofRequest_error h
  · split at h
    · cases h
      exact ⟨_, rfl⟩
    · split at h <;> cases h
      exact ⟨_, rfl⟩

/-- The legal requests are those that are granted. Their outcome becomes the list of members, and
whatever else is asked for is refused as an invalid membership. -/
theorem compute_exact (current : Roster) (change : MemberChange) :
    ((∃ c, compute current change = .ok c) ↔ change.Legal current) ∧
      (∀ c, compute current change = .ok c → c.members = change.outcome current) ∧
        ∀ fault, compute current change = .error fault →
          ∃ cause, fault = .invalidMembership cause := by
  refine ⟨?_, ?_, fun _ => compute_error⟩
  · constructor
    · rintro ⟨c, h⟩
      exact (compute_eq_ok_iff.1 h).1
    · intro h
      exact ⟨_, compute_eq_ok_iff.2 ⟨h, rfl⟩⟩
  · intro c h
    rw [(compute_eq_ok_iff.1 h).2, replacement]

/-- A server may be named twice among those that leave, but not among those that join. -/
theorem compute_exact_trio :
    (∃ c, compute .trio (.incremental [.onPorts 4 40] [2, 2]) = .ok c ∧
      c.members = [.onPorts 1 10, .onPorts 3 30, .onPorts 4 40]) ∧
    ∃ cause, compute .trio (.incremental [.onPorts 4 40, .onPorts 4 50] []) =
      .error (.invalidMembership cause) := by
  constructor
  · obtain ⟨hlegal, hmembers, _⟩ := compute_exact .trio (.incremental [.onPorts 4 40] [2, 2])
    obtain ⟨c, hc⟩ := hlegal.2 (by decide +kernel)
    exact ⟨c, hc, (hmembers c hc).trans (by decide +kernel)⟩
  · obtain ⟨hlegal, _, hrefused⟩ :=
      compute_exact .trio (.incremental [.onPorts 4 40, .onPorts 4 50] [])
    cases h : compute .trio (.incremental [.onPorts 4 40, .onPorts 4 50] []) with
    | ok c => exact absurd (hlegal.1 ⟨c, h⟩) (by decide +kernel)
    | error fault =>
        obtain ⟨cause, rfl⟩ := hrefused fault h
        exact ⟨cause, rfl⟩

end Change

/-- A move is refused for nothing but majorities that do not meet. -/
theorem Roster.checkSafety_eq_ok_iff {current next : Roster} :
    current.checkSafety next = .ok () ↔ current.quorumsMeet next = true := by
  rw [checkSafety]
  split <;> simp_all

end Quorate
