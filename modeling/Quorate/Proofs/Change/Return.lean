import Mathlib.Data.List.Perm.Basic
import Quorate.Proofs.Change

/-!
# Members that return

Members that were removed may join again, in any order (`legal_return`): their ids are those of
strangers now, and with them the roster has the members that it had, which were valid. It differs
from the first roster in the order of its members alone, and that is what `Roster.sameMembers`
disregards (`sameMembers_after_return`).
-/

namespace Quorate.Change

variable {first second : Roster} {leaving : List ServerId} {joining : List Member}

theorem outcome_removal (current : Roster) (leaving : List ServerId) :
    (MemberChange.incremental [] leaving).outcome current =
      current.members.filter fun m => m.id ∉ leaving :=
  List.append_nil _

theorem perm_outcome_return
    (hleft : second.members = first.members.filter fun m => m.id ∉ leaving)
    (hback : joining.Perm (first.members.filter fun m => m.id ∈ leaving)) :
    ((MemberChange.incremental joining []).outcome second).Perm first.members := by
  have hall : (MemberChange.incremental joining []).outcome second =
      (first.members.filter fun m => m.id ∉ leaving) ++ joining := by
    simp [MemberChange.outcome, hleft]
  rw [hall]
  refine (hback.append_left _).trans ?_
  simpa using List.filter_append_perm (fun m => m.id ∉ leaving) first.members

theorem viable_of_perm {r : Roster} {members : List Member} (h : members.Perm r.members)
    (hvotes : ∃ m ∈ members, m.isParticipant = true) : Viable members where
  votes := hvotes
  positive m hm := UInt64.pos_iff_ne_zero.2 (r.validMembers.positive m (h.mem_iff.1 hm))
  apart := (h.flatMap_right _).nodup_iff.2 r.validMembers.apart

theorem legal_return
    (hremoval : (MemberChange.incremental [] leaving).Legal first)
    (hleft : second.members = first.members.filter fun m => m.id ∉ leaving)
    (hback : joining.Perm (first.members.filter fun m => m.id ∈ leaving)) :
    (MemberChange.incremental joining []).Legal second := by
  have hperm := perm_outcome_return hleft hback
  refine ⟨⟨fun id hid => absurd hid List.not_mem_nil, fun m hm => ⟨fun hmember => ?_,
    List.not_mem_nil⟩, ?_⟩, viable_of_perm hperm ?_⟩
  · -- Those who return had left, and none of those who stayed has the id of one who left.
    have hleaves := of_decide_eq_true (List.mem_filter.1 (hback.mem_iff.1 hm)).2
    obtain ⟨other, hother, heq⟩ := Roster.mem_ids_iff.1 hmember
    rw [hleft] at hother
    exact of_decide_eq_true (List.mem_filter.1 hother).2 (heq ▸ hleaves)
  · exact (hback.map _).nodup_iff.2 (first.nodup_ids.sublist (List.filter_sublist.map _))
  · obtain ⟨m, hm, hvotes⟩ := hremoval.2.votes
    rw [outcome_removal, ← hleft] at hm
    refine ⟨m, List.mem_append_left _ (List.mem_filter.2 ⟨hm, ?_⟩), hvotes⟩
    exact decide_eq_true List.not_mem_nil

/-- Whoever was removed may return, and whatever the version and the order, the roster has the same
members as before. -/
theorem sameMembers_after_return {removal : Change} {version : Version}
    (hremoval : compute first (.incremental [] leaving) = .ok removal)
    (hsecond : Roster.make version removal.members = .ok second)
    (hback : joining.Perm (first.members.filter fun m => m.id ∈ leaving)) :
    ∃ addition, compute second (.incremental joining []) = .ok addition ∧
      ∀ version', ∃ third, Roster.make version' addition.members = .ok third ∧
        first.sameMembers third = true ∧ third.sameMembers first = true := by
  obtain ⟨hlegal, rfl⟩ := compute_eq_ok_iff.1 hremoval
  have hleft : second.members = first.members.filter fun m => m.id ∉ leaving :=
    (Roster.make_eq_ok_iff.1 hsecond).2.trans (outcome_removal first leaving)
  have hcompute := compute_eq_ok_iff.2 ⟨legal_return hlegal hleft hback, rfl⟩
  refine ⟨_, hcompute, fun version' => ?_⟩
  refine ⟨⟨version', _, firstFault_eq_none_iff.2 (validMembers_of_compute hcompute)⟩,
    Roster.make_eq_ok_iff.2 ⟨rfl, rfl⟩, ?_⟩
  rw [Roster.sameMembers_comm, and_self_iff, Roster.sameMembers_iff_perm]
  exact perm_outcome_return hleft hback

/-- A removal is reversible up to the order of the members, which is all that rosters with the same
members may differ in; having the same members is an equivalence. -/
theorem removal_reversible :
    (∀ (first second : Roster) (leaving : List ServerId) (removal : Change) (version : Version)
      (joining : List Member),
      compute first (.incremental [] leaving) = .ok removal →
      Roster.make version removal.members = .ok second →
      joining.Perm (first.members.filter fun m => m.id ∈ leaving) →
      ∃ addition, compute second (.incremental joining []) = .ok addition ∧
        ∀ version', ∃ third, Roster.make version' addition.members = .ok third ∧
          first.sameMembers third = true ∧ third.sameMembers first = true) ∧
    (∀ a b : Roster, a.sameMembers b = true ↔ a.members.Perm b.members) ∧
    (∀ a b : Roster, b.sameMembers a = a.sameMembers b) ∧
    ∀ a b c : Roster, a.sameMembers b = true → b.sameMembers c = true → a.sameMembers c = true :=
  ⟨fun _ _ _ _ _ _ hremoval hsecond hback => sameMembers_after_return hremoval hsecond hback,
    fun _ _ => Roster.sameMembers_iff_perm, Roster.sameMembers_comm,
    fun _ _ _ => Roster.sameMembers_trans⟩

/-- What is left of three servers without the first and the third one. -/
def rump : Roster :=
  ⟨.make 1 1, [.onPorts 2 20], by decide +kernel⟩

/-- The first and the third of three servers leave, one of them named twice, and come back in the
other order. -/
theorem removal_reversible_trio :
    ∃ addition, compute rump (.incremental [.onPorts 3 30, .onPorts 1 10] []) = .ok addition ∧
      ∃ third, Roster.make (.make 2 1) addition.members = .ok third ∧
        Roster.trio.sameMembers third = true ∧ third.sameMembers .trio = true := by
  have hremoval : compute .trio (.incremental [] [1, 3, 1]) =
      .ok ⟨[.onPorts 2 20], [(1, .remove), (3, .remove)]⟩ :=
    compute_eq_ok_iff.2 ⟨by decide +kernel, by decide +kernel⟩
  have hrump : Roster.make (.make 1 1) [.onPorts 2 20] = .ok rump :=
    Roster.make_eq_ok_iff.2 ⟨rfl, rfl⟩
  obtain ⟨addition, haddition, hsame⟩ :=
    removal_reversible.1 .trio rump [1, 3, 1] _ _ [.onPorts 3 30, .onPorts 1 10] hremoval hrump
      (by decide +kernel)
  exact ⟨addition, haddition, hsame (.make 2 1)⟩

end Quorate.Change
