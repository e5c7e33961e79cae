import Quorate.Fault
import Quorate.Member

/-!
# Rosters

A roster is a configuration of an ensemble: a version and the members in the order in
which they were declared. Ids are positive and unique, and no two addresses of the
members are the same; a roster carries the proof that this was checked. A roster is
never changed, a reconfiguration makes a new one.
-/

namespace Quorate

def firstClash (server : ServerId) : List Address → List Address → Option MembershipCause
  | _, [] => none
  | taken, a :: rest =>
    if a ∈ taken then some (.addressTaken a server)
    else firstClash server (a :: taken) rest

def firstFaultAfter (ids : List ServerId) (taken : List Address) :
    List Member → Option MembershipCause
  | [] => none
  | m :: ms =>
    if m.id = 0 then some .idZero
    else if m.id ∈ ids then some (.idTaken m.id)
    else match firstClash m.id taken m.addresses with
      | some cause => some cause
      | none => firstFaultAfter (m.id :: ids) (m.addresses.reverse ++ taken) ms

/-- The first fault of a list of members: an id that is zero or taken, or an address
that is taken, in the order of the list. -/
def firstFault (members : List Member) : Option MembershipCause :=
  firstFaultAfter [] [] members

/-- A versioned list of members without a fault. -/
structure Roster where
  version : Version
  members : List Member
  sound : firstFault members = none
  deriving DecidableEq

namespace Roster

def make (version : Version) (members : List Member) : Except Fault Roster :=
  match h : firstFault members with
  | some cause => .error (.invalidMembership cause)
  | none => .ok ⟨version, members, h⟩

def withVersion (r : Roster) (version : Version) : Roster :=
  { r with version }

/-- The roster an ensemble starts with has version zero, whatever it was read with. -/
def asSeed (r : Roster) : Roster :=
  r.withVersion .zero

def get? (r : Roster) (id : ServerId) : Option Member :=
  r.members.find? (·.id = id)

def contains (r : Roster) (id : ServerId) : Bool :=
  (r.get? id).isSome

def standing? (r : Roster) (id : ServerId) : Option Standing :=
  (r.get? id).map (·.standing)

def isParticipant (r : Roster) (id : ServerId) : Bool :=
  r.standing? id = some .participant

def ids (r : Roster) : List ServerId :=
  r.members.map (·.id)

def participants (r : Roster) : List ServerId :=
  (r.members.filter (·.isParticipant)).map (·.id)

def observers (r : Roster) : List ServerId :=
  (r.members.filter (!·.isParticipant)).map (·.id)

/-- Whether two rosters list the same members, in any order and under any version. -/
def sameMembers (a b : Roster) : Bool :=
  a.members.length = b.members.length && a.members.all fun m => b.get? m.id = some m

theorem make_eq_ok_iff {version : Version} {members : List Member} {r : Roster} :
    make version members = .ok r ↔ r.version = version ∧ r.members = members := by
  obtain ⟨v, ms, hs⟩ := r
  unfold make
  split
  · rename_i cause h
    simp only [reduceCtorEq, false_iff, not_and]
    rintro rfl rfl
    rw [hs] at h
    cases h
  · simp [eq_comm]

theorem make_self (r : Roster) : make r.version r.members = .ok r :=
  make_eq_ok_iff.2 ⟨rfl, rfl⟩

end Roster

end Quorate
