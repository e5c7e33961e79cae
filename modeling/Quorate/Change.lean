import Quorate.Quorum.Overlap
import Quorate.Request

/-!
# Changes of membership

What a request makes of the current roster: the next list of members and a record of
each server that is added, removed or updated. `Change.compute` accepts only lists that
make a roster with a participant; `checkSafety` compares the quorums of two rosters.
-/

namespace Quorate

inductive ChangeKind where
  | add
  | remove
  | update
  deriving DecidableEq

def ChangeKind.name : ChangeKind → String
  | .add => "AddPeer"
  | .remove => "RemovePeer"
  | .update => "UpdatePeer"

structure Change where
  members : List Member
  records : List (ServerId × ChangeKind)
  deriving DecidableEq

namespace Change

def participants (c : Change) : List ServerId :=
  (c.members.filter (·.isParticipant)).map (·.id)

def changesParticipants (c : Change) (current : Roster) : Bool :=
  current.voters ≠ .ofList c.participants

def joiningFault (current : Roster) (leaving : List ServerId) :
    List ServerId → List Member → Option MembershipCause
  | _, [] => none
  | joined, m :: ms =>
    if m.id ∈ leaving then some (.joiningAndLeaving m.id)
    else if current.contains m.id || joined.contains m.id then some (.joiningMember m.id)
    else joiningFault current leaving (m.id :: joined) ms

/-- The current members that do not leave, in their order, then those that join. -/
def incremental (current : Roster) (joining : List Member) (leaving : List ServerId) :
    Except Fault Change :=
  match leaving.find? (!current.contains ·) with
  | some stranger => .error (.invalidMembership (.leavingStranger stranger))
  | none =>
    match joiningFault current leaving [] joining with
    | some cause => .error (.invalidMembership cause)
    | none =>
      let leavers := current.members.filter fun m => leaving.contains m.id
      .ok {
        members := (current.members.filter fun m => !leaving.contains m.id) ++ joining
        records := joining.map (fun m => (m.id, .add)) ++ leavers.map fun m => (m.id, .remove) }

def recordOf (current : Roster) (m : Member) : Option (ServerId × ChangeKind) :=
  match current.get? m.id with
  | none => some (m.id, .add)
  | some old => if old = m then none else some (m.id, .update)

def replacement (current : Roster) (members : List Member) : Change where
  members := members
  records :=
    members.filterMap (recordOf current) ++
      (current.ids.filter fun id => members.all (·.id ≠ id)).map fun id => (id, .remove)

def ofRequest (current : Roster) : MemberChange → Except Fault Change
  | .incremental joining leaving => incremental current joining leaving
  | .replacement members => .ok (replacement current members)

/-- The change that a request asks for, if its members make a roster with a participant. -/
def compute (current : Roster) (change : MemberChange) : Except Fault Change := do
  let c ← ofRequest current change
  if c.participants = [] then .error (.invalidMembership .noParticipant)
  else match firstFault c.members with
    | some cause => .error (.invalidMembership cause)
    | none => return c

end Change

/-- Whether every majority of the next roster meets every majority of the current one. -/
def Roster.checkSafety (current next : Roster) : Except Fault Unit :=
  if current.quorumsMeet next then .ok ()
  else .error (.noQuorum (.disjoint current.voters next.voters))

end Quorate
