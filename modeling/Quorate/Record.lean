import Quorate.Roster

/-!
# Records

What is committed: data, the opening and closing of sessions, and proposals for the
next roster. All of them are ordered in one log.
-/

namespace Quorate

/-- A proposal for the roster that follows the one of version `base`. Its version is the
stamp of its commit, or `floor` if that is greater. -/
structure RosterProposal where
  base : Version
  floor : Version
  members : List Member
  deriving DecidableEq

/-- The roster that a proposal makes of the current one when it is committed with a
stamp. Every replica comes to the same answer; a proposal on another base is stale. -/
def RosterProposal.applyTo (p : RosterProposal) (current : Roster) (stamp : Stamp) :
    Except Fault Roster :=
  if p.base ≠ current.version then .error (.staleVersion p.base current.version)
  else Roster.make (max p.floor stamp) p.members

inductive Record where
  | openSession (session : SessionId) (server : ServerId)
  | closeSession (session : SessionId)
  | data (payload : String)
  | reconfigure (proposal : RosterProposal)
  deriving DecidableEq

namespace Record

def isReconfigure : Record → Bool
  | .reconfigure _ => true
  | _ => false

def successor? (record : Record) (current : Roster) (stamp : Stamp) : Option Roster :=
  match record with
  | .reconfigure p => (p.applyTo current stamp).toOption
  | _ => none

end Record

end Quorate
