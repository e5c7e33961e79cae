import Quorate.Election
import Quorate.Text.Lowercase

/-!
# Roles

What a server is at run time. A role follows the standing of the server in the roster
it applied and the last election it heard of: `Role.next` decides it.
-/

namespace Quorate

inductive Role where
  | leader
  | follower
  | candidate
  | observing
  | departed
  deriving DecidableEq

namespace Role

def isVoter : Role → Bool
  | .leader | .follower | .candidate => true
  | .observing | .departed => false

def name : Role → String
  | .leader => "Leader"
  | .follower => "Follower"
  | .candidate => "Candidate"
  | .observing => "Observing"
  | .departed => "Departed"

/-- The role that a text names in letters of either case; any other text names a follower. -/
def ofText (text : String) : Role :=
  match String.ofList (Text.lowercase text.toList) with
  | "leader" => .leader
  | "follower" => .follower
  | "candidate" => .candidate
  | "observing" | "observer" => .observing
  | "departed" => .departed
  | _ => .follower

/-- The role of server `id` under a roster: outside of it the server has departed, an
observer observes, and a participant is what the election makes of it. Without an
election a voter stays what it is and any other server becomes a follower. -/
def next (id : ServerId) (current : Role) (r : Roster) (outcome : Option Outcome) : Role :=
  match r.standing? id, outcome with
  | none, _ => .departed
  | some .observer, _ => .observing
  | some .participant, some (.elected winner) => if winner = id then .leader else .follower
  | some .participant, some .pending => .candidate
  | some .participant, none => if current.isVoter then current else .follower

end Role

end Quorate
