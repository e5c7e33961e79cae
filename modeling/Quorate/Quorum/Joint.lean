import Quorate.Quorum.Majority

/-!
# Joint decisions

While one set of voters hands over to another, a decision has to be won among both:
either side alone can prevent it, neither alone can make it.
-/

namespace Quorate

structure Joint where
  incoming : Majority
  outgoing : Majority
  deriving DecidableEq

namespace Joint

def single (voters : IdSet) : Joint :=
  ⟨⟨voters⟩, ⟨.empty⟩⟩

def ids (j : Joint) : IdSet :=
  j.incoming.voters.union j.outgoing.voters

/-- Whether there are voters to hand over from. -/
def isJoint (j : Joint) : Bool :=
  !j.outgoing.voters.isEmpty

/-- Where a vote stands that must be won on both sides. -/
def tally (j : Joint) (vote : ServerId → Option Bool) : Tally :=
  match j.incoming.tally vote, j.outgoing.tally vote with
  | .won, .won => .won
  | .lost, _ => .lost
  | _, .lost => .lost
  | _, _ => .pending

instance : Electorate Joint where
  hasVoter j id := j.incoming.voters.contains id || j.outgoing.voters.contains id
  tally := tally

end Joint

end Quorate
