import Quorate.Quorum.Joint
import Quorate.Roster

/-!
# Quorums of rosters

Only participants vote. A roster without participants has no quorum at all, while a
vote of its empty majority counts as won; `quorumsMeet` tells whether every majority of
one roster shares a participant with every majority of another.
-/

namespace Quorate.Roster

def voters (r : Roster) : IdSet :=
  .ofList r.participants

def majority (r : Roster) : Majority :=
  ⟨r.voters⟩

def handover (old new : Roster) : Joint :=
  ⟨new.majority, old.majority⟩

def isQuorum (r : Roster) (acks : List ServerId) : Bool :=
  r.voters.size / 2 < (IdSet.ofList (acks.filter r.voters.contains)).size

/-- Whether any majority of `a` and any majority of `b` have a participant in common.
Two majorities are disjoint if each takes in all participants of its own and the shared
ones that both still need are no more than there are. -/
def quorumsMeet (a b : Roster) : Bool :=
  if a.voters.isEmpty || b.voters.isEmpty then false
  else
    let shared := (a.voters.inter b.voters).size
    let needA := majoritySize a.voters.size - (a.voters.size - shared)
    let needB := majoritySize b.voters.size - (b.voters.size - shared)
    shared < needA + needB

def participantChanges (a b : Roster) : Nat :=
  (a.voters.diff b.voters).size + (b.voters.diff a.voters).size

/-- The size of the smallest quorum, zero without participants. -/
def quorumSize (r : Roster) : Nat :=
  min r.participants.length (majoritySize r.participants.length)

end Quorate.Roster
