import Quorate.Keyed
import Quorate.Quorum.Overlap

/-!
# Elections

One round of an election: every live participant votes for the live participant with
the greatest last stamp, the greater id among equals. The round is decided if those
votes are a majority of all participants.
-/

namespace Quorate

inductive Outcome where
  | elected (leader : ServerId)
  | pending
  deriving DecidableEq

def Outcome.leader? : Outcome → Option ServerId
  | .elected leader => some leader
  | .pending => none

/-- Whether a candidate comes after another: a greater last stamp, then a greater id. -/
def candidateBelow (a b : Stamp × ServerId) : Bool :=
  a.1 < b.1 || (a.1 = b.1 && a.2 < b.2)

def lastCandidate? : List (Stamp × ServerId) → Option (Stamp × ServerId)
  | [] => none
  | a :: rest =>
    match lastCandidate? rest with
    | none => some a
    | some b => some (if candidateBelow b a then a else b)

/-- One round among the participants of a roster. A server without a last stamp counts
as having the stamp zero. -/
def elect (r : Roster) (live : IdSet) (last : ServerId → Option Stamp) : Outcome :=
  let candidates := (r.voters.filter live.contains).ids.map fun id => ((last id).getD .zero, id)
  match lastCandidate? candidates with
  | none => .pending
  | some (_, candidate) =>
    let vote := fun id => if live.contains id then some true else none
    if r.majority.tally vote = .won then .elected candidate else .pending

end Quorate
