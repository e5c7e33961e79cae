import Quorate.IdSet

/-!
# Majorities

Voters decide by strict majority. A vote is won or lost as soon as the answers still
missing cannot change that; without voters it is won, so that a half of a joint
decision that has no voters leaves the decision to the other half.
-/

namespace Quorate

inductive Tally where
  | won
  | pending
  | lost
  deriving DecidableEq

def Tally.text : Tally → String
  | .won => "VoteWon"
  | .pending => "VotePending"
  | .lost => "VoteLost"

/-- Those whose votes decide together. -/
class Electorate (ε : Type) where
  /-- Whether an id is that of a voter. -/
  hasVoter : ε → ServerId → Bool
  /-- Where a vote stands, given each voter's answer or that it has not answered. -/
  tally : ε → (ServerId → Option Bool) → Tally

/-- Whether the given acknowledgements, all other voters refusing, win the vote. -/
def Electorate.accepts {ε : Type} [Electorate ε] (e : ε) (acks : List ServerId) : Bool :=
  Electorate.tally e (fun id => some (acks.contains id)) = .won

def majoritySize (total : Nat) : Nat :=
  total / 2 + 1

structure Majority where
  voters : IdSet
  deriving DecidableEq

namespace Majority

def count (m : Majority) (vote : ServerId → Option Bool) (answer : Bool) : Nat :=
  m.voters.ids.countP fun id => vote id = some answer

def tally (m : Majority) (vote : ServerId → Option Bool) : Tally :=
  if m.voters.isEmpty then .won
  else if majoritySize m.voters.size ≤ m.count vote true then .won
  else if m.voters.size - majoritySize m.voters.size < m.count vote false then .lost
  else .pending

instance : Electorate Majority where
  hasVoter m := m.voters.contains
  tally := tally

end Majority

end Quorate
