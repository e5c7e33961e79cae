import Quorate.Address
import Quorate.Id

/-!
# Members

A member of an ensemble: its id, the three addresses it listens on, and its standing,
which says whether it votes. It is written in one line of text.
-/

namespace Quorate

inductive Standing where
  | participant
  | observer
  deriving DecidableEq

def Standing.text : Standing → String
  | .participant => "participant"
  | .observer => "observer"

structure Member where
  id : ServerId
  quorum : Address
  election : Address
  client : Address
  standing : Standing
  deriving DecidableEq

namespace Member

def isParticipant (m : Member) : Bool :=
  m.standing = .participant

/-- The addresses of a member in the order in which they are compared with others. -/
def addresses (m : Member) : List Address :=
  [m.quorum, m.election, m.client]

def idLead : String := "server."

/-- The line of a member. The host of the election address is not written: a line
has one host for the quorum and the election port. -/
def text (m : Member) : String :=
  idLead ++ serverText m.id ++ "=" ++ m.quorum.text ++ ":" ++
    Text.decimal m.election.port.toNat ++ ":" ++ m.standing.text ++ ";" ++ m.client.text

end Member

end Quorate
