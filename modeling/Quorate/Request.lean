import Quorate.Member
import Quorate.Stamp

/-!
# Requests for a reconfiguration

A request asks for a change of members, either by what is added and removed or by the
whole new list, and may state the version of the configuration it expects to change.
-/

namespace Quorate

inductive MemberChange where
  /-- Members that join and ids of members that leave. -/
  | incremental (joining : List Member) (leaving : List ServerId)
  /-- The whole new list of members. -/
  | replacement (members : List Member)
  deriving DecidableEq

/-- A change of members and the version it expects; nothing accepts any version. -/
structure Request where
  change : MemberChange
  expected : Option Version
  deriving DecidableEq

def MemberChange.isIncremental : MemberChange → Bool
  | .incremental _ _ => true
  | .replacement _ => false

end Quorate
