import Quorate.Member.Reader
import Quorate.Request
import Quorate.Stamp.Reader

/-!
# Requests on the wire

A request is sent as four texts: the joining members, the leaving ids, the new list of
members, and the expected version. The first three are lists with commas and may be
absent or blank; exactly one form of the change has to be given.
-/

namespace Quorate

structure WireRequest where
  joining : Option String
  leaving : Option String
  newMembers : Option String
  version : String
  deriving DecidableEq

def readLeaving (cs : List Char) : Except Fault ServerId :=
  let digits := Text.withoutLead Member.idLead.toList cs
  match Text.readWord64? digits with
  | some id => .ok id
  | none => .error (.badArguments (.leavingId (String.ofList digits)))

def readLeavingList (cs : List Char) : Except Fault (List ServerId) :=
  (Member.pieces cs).mapM readLeaving

namespace WireRequest

/-- Whether an argument is there and not blank. -/
def present (argument : Option String) : Bool :=
  argument.any fun text => Text.trim text.toList ≠ []

def chars (argument : Option String) : List Char :=
  (argument.getD "").toList

/-- The change that the first three texts ask for. -/
def change (w : WireRequest) : Except Fault MemberChange :=
  match present w.joining || present w.leaving, present w.newMembers with
  | true, true => .error (.badArguments .mixedForms)
  | false, false => .error (.badArguments .nothingGiven)
  | true, false => do
    let joining ← Member.readList (chars w.joining)
    let leaving ← readLeavingList (chars w.leaving)
    return .incremental joining leaving
  | false, true => do
    let members ← Member.readList (chars w.newMembers)
    return .replacement members

def read (w : WireRequest) : Except Fault Request := do
  let change ← w.change
  let expected ← Stamp.readExpected w.version.toList
  return { change, expected }

end WireRequest

end Quorate
