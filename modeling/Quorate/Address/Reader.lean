import Quorate.Fault
import Quorate.Text.Blank
import Quorate.Text.Split

/-!
# Reading addresses

An address is a host and a port around the last colon, or a port alone, which listens
on any host. Blanks around the whole and around the port are dropped; the host is
taken as it stands.
-/

namespace Quorate

/-- The port that a text denotes, blanks around it dropped. -/
def readPort (cs : List Char) : Except Fault UInt16 :=
  match Text.readWord16? (Text.trim cs) with
  | some port => .ok port
  | none => .error (.badArguments (.port (String.ofList cs)))

namespace Address

def read (cs : List Char) : Except Fault Address :=
  let trimmed := Text.trim cs
  let (host, port) := (Text.splitLast? ':' trimmed).getD (anyHost.toList, trimmed)
  if host = [] then .error (.badArguments (.hostMissing (String.ofList trimmed)))
  else do
    let port ← readPort port
    return ⟨String.ofList host, port⟩

def ofText (text : String) : Except Fault Address :=
  read text.toList

end Address

end Quorate
