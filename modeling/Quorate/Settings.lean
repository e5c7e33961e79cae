import Quorate.Id

/-!
# Settings of a server

What an operator sets for each server: its id, whether it accepts reconfigurations,
how long it waits, and how many configurations it keeps.
-/

namespace Quorate

/-- The settings of one server. Times are in milliseconds. -/
structure Settings where
  id : ServerId := 1
  /-- Whether the server runs reconfigurations. -/
  enabled : Bool := true
  /-- How long a config record may wait for its commit. -/
  proposeTimeout : Nat := 3000
  /-- How long a read waits for the replica to catch up with its session. -/
  readTimeout : Nat := 1000
  /-- How many configurations are to be kept. -/
  historyLimit : Nat := 16
  deriving DecidableEq

namespace Settings

def forServer (s : Settings) (id : ServerId) : Settings :=
  { s with id }

/-- How many configurations are kept: the current and the previous one at least. -/
def kept (s : Settings) : Nat :=
  max s.historyLimit 2

end Settings

end Quorate
