import Quorate.Text.Numeral

/-!
# Addresses

Where a server listens: a host, which is free text, and a port.
-/

namespace Quorate

structure Address where
  host : String
  port : UInt16
  deriving DecidableEq

namespace Address

/-- The host that stands for every host of a machine. -/
def anyHost : String := "0.0.0.0"

def text (a : Address) : String :=
  a.host ++ ":" ++ Text.decimal a.port.toNat

end Address

end Quorate
