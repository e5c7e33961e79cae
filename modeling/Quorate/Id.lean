import Quorate.Text.Numeral

/-!
# Identifiers

Servers and client sessions are named by words of 64 bits. A server is written in
base ten, a session in base sixteen with a leading `0x`.
-/

namespace Quorate

abbrev ServerId := UInt64

abbrev SessionId := UInt64

def serverText (server : ServerId) : String :=
  Text.decimal server.toNat

def sessionText (session : SessionId) : String :=
  "0x" ++ Text.hexadecimal session.toNat

end Quorate
