import Quorate.Fault
import Quorate.Text.Blank
import Quorate.Text.Split

/-!
# Reading stamps

A stamp is read in base sixteen, digits of either case, with or without a leading
`0x`, blanks around it dropped. Where a request states the version it expects, blank
text and `-1` stand for any version.
-/

namespace Quorate.Stamp

def lead : List Char := ['0', 'x']

def read (cs : List Char) : Except Fault Stamp :=
  let trimmed := Text.trim cs
  match Text.readNumeral? 16 UInt64.size (Text.withoutLead lead trimmed) with
  | some word => .ok ⟨UInt64.ofNat word⟩
  | none => .error (.badArguments (.version (String.ofList trimmed)))

/-- The version that a text expects, nothing if it accepts any. -/
def readExpected (cs : List Char) : Except Fault (Option Version) :=
  let trimmed := Text.trim cs
  if trimmed = [] ∨ trimmed = ['-', '1'] then .ok none
  else (read trimmed).map some

def ofText (text : String) : Except Fault Stamp :=
  read text.toList

end Quorate.Stamp
