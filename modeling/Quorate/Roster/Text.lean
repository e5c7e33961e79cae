import Quorate.Member.Reader
import Quorate.Roster
import Quorate.Stamp.Reader

/-!
# Rosters as text

A roster is sent as one line for each member and a last line for the version. What is
read may also hold blank lines, comments after `#` and lines of other keys, all of
which are skipped; the last version line counts, and without one the version is zero.
-/

namespace Quorate.Roster

def versionKey : String := "version"

def text (r : Roster) : String :=
  String.join (r.members.map fun m => m.text ++ "\n") ++ versionKey ++ "=" ++ r.version.text

def readLine (line : List Char) (sofar : Version × List Member) :
    Except Fault (Version × List Member) :=
  let (version, members) := sofar
  let line := Text.trim line
  if line = [] ∨ line.head? = some '#' then .ok (version, members)
  else if (Text.stripLead? Member.idLead.toList line).isSome then do
    let m ← Member.readEntry line
    return (version, members ++ [m])
  else match Text.splitFirst? '=' line with
    | none => .ok (version, members)
    | some (key, value) =>
      if Text.trim key = versionKey.toList then do
        let version ← Stamp.read value
        return (version, members)
      else .ok (version, members)

def readLines : List (List Char) → Version × List Member →
    Except Fault (Version × List Member)
  | [], sofar => .ok sofar
  | line :: lines, sofar => do
    let sofar ← readLine line sofar
    readLines lines sofar

/-- The roster that a text describes. A carriage return in front of a line break is
blank, so it goes with the other blanks at the end of its line. -/
def read (cs : List Char) : Except Fault Roster := do
  let (version, members) ← readLines (Text.splitOn '\n' cs) (.zero, [])
  make version members

def ofText (text : String) : Except Fault Roster :=
  read text.toList

/-- The roster with which an ensemble starts: that of the text, under version zero. -/
def seedOfText (text : String) : Except Fault Roster :=
  (ofText text).map asSeed

end Quorate.Roster
