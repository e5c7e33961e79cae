import Quorate.Text.Lowercase.Table
import Quorate.Text.Range

/-!
# Lower case

The full lower case of a text: a letter maps to its lower case, the dotted capital
I to two characters, and a capital sigma to the final form at the end of a word.
-/

namespace Quorate.Text

def lowerChar (c : Char) : List Char :=
  if c = '\u0130' then ['i', '\u0307']
  else match caseRows.find? (·.covers c.toNat) with
    | some row => [Char.ofNat (c.toNat + row.offset).toNat]
    | none => [c]

/-- Whether the nearest character that matters for case is a cased one. -/
def cased (cs : List Char) : Bool :=
  match cs.dropWhile (inRanges caseIgnorableRanges) with
  | c :: _ => inRanges casedRanges c
  | [] => false

/-- The lower case of a text that follows the characters `before`, the nearest one first. -/
def lowercaseAfter : List Char → List Char → List Char
  | _, [] => []
  | before, c :: cs =>
    let lower :=
      if c = 'Σ' then if cased before && !cased cs then ['ς'] else ['σ'] else lowerChar c
    lower ++ lowercaseAfter (c :: before) cs

def lowercase (cs : List Char) : List Char :=
  lowercaseAfter [] cs

end Quorate.Text
