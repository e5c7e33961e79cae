import Quorate.Text.Numeral
import Quorate.Text.Quoted.Table
import Quorate.Text.Range

/-!
# Quoted text

Text from outside stands in messages between double quotes. Quotes and backslashes
are escaped, tab, line breaks and NUL have short escapes, and every other character
without a visible form is written by its code point in braces.
-/

namespace Quorate.Text

/-- How a character stands between quotes. -/
def escape (c : Char) : List Char :=
  match c with
  | '"' => ['\\', '"']
  | '\\' => ['\\', '\\']
  | '\t' => ['\\', 't']
  | '\r' => ['\\', 'r']
  | '\n' => ['\\', 'n']
  | '\x00' => ['\\', '0']
  | c =>
    if inRanges hiddenRanges c then
      ['\\', 'u', '\x7b'] ++ numeral 16 c.toNat ++ ['\x7d']
    else [c]

def quoted (text : String) : String :=
  String.ofList ('"' :: text.toList.flatMap escape ++ ['"'])

end Quorate.Text
