import Quorate.Text.Numeral

/-!
# Durations

A duration in milliseconds is written in the largest of seconds and milliseconds
that does not make it a fraction below one; a whole second count carries its
milliseconds as a decimal fraction without trailing zeros.
-/

namespace Quorate.Text

def threePlaces (n : Nat) : List Char :=
  [Nat.digitChar (n / 100 % 10), Nat.digitChar (n / 10 % 10), Nat.digitChar (n % 10)]

def fraction (milliseconds : Nat) : List Char :=
  if milliseconds = 0 then []
  else '.' :: ((threePlaces milliseconds).reverse.dropWhile (· = '0')).reverse

/-- A duration with its unit: `0ns`, `50ms`, `3s`, `1.5s`. -/
def duration (milliseconds : Nat) : String :=
  if milliseconds = 0 then "0ns"
  else if milliseconds < 1000 then decimal milliseconds ++ "ms"
  else
    decimal (milliseconds / 1000) ++ String.ofList (fraction (milliseconds % 1000)) ++ "s"

end Quorate.Text
