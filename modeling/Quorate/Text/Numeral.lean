/-!
# Numerals

Numbers are read in base ten or sixteen: one optional plus sign, then at least one
digit, leading zeros allowed, and the value below a bound. They are written with
the fewest digits, in lower case. A minus sign is never read.
-/

namespace Quorate.Text

/-- The value of an ASCII digit, letters of either case standing for ten to fifteen. -/
def digitValue? (base : Nat) (c : Char) : Option Nat :=
  let value :=
    if '0' ≤ c ∧ c ≤ '9' then some (c.toNat - '0'.toNat)
    else if 'a' ≤ c ∧ c ≤ 'f' then some (c.toNat - 'a'.toNat + 10)
    else if 'A' ≤ c ∧ c ≤ 'F' then some (c.toNat - 'A'.toNat + 10)
    else none
  value.filter (· < base)

/-- The value of a run of digits read after `value`. -/
def digitsValue? (base : Nat) : Nat → List Char → Option Nat
  | value, [] => some value
  | value, c :: cs => do
    let digit ← digitValue? base c
    digitsValue? base (value * base + digit) cs

def withoutPlus : List Char → List Char
  | '+' :: cs => cs
  | cs => cs

def readNumeral? (base bound : Nat) (cs : List Char) : Option Nat :=
  match withoutPlus cs with
  | [] => none
  | digits => (digitsValue? base 0 digits).filter (· < bound)

/-- The digits of a number in lower case, no leading zeros. -/
def numeral (base n : Nat) : List Char :=
  Nat.toDigits base n

def decimal (n : Nat) : String :=
  String.ofList (numeral 10 n)

def hexadecimal (n : Nat) : String :=
  String.ofList (numeral 16 n)

def readWord64? (cs : List Char) : Option UInt64 :=
  (readNumeral? 10 UInt64.size cs).map UInt64.ofNat

def readWord16? (cs : List Char) : Option UInt16 :=
  (readNumeral? 10 UInt16.size cs).map UInt16.ofNat

theorem readNumeral?_lt {base bound n : Nat} {cs : List Char}
    (h : readNumeral? base bound cs = some n) : n < bound := by
  unfold readNumeral? at h
  split at h
  · simp at h
  · simpa using (Option.filter_eq_some_iff.1 h).2

end Quorate.Text
