import Mathlib.Data.Nat.Digits.Defs
import Quorate.Proofs.Text.Pieces
import Quorate.Text.Numeral

/-!
# Reading back what was written

A number that is written in base ten or sixteen is read back from its digits, if it is below
the bound (`readNumeral?_numeral`). The digits are never anything but the sixteen of
`digitChars`, so that a numeral can be told from the separators around it (`not_mem_numeral`)
and is not trimmed (`trim_append_numeral`).
-/

namespace Quorate.Text

/-- The digits that are written. -/
def digitChars : List Char :=
  ['0', '1', '2', '3', '4', '5', '6', '7', '8', '9', 'a', 'b', 'c', 'd', 'e', 'f']

theorem digitChar_mem_digitChars : ∀ d < 16, Nat.digitChar d ∈ digitChars := by
  decide

/-- A digit is read as what it was written for, in any base that has it. -/
theorem digitValue?_digitChar {base d : Nat} (hd : d < base) (hbase : base ≤ 16) :
    digitValue? base (Nat.digitChar d) = some d := by
  have hvalue : ∀ d < 16, digitValue? 16 (Nat.digitChar d) = some d := by decide
  have hunfiltered := Option.filter_eq_some_iff.1 (hvalue d (hd.trans_le hbase))
  exact Option.filter_eq_some_iff.2 ⟨hunfiltered.1, decide_eq_true hd⟩

theorem isBlank_eq_false_of_digit {c : Char} (h : c ∈ digitChars) : isBlank c = false := by
  have hall : (digitChars.all fun c => !isBlank c) = true := by decide
  simpa using List.all_eq_true.1 hall c h

theorem numeral_ne_nil (base n : Nat) : numeral base n ≠ [] :=
  Nat.toDigits_ne_nil

section Base

variable {base : Nat} (hone : 1 < base) (hbase : base ≤ 16)

include hone hbase

theorem mem_numeral {n : Nat} {c : Char} (h : c ∈ numeral base n) : c ∈ digitChars := by
  induction n using Nat.strong_induction_on with
  | _ n ih =>
    rw [numeral] at h
    by_cases hn : n < base
    · rw [Nat.toDigits_of_lt_base hn, List.mem_singleton] at h
      exact h ▸ digitChar_mem_digitChars n (hn.trans_le hbase)
    · have hle := Nat.le_of_not_lt hn
      rw [Nat.toDigits_of_base_le hone hle] at h
      rcases List.mem_append.1 h with h | h
      · exact ih (n / base) (Nat.div_lt_self (Nat.lt_of_lt_of_le (by omega) hle) hone) h
      · rw [List.mem_singleton.1 h]
        exact digitChar_mem_digitChars _
          ((Nat.mod_lt n (Nat.lt_of_succ_lt hone)).trans_le hbase)

omit hone hbase in
theorem digitsValue?_append (value : Nat) (xs ys : List Char) :
    digitsValue? base value (xs ++ ys) =
      (digitsValue? base value xs).bind fun value => digitsValue? base value ys := by
  induction xs generalizing value with
  | nil => rfl
  | cons c xs ih =>
      rw [List.cons_append, digitsValue?, digitsValue?]
      cases digitValue? base c with
      | none => rfl
      | some digit => exact ih _

theorem digitsValue?_numeral (n : Nat) : digitsValue? base 0 (numeral base n) = some n := by
  induction n using Nat.strong_induction_on with
  | _ n ih =>
    rw [numeral]
    by_cases hn : n < base
    · rw [Nat.toDigits_of_lt_base hn, digitsValue?, digitValue?_digitChar hn hbase]
      exact congrArg some (by rw [Nat.zero_mul, Nat.zero_add])
    · have hle := Nat.le_of_not_lt hn
      have hmod := Nat.mod_lt n (Nat.lt_of_succ_lt hone)
      have hinit := ih (n / base) (Nat.div_lt_self (Nat.lt_of_lt_of_le (by omega) hle) hone)
      rw [numeral] at hinit
      rw [Nat.toDigits_of_base_le hone hle, digitsValue?_append, hinit, Option.bind_some,
        digitsValue?, digitValue?_digitChar hmod hbase]
      exact congrArg some (by rw [Nat.mul_comm]; exact Nat.div_add_mod n base)

theorem not_mem_numeral {c : Char} (h : c ∉ digitChars) (n : Nat) : c ∉ numeral base n :=
  fun hc => h (mem_numeral hone hbase hc)

/-- A numeral at the end of a text that begins with no blank is not trimmed. -/
theorem trim_append_numeral {cs : List Char} (hcs : trimLeft cs = cs) (n : Nat) :
    trim (cs ++ numeral base n) = cs ++ numeral base n := by
  have hdigits : ∀ c ∈ numeral base n, isBlank c = false := fun c hc =>
    isBlank_eq_false_of_digit (mem_numeral hone hbase hc)
  refine trim_eq_self_iff.2 ⟨fun c hc => ?_, fun c hc => ?_⟩
  · cases cs with
    | nil => exact hdigits c (List.mem_of_head? hc)
    | cons x cs => exact trimLeft_eq_self_iff.1 hcs c hc
  · rw [List.getLast?_append_of_ne_nil _ (numeral_ne_nil base n)] at hc
    exact hdigits c (List.mem_of_getLast? hc)

theorem readNumeral?_numeral {n bound : Nat} (hn : n < bound) :
    readNumeral? base bound (numeral base n) = some n := by
  have hvalue := digitsValue?_numeral hone hbase n
  have hplus : withoutPlus (numeral base n) = numeral base n := by
    unfold withoutPlus
    split
    · rename_i cs heq
      have hmem := mem_numeral hone hbase (heq ▸ List.mem_cons_self : '+' ∈ numeral base n)
      exact absurd hmem (by decide)
    · rfl
  rw [readNumeral?, hplus]
  split
  · rename_i hnil
    exact absurd hnil (numeral_ne_nil base n)
  · rw [hvalue]
    exact Option.filter_eq_some_iff.2 ⟨rfl, decide_eq_true hn⟩

end Base

theorem toList_decimal (n : Nat) : (decimal n).toList = numeral 10 n :=
  String.toList_ofList

theorem toList_hexadecimal (n : Nat) : (hexadecimal n).toList = numeral 16 n :=
  String.toList_ofList

theorem readWord64?_numeral (n : UInt64) : readWord64? (numeral 10 n.toNat) = some n := by
  rw [readWord64?, readNumeral?_numeral (by decide) (by decide) n.toNat_lt]
  exact congrArg some UInt64.ofNat_toNat

theorem readWord16?_numeral (n : UInt16) : readWord16? (numeral 10 n.toNat) = some n := by
  rw [readWord16?, readNumeral?_numeral (by decide) (by decide) n.toNat_lt]
  exact congrArg some UInt16.ofNat_toNat

end Quorate.Text
