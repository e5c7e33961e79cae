import Mathlib.Data.Nat.Digits.Lemmas
import Quorate.Proofs.Text.Numeral

/-!
# Spellings of a number

Many texts are read as one number: letters may be upper case, and zeros may stand in front. A
text `Spelled` so is read as the number it spells, and nothing else is
(`readNumeral?_eq_some_iff`). Among all its spellings the numeral of a number is the one in lower
case that has the digits of the number and no zero in front of them (`numeral_eq_digits`,
`head_numeral_eq_zero_iff`).
-/

namespace Quorate.Text

section Digit

variable {base d : Nat} {c : Char}

/-- What the first characters have in common can be decided one by one. -/
theorem forall_toNat_lt {p : Char → Prop} {bound : Nat} (h : ∀ n < bound, p (Char.ofNat n)) :
    ∀ c : Char, c.toNat < bound → p c := by
  intro c hc
  have hp := h c.toNat hc
  rwa [Char.ofNat_toNat] at hp

theorem toNat_lt_of_digitValue? (h : digitValue? base c = some d) : c.toNat < 128 := by
  have hle : c ≤ 'f' := by
    obtain ⟨hvalue, _⟩ := Option.filter_eq_some_iff.1 h
    split at hvalue
    · rename_i hc
      exact Char.le_trans hc.2 (by decide)
    split at hvalue
    · rename_i hc
      exact hc.2
    split at hvalue
    · rename_i hc
      exact Char.le_trans hc.2 (by decide)
    · cases hvalue
  exact Nat.lt_of_le_of_lt hle (by decide)

/-- Only capital letters have another character for their lower case. -/
theorem toLower_eq_self_or_toNat_lt (c : Char) : c.toLower = c ∨ c.toNat < 128 := by
  by_cases hc : 'A' ≤ c ∧ c ≤ 'Z'
  · exact Or.inr (Nat.lt_of_le_of_lt hc.2 (by decide))
  · exact Or.inl (dif_neg hc)

theorem digitValue?_eq_filter (hbase : base ≤ 16) (c : Char) :
    digitValue? base c = (digitValue? 16 c).filter (· < base) := by
  rw [digitValue?, digitValue?, Option.filter_filter]
  refine congrArg (Option.filter · _) (funext fun d => ?_)
  rw [← Bool.decide_and]
  exact decide_eq_decide.2 ⟨fun hd => ⟨hd.trans_le hbase, hd⟩, And.right⟩

/-- Upper case letters are read as lower case ones are. -/
theorem digitValue?_toLower (hbase : base ≤ 16) (c : Char) :
    digitValue? base c.toLower = digitValue? base c := by
  have hascii : ∀ c : Char, c.toNat < 128 → digitValue? 16 c.toLower = digitValue? 16 c :=
    forall_toNat_lt (by decide +kernel)
  rw [digitValue?_eq_filter hbase, digitValue?_eq_filter hbase c]
  rcases toLower_eq_self_or_toNat_lt c with heq | hlt
  · rw [heq]
  · rw [hascii c hlt]

/-- A character is blank or not together with its lower case. -/
theorem isBlank_toLower (c : Char) : isBlank c.toLower = isBlank c := by
  have hascii : ∀ c : Char, c.toNat < 128 → isBlank c.toLower = isBlank c :=
    forall_toNat_lt (by decide +kernel)
  rcases toLower_eq_self_or_toNat_lt c with heq | hlt
  · rw [heq]
  · exact hascii c hlt

theorem toLower_of_digitValue? (hbase : base ≤ 16) (h : digitValue? base c = some d) :
    d < base ∧ c.toLower = Nat.digitChar d := by
  have hascii : ∀ c : Char, c.toNat < 128 → ∀ d < 16, digitValue? 16 c = some d →
      c.toLower = Nat.digitChar d :=
    forall_toNat_lt (by decide +kernel)
  have hsixteen := h
  rw [digitValue?_eq_filter hbase, Option.filter_eq_some_iff, decide_eq_true_iff] at hsixteen
  obtain ⟨hvalue, hd⟩ := hsixteen
  exact ⟨hd, hascii c (toNat_lt_of_digitValue? h) d (hd.trans_le hbase) hvalue⟩

end Digit

/-- In lower case the text is the numeral of a number, with zeros in front in any number. -/
def Spelled (base n : Nat) (cs : List Char) : Prop :=
  ∃ zeros, cs.map Char.toLower = List.replicate zeros '0' ++ numeral base n

section Base

variable {base : Nat} (hone : 1 < base) (hbase : base ≤ 16) {n d : Nat} {c : Char}
  {cs : List Char}

theorem Spelled.ne_nil (h : Spelled base n cs) : cs ≠ [] := by
  rintro rfl
  obtain ⟨zeros, heq⟩ := h
  exact numeral_ne_nil base n (List.append_eq_nil_iff.1 heq.symm).2

include hbase in
theorem spelled_singleton (h : digitValue? base c = some d) : Spelled base d [c] := by
  obtain ⟨hd, hc⟩ := toLower_of_digitValue? hbase h
  refine ⟨0, ?_⟩
  rw [numeral, Nat.toDigits_of_lt_base hd, List.map_singleton, hc]
  rfl

include hone hbase

theorem Spelled.toLower_mem (h : Spelled base n cs) (hc : c ∈ cs) : c.toLower ∈ digitChars := by
  obtain ⟨zeros, heq⟩ := h
  have hmem : c.toLower ∈ List.replicate zeros '0' ++ numeral base n :=
    heq ▸ List.mem_map_of_mem hc
  rcases List.mem_append.1 hmem with hzero | hdigit
  · rw [List.eq_of_mem_replicate hzero]
    decide
  · exact mem_numeral hone hbase hdigit

theorem Spelled.concat (hcs : Spelled base n cs) (h : digitValue? base c = some d) :
    Spelled base (n * base + d) (cs ++ [c]) := by
  obtain ⟨hd, hc⟩ := toLower_of_digitValue? hbase h
  obtain ⟨zeros, hzeros⟩ := hcs
  rw [Spelled, List.map_append, hzeros, List.map_singleton, hc, List.append_assoc,
    ← Nat.toDigits_of_lt_base hd]
  rcases Nat.eq_zero_or_pos n with rfl | hn
  · -- The digit of zero is one more zero in front.
    refine ⟨zeros + 1, ?_⟩
    rw [numeral, Nat.toDigits_zero, Nat.zero_mul, Nat.zero_add, List.replicate_succ',
      List.append_assoc, numeral]
  · refine ⟨zeros, ?_⟩
    rw [numeral, numeral, Nat.toDigits_append_toDigits hone hn hd, Nat.mul_comm]

theorem spelled_of_digitsValue? (hne : cs ≠ []) (h : digitsValue? base 0 cs = some n) :
    Spelled base n cs := by
  -- From the right, since a digit is appended to the numeral of what was read before.
  induction cs using List.reverseRecOn generalizing n with
  | nil => exact absurd rfl hne
  | append_singleton cs c ih =>
      rw [digitsValue?_append, Option.bind_eq_some_iff] at h
      obtain ⟨value, hvalue, h⟩ := h
      obtain ⟨digit, hdigit, hlast⟩ := Option.bind_eq_some_iff.1 h
      cases hlast
      by_cases hcs : cs = []
      · subst hcs
        cases hvalue
        rw [Nat.zero_mul, Nat.zero_add]
        exact spelled_singleton hbase hdigit
      · exact (ih hcs hvalue).concat hone hbase hdigit

omit hone in
/-- Upper case letters are read as lower case ones are. -/
theorem digitsValue?_map_toLower (value : Nat) (cs : List Char) :
    digitsValue? base value (cs.map Char.toLower) = digitsValue? base value cs := by
  induction cs generalizing value with
  | nil => rfl
  | cons c cs ih =>
      rw [List.map_cons, digitsValue?, digitsValue?, digitValue?_toLower hbase]
      exact congrArg _ (funext fun d => ih _)

/-- Zeros in front add nothing. -/
theorem digitsValue?_zeros (zeros : Nat) (cs : List Char) :
    digitsValue? base 0 (List.replicate zeros '0' ++ cs) = digitsValue? base 0 cs := by
  have hzero : digitValue? base '0' = some 0 :=
    digitValue?_digitChar (Nat.zero_lt_of_lt hone) hbase
  induction zeros with
  | zero => rfl
  | succ zeros ih =>
      rw [List.replicate_succ, List.cons_append, digitsValue?, hzero]
      exact (congrArg (digitsValue? base · _) (Nat.zero_mul base)).trans ih

theorem Spelled.digitsValue? (h : Spelled base n cs) : digitsValue? base 0 cs = some n := by
  obtain ⟨zeros, hzeros⟩ := h
  rw [← digitsValue?_map_toLower hbase, hzeros, digitsValue?_zeros hone hbase,
    digitsValue?_numeral hone hbase]

/-- A number below the bound is read from exactly its spellings, with a plus sign or without. -/
theorem readNumeral?_eq_some_iff {bound : Nat} :
    readNumeral? base bound cs = some n ↔ n < bound ∧ Spelled base n (withoutPlus cs) := by
  rw [readNumeral?]
  split
  · rename_i hnil
    rw [hnil]
    exact iff_of_false (by simp) fun h => h.2.ne_nil rfl
  · rename_i hne
    rw [Option.filter_eq_some_iff, decide_eq_true_iff, and_comm]
    exact and_congr_right fun _ =>
      ⟨spelled_of_digitsValue? hone hbase hne, Spelled.digitsValue? hone hbase⟩

omit hbase in
/-- A numeral has the digits of its number, the most significant one first. -/
theorem numeral_eq_digits (hn : n ≠ 0) :
    numeral base n = (Nat.digits base n).reverse.map Nat.digitChar := by
  induction n using Nat.strong_induction_on with
  | _ n ih =>
    rw [Nat.digits_def' hone (Nat.pos_of_ne_zero hn), List.reverse_cons, List.map_append, numeral]
    by_cases hlt : n < base
    · rw [Nat.toDigits_of_lt_base hlt, Nat.div_eq_of_lt hlt, Nat.mod_eq_of_lt hlt, Nat.digits_zero]
      rfl
    · have hle := Nat.le_of_not_lt hlt
      have hdiv : n / base ≠ 0 := (Nat.div_pos hle (Nat.zero_lt_of_lt hone)).ne'
      have hless := Nat.div_lt_self (Nat.pos_of_ne_zero hn) hone
      rw [Nat.toDigits_of_base_le hone hle, ← ih _ hless hdiv]
      rfl

/-- Only the numeral of zero begins with a zero. -/
theorem head_numeral_eq_zero_iff : (numeral base n).head? = some '0' ↔ n = 0 := by
  constructor
  · intro h
    by_contra hn
    have hzero : ∀ d < 16, Nat.digitChar d = '0' → d = 0 := by decide
    have hne : Nat.digits base n ≠ [] := Nat.digits_ne_nil_iff_ne_zero.2 hn
    rw [numeral_eq_digits hone hn, List.head?_map, List.head?_reverse,
      List.getLast?_eq_getLast_of_ne_nil hne, Option.map_some, Option.some.injEq] at h
    have hlast := Nat.digits_lt_base hone (List.getLast_mem hne)
    exact Nat.getLast_digit_ne_zero base hn (hzero _ (hlast.trans_le hbase) h)
  · rintro rfl
    rw [numeral, Nat.toDigits_zero]
    rfl

end Base

end Quorate.Text
