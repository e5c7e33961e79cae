import Quorate.Text.Range

/-!
# Blank characters and trimming

A character is blank when Unicode gives it the property White_Space. Every piece
of text that is read is first trimmed of blanks at both ends, or a rule says that
it is not. `trim_eq_self_iff` says which texts trimming leaves alone.
-/

namespace Quorate.Text

/-- The characters with the Unicode property White_Space. -/
def blankRanges : List (Nat × Nat) :=
  [(0x9, 0xD), (0x20, 0x20), (0x85, 0x85), (0xA0, 0xA0), (0x1680, 0x1680),
   (0x2000, 0x200A), (0x2028, 0x2029), (0x202F, 0x202F), (0x205F, 0x205F),
   (0x3000, 0x3000)]

def isBlank (c : Char) : Bool :=
  inRanges blankRanges c

def trimLeft (cs : List Char) : List Char :=
  cs.dropWhile isBlank

def trimRight (cs : List Char) : List Char :=
  (cs.reverse.dropWhile isBlank).reverse

def trim (cs : List Char) : List Char :=
  trimRight (trimLeft cs)

@[simp] theorem trimLeft_nil : trimLeft [] = [] := rfl

@[simp] theorem trimRight_nil : trimRight [] = [] := rfl

theorem trimLeft_cons (c : Char) (cs : List Char) :
    trimLeft (c :: cs) = if isBlank c then trimLeft cs else c :: cs := by
  cases h : isBlank c <;> simp [trimLeft, List.dropWhile, h]

theorem trimLeft_eq_self_iff {cs : List Char} :
    trimLeft cs = cs ↔ ∀ c, cs.head? = some c → isBlank c = false := by
  cases cs with
  | nil => simp
  | cons c cs =>
    have hlen : (trimLeft cs).length ≤ cs.length :=
      (List.dropWhile_suffix isBlank).sublist.length_le
    cases h : isBlank c with
    | false => simp [trimLeft_cons, h]
    | true =>
      have : trimLeft cs ≠ c :: cs := fun he => by
        rw [he, List.length_cons] at hlen
        omega
      simp [trimLeft_cons, h, this]

theorem trimRight_eq_self_iff {cs : List Char} :
    trimRight cs = cs ↔ ∀ c, cs.getLast? = some c → isBlank c = false := by
  rw [← List.head?_reverse, ← trimLeft_eq_self_iff, trimRight, List.reverse_eq_iff]
  rfl

/-- Trimming leaves a text alone exactly if it neither begins nor ends with a blank. -/
theorem trim_eq_self_iff {cs : List Char} :
    trim cs = cs ↔ (∀ c, cs.head? = some c → isBlank c = false) ∧
      ∀ c, cs.getLast? = some c → isBlank c = false := by
  rw [← trimLeft_eq_self_iff, ← trimRight_eq_self_iff]
  constructor
  · intro h
    have hleft : (trimLeft cs).length ≤ cs.length :=
      (List.dropWhile_suffix isBlank).sublist.length_le
    have hright : (trim cs).length ≤ (trimLeft cs).length := by
      have := (List.dropWhile_suffix (l := (trimLeft cs).reverse) isBlank).sublist.length_le
      simpa [trim, trimRight] using this
    rw [h] at hright
    have heq : trimLeft cs = cs :=
      (List.dropWhile_suffix isBlank).eq_of_length (Nat.le_antisymm hleft hright)
    exact ⟨heq, by rw [trim, heq] at h; exact h⟩
  · rintro ⟨hl, hr⟩
    rw [trim, hl, hr]

end Quorate.Text
