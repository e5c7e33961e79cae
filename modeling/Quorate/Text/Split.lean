/-!
# Cutting a text at a separator

`splitOn` cuts at every separator, `splitFirst?` at the first and `splitLast?` at
the last one. `splitFirst?_eq_some_iff` and `splitLast?_eq_some_iff` say that
nothing of the text is lost.
-/

namespace Quorate.Text

/-- The pieces between the separators, one more than there are separators. -/
def splitOn (sep : Char) : List Char → List (List Char)
  | [] => [[]]
  | c :: cs =>
    if c = sep then [] :: splitOn sep cs
    else match splitOn sep cs with
      | [] => [[c]]
      | piece :: pieces => (c :: piece) :: pieces

def splitFirst? (sep : Char) : List Char → Option (List Char × List Char)
  | [] => none
  | c :: cs =>
    if c = sep then some ([], cs)
    else (splitFirst? sep cs).map fun (before, after) => (c :: before, after)

def splitLast? (sep : Char) : List Char → Option (List Char × List Char)
  | [] => none
  | c :: cs =>
    match splitLast? sep cs with
    | some (before, after) => some (c :: before, after)
    | none => if c = sep then some ([], cs) else none

def join (sep : Char) : List (List Char) → List Char
  | [] => []
  | [piece] => piece
  | piece :: pieces => piece ++ sep :: join sep pieces

def stripLead? : List Char → List Char → Option (List Char)
  | [], cs => some cs
  | _ :: _, [] => none
  | l :: lead, c :: cs => if l = c then stripLead? lead cs else none

/-- A text without `lead` at its front, or the text itself if it begins otherwise. -/
def withoutLead (lead cs : List Char) : List Char :=
  (stripLead? lead cs).getD cs

theorem splitOn_ne_nil (sep : Char) (cs : List Char) : splitOn sep cs ≠ [] := by
  induction cs with
  | nil => simp [splitOn]
  | cons c cs ih =>
    by_cases h : c = sep
    · simp [splitOn, h]
    · cases hp : splitOn sep cs <;> simp [splitOn, h, hp]

theorem join_cons_cons (sep : Char) (piece next : List Char) (pieces : List (List Char)) :
    join sep (piece :: next :: pieces) = piece ++ sep :: join sep (next :: pieces) := rfl

theorem splitFirst?_eq_some_iff {sep : Char} {cs before after : List Char} :
    splitFirst? sep cs = some (before, after) ↔ cs = before ++ sep :: after ∧ sep ∉ before := by
  induction cs generalizing before with
  | nil => simp [splitFirst?]
  | cons c cs ih =>
    by_cases h : c = sep
    · cases before <;> simp [splitFirst?, h]
      grind
    · have h' : sep ≠ c := Ne.symm h
      cases before with
      | nil => simp [splitFirst?, h]
      | cons b bs =>
        have := @ih bs
        simp [splitFirst?, h]
        grind

theorem splitLast?_eq_none_iff {sep : Char} {cs : List Char} :
    splitLast? sep cs = none ↔ sep ∉ cs := by
  induction cs with
  | nil => simp [splitLast?]
  | cons c cs ih =>
    cases hp : splitLast? sep cs with
    | none =>
      by_cases h : c = sep
      · simp [splitLast?, hp, h]
      · simp [splitLast?, hp, h, ih.1 hp, Ne.symm h]
    | some p =>
      have : sep ∈ cs := Decidable.byContradiction fun hn => by simp [ih.2 hn] at hp
      simp [splitLast?, hp, this]

theorem splitLast?_eq_some_iff {sep : Char} {cs before after : List Char} :
    splitLast? sep cs = some (before, after) ↔ cs = before ++ sep :: after ∧ sep ∉ after := by
  induction cs generalizing before with
  | nil => simp [splitLast?]
  | cons c cs ih =>
    cases hp : splitLast? sep cs with
    | none =>
      have hn := splitLast?_eq_none_iff.1 hp
      by_cases h : c = sep <;> cases before <;> simp [splitLast?, hp, h] <;> grind
    | some p =>
      obtain ⟨x, y⟩ := p
      have hm : sep ∈ cs := Decidable.byContradiction fun hn => by
        simp [splitLast?_eq_none_iff.2 hn] at hp
      cases before with
      | nil => simp [splitLast?, hp]; grind
      | cons b bs =>
        have := @ih bs
        simp only [hp, Option.some.injEq, Prod.mk.injEq] at this
        simp [splitLast?, hp]
        grind

end Quorate.Text
