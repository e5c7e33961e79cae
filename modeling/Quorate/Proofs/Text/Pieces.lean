import Mathlib.Data.List.Infix
import Mathlib.Data.List.TakeWhile
import Quorate.Text.Blank
import Quorate.Text.Split

/-!
# Pieces of a text

A text that is put together from pieces without the separator is cut into these pieces again
(`splitOn_append`, `splitOn_of_not_mem`, `splitOn_join`), and the pieces of any text are without
it and hold none but its characters. What is left after trimming neither begins nor ends with a
blank (`head_trim`, `last_trim`), and trimming it once more leaves it alone (`trim_trim`), also
with blanks put around it again (`trim_blanks`, `exists_blanks`).
-/

namespace Quorate.Text

section Split

variable {sep : Char} {cs xs ys piece lead rest : List Char} {pieces : List (List Char)}

theorem splitOn_of_not_mem (h : sep ∉ cs) : splitOn sep cs = [cs] := by
  induction cs with
  | nil => rfl
  | cons c cs ih =>
      obtain ⟨hc, hcs⟩ := not_or.1 (fun hor => h (List.mem_cons.2 hor))
      rw [splitOn, if_neg (Ne.symm hc), ih hcs]

theorem splitOn_append (h : sep ∉ xs) : splitOn sep (xs ++ sep :: ys) = xs :: splitOn sep ys := by
  induction xs with
  | nil => exact if_pos rfl
  | cons x xs ih =>
      obtain ⟨hx, hxs⟩ := not_or.1 (fun hor => h (List.mem_cons.2 hor))
      rw [List.cons_append, splitOn, if_neg (Ne.symm hx), ih hxs]

/-- Pieces without the separator are what their join is cut into. -/
theorem splitOn_join (hne : pieces ≠ []) (h : ∀ piece ∈ pieces, sep ∉ piece) :
    splitOn sep (join sep pieces) = pieces := by
  induction pieces with
  | nil => exact absurd rfl hne
  | cons piece pieces ih =>
      obtain ⟨hpiece, hpieces⟩ := List.forall_mem_cons.1 h
      cases pieces with
      | nil => exact splitOn_of_not_mem hpiece
      | cons next pieces =>
          rw [join_cons_cons, splitOn_append hpiece, ih (List.cons_ne_nil _ _) hpieces]

theorem splitOn_cons (sep c : Char) (cs : List Char) :
    ∃ piece pieces, splitOn sep cs = piece :: pieces ∧
      splitOn sep (c :: cs) =
        if c = sep then [] :: piece :: pieces else (c :: piece) :: pieces := by
  obtain ⟨piece, pieces, heq⟩ := List.exists_cons_of_ne_nil (splitOn_ne_nil sep cs)
  exact ⟨piece, pieces, heq, by rw [splitOn, heq]⟩

theorem mem_of_mem_splitOn (h : piece ∈ splitOn sep cs) {c : Char} (hc : c ∈ piece) :
    c ∈ cs ∧ c ≠ sep := by
  induction cs generalizing piece with
  | nil =>
      rw [List.mem_singleton.1 h] at hc
      cases hc
  | cons x cs ih =>
      obtain ⟨first, pieces, heq, hcons⟩ := splitOn_cons sep x cs
      rw [hcons] at h
      rw [heq] at ih
      have hrest : ∀ {p}, p ∈ first :: pieces → c ∈ p → c ∈ x :: cs ∧ c ≠ sep := fun hp hcp =>
        ⟨List.mem_cons_of_mem x (ih hp hcp).1, (ih hp hcp).2⟩
      split at h
      · rcases List.mem_cons.1 h with rfl | h
        · cases hc
        · exact hrest h hc
      · rename_i hx
        rcases List.mem_cons.1 h with rfl | h
        · rcases List.mem_cons.1 hc with rfl | hc
          · exact ⟨List.mem_cons_self, hx⟩
          · exact hrest List.mem_cons_self hc
        · exact hrest (List.mem_cons_of_mem first h) hc

/-- Nothing but separators is lost. -/
theorem exists_mem_splitOn {c : Char} (h : c ∈ cs) (hc : c ≠ sep) :
    ∃ piece ∈ splitOn sep cs, c ∈ piece := by
  induction cs with
  | nil => cases h
  | cons x cs ih =>
      obtain ⟨first, pieces, heq, hcons⟩ := splitOn_cons sep x cs
      rw [heq] at ih
      rw [hcons]
      rcases List.mem_cons.1 h with rfl | h
      · rw [if_neg hc]
        exact ⟨_, List.mem_cons_self, List.mem_cons_self⟩
      obtain ⟨piece, hpiece, hmem⟩ := ih h
      split
      · exact ⟨piece, List.mem_cons_of_mem _ hpiece, hmem⟩
      · rcases List.mem_cons.1 hpiece with rfl | hpiece
        · exact ⟨_, List.mem_cons_self, List.mem_cons_of_mem x hmem⟩
        · exact ⟨piece, List.mem_cons_of_mem _ hpiece, hmem⟩

theorem stripLead?_eq_some_iff : stripLead? lead cs = some rest ↔ cs = lead ++ rest := by
  induction lead generalizing cs with
  | nil => simp [stripLead?]
  | cons l lead ih =>
      cases cs with
      | nil => simp [stripLead?]
      | cons c cs =>
          rw [stripLead?, List.cons_append, List.cons.injEq]
          by_cases hc : l = c
          · simp [hc, ih]
          · simp [hc, Ne.symm hc]

theorem withoutLead_append : withoutLead lead (lead ++ rest) = rest := by
  rw [withoutLead, stripLead?_eq_some_iff.2 rfl]
  rfl

/-- A text that does not begin with the lead is left alone. -/
theorem withoutLead_of_not_lead (h : ¬ lead <+: cs) : withoutLead lead cs = cs := by
  rw [withoutLead]
  cases hstrip : stripLead? lead cs with
  | none => rfl
  | some rest => exact absurd ⟨rest, (stripLead?_eq_some_iff.1 hstrip).symm⟩ h

end Split

section Trim

variable {cs : List Char} {c : Char}

theorem trimRight_front (cs : List Char) : trimRight cs <+: cs := by
  rw [trimRight, ← List.reverse_suffix, List.reverse_reverse]
  exact List.dropWhile_suffix _

theorem mem_of_mem_trim (h : c ∈ trim cs) : c ∈ cs :=
  (List.dropWhile_suffix _).subset ((trimRight_front _).subset h)

theorem head_trimLeft (h : (trimLeft cs).head? = some c) : isBlank c = false := by
  have hnot := List.head?_dropWhile_not isBlank cs
  rw [← trimLeft, h] at hnot
  exact hnot

theorem head_trim (h : (trim cs).head? = some c) : isBlank c = false := by
  obtain ⟨more, heq⟩ := trimRight_front (trimLeft cs)
  obtain ⟨xs, hxs⟩ := List.head?_eq_some_iff.1 h
  have hleft : (trimLeft cs).head? = some c := by
    rw [← heq, ← trim, hxs]
    rfl
  exact head_trimLeft hleft

theorem last_trim (h : (trim cs).getLast? = some c) : isBlank c = false := by
  rw [trim, trimRight, List.getLast?_reverse] at h
  exact head_trimLeft h

theorem trim_trim (cs : List Char) : trim (trim cs) = trim cs :=
  trim_eq_self_iff.2 ⟨fun _ => head_trim, fun _ => last_trim⟩

/-- Trimming leaves nothing of blanks, and of blanks alone. -/
theorem trim_eq_nil_iff : trim cs = [] ↔ ∀ c ∈ cs, isBlank c = true := by
  constructor
  · intro h
    rw [trim, trimRight, List.reverse_eq_nil_iff, List.dropWhile_eq_nil_iff] at h
    have hleft : trimLeft cs = [] := by
      cases hrest : trimLeft cs with
      | nil => rfl
      | cons c rest =>
          have hblank := h c (by simp [hrest])
          rw [head_trimLeft (by rw [hrest]; rfl)] at hblank
          cases hblank
    exact List.dropWhile_eq_nil_iff.1 hleft
  · intro h
    rw [trim, trimLeft, List.dropWhile_eq_nil_iff.2 h, trimRight_nil]

theorem trimLeft_of_trim (h : trim cs = cs) : trimLeft cs = cs :=
  trimLeft_eq_self_iff.2 (trim_eq_self_iff.1 h).1

/-- What follows a text that begins with no blank does not change that. -/
theorem trimLeft_append (hne : cs ≠ []) (h : trimLeft cs = cs) (more : List Char) :
    trimLeft (cs ++ more) = cs ++ more := by
  refine trimLeft_eq_self_iff.2 fun c hc => trimLeft_eq_self_iff.1 h c ?_
  rwa [List.head?_append_of_ne_nil _ hne] at hc

theorem trimRight_append_blank {after : List Char} (h : ∀ c ∈ after, isBlank c = true)
    (cs : List Char) : trimRight (cs ++ after) = trimRight cs := by
  rw [trimRight, List.reverse_append,
    List.dropWhile_append_of_pos fun c hc => h c (List.mem_reverse.1 hc)]
  rfl

/-- Blanks around a text are trimmed with those of the text itself. -/
theorem trim_blanks {before after : List Char} (hbefore : ∀ c ∈ before, isBlank c = true)
    (hafter : ∀ c ∈ after, isBlank c = true) (cs : List Char) :
    trim (before ++ cs ++ after) = trim cs := by
  have hfront : trimLeft (before ++ cs ++ after) = trimLeft (cs ++ after) := by
    rw [trimLeft, List.append_assoc, List.dropWhile_append_of_pos hbefore]
    rfl
  rw [trim, hfront, trimLeft, List.dropWhile_append, ← trimLeft, ← trimLeft]
  split
  · rename_i hnil
    rw [List.isEmpty_iff] at hnil
    rw [trim, hnil, trimLeft, List.dropWhile_eq_nil_iff.2 hafter]
  · exact trimRight_append_blank hafter _

/-- A text is what trimming leaves of it, with blanks around. -/
theorem exists_blanks (cs : List Char) :
    ∃ before after, (∀ c ∈ before, isBlank c = true) ∧ (∀ c ∈ after, isBlank c = true) ∧
      cs = before ++ trim cs ++ after := by
  refine ⟨cs.takeWhile isBlank, ((trimLeft cs).reverse.takeWhile isBlank).reverse,
    fun c hc => List.mem_takeWhile_imp hc,
    fun c hc => List.mem_takeWhile_imp (List.mem_reverse.1 hc), ?_⟩
  have hback : trim cs ++ ((trimLeft cs).reverse.takeWhile isBlank).reverse = trimLeft cs := by
    rw [trim, trimRight, ← List.reverse_append, List.takeWhile_append_dropWhile,
      List.reverse_reverse]
  rw [List.append_assoc, hback]
  exact List.takeWhile_append_dropWhile.symm

end Trim

end Quorate.Text
