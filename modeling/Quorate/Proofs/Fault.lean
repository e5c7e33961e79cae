import Quorate.Fault

/-!
# Results that may be faults

A computation that goes on with the result of another one succeeds exactly if both do, and
it fails with the fault of the first one that fails.
-/

namespace Quorate

variable {α β : Type} {x : Except Fault α} {f : α → Except Fault β}

theorem bind_eq_ok_iff {b : β} : (x >>= f) = .ok b ↔ ∃ a, x = .ok a ∧ f a = .ok b := by
  cases x with
  | error fault => simp [bind, Except.bind]
  | ok a => simp [bind, Except.bind]

theorem map_eq_ok_iff {g : α → β} {b : β} : x.map g = .ok b ↔ ∃ a, x = .ok a ∧ g a = b := by
  cases x with
  | error fault => simp [Except.map]
  | ok a => simp [Except.map]

theorem bind_eq_error_iff {fault : Fault} :
    (x >>= f) = .error fault ↔ x = .error fault ∨ ∃ a, x = .ok a ∧ f a = .error fault := by
  cases x with
  | error other => simp [bind, Except.bind]
  | ok a => simp [bind, Except.bind]

/-- Where every element of a list is to give a result, each result is that of an element. -/
theorem exists_of_mem_mapM {xs : List α} {ys : List β} (h : xs.mapM f = .ok ys) :
    ∀ y ∈ ys, ∃ x ∈ xs, f x = .ok y := by
  induction xs generalizing ys with
  | nil =>
      cases h
      exact fun y hy => absurd hy List.not_mem_nil
  | cons x xs ih =>
      rw [List.mapM_cons] at h
      obtain ⟨first, hfirst, h⟩ := bind_eq_ok_iff.1 h
      obtain ⟨rest, hrest, hok⟩ := bind_eq_ok_iff.1 h
      cases hok
      intro y hy
      rcases List.mem_cons.1 hy with rfl | hy
      · exact ⟨x, List.mem_cons_self, hfirst⟩
      · obtain ⟨z, hz, hzy⟩ := ih hrest y hy
        exact ⟨z, List.mem_cons_of_mem x hz, hzy⟩

theorem eq_nil_iff_of_mapM {xs : List α} {ys : List β} (h : xs.mapM f = .ok ys) :
    ys = [] ↔ xs = [] := by
  cases xs with
  | nil =>
      cases h
      exact iff_of_true rfl rfl
  | cons x xs =>
      rw [List.mapM_cons] at h
      obtain ⟨first, _, h⟩ := bind_eq_ok_iff.1 h
      obtain ⟨rest, _, hok⟩ := bind_eq_ok_iff.1 h
      cases hok
      exact iff_of_false (List.cons_ne_nil _ _) (List.cons_ne_nil _ _)

end Quorate
