import Mathlib.Data.List.Induction

/-!
# States that runs come to

`Reaches step bound first s` says that some run comes from `first` to `s` by steps and
leaves `bound` at no state on the way. What holds of the first state and is
kept by every step from within the bound holds of all such states (`Reaches.invariant`),
and a run that is given by a list of actions is checked state by state (`reaches_foldl`).

What is kept by every step and comes about by some of them only has come about by one of
those (`foldl_iff_exists`).
-/

namespace Quorate

variable {σ α : Type}

inductive Reaches (step : σ → α → σ) (bound : σ → Prop) (first : σ) : σ → Prop
  | first : bound first → Reaches step bound first first
  | step {s : σ} (a : α) : Reaches step bound first s → bound (step s a) →
      Reaches step bound first (step s a)

variable {step : σ → α → σ} {bound : σ → Prop} {first s : σ}

theorem Reaches.within (h : Reaches step bound first s) : bound s := by
  cases h with
  | first hw => exact hw
  | step _ _ hw => exact hw

theorem Reaches.first_within (h : Reaches step bound first s) : bound first := by
  induction h with
  | first hw => exact hw
  | step _ _ _ ih => exact ih

/-- A step is taken from within the bound to within the bound. -/
theorem Reaches.invariant_within (holds : σ → Prop) (hfirst : holds first)
    (hstep : ∀ s a, bound s → bound (step s a) → holds s → holds (step s a))
    (h : Reaches step bound first s) : holds s := by
  induction h with
  | first _ => exact hfirst
  | step a hs hbound ih => exact hstep _ a hs.within hbound ih

theorem Reaches.invariant (holds : σ → Prop) (hfirst : holds first)
    (hstep : ∀ s a, bound s → holds s → holds (step s a))
    (h : Reaches step bound first s) : holds s :=
  h.invariant_within holds hfirst fun s a hbound _ => hstep s a hbound

theorem Reaches.mono {bound' : σ → Prop} (h : Reaches step bound first s)
    (hbound : ∀ s, bound s → bound' s) : Reaches step bound' first s := by
  induction h with
  | first hw => exact .first (hbound _ hw)
  | step a _ hw ih => exact ih.step a (hbound _ hw)

theorem reaches_foldl (actions : List α)
    (h : ∀ k ≤ actions.length, bound ((actions.take k).foldl step first)) :
    Reaches step bound first (actions.foldl step first) := by
  induction actions using List.reverseRecOn with
  | nil => exact .first (h 0 (Nat.le_refl _))
  | append_singleton actions action ih =>
      have hinit : Reaches step bound first (actions.foldl step first) := by
        apply ih
        intro k hk
        have hbound := h k (Nat.le_trans hk (by simp))
        rwa [List.take_append_of_le_length hk] at hbound
      have hlast := h _ (Nat.le_refl _)
      rw [List.take_length, List.foldl_append] at hlast
      rw [List.foldl_append]
      exact hinit.step action hlast

theorem foldl_iff_exists (holds : σ → Prop) (brings : σ → α → Prop) (hfirst : ¬ holds first)
    (actions : List α)
    (hstep : ∀ k a, actions[k]? = some a →
      (holds (step ((actions.take k).foldl step first) a) ↔
        holds ((actions.take k).foldl step first) ∨
          brings ((actions.take k).foldl step first) a)) :
    holds (actions.foldl step first) ↔
      ∃ k a, actions[k]? = some a ∧ brings ((actions.take k).foldl step first) a := by
  induction actions using List.reverseRecOn with
  | nil => exact iff_of_false hfirst fun ⟨_, _, h, _⟩ => by cases h
  | append_singleton actions action ih =>
      have htake {k : Nat} (hk : k < actions.length) :
          (actions ++ [action])[k]? = actions[k]? ∧
            (actions ++ [action]).take k = actions.take k :=
        ⟨List.getElem?_append_left hk, List.take_append_of_le_length (Nat.le_of_lt hk)⟩
      have hlast := hstep actions.length action (by simp)
      rw [List.take_left' rfl] at hlast
      rw [List.foldl_append, List.foldl_cons, List.foldl_nil, hlast, ih fun k a hk => by
        obtain ⟨hget, hsame⟩ := htake (List.getElem?_eq_some_iff.1 hk).1
        have h := hstep k a (hget.trans hk)
        rwa [hsame] at h]
      constructor
      · rintro (⟨k, a, hk, hbrings⟩ | hbrings)
        · obtain ⟨hget, hsame⟩ := htake (List.getElem?_eq_some_iff.1 hk).1
          exact ⟨k, a, hget.trans hk, hsame.symm ▸ hbrings⟩
        · exact ⟨actions.length, action, by simp, by rwa [List.take_left' rfl]⟩
      · rintro ⟨k, a, hk, hbrings⟩
        rcases Nat.lt_or_ge k actions.length with hlt | hge
        · obtain ⟨hget, hsame⟩ := htake hlt
          exact Or.inl ⟨k, a, hget.symm.trans hk, hsame ▸ hbrings⟩
        · have hlength := (List.getElem?_eq_some_iff.1 hk).1
          obtain rfl : k = actions.length := by
            rw [List.length_append, List.length_singleton] at hlength
            omega
          rw [List.getElem?_concat_length, Option.some.injEq] at hk
          rw [List.take_left' rfl, ← hk] at hbrings
          exact Or.inr hbrings

end Quorate
