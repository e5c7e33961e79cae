import Quorate.Schedule

/-!
# Calls that nothing comes in between

`Progress.burst step limit` lets a call step until it is done or has to wait, for `limit`
steps at most, which is what a schedule does when it polls a call (`Item.burst_ofProgress`).
`Leads step n p q` says that `n` steps lead from `p` to `q`. Such stretches are put together
by `Leads.trans`, and one that ends with a result is what a burst comes to
(`burst_eq_of_leads`). A call that hands its steps on to another one gets as far as that
(`Leads.within`), and one that is only the shape of another one bursts like it
(`burst_bimap`).
-/

namespace Quorate

namespace Progress

variable {σ τ α β ω ψ : Type}

/-- Up to `limit` steps of a call, until it is done or must wait. -/
def burst (step : σ → ω → Option (Progress σ α × ω)) : Nat → Progress σ α × ω → Progress σ α × ω
  | 0, p => p
  | limit + 1, (.going c, w) =>
    match step c w with
    | none => (.going c, w)
    | some p => burst step limit p
  | _ + 1, p => p

/-- So many steps lead from one progress to another. -/
inductive Leads (step : σ → ω → Option (Progress σ α × ω)) :
    Nat → Progress σ α × ω → Progress σ α × ω → Prop
  | here (p : Progress σ α × ω) : Leads step 0 p p
  | next {c : σ} {w : ω} {n : Nat} {p q : Progress σ α × ω} :
      step c w = some p → Leads step n p q → Leads step (n + 1) (.going c, w) q

variable {step : σ → ω → Option (Progress σ α × ω)} {m n limit : Nat}
  {p q r : Progress σ α × ω}

theorem leads_one {c : σ} {w : ω} (h : step c w = some p) : Leads step 1 (.going c, w) p :=
  .next h (.here p)

theorem Leads.trans (h : Leads step m p q) (h' : Leads step n q r) : Leads step (m + n) p r := by
  induction h with
  | here p =>
      rw [Nat.zero_add]
      exact h'
  | next hstep _ ih =>
      rw [Nat.succ_add]
      exact .next hstep (ih h')

/-- What every step keeps is kept on the way from one progress to another. -/
theorem Leads.invariant (h : Leads step n p q) (holds : Progress σ α → ω → Prop)
    (hstep : ∀ c w r, holds (.going c) w → step c w = some r → holds r.1 r.2)
    (hfirst : holds p.1 p.2) : holds q.1 q.2 := by
  induction h with
  | here _ => exact hfirst
  | next hnext _ ih => exact ih (hstep _ _ _ hfirst hnext)

/-- What a call makes of a step of the call that it hands its steps on to. -/
def handOn (wrap : σ → τ) (finish : α → ω → Progress τ β × ω) :
    Progress σ α × ω → Progress τ β × ω
  | (.going c, w) => (.going (wrap c), w)
  | (.done result, w) => finish result w

/-- A call that hands its steps on to another one, and then goes on with the result of that. -/
theorem Leads.within {step' : τ → ω → Option (Progress τ β × ω)} {wrap : σ → τ}
    {finish : α → ω → Progress τ β × ω}
    (hstep : ∀ c w, step' (wrap c) w = (step c w).map (handOn wrap finish))
    {c : σ} {w w' : ω} {result : α} (h : Leads step n (.going c, w) (.done result, w')) :
    Leads step' n (.going (wrap c), w) (finish result w') := by
  generalize hp : ((.going c, w) : Progress σ α × ω) = p at h
  generalize hq : ((.done result, w') : Progress σ α × ω) = q at h
  induction h generalizing c w with
  | here _ => cases hp.trans hq.symm
  | @next d v n p q hnext hrest ih =>
      cases hp
      obtain ⟨progress, v'⟩ := p
      have hfirst := hstep d v
      rw [hnext] at hfirst
      cases progress with
      | going d => exact .next hfirst (ih rfl hq)
      | done answer =>
          cases hrest
          cases hq
          exact leads_one hfirst

/-- Whoever comes to a result has nothing left but to come to it. -/
theorem Leads.rest {result : α} {w : ω} (h : Leads step m p (.done result, w))
    (h' : Leads step n p q) : ∃ k, Leads step k q (.done result, w) := by
  induction h' generalizing m with
  | here _ => exact ⟨m, h⟩
  | next hstep _ ih =>
      cases h with
      | next hstep' hrest =>
          cases hstep.symm.trans hstep'
          exact ih hrest

theorem Leads.eq_of_done {result : α} {w : ω} (h : Leads step n (.done result, w) q) :
    q = (.done result, w) := by
  cases h
  rfl

/-- A result is come to in one way. -/
theorem Leads.unique {result answer : α} {w w' : ω} (h : Leads step m p (.done result, w))
    (h' : Leads step n p (.done answer, w')) : result = answer ∧ w = w' := by
  obtain ⟨_, hrest⟩ := h.rest h'
  cases hrest.eq_of_done
  exact ⟨rfl, rfl⟩

theorem Leads.not_waits {c : σ} {w w' : ω} {result : α}
    (h : Leads step n (.going c, w) (.done result, w')) : step c w ≠ none := by
  cases h with
  | next hstep _ =>
      rw [hstep]
      exact Option.some_ne_none _

/-- What a call comes to that hands its steps on to another one is what it makes of the result
of that. -/
theorem Leads.unwrap {step' : τ → ω → Option (Progress τ β × ω)} {wrap : σ → τ}
    {finish : α → ω → Progress τ β × ω}
    (hstep : ∀ c w, step' (wrap c) w = (step c w).map (handOn wrap finish))
    {c : σ} {w w' : ω} {answer : β} (h : Leads step' n (.going (wrap c), w) (.done answer, w')) :
    ∃ m k result v, Leads step m (.going c, w) (.done result, v) ∧
      Leads step' k (finish result v) (.done answer, w') := by
  generalize hp : ((.going (wrap c), w) : Progress τ β × ω) = p at h
  generalize hq : ((.done answer, w') : Progress τ β × ω) = q at h
  induction h generalizing c w with
  | here _ => cases hp.trans hq.symm
  | @next d v n p q hnext hrest ih =>
      cases hp
      rw [hstep] at hnext
      obtain ⟨⟨progress, v'⟩, hfirst, heq⟩ := Option.map_eq_some_iff.1 hnext
      cases progress with
      | going d =>
          obtain ⟨m, k, result, u, hleads, hfinish⟩ := ih heq hq
          exact ⟨m + 1, k, result, u, .next hfirst hleads, hfinish⟩
      | done result =>
          cases heq
          cases hq
          exact ⟨1, n, result, v', leads_one hfirst, hrest⟩

theorem burst_done (step : σ → ω → Option (Progress σ α × ω)) (limit : Nat) (result : α) (w : ω) :
    burst step limit (.done result, w) = (.done result, w) := by
  cases limit <;> rfl

theorem burst_eq_of_leads {result : α} {w : ω} (h : Leads step n p (.done result, w))
    (hn : n ≤ limit) : burst step limit p = (.done result, w) := by
  generalize hq : (Progress.done result, w) = q at h
  induction h generalizing limit with
  | here _ => exact hq ▸ burst_done step limit result w
  | next hstep _ ih =>
      obtain ⟨limit, rfl⟩ := Nat.exists_eq_add_of_lt (Nat.lt_of_lt_of_le (Nat.succ_pos _) hn)
      rw [Nat.zero_add] at hn ⊢
      rw [burst, hstep]
      exact ih (Nat.le_of_succ_le_succ hn) hq

theorem exists_leads_of_burst {result : α} {w : ω}
    (h : burst step limit p = (.done result, w)) : ∃ n, Leads step n p (.done result, w) := by
  induction limit generalizing p with
  | zero => exact ⟨0, h ▸ .here _⟩
  | succ limit ih =>
      obtain ⟨progress, v⟩ := p
      cases progress with
      | done answer =>
          cases h
          exact ⟨0, .here _⟩
      | going c =>
          rw [burst] at h
          split at h
          · cases h
          · rename_i p hstep
            obtain ⟨n, hleads⟩ := ih h
            exact ⟨n + 1, .next hstep hleads⟩

/-- A call in another shape, in a world that holds more, comes as far. -/
theorem burst_bimap {step' : τ → ψ → Option (Progress τ β × ψ)} {f : σ → τ} {g : α → β}
    {i : ω → ψ}
    (h : ∀ c w, step' (f c) (i w) = (step c w).map fun p => (p.1.bimap f g, i p.2))
    (limit : Nat) (p : Progress σ α × ω) :
    burst step' limit (p.1.bimap f g, i p.2) =
      ((burst step limit p).1.bimap f g, i (burst step limit p).2) := by
  induction limit generalizing p with
  | zero => rfl
  | succ limit ih =>
      obtain ⟨progress, w⟩ := p
      cases progress with
      | done result => rfl
      | going c =>
          simp only [bimap, burst, h]
          cases step c w with
          | none => rfl
          | some p => exact ih p

end Progress

theorem Item.burst_ofProgress {ω κ σ α : Type} [World ω κ σ α] (now limit : Nat)
    (p : Progress σ α × ω) :
    Item.burst now limit p.2 (.ofProgress p.1 : Item κ σ α) =
      (.ofProgress (Progress.burst (World.resume now) limit p).1,
        (Progress.burst (World.resume now) limit p).2) := by
  induction limit generalizing p with
  | zero => rfl
  | succ limit ih =>
      obtain ⟨progress, w⟩ := p
      cases progress with
      | done answer => rfl
      | going call =>
          simp only [Item.ofProgress, Item.burst, Item.step, Progress.burst]
          cases World.resume now call w with
          | none => rfl
          | some p => exact ih p

end Quorate
