import Quorate.Proofs.Sessions.Delivery
import Quorate.Proofs.Stamp.Order

/-!
# What sessions have observed

`Sessions.Retains id s s'` says that the session `id` has not gone back from `s` to `s'`: if it
is registered in `s'`, then it was in `s`, and it has observed there at most what it has
observed since. A session only goes back when it is registered anew.

`Sessions.Behind v s` says that no session has observed more than a version. That is kept by
everything that shows the sessions no more than that.
-/

namespace Quorate.Sessions

variable {s s' s'' : Sessions} {id j : SessionId} {x y : Session}

/-- A session that is registered was registered before, and has observed no less since. -/
def Retains (id : SessionId) (s s' : Sessions) : Prop :=
  ∀ after, s'.registered.get? id = some after →
    ∃ before, s.registered.get? id = some before ∧ before.observed ≤ after.observed

theorem retains_of_eq (h : s'.registered = s.registered) : Retains id s s' :=
  fun after hafter => ⟨after, h ▸ hafter, le_refl _⟩

theorem Retains.trans (h : Retains id s s') (h' : Retains id s' s'') : Retains id s s'' := by
  intro after hafter
  obtain ⟨between, hbetween, hle'⟩ := h' after hafter
  obtain ⟨before, hbefore, hle⟩ := h between hbetween
  exact ⟨before, hbefore, hle.trans hle'⟩

theorem observed_le_observe (x : Session) (version : Version) :
    x.observed ≤ (x.observe version).observed :=
  le_max_left _ _

theorem le_observe (x : Session) (version : Version) : version ≤ (x.observe version).observed :=
  le_max_right _ _

/-- A push is observed by the sessions that it reaches and by those that must reconnect. -/
theorem observed_pushedTo (r : Roster) (reached : Bool) (x : Session) :
    (pushedTo r reached x).observed =
      if reached = true ∨ r.contains x.server = false then max x.observed r.version
      else x.observed := by
  cases reached <;> cases h : r.contains x.server <;> simp [pushedTo, Session.observe, h]

theorem observed_le_pushedTo (r : Roster) (reached : Bool) (x : Session) :
    x.observed ≤ (pushedTo r reached x).observed := by
  rw [observed_pushedTo]
  split
  · exact le_max_left _ _
  · exact le_refl _

theorem le_pushedTo_of_reached (r : Roster) (x : Session) :
    r.version ≤ (pushedTo r true x).observed := by
  rw [observed_pushedTo, if_pos (Or.inl rfl)]
  exact le_max_right _ _

/-- Another session is put in the place of one that has observed no more. -/
theorem retains_insert (hx : s.registered.get? j = some x) (hle : x.observed ≤ y.observed) :
    Retains id s { s with registered := s.registered.insert j y } := by
  intro after hafter
  rw [Keyed.get?_insert] at hafter
  split at hafter
  · rename_i hj
    cases hafter
    exact ⟨x, hj ▸ hx, hle⟩
  · exact ⟨after, hafter, le_refl _⟩

theorem retains_observe {version : Version} (h : s.observe j version = .ok s') :
    Retains id s s' := by
  obtain ⟨x, hx, rfl⟩ := observe_eq_ok_iff.1 h
  exact retains_insert (get_eq_ok_iff.1 hx) (observed_le_observe x version)

theorem retains_reconnect {server : ServerId} {r : Roster}
    (h : s.reconnect j server r = .ok s') : Retains id s s' := by
  obtain ⟨_, x, hx, rfl⟩ := reconnect_eq_ok_iff.1 h
  exact retains_insert (get_eq_ok_iff.1 hx) (le_refl _)

theorem retains_close (h : s.close j = .ok s') : Retains id s s' := by
  obtain ⟨_, rfl⟩ := close_eq_ok_iff.1 h
  intro after hafter
  rw [Keyed.get?_erase] at hafter
  split at hafter
  · cases hafter
  · exact ⟨after, hafter, le_refl _⟩

theorem retains_deliver (r : Roster) : Retains id s (s.deliver r j) := by
  intro after hafter
  rw [registered_deliver] at hafter
  split at hafter
  · obtain ⟨before, hbefore, rfl⟩ := Option.map_eq_some_iff.1 hafter
    exact ⟨before, hbefore, observed_le_pushedTo r _ before⟩
  · exact ⟨after, hafter, le_refl _⟩

/-- Another session is registered. -/
theorem retains_register (hne : j ≠ id) (server : ServerId) (observed : Version) (watch : Bool) :
    Retains id s (s.register j server observed watch) := by
  intro after hafter
  rw [register, Keyed.get?_insert, if_neg hne] at hafter
  exact ⟨after, hafter, le_refl _⟩

section Behind

variable {v : Version}

/-- No session has observed more than a version. -/
def Behind (v : Version) (s : Sessions) : Prop :=
  ∀ id x, s.registered.get? id = some x → x.observed ≤ v

theorem behind_empty (v : Version) : empty.Behind v := by
  intro id x hx
  rw [empty, Keyed.get?_empty] at hx
  cases hx

theorem Behind.mono (h : s.Behind v) {w : Version} (hle : v ≤ w) : s.Behind w :=
  fun id x hx => (h id x hx).trans hle

theorem Behind.insert (h : s.Behind v) (hx : x.observed ≤ v) :
    { s with registered := s.registered.insert id x }.Behind v := by
  intro i found hfound
  rw [Keyed.get?_insert] at hfound
  split at hfound
  · cases hfound
    exact hx
  · exact h i found hfound

theorem Behind.register (h : s.Behind v) {observed : Version} (hv : observed ≤ v)
    (server : ServerId) (watch : Bool) : (s.register id server observed watch).Behind v :=
  h.insert hv

theorem Behind.observe (h : s.Behind v) {version : Version} (hv : version ≤ v)
    (hs : s.observe id version = .ok s') : s'.Behind v := by
  obtain ⟨x, hx, rfl⟩ := observe_eq_ok_iff.1 hs
  exact h.insert (max_le (h id x (get_eq_ok_iff.1 hx)) hv)

theorem Behind.reconnect (h : s.Behind v) {server : ServerId} {r : Roster}
    (hs : s.reconnect id server r = .ok s') : s'.Behind v := by
  obtain ⟨_, x, hx, rfl⟩ := reconnect_eq_ok_iff.1 hs
  exact h.insert (h id x (get_eq_ok_iff.1 hx))

theorem Behind.close (h : s.Behind v) (hs : s.close id = .ok s') : s'.Behind v := by
  obtain ⟨_, rfl⟩ := close_eq_ok_iff.1 hs
  intro i x hx
  rw [Keyed.get?_erase] at hx
  split at hx
  · cases hx
  · exact h i x hx

theorem Behind.push (h : s.Behind v) {r : Roster} (hr : r.version ≤ v) : (s.push r).Behind v := by
  unfold Sessions.push
  split
  · exact h
  · intro i x hx
    rw [Keyed.get?_map] at hx
    obtain ⟨before, hbefore, rfl⟩ := Option.map_eq_some_iff.1 hx
    have hle := h i before hbefore
    rw [observed_pushedTo]
    split
    · exact max_le hle hr
    · exact hle

end Behind

end Quorate.Sessions
