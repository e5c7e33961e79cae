import Quorate.Proofs.Sessions
import Quorate.Proofs.Stamp.Order

/-!
# What one operation does to the sessions

Pushes and reads of the inboxes apart, an operation registers a session, lets one see a version,
moves one, forgets one, or drops an inbox (`Sessions.Shift`). Two properties live with that.

The sessions are `Settled` in a roster if each of them has to reconnect or is connected to a
member. Every shift keeps that, and a push settles the sessions in what is pushed, wherever
they were (`settled_push`).

A session `Watches` if it is sent what is pushed. Its inbox grows by one notification with every
push that is no replay, and no shift that concerns another session makes a difference to it
(`Shift.watches`).
-/

namespace Quorate.Sessions

variable {r : Roster} {s s' : Sessions} {id j : SessionId} {x y : Session}
  {inbox : List Notification} {gone : Option SessionId}

/-- Every session has to reconnect or is connected to a member of a roster. -/
def Settled (r : Roster) (s : Sessions) : Prop :=
  ∀ id x, s.registered.get? id = some x → x.mustReconnect = true ∨ r.contains x.server = true

/-- A session is sent what is pushed, and its client has this in the inbox. -/
structure Watches (s : Sessions) (id : SessionId) (inbox : List Notification) : Prop where
  watching : (s.registered.get? id).any (·.watching) = true
  inbox_eq : s.inboxes.get? id = some inbox

/-- What happens to the sessions under a roster, apart from pushes. The session whose table entry
or inbox is gone afterwards, or is there anew, is named. -/
inductive Shift (r : Roster) (s : Sessions) : Option SessionId → Sessions → Prop
  | stay (gone : Option SessionId) : Shift r s gone s
  | register (id : SessionId) (server : ServerId) (observed : Version) (watch : Bool)
      (member : r.contains server = true) :
      Shift r s (some id) (s.register id server observed watch)
  | observe (gone : Option SessionId) {s' : Sessions} {id : SessionId} {version : Version}
      (observes : s.observe id version = .ok s') : Shift r s gone s'
  | reconnect (gone : Option SessionId) {s' : Sessions} {id : SessionId} {server : ServerId}
      (moves : s.reconnect id server r = .ok s') : Shift r s gone s'
  | close {s' : Sessions} (id : SessionId) (closes : s.close id = .ok s') :
      Shift r s (some id) s'
  | dropInbox (id : SessionId) : Shift r s (some id) (s.dropInbox id)

theorem settled_empty (r : Roster) : empty.Settled r := by
  intro id x hx
  rw [empty, Keyed.get?_empty] at hx
  cases hx

theorem Settled.insert (h : s.Settled r) (id : SessionId)
    (hx : x.mustReconnect = true ∨ r.contains x.server = true) :
    { s with registered := s.registered.insert id x }.Settled r := by
  intro j y hy
  rw [Keyed.get?_insert] at hy
  split at hy
  · cases hy
    exact hx
  · exact h j y hy

theorem settled_pushedTo (r : Roster) (reached : Bool) (x : Session) :
    (pushedTo r reached x).mustReconnect = true ∨
      r.contains (pushedTo r reached x).server = true := by
  rw [server_pushedTo]
  cases hmember : r.contains x.server with
  | false => exact Or.inl (by simp [pushedTo, Session.observe, apply_ite Session.server, hmember])
  | true => exact Or.inr rfl

theorem settled_push (hnew : s.notified < r.version) : (s.push r).Settled r := by
  intro id x hx
  rw [push, if_neg (not_le.2 hnew), Keyed.get?_map] at hx
  obtain ⟨before, _, rfl⟩ := Option.map_eq_some_iff.1 hx
  exact settled_pushedTo r (s.reaches id) before

theorem Shift.settled (h : Shift r s gone s') (hs : s.Settled r) : s'.Settled r := by
  cases h with
  | stay => exact hs
  | register id server observed watch member => exact hs.insert id (Or.inr member)
  | observe _ observes =>
      obtain ⟨x, hx, rfl⟩ := observe_eq_ok_iff.1 observes
      exact hs.insert _ (hs _ x (get_eq_ok_iff.1 hx))
  | reconnect _ moves =>
      obtain ⟨member, x, _, rfl⟩ := reconnect_eq_ok_iff.1 moves
      exact hs.insert _ (Or.inr member)
  | close id closes =>
      obtain ⟨_, rfl⟩ := close_eq_ok_iff.1 closes
      intro j y hy
      rw [Keyed.get?_erase] at hy
      split at hy
      · cases hy
      · exact hs j y hy
  | dropInbox id => exact hs

theorem notified_push (hnew : s.notified < r.version) : (s.push r).notified = r.version := by
  rw [push, if_neg (not_le.2 hnew)]

/-- A version that was pushed is not pushed again. -/
theorem push_eq_self (hold : r.version ≤ s.notified) : s.push r = s :=
  if_pos hold

theorem Shift.notified_eq (h : Shift r s gone s') : s'.notified = s.notified := by
  cases h with
  | stay => rfl
  | register => rfl
  | observe _ observes =>
      obtain ⟨x, _, rfl⟩ := observe_eq_ok_iff.1 observes
      rfl
  | reconnect _ moves =>
      obtain ⟨_, x, _, rfl⟩ := reconnect_eq_ok_iff.1 moves
      rfl
  | close id closes =>
      obtain ⟨_, rfl⟩ := close_eq_ok_iff.1 closes
      rfl
  | dropInbox id => rfl

theorem Watches.reaches (h : s.Watches id inbox) : s.reaches id = true := by
  rw [Sessions.reaches, h.watching, Keyed.contains, h.inbox_eq]
  rfl

theorem watches_register (s : Sessions) (id : SessionId) (server : ServerId)
    (observed : Version) : (s.register id server observed true).Watches id [] := by
  constructor
  · simp [register, Keyed.get?_insert]
  · simp [register, Keyed.get?_insert]

/-- Another session is put in the place of one that watches as well as that. -/
theorem Watches.insert (h : s.Watches id inbox) (hx : s.registered.get? j = some x)
    (hwatching : y.watching = x.watching) :
    { s with registered := s.registered.insert j y }.Watches id inbox := by
  refine ⟨?_, h.inbox_eq⟩
  have hwatches := h.watching
  rw [Keyed.get?_insert]
  split
  · rename_i hj
    rw [← hj, hx] at hwatches
    exact hwatching.trans hwatches
  · exact hwatches

theorem watching_pushedTo (r : Roster) (x : Session) :
    (pushedTo r true x).watching = x.watching := by
  simp only [pushedTo, if_true]
  split <;> rfl

theorem Watches.push (h : s.Watches id inbox) (hnew : s.notified < r.version) :
    (s.push r).Watches id (inbox ++ [r.notification]) := by
  have hreaches := h.reaches
  have hwatches := h.watching
  rw [Sessions.push, if_neg (not_le.2 hnew)]
  constructor
  · rw [Keyed.get?_map, hreaches, Option.any_map]
    simpa only [Function.comp_def, watching_pushedTo] using hwatches
  · rw [Keyed.get?_map, h.inbox_eq, hreaches]
    rfl

theorem Watches.drained (h : s.Watches id inbox) : s.drained.Watches id [] := by
  refine ⟨h.watching, ?_⟩
  rw [Sessions.drained, Keyed.get?_map, h.inbox_eq]
  rfl

/-- A session that watches is not disturbed by what happens to others. -/
theorem Shift.watches (h : Shift r s gone s') (hw : s.Watches id inbox) (hgone : gone ≠ some id) :
    s'.Watches id inbox := by
  cases h with
  | stay => exact hw
  | register j server observed watch member =>
      have hj : j ≠ id := fun heq => hgone (congrArg some heq)
      constructor
      · rw [Sessions.register, Keyed.get?_insert, if_neg hj]
        exact hw.watching
      · rw [Sessions.register]
        cases watch with
        | true => rw [if_pos rfl, Keyed.get?_insert, if_neg hj, hw.inbox_eq]
        | false => rw [if_neg Bool.false_ne_true, Keyed.get?_erase, if_neg hj, hw.inbox_eq]
  | observe _ observes =>
      obtain ⟨x, hx, rfl⟩ := observe_eq_ok_iff.1 observes
      exact hw.insert (get_eq_ok_iff.1 hx) rfl
  | reconnect _ moves =>
      obtain ⟨_, x, hx, rfl⟩ := reconnect_eq_ok_iff.1 moves
      exact hw.insert (get_eq_ok_iff.1 hx) rfl
  | close j closes =>
      have hj : j ≠ id := fun heq => hgone (congrArg some heq)
      obtain ⟨_, rfl⟩ := close_eq_ok_iff.1 closes
      refine ⟨?_, hw.inbox_eq⟩
      rw [Keyed.get?_erase, if_neg hj]
      exact hw.watching
  | dropInbox j =>
      have hj : j ≠ id := fun heq => hgone (congrArg some heq)
      refine ⟨hw.watching, ?_⟩
      rw [Sessions.dropInbox, Keyed.get?_erase, if_neg hj, hw.inbox_eq]

end Quorate.Sessions
