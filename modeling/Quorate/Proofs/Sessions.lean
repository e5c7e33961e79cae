import Quorate.Proofs.Fault
import Quorate.Sessions

/-!
# Where sessions are connected

`Sessions.At P s` says that every registered session is connected to a server that `P` holds
of. A session is connected anew when it is registered and when it reconnects; whatever else
happens to it leaves it where it is.
-/

namespace Quorate.Sessions

variable {P Q : ServerId → Prop} {s s' : Sessions} {id : SessionId}

/-- Every session is connected to one of these servers. -/
def At (P : ServerId → Prop) (s : Sessions) : Prop :=
  ∀ id session, s.registered.get? id = some session → P session.server

theorem get_eq_ok_iff {session : Session} :
    s.get id = .ok session ↔ s.registered.get? id = some session := by
  rw [get]
  cases s.registered.get? id <;> simp

theorem At.mono (h : s.At P) (hPQ : ∀ id, P id → Q id) : s.At Q :=
  fun id session hs => hPQ _ (h id session hs)

theorem at_empty (P : ServerId → Prop) : empty.At P := by
  intro id session h
  rw [empty, Keyed.get?_empty] at h
  cases h

theorem At.insert (h : s.At P) {id : SessionId} (session : Session) (hP : P session.server) :
    { s with registered := s.registered.insert id session }.At P := by
  intro j found hj
  rw [Keyed.get?_insert] at hj
  split at hj
  · cases hj
    exact hP
  · exact h j found hj

theorem At.register (h : s.At P) {server : ServerId} (hP : P server) (observed : Version)
    (watch : Bool) : (s.register id server observed watch).At P :=
  h.insert _ hP

theorem server_pushedTo (r : Roster) (reached : Bool) (session : Session) :
    (pushedTo r reached session).server = session.server := by
  cases reached <;> cases h : r.contains session.server <;> simp [pushedTo, Session.observe, h]

theorem At.push (h : s.At P) (r : Roster) : (s.push r).At P := by
  unfold Sessions.push
  split
  · exact h
  · intro j session hj
    rw [Keyed.get?_map] at hj
    obtain ⟨before, hbefore, rfl⟩ := Option.map_eq_some_iff.1 hj
    rw [server_pushedTo]
    exact h j before hbefore

theorem observe_eq_ok_iff {version : Version} :
    s.observe id version = .ok s' ↔ ∃ session, s.get id = .ok session ∧
      s' = { s with registered := s.registered.insert id (session.observe version) } := by
  rw [observe]
  cases s.get id with
  | error fault => simp [bind, Except.bind]
  | ok session => simp [bind, Except.bind, pure, Except.pure, eq_comm]

theorem At.observe (h : s.At P) {version : Version} (hs : s.observe id version = .ok s') :
    s'.At P := by
  obtain ⟨session, hget, rfl⟩ := observe_eq_ok_iff.1 hs
  exact h.insert (session.observe version) (h id session (get_eq_ok_iff.1 hget))

theorem close_eq_ok_iff : s.close id = .ok s' ↔ (∃ session, s.get id = .ok session) ∧
    s' = { s with registered := s.registered.erase id } := by
  rw [Sessions.close, bind_eq_ok_iff]
  simp [pure, Except.pure, eq_comm]

theorem At.close (h : s.At P) (hs : s.close id = .ok s') : s'.At P := by
  obtain ⟨_, rfl⟩ := close_eq_ok_iff.1 hs
  intro j found hj
  rw [Keyed.get?_erase] at hj
  split at hj
  · cases hj
  · exact h j found hj

theorem reconnect_eq_ok_iff {server : ServerId} {r : Roster} :
    s.reconnect id server r = .ok s' ↔ r.contains server = true ∧
      ∃ session, s.get id = .ok session ∧ s' = { s with
        registered := s.registered.insert id { session with server, mustReconnect := false } } := by
  rw [Sessions.reconnect]
  split
  · rename_i hmember
    rw [bind_eq_ok_iff]
    simp [hmember, pure, Except.pure, eq_comm]
  · rename_i hnot
    simp [hnot]

theorem At.reconnect (h : s.At P) {server : ServerId} (hP : P server) {r : Roster}
    (hs : s.reconnect id server r = .ok s') : s'.At P := by
  obtain ⟨_, session, _, rfl⟩ := reconnect_eq_ok_iff.1 hs
  exact h.insert { session with server, mustReconnect := false } hP

/-- A session that is registered stays so when a roster is pushed. -/
theorem exists_get_push {session : Session} (h : s.get id = .ok session) (r : Roster) :
    ∃ pushed, (s.push r).get id = .ok pushed := by
  unfold Sessions.push
  split
  · exact ⟨session, h⟩
  · refine ⟨pushedTo r (s.reaches id) session, get_eq_ok_iff.2 ?_⟩
    rw [Keyed.get?_map, get_eq_ok_iff.1 h]
    rfl

/-- A push sends an inbox one notification at most, that of the roster pushed. -/
theorem inbox_push {r : Roster} {inbox : List Notification}
    (h : (s.push r).inboxes.get? id = some inbox) :
    ∃ before, s.inboxes.get? id = some before ∧
      (inbox = before ∨ inbox = before ++ [r.notification]) := by
  unfold Sessions.push at h
  split at h
  · exact ⟨inbox, h, Or.inl rfl⟩
  · rw [Keyed.get?_map] at h
    obtain ⟨before, hbefore, rfl⟩ := Option.map_eq_some_iff.1 h
    refine ⟨before, hbefore, ?_⟩
    split
    · exact Or.inr rfl
    · exact Or.inl rfl

end Quorate.Sessions
