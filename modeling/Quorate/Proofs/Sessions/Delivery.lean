import Quorate.Proofs.Keyed
import Quorate.Proofs.Sessions

/-!
# A push, session by session

A roster that is pushed comes to one session after the other. `announce` is how a push
begins, and `deliver` what it does to a single session. Since it concerns no other session,
a push that nothing comes in between is the same whatever the order of the sessions
(`push_eq_foldl_deliver`).
-/

namespace Quorate.Sessions

/-- The sessions once a roster is about to be pushed, unless that would be a replay. -/
def announce (s : Sessions) (r : Roster) : Option Sessions :=
  if r.version ≤ s.notified then none else some { s with notified := r.version }

/-- A push comes to a session and the inbox of its client. -/
def deliver (r : Roster) (s : Sessions) (id : SessionId) : Sessions :=
  { s with
    registered := s.registered.modify id (pushedTo r (s.reaches id))
    inboxes := s.inboxes.modify id fun inbox =>
      if s.reaches id then inbox ++ [r.notification] else inbox }

variable {s : Sessions} {r : Roster} {id : SessionId}

theorem registered_deliver (r : Roster) (s : Sessions) (id j : SessionId) :
    (s.deliver r id).registered.get? j =
      if j = id then (s.registered.get? j).map (pushedTo r (s.reaches j))
      else s.registered.get? j := by
  rw [deliver, Keyed.get?_modify]
  split
  · rename_i h
    rw [h]
  · rfl

theorem inboxes_deliver (r : Roster) (s : Sessions) (id j : SessionId) :
    (s.deliver r id).inboxes.get? j =
      if j = id then (s.inboxes.get? j).map fun inbox =>
        if s.reaches j then inbox ++ [r.notification] else inbox
      else s.inboxes.get? j := by
  rw [deliver, Keyed.get?_modify]
  split
  · rename_i h
    rw [h]
  · rfl

/-- Another session is reached as before. -/
theorem reaches_deliver {j : SessionId} (h : j ≠ id) :
    (s.deliver r id).reaches j = s.reaches j := by
  rw [reaches, reaches, Keyed.contains, Keyed.contains, registered_deliver, inboxes_deliver,
    if_neg h, if_neg h]

theorem notified_foldl_deliver (r : Roster) (s : Sessions) (ids : List SessionId) :
    (ids.foldl (deliver r) s).notified = s.notified := by
  induction ids generalizing s with
  | nil => rfl
  | cons id ids ih => exact ih (s.deliver r id)

/-- A push that comes to some sessions, to each of them once. -/
theorem registered_foldl_deliver {ids : List SessionId} (hids : ids.Nodup) (j : SessionId) :
    (ids.foldl (deliver r) s).registered.get? j =
      if j ∈ ids then (s.registered.get? j).map (pushedTo r (s.reaches j))
      else s.registered.get? j := by
  induction ids generalizing s with
  | nil => rfl
  | cons id ids ih =>
      obtain ⟨hnot, hrest⟩ := List.nodup_cons.1 hids
      rw [List.foldl_cons, ih hrest, registered_deliver]
      by_cases hj : j = id
      · rw [if_neg (hj ▸ hnot), if_pos hj, if_pos (hj ▸ List.mem_cons_self)]
      · simp only [hj, if_false, reaches_deliver hj, List.mem_cons, false_or]

theorem inboxes_foldl_deliver {ids : List SessionId} (hids : ids.Nodup) (j : SessionId) :
    (ids.foldl (deliver r) s).inboxes.get? j =
      if j ∈ ids then (s.inboxes.get? j).map fun inbox =>
        if s.reaches j then inbox ++ [r.notification] else inbox
      else s.inboxes.get? j := by
  induction ids generalizing s with
  | nil => rfl
  | cons id ids ih =>
      obtain ⟨hnot, hrest⟩ := List.nodup_cons.1 hids
      rw [List.foldl_cons, ih hrest, inboxes_deliver]
      by_cases hj : j = id
      · rw [if_neg (hj ▸ hnot), if_pos hj, if_pos (hj ▸ List.mem_cons_self)]
      · simp only [hj, if_false, reaches_deliver hj, List.mem_cons, false_or]

theorem ext_get? {s t : Sessions} (hregistered : ∀ j, s.registered.get? j = t.registered.get? j)
    (hinboxes : ∀ j, s.inboxes.get? j = t.inboxes.get? j) (hnotified : s.notified = t.notified) :
    s = t := by
  obtain ⟨registered, inboxes, notified⟩ := s
  cases Keyed.ext_get? hregistered
  cases Keyed.ext_get? hinboxes
  cases hnotified
  rfl

/-- A push comes to every session once. An inbox that no session has any more gets nothing. -/
theorem push_eq_foldl_deliver {ids : List SessionId} (hids : ids.Nodup)
    (hall : ∀ id session, s.registered.get? id = some session → id ∈ ids) :
    s.push r = ((s.announce r).map (ids.foldl (deliver r))).getD s := by
  unfold push announce
  split
  · rfl
  have hnone {j : SessionId} (hj : j ∉ ids) : s.registered.get? j = none :=
    Option.eq_none_iff_forall_ne_some.2 fun session h => hj (hall j session h)
  rw [Option.map_some, Option.getD_some]
  have hnotified := notified_foldl_deliver r { s with notified := r.version } ids
  refine ext_get? (fun j => ?_) (fun j => ?_) hnotified.symm
  · rw [registered_foldl_deliver hids, Keyed.get?_map]
    by_cases hj : j ∈ ids
    · rw [if_pos hj]
      rfl
    · simp only [if_neg hj, hnone hj, Option.map_none]
  · rw [inboxes_foldl_deliver hids, Keyed.get?_map]
    by_cases hj : j ∈ ids
    · rw [if_pos hj]
      rfl
    · simp [hj, reaches, hnone hj]

end Quorate.Sessions
