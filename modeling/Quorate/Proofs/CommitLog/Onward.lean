import Quorate.Proofs.CommitLog.Keeps

/-!
# A log that goes on

`Onward seed l l'` is what an invariant of a log with its servers needs to know of an
operation: it is a turn, servers that follow the log go on following it, none of them is
lost, and none falls back. A log that goes on `Still` differs in its servers alone; that may come after any
operation and does not count as one (`Onward.still`).

Of that, what several operations keep together as well is `Lasting`: entries stay where they
are and servers stay attached, with all that they have applied.
-/

namespace Quorate.CommitLog

theorem contains_iff {l : CommitLog Server} {id : ServerId} :
    l.attached.contains id = true ↔ ∃ a, l.attached.get? id = some a := by
  rw [Keyed.contains, Option.isSome_iff_exists]

/-- An operation leads from one log to the next. -/
structure Onward (seed : Roster) (l l' : CommitLog Server) : Prop where
  turn : Turn l l'
  tracked : l.Tracked seed → l'.Tracked seed
  stays : ∀ id, l.attached.contains id = true → l'.attached.contains id = true
  retains : Retains l l'

/-- What was in a log is in it later. -/
structure Lasting (l l' : CommitLog Server) : Prop where
  grows : l.entries <+: l'.entries
  stays : ∀ id, l.attached.contains id = true → l'.attached.contains id = true
  retains : Retains l l'

/-- Nothing but the servers of a log changes. -/
structure Still (seed : Roster) (l l' : CommitLog Server) : Prop where
  epoch : l'.epoch = l.epoch
  counter : l'.counter = l.counter
  roster : l'.roster = l.roster
  entries : l'.entries = l.entries
  leader : l'.leader = l.leader
  tracked : l.Tracked seed → l'.Tracked seed
  stays : ∀ id, l.attached.contains id = true → l'.attached.contains id = true
  retains : Retains l l'

section Stays

variable (l : CommitLog Server) (id : ServerId)

theorem contains_announce (outcome : Outcome) :
    (l.announce outcome).attached.contains id = l.attached.contains id := by
  simp [Keyed.contains, attached_announce]

theorem contains_halted (j : ServerId) :
    (l.halted j).attached.contains id = l.attached.contains id := by
  rw [Keyed.contains, attached_halted, Keyed.contains]
  split <;> simp

theorem contains_resumed (j : ServerId) :
    (l.resumed j).attached.contains id = l.attached.contains id := by
  rw [Keyed.contains, attached_resumed, Keyed.contains]
  split <;> simp

theorem contains_adjust (j : ServerId) (f : Server → Server) :
    (l.adjust j f).attached.contains id = l.attached.contains id := by
  rw [Keyed.contains, attached_adjust, Keyed.contains]
  split <;> simp

theorem contains_deliver : l.deliver.attached.contains id = l.attached.contains id := by
  simp [Keyed.contains, attached_deliver]

theorem contains_attach (j : ServerId) (s : Server)
    (h : l.attached.contains id = true) : (l.attach j s).attached.contains id = true := by
  rw [Keyed.contains, attached_attach]
  split
  · rfl
  · exact h

end Stays

section Operations

variable (seed : Roster) (l : CommitLog Server)

theorem onward_refl : Onward seed l l where
  turn := turn_refl l
  tracked h := h
  stays _ h := h
  retains := retains_refl l

theorem onward_unled : Onward seed l l.unled where
  turn := turn_unled l
  tracked h := h.unled
  stays id h := by
    rw [unled, contains_announce]
    exact h
  retains := (keeps_unled Server.view_hear l).retains

theorem onward_attach {id : ServerId} (hid : l.replica? id = none) (settings : Settings) :
    Onward seed l (l.attach id (.ofSeed settings seed)) where
  turn := turn_attach l id _
  tracked h := h.attach id (Nat.zero_le _) (Server.knows_ofSeed settings seed)
  stays j h := contains_attach l j id _ h
  retains := retains_attach hid _

theorem onward_stop (id : ServerId) : Onward seed l (l.stop id) where
  turn := turn_stop l id
  tracked h := h.stop id
  stays j h := by
    rw [stop_eq]
    split
    · rw [unled, contains_announce]
      exact (contains_halted l j id).trans h
    · exact (contains_halted l j id).trans h
  retains := (keeps_stop Server.view_hear l id).retains

theorem onward_start (id : ServerId) : Onward seed l (l.start id).2 where
  turn := turn_start l id
  tracked h := h.start id
  stays j h := by
    rcases start_cases l id with heq | heq
    · rw [heq]
      exact h
    · rw [heq, contains_resumed]
      exact h
  retains := retains_start l id

theorem onward_reattach (id : ServerId) : Onward seed l (l.reattach id) where
  turn := turn_reattach l id
  tracked h := h.reattach id
  stays j h := by
    rw [Keyed.contains, attached_reattach]
    split
    · rw [Option.isSome_map]
      exact h
    · exact h
  retains := retains_reattach l id

theorem onward_propose (sender : ServerId) (record : Record) :
    Onward seed l (l.propose sender record).2 where
  turn := turn_propose l sender record
  tracked h := h.propose sender record
  stays j h := by
    rcases propose_cases l sender record with ⟨_, heq⟩ | ⟨_, _, heq⟩ | ⟨_, heq⟩
    · rw [heq]
      exact h
    · rw [heq, contains_deliver]
      exact h
    · rw [heq]
      exact (onward_unled seed l).stays j h
  retains := retains_propose l sender record

theorem onward_establish (leader : ServerId) : Onward seed l (l.establish leader).2 where
  turn := turn_establish l leader
  tracked h := h.establish leader
  stays j h := by
    rcases establish_cases l leader with heq | ⟨_, heq⟩ | heq
    · rw [heq]
      exact h
    · rw [heq, renewed, contains_announce]
      exact h
    · rw [heq]
      exact (onward_unled seed l).stays j h
  retains := (keeps_establish Server.view_hear l leader).retains

theorem onward_resign (leader : ServerId) : Onward seed l (l.resign leader) where
  turn := turn_resign l leader
  tracked h := h.resign leader
  stays j h := by
    rcases resign_cases l leader with heq | heq
    · rw [heq]
      exact h
    · rw [heq]
      exact (onward_unled seed l).stays j h
  retains := (keeps_resign Server.view_hear l leader).retains

theorem onward_elect : Onward seed l l.elect.2 where
  turn := turn_elect l
  tracked h := h.elect
  stays j h := by
    rcases elect_cases l with ⟨winner, heq, _⟩ | heq
    · rw [heq, renewed, contains_announce]
      exact h
    · rw [heq]
      exact (onward_unled seed l).stays j h
  retains := (keeps_elect Server.view_hear l).retains

theorem entries_stop (id : ServerId) : (l.stop id).entries = l.entries := by
  rw [stop_eq]
  split <;> rfl

theorem entries_start (id : ServerId) : (l.start id).2.entries = l.entries := by
  rcases start_cases l id with heq | heq
  · rw [heq]
  · rw [heq]
    rfl

theorem entries_resign (leader : ServerId) : (l.resign leader).entries = l.entries := by
  rcases resign_cases l leader with heq | heq
  · rw [heq]
  · rw [heq]
    rfl

theorem entries_establish (leader : ServerId) : (l.establish leader).2.entries = l.entries := by
  rcases establish_cases l leader with heq | ⟨_, heq⟩ | heq
  · rw [heq]
  · rw [heq]
    rfl
  · rw [heq]
    rfl

theorem entries_elect : l.elect.2.entries = l.entries := by
  rcases elect_cases l with ⟨winner, heq, _⟩ | heq
  · rw [heq]
    rfl
  · rw [heq]
    rfl

end Operations

variable {seed : Roster} {l l' : CommitLog Server}

theorem still_refl (seed : Roster) (l : CommitLog Server) : Still seed l l :=
  ⟨rfl, rfl, rfl, rfl, rfl, id, fun _ => id, retains_refl l⟩

theorem Still.trans {l'' : CommitLog Server} (h : Still seed l l') (h' : Still seed l' l'') :
    Still seed l l'' where
  epoch := h'.epoch.trans h.epoch
  counter := h'.counter.trans h.counter
  roster := h'.roster.trans h.roster
  entries := h'.entries.trans h.entries
  leader := h'.leader.trans h.leader
  tracked ht := h'.tracked (h.tracked ht)
  stays id hid := h'.stays id (h.stays id hid)
  retains := h.retains.trans h'.retains

theorem still_adjust (seed : Roster) (l : CommitLog Server) (id : ServerId)
    {f : Server → Server} (hview : ∀ s, (f s).view = s.view)
    (hsettings : ∀ s, (f s).settings = s.settings) : Still seed l (l.adjust id f) where
  epoch := rfl
  counter := rfl
  roster := rfl
  entries := rfl
  leader := rfl
  tracked ht := ht.adjust id hview hsettings
  stays j hj := by
    rw [contains_adjust]
    exact hj
  retains := (keeps_adjust l id hview).retains

theorem Turn.trans_still {l'' : CommitLog Server} (h : Turn l l') (h' : Still seed l' l'') :
    Turn l l'' := by
  cases h with
  | still epoch counter roster entries leader =>
      refine .still (h'.epoch.trans epoch) (h'.counter.trans counter) (h'.roster.trans roster)
        (h'.entries.trans entries) ?_
      rw [h'.leader]
      exact leader
  | renewed epoch counter roster entries leader leads =>
      exact .renewed (h'.epoch.trans epoch) (h'.counter.trans counter)
        (h'.roster.trans roster) (h'.entries.trans entries) leader (h'.leader.trans leads)
  | committed record sender led epoch counter roster entries leader =>
      exact .committed record sender led (h'.epoch.trans epoch) (h'.counter.trans counter)
        (h'.roster.trans roster) (h'.entries.trans entries) (h'.leader.trans leader)

theorem Onward.still {l'' : CommitLog Server} (h : Onward seed l l') (h' : Still seed l' l'') :
    Onward seed l l'' where
  turn := h.turn.trans_still h'
  tracked ht := h'.tracked (h.tracked ht)
  stays id hid := h'.stays id (h.stays id hid)
  retains := h.retains.trans h'.retains

theorem Still.onward (h : Still seed l l') : Onward seed l l' :=
  (onward_refl seed l).still h

theorem Onward.lasting (h : Onward seed l l') : Lasting l l' :=
  ⟨h.turn.entries_grow, h.stays, h.retains⟩

theorem lasting_refl (l : CommitLog Server) : Lasting l l :=
  ⟨List.prefix_refl _, fun _ => id, retains_refl l⟩

theorem Lasting.trans {l'' : CommitLog Server} (h : Lasting l l') (h' : Lasting l' l'') :
    Lasting l l'' where
  grows := h.grows.trans h'.grows
  stays id hid := h'.stays id (h.stays id hid)
  retains := h.retains.trans h'.retains

/-- A server that is attached is there. -/
theorem Tracked.exists_replica (h : l.Tracked seed) {id : ServerId}
    (hin : l.attached.contains id = true) : ∃ s, l.replica? id = some s := by
  obtain ⟨a, ha⟩ := contains_iff.1 hin
  obtain ⟨s, hs, _⟩ := h.follows id a ha
  exact ⟨s, by rw [replica?, ha, Option.bind_some, hs]⟩

theorem contains_of_replica {id : ServerId} {s : Server} (h : l.replica? id = some s) :
    l.attached.contains id = true := by
  obtain ⟨a, ha, _⟩ := Option.bind_eq_some_iff.1 h
  exact contains_iff.2 ⟨a, ha⟩

theorem contains_of_isOnline {id : ServerId} (h : l.isOnline id = true) :
    l.attached.contains id = true := by
  obtain ⟨a, ha, _⟩ := isOnline_iff.1 h
  exact contains_iff.2 ⟨a, ha⟩

end Quorate.CommitLog
