import Quorate.Proofs.CommitLog.Order
import Quorate.Server

/-!
# Servers that follow a log

A server attached to a log has applied exactly the entries that were handed to it, and one
that runs has been handed all of them. `Attachment.Follows` states this for one attachment
and `CommitLog.Tracked` for all of them; every operation of a log keeps it, whatever the
stamps of its entries are.
-/

namespace Quorate

namespace Server

/-- The view of the server is a replay of the entries. -/
def Knows (seed : Roster) (entries : List Entry) (s : Server) : Prop :=
  s.view = View.replay s.settings.kept seed entries

theorem view_learn (s : Server) (stamp : Stamp) (record : Record) :
    (s.learn stamp record).view = s.view.learn s.settings.kept stamp record := by
  unfold learn
  split <;> rfl

theorem settings_learn (s : Server) (stamp : Stamp) (record : Record) :
    (s.learn stamp record).settings = s.settings := by
  unfold learn
  split <;> rfl

theorem view_learnAll (s : Server) (entries : List Entry) :
    (entries.foldl (fun s e => Replica.learn s e.stamp e.record) s).view =
      s.view.learnAll s.settings.kept entries := by
  induction entries generalizing s with
  | nil => rfl
  | cons e entries ih =>
      rw [List.foldl_cons, ih, View.learnAll_cons]
      change View.learnAll (s.learn e.stamp e.record).settings.kept
        (s.learn e.stamp e.record).view entries = _
      rw [view_learn, settings_learn]

theorem settings_learnAll (s : Server) (entries : List Entry) :
    (entries.foldl (fun s e => Replica.learn s e.stamp e.record) s).settings = s.settings := by
  induction entries generalizing s with
  | nil => rfl
  | cons e entries ih =>
      rw [List.foldl_cons, ih]
      exact settings_learn s e.stamp e.record

theorem knows_ofSeed (settings : Settings) (seed : Roster) : (ofSeed settings seed).Knows seed [] :=
  rfl

/-- Handing a server the log from a place that it has passed brings it up to the end. -/
theorem Knows.learnAll {seed : Roster} {entries : List Entry} {s : Server} {m n : Nat}
    (h : s.Knows seed (entries.take n)) (hmn : m ≤ n) (hn : n ≤ entries.length) :
    ((entries.drop m).foldl (fun s e => Replica.learn s e.stamp e.record) s).Knows seed
      entries := by
  unfold Knows at h ⊢
  rw [view_learnAll, settings_learnAll, h]
  exact View.learnAll_drop_replay_take hmn hn

end Server

namespace Attachment

/-- The server is there, has applied the entries handed to it, and has been handed all of
them if it runs. -/
def Follows (seed : Roster) (entries : List Entry) (a : Attachment Server) : Prop :=
  ∃ s, a.replica = some s ∧ a.next ≤ entries.length ∧
    (a.online = true → a.next = entries.length) ∧ s.Knows seed (entries.take a.next)

theorem follows_catchUp {seed : Roster} {entries : List Entry} {a : Attachment Server}
    {s : Server} {n : Nat} (hs : a.replica = some s) (hnext : a.next ≤ n)
    (hn : n ≤ entries.length) (hk : s.Knows seed (entries.take n)) :
    (a.catchUp entries).Follows seed entries := by
  rw [catchUp, hs]
  refine ⟨_, rfl, Nat.le_refl _, fun _ => rfl, ?_⟩
  rw [List.take_length]
  exact hk.learnAll hnext hn

theorem Follows.append {seed : Roster} {entries : List Entry} {a : Attachment Server}
    (h : a.Follows seed entries) (hoff : a.online = false) (more : List Entry) :
    a.Follows seed (entries ++ more) := by
  obtain ⟨s, hs, hle, _, hk⟩ := h
  refine ⟨s, hs, ?_, fun hon => ?_, ?_⟩
  · rw [List.length_append]
    exact hle.trans (Nat.le_add_right _ _)
  · rw [hoff] at hon
    cases hon
  · rw [List.take_append_of_le_length hle]
    exact hk

theorem Follows.catchUp {seed : Roster} {entries : List Entry} {a b : Attachment Server}
    (h : a.Follows seed entries) (hreplica : b.replica = a.replica) (hnext : b.next ≤ a.next)
    (more : List Entry) :
    (b.catchUp (entries ++ more)).Follows seed (entries ++ more) := by
  obtain ⟨s, hs, hle, _, hk⟩ := h
  refine follows_catchUp (hreplica.trans hs) hnext ?_ ?_
  · rw [List.length_append]
    exact hle.trans (Nat.le_add_right _ _)
  · rw [List.take_append_of_le_length hle]
    exact hk

theorem Follows.hear {seed : Roster} {entries : List Entry} {a : Attachment Server}
    (h : a.Follows seed entries) (outcome : Outcome) :
    (a.hear outcome).Follows seed entries := by
  obtain ⟨s, hs, hle, hon, hk⟩ := h
  refine ⟨s.hear outcome, ?_, hle, hon, hk⟩
  rw [Attachment.hear, hs]
  rfl

theorem Follows.halt {seed : Roster} {entries : List Entry} {a : Attachment Server}
    (h : a.Follows seed entries) : { a with online := false }.Follows seed entries := by
  obtain ⟨s, hs, hle, _, hk⟩ := h
  exact ⟨s, hs, hle, fun hon => absurd hon Bool.false_ne_true, hk⟩

theorem Follows.adjust {seed : Roster} {entries : List Entry} {a : Attachment Server}
    (h : a.Follows seed entries) {f : Server → Server} (hview : ∀ s, (f s).view = s.view)
    (hsettings : ∀ s, (f s).settings = s.settings) :
    { a with replica := a.replica.map f }.Follows seed entries := by
  obtain ⟨s, hs, hle, hon, hk⟩ := h
  refine ⟨f s, ?_, hle, hon, ?_⟩
  · rw [hs]
    rfl
  · rw [Server.Knows, hview, hsettings]
    exact hk

end Attachment

namespace CommitLog

/-- Every server attached to the log follows it. -/
def Followed (seed : Roster) (l : CommitLog Server) : Prop :=
  ∀ id a, l.attached.get? id = some a → a.Follows seed l.entries

theorem Followed.announce {seed : Roster} {l : CommitLog Server} (h : l.Followed seed)
    (outcome : Outcome) : (l.announce outcome).Followed seed := by
  intro id a ha
  rw [attached_announce] at ha
  obtain ⟨b, hb, rfl⟩ := Option.map_eq_some_iff.1 ha
  split
  · exact (h id b hb).hear outcome
  · exact h id b hb

theorem Followed.halted {seed : Roster} {l : CommitLog Server} (h : l.Followed seed)
    (id : ServerId) : (l.halted id).Followed seed := by
  intro j a ha
  rw [attached_halted] at ha
  split at ha
  · obtain ⟨b, hb, rfl⟩ := Option.map_eq_some_iff.1 ha
    exact (h j b hb).halt
  · exact h j a ha

/-- The roster of the log is that of its entries, a server that runs leads it, if any does,
and every server follows it. -/
structure Tracked (seed : Roster) (l : CommitLog Server) : Prop where
  derived : l.Derived seed
  led : l.Led
  follows : l.Followed seed

namespace Tracked

variable {seed : Roster} {l : CommitLog Server}

theorem empty (seed : Roster) : (CommitLog.empty seed : CommitLog Server).Tracked seed where
  derived := rfl
  led := led_empty seed
  follows id a h := by
    rw [CommitLog.empty, Keyed.get?_empty] at h
    cases h

theorem unled (h : l.Tracked seed) : l.unled.Tracked seed where
  derived := h.derived.turn (turn_unled l)
  led := led_unled l
  follows := h.follows.announce .pending

theorem renewed (h : l.Tracked seed) {leader : ServerId} (hon : l.isOnline leader = true) :
    (l.renewed leader).Tracked seed where
  derived := h.derived
  led := led_renewed hon
  follows := h.follows.announce (.elected leader)

theorem attach (h : l.Tracked seed) (id : ServerId) {s : Server} {n : Nat}
    (hn : n ≤ l.entries.length) (hk : s.Knows seed (l.entries.take n)) :
    (l.attach id s).Tracked seed where
  derived := h.derived
  led := h.led.attach id s
  follows j a ha := by
    rw [attached_attach] at ha
    split at ha
    · cases ha
      exact Attachment.follows_catchUp rfl (Nat.zero_le n) hn hk
    · exact h.follows j a ha

theorem reattach (h : l.Tracked seed) (id : ServerId) : (l.reattach id).Tracked seed where
  derived := h.derived
  led := h.led.reattach id
  follows j a ha := by
    rw [attached_reattach] at ha
    split at ha
    · obtain ⟨b, hb, rfl⟩ := Option.map_eq_some_iff.1 ha
      have hcatch := (h.follows j b hb).catchUp (b := { b with next := 0, online := true })
        rfl (Nat.zero_le _) []
      rwa [List.append_nil] at hcatch
    · exact h.follows j a ha

theorem stop (h : l.Tracked seed) (id : ServerId) : (l.stop id).Tracked seed := by
  refine ⟨h.derived.turn (turn_stop l id), h.led.stop id, ?_⟩
  rw [stop_eq]
  split
  · exact (h.follows.halted id).announce .pending
  · exact h.follows.halted id

theorem start (h : l.Tracked seed) (id : ServerId) : (l.start id).2.Tracked seed := by
  refine ⟨h.derived.turn (turn_start l id), h.led.start id, fun j a ha => ?_⟩
  rcases start_cases l id with heq | heq
  · rw [heq] at ha ⊢
    exact h.follows j a ha
  · rw [heq] at ha ⊢
    rw [attached_resumed] at ha
    split at ha
    · obtain ⟨b, hb, rfl⟩ := Option.map_eq_some_iff.1 ha
      have hcatch := (h.follows j b hb).catchUp (b := { b with online := true })
        rfl (Nat.le_refl _) []
      rwa [List.append_nil] at hcatch
    · exact h.follows j a ha

theorem propose (h : l.Tracked seed) (sender : ServerId) (record : Record) :
    (l.propose sender record).2.Tracked seed := by
  refine ⟨h.derived.turn (turn_propose l sender record), h.led.propose sender record,
    fun j a ha => ?_⟩
  rcases propose_cases l sender record with ⟨_, heq⟩ | ⟨_, _, heq⟩ | ⟨_, heq⟩
  · rw [heq] at ha ⊢
    exact h.follows j a ha
  · rw [heq] at ha ⊢
    rw [attached_deliver] at ha
    obtain ⟨b, hb, rfl⟩ := Option.map_eq_some_iff.1 ha
    have hfollows := h.follows j b hb
    split
    · exact hfollows.catchUp rfl (Nat.le_refl _) _
    · rename_i hoff
      exact hfollows.append (Bool.eq_false_iff.2 hoff) _
  · rw [heq] at ha ⊢
    exact h.unled.follows j a ha

theorem establish (h : l.Tracked seed) (leader : ServerId) :
    (l.establish leader).2.Tracked seed := by
  rcases establish_cases l leader with heq | ⟨hlead, heq⟩ | heq
  · rw [heq]
    exact h
  · rw [heq]
    exact h.renewed (h.led leader hlead)
  · rw [heq]
    exact h.unled

theorem resign (h : l.Tracked seed) (leader : ServerId) : (l.resign leader).Tracked seed := by
  rcases resign_cases l leader with heq | heq
  · rw [heq]
    exact h
  · rw [heq]
    exact h.unled

theorem elect (h : l.Tracked seed) : l.elect.2.Tracked seed := by
  rcases elect_cases l with ⟨winner, heq, hwin⟩ | heq
  · rw [heq]
    exact h.renewed (isOnline_of_elected hwin)
  · rw [heq]
    exact h.unled

/-- A server may be changed where it stands, apart from its view and its settings. -/
theorem adjust (h : l.Tracked seed) (id : ServerId) {f : Server → Server}
    (hview : ∀ s, (f s).view = s.view) (hsettings : ∀ s, (f s).settings = s.settings) :
    (l.adjust id f).Tracked seed where
  derived := h.derived
  led := h.led.adjust id f
  follows j a ha := by
    rw [attached_adjust] at ha
    split at ha
    · obtain ⟨b, hb, rfl⟩ := Option.map_eq_some_iff.1 ha
      exact (h.follows j b hb).adjust hview hsettings
    · exact h.follows j a ha

/-- A server that runs has been handed all entries. -/
theorem handed (h : l.Tracked seed) {id : ServerId} {s : Server}
    (hon : l.isOnline id = true) (hs : l.replica? id = some s) :
    ∃ a, l.attached.get? id = some a ∧ a.replica = some s ∧ a.online = true ∧
      a.next = l.entries.length ∧ s.Knows seed l.entries := by
  obtain ⟨a, ha, hon⟩ := isOnline_iff.1 hon
  obtain ⟨t, ht, _, hnext, hk⟩ := h.follows id a ha
  rw [replica?, ha, Option.bind_some, ht] at hs
  cases hs
  rw [hnext hon, List.take_length] at hk
  exact ⟨a, ha, ht, hon, hnext hon, hk⟩

/-- Where the stamps ascend, a server holds what a part of the entries, from the first one
on, makes of the seed. -/
theorem exists_view_eq (h : l.Tracked seed) (hasc : Ascending l.entries) {id : ServerId}
    {s : Server} (hs : l.replica? id = some s) :
    ∃ n, s.view = View.after s.settings.kept seed (l.entries.take n) := by
  obtain ⟨a, ha, hreplica⟩ := Option.bind_eq_some_iff.1 hs
  obtain ⟨t, ht, _, _, hk⟩ := h.follows id a ha
  cases hreplica.symm.trans ht
  exact ⟨a.next, hk.trans (View.replay_eq_after s.settings.one_le_kept (hasc.take a.next))⟩

theorem view_eq_of_isOnline (h : l.Tracked seed) (hasc : Ascending l.entries) {id : ServerId}
    {s : Server} (hon : l.isOnline id = true) (hs : l.replica? id = some s) :
    s.view = View.after s.settings.kept seed l.entries := by
  obtain ⟨_, _, _, _, _, hk⟩ := h.handed hon hs
  exact hk.trans (View.replay_eq_after s.settings.one_le_kept hasc)

/-- A server that runs has applied the roster in effect. -/
theorem current_eq_of_isOnline (h : l.Tracked seed) (hasc : Ascending l.entries) {id : ServerId}
    {s : Server} (hon : l.isOnline id = true) (hs : l.replica? id = some s) :
    s.current = l.roster := by
  rw [Server.current, h.view_eq_of_isOnline hasc hon hs, h.derived]
  rfl

theorem current_mem_rosters (h : l.Tracked seed) (hasc : Ascending l.entries) {id : ServerId}
    {s : Server} (hs : l.replica? id = some s) : s.current ∈ rosters seed l.entries := by
  obtain ⟨n, hview⟩ := h.exists_view_eq hasc hs
  rw [Server.current, hview]
  exact View.current_after_take_mem_rosters _ seed l.entries n

/-- A server finds rosters only that were in effect, by the stamps of their records. -/
theorem mem_rosterHistory_of_committedBy? (h : l.Tracked seed) (hasc : Ascending l.entries)
    {id : ServerId} {s : Server} (hs : l.replica? id = some s) {stamp : Stamp} {r : Roster}
    (hr : s.view.committedBy? stamp = some r) : (stamp, r) ∈ rosterHistory seed l.entries := by
  obtain ⟨n, hview⟩ := h.exists_view_eq hasc hs
  have hin := View.mem_history_of_committedBy? hr
  rw [hview] at hin
  exact (rosterHistory_mono (List.take_prefix n l.entries)).subset
    (View.mem_rosterHistory_of_mem_history hin)

theorem committedBy?_mem_rosters (h : l.Tracked seed) (hasc : Ascending l.entries)
    {id : ServerId} {s : Server} (hs : l.replica? id = some s) {stamp : Stamp} {r : Roster}
    (hr : s.view.committedBy? stamp = some r) : r ∈ rosters seed l.entries :=
  List.mem_map_of_mem (h.mem_rosterHistory_of_committedBy? hasc hs hr)

/-- A server that has applied the stamp of an entry was handed the entry. -/
theorem handed_of_applied (h : l.Tracked seed) (hasc : Ascending l.entries) {id : ServerId}
    {a : Attachment Server} (ha : l.attached.get? id = some a) {s : Server}
    (hs : a.replica = some s) {n : Nat} {e : Entry} (hget : l.entries[n]? = some e)
    (hle : e.stamp ≤ s.view.applied) :
    n < a.next ∧ s.view = View.after s.settings.kept seed (l.entries.take a.next) := by
  obtain ⟨t, ht, _, _, hk⟩ := h.follows id a ha
  cases hs.symm.trans ht
  refine ⟨?_, hk.trans (View.replay_eq_after s.settings.one_le_kept (hasc.take a.next))⟩
  by_contra hnot
  refine (not_lt.2 hle) ?_
  rw [hk]
  refine View.applied_learnAll_lt_iff.2 ⟨hasc.2 e (List.mem_of_getElem? hget), fun b hb => ?_⟩
  obtain ⟨m, hm, rfl⟩ := List.mem_take_iff_getElem.1 hb
  obtain ⟨hmn, hml⟩ := Nat.lt_min.1 hm
  obtain ⟨hnl, rfl⟩ := List.getElem?_eq_some_iff.1 hget
  exact List.pairwise_iff_getElem.1 hasc.1 m n hml hnl (hmn.trans_le (not_lt.1 hnot))

end Tracked

end CommitLog

end Quorate
