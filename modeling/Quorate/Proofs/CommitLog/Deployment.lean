import Quorate.Proofs.CommitLog.Tracking
import Quorate.Proofs.Reaches
import Quorate.Proofs.Roster.Valid

/-!
# Runs of a log with its servers

A deployment is a log with servers attached to it and the servers that were displaced by
another one under their id and are kept, so that they may be attached again. A run is any
sequence of operations from the empty log of a seed on: servers are attached fresh, again
or back from the spare ones, stopped and started, elections are held, leaders resign and
begin epochs, and anyone proposes any record whatever. `Reachable seed within` admits the
runs all of whose logs are `within` some bounds.
-/

namespace Quorate

/-- A log with its servers, and the servers that are kept without being attached. -/
structure Deployment where
  log : CommitLog Server
  spare : List Server
  deriving DecidableEq

namespace Deployment

inductive Operation where
  /-- Attach a fresh server of the seed; the one it displaces is kept. -/
  | attach (id : ServerId) (settings : Settings)
  /-- Attach the server of an id once more. -/
  | reattach (id : ServerId)
  /-- Attach the spare server at a place; the one it displaces is kept instead. -/
  | restore (id : ServerId) (place : Nat)
  | stop (id : ServerId)
  | start (id : ServerId)
  | elect
  | resign (leader : ServerId)
  | establish (leader : ServerId)
  | propose (sender : ServerId) (record : Record)

/-- The deployment with a server attached under an id, and the displaced one kept. -/
def displace (d : Deployment) (id : ServerId) (s : Server) (spare : List Server) :
    Deployment where
  log := d.log.attach id s
  spare := (d.log.replica? id).toList ++ spare

def perform (seed : Roster) (d : Deployment) : Operation → Deployment
  | .attach id settings => d.displace id (.ofSeed settings seed) d.spare
  | .reattach id => { d with log := d.log.reattach id }
  | .restore id place =>
    match d.spare[place]? with
    | none => d
    | some s => d.displace id s (d.spare.eraseIdx place)
  | .stop id => { d with log := d.log.stop id }
  | .start id => { d with log := (d.log.start id).2 }
  | .elect => { d with log := d.log.elect.2 }
  | .resign leader => { d with log := d.log.resign leader }
  | .establish leader => { d with log := (d.log.establish leader).2 }
  | .propose sender record => { d with log := (d.log.propose sender record).2 }

def initial (seed : Roster) : Deployment :=
  ⟨.empty seed, []⟩

/-- The deployments that the runs over a seed come to, if no log on the way leaves the
bounds. -/
def Reachable (seed : Roster) (within : CommitLog Server → Prop) (d : Deployment) : Prop :=
  Reaches (perform seed) (fun d => within d.log) (initial seed) d

def run (seed : Roster) (operations : List Operation) : Deployment :=
  operations.foldl (perform seed) (initial seed)

theorem reachable_run {seed : Roster} {within : CommitLog Server → Prop}
    (operations : List Operation)
    (h : ∀ k ≤ operations.length, within (run seed (operations.take k)).log) :
    (run seed operations).Reachable seed within :=
  reaches_foldl operations h

theorem perform_restore_none {seed : Roster} {d : Deployment} {id : ServerId} {place : Nat}
    (h : d.spare[place]? = none) : d.perform seed (.restore id place) = d := by
  simp only [perform, h]

theorem perform_restore_some {seed : Roster} {d : Deployment} {id : ServerId} {place : Nat}
    {s : Server} (h : d.spare[place]? = some s) :
    d.perform seed (.restore id place) = d.displace id s (d.spare.eraseIdx place) := by
  simp only [perform, h]

theorem turn_perform (seed : Roster) (d : Deployment) (operation : Operation) :
    CommitLog.Turn d.log (d.perform seed operation).log := by
  cases operation with
  | attach id settings => exact CommitLog.turn_attach _ _ _
  | reattach id => exact CommitLog.turn_reattach _ _
  | restore id place =>
      cases hs : d.spare[place]? with
      | none =>
          rw [perform_restore_none hs]
          exact CommitLog.turn_refl _
      | some s =>
          rw [perform_restore_some hs]
          exact CommitLog.turn_attach _ _ _
  | stop id => exact CommitLog.turn_stop _ _
  | start id => exact CommitLog.turn_start _ _
  | elect => exact CommitLog.turn_elect _
  | resign leader => exact CommitLog.turn_resign _ _
  | establish leader => exact CommitLog.turn_establish _ _
  | propose sender record => exact CommitLog.turn_propose _ _ _

/-- Attached or spare, every server has applied entries from the front of the log. -/
structure Tracked (seed : Roster) (d : Deployment) : Prop where
  log : d.log.Tracked seed
  spare : ∀ s ∈ d.spare, ∃ n ≤ d.log.entries.length, s.Knows seed (d.log.entries.take n)

theorem tracked_initial (seed : Roster) : (initial seed).Tracked seed where
  log := .empty seed
  spare _ h := absurd h List.not_mem_nil

/-- What a spare server has applied is still at the front of a log that has grown. -/
theorem Tracked.spare_of_turn {seed : Roster} {d : Deployment} (h : d.Tracked seed)
    {l : CommitLog Server} (ht : CommitLog.Turn d.log l) :
    ∀ s ∈ d.spare, ∃ n ≤ l.entries.length, s.Knows seed (l.entries.take n) := by
  intro s hs
  obtain ⟨n, hn, hk⟩ := h.spare s hs
  obtain ⟨more, hmore⟩ := ht.entries_grow
  refine ⟨n, ?_, ?_⟩
  · rw [← hmore, List.length_append]
    exact hn.trans (Nat.le_add_right _ _)
  · rw [← hmore, List.take_append_of_le_length hn]
    exact hk

theorem Tracked.displace {seed : Roster} {d : Deployment} (h : d.Tracked seed)
    (id : ServerId) {s : Server} {n : Nat} {spare : List Server}
    (hn : n ≤ d.log.entries.length) (hk : s.Knows seed (d.log.entries.take n))
    (hspare : ∀ t ∈ spare, t ∈ d.spare) : (d.displace id s spare).Tracked seed where
  log := h.log.attach id hn hk
  spare t ht := by
    rcases List.mem_append.1 ht with hm | hm
    · have hm := Option.mem_toList.1 hm
      obtain ⟨a, ha, hreplica⟩ := Option.bind_eq_some_iff.1 (Option.mem_def.1 hm)
      obtain ⟨u, hu, hle, _, hknows⟩ := h.log.follows id a ha
      cases hreplica.symm.trans hu
      exact ⟨a.next, hle, hknows⟩
    · exact h.spare t (hspare t hm)

theorem Tracked.perform {seed : Roster} {d : Deployment} (h : d.Tracked seed)
    (operation : Operation) : (d.perform seed operation).Tracked seed := by
  have hspare := h.spare_of_turn (turn_perform seed d operation)
  cases operation with
  | attach id settings =>
      exact h.displace id (Nat.zero_le _) (Server.knows_ofSeed settings seed) fun _ ht => ht
  | reattach id => exact ⟨h.log.reattach id, hspare⟩
  | restore id place =>
      cases hs : d.spare[place]? with
      | none =>
          rw [perform_restore_none hs]
          exact h
      | some s =>
          rw [perform_restore_some hs]
          obtain ⟨n, hn, hk⟩ := h.spare s (List.mem_of_getElem? hs)
          exact h.displace id hn hk fun _ ht => List.mem_of_mem_eraseIdx ht
  | stop id => exact ⟨h.log.stop id, hspare⟩
  | start id => exact ⟨h.log.start id, hspare⟩
  | elect => exact ⟨h.log.elect, hspare⟩
  | resign leader => exact ⟨h.log.resign leader, hspare⟩
  | establish leader => exact ⟨h.log.establish leader, hspare⟩
  | propose sender record => exact ⟨h.log.propose sender record, hspare⟩

theorem Reachable.tracked {seed : Roster} {within : CommitLog Server → Prop} {d : Deployment}
    (h : d.Reachable seed within) : d.Tracked seed :=
  h.invariant (Tracked seed) (tracked_initial seed) fun _ operation _ ht => ht.perform operation

theorem Reachable.ordered {seed : Roster} {d : Deployment}
    (h : d.Reachable seed CommitLog.InRange) : d.log.Ordered :=
  h.invariant (fun d => d.log.Ordered) (CommitLog.ordered_empty seed)
    fun d operation hr ho => ho.turn hr (turn_perform seed d operation)

end Deployment

end Quorate
