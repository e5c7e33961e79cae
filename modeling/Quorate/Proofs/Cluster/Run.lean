import Quorate.Proofs.Call.Reconfiguration
import Quorate.Proofs.Reaches

/-!
# Ensembles with concurrent calls

A cluster is an ensemble together with the reconfigurations that were ever called on its
servers. Anything may happen between two steps of a call: other calls go on, servers are
spawned, stopped and started, leaders are elected, resign and begin epochs, clients write
anything but config records, and the link delays or fails the config records to come. Only
the steps of calls propose rosters.

Beside its progress an attempt keeps the places of the entries that its own steps appended
to the log. Nothing reads them; they tell which entry belongs to which call.
-/

namespace Quorate

structure Attempt where
  request : Request
  /-- Nothing once the caller has given the call up. -/
  progress : Option (Progress Reconfiguration (Except Fault Roster))
  /-- The places of the entries that the call appended to the log. -/
  recorded : List Nat
  deriving DecidableEq

/-- An ensemble and the calls on its servers, the first one first. -/
structure Cluster where
  ensemble : Ensemble
  calls : List Attempt
  deriving DecidableEq

/-- The places of the entries that a log has and had not before. -/
def newPlaces (before after : List Entry) : List Nat :=
  List.range' before.length (after.length - before.length)

namespace Cluster

inductive Action where
  | spawn (id : ServerId)
  | stop (id : ServerId)
  | start (id : ServerId)
  | elect
  | resign (leader : ServerId)
  | establish (leader : ServerId)
  | write (sender : ServerId) (record : Record) (plain : record.isReconfigure = false)
  /-- Decide what happens to the next config records on their way. -/
  | relink (link : List Transit) (honest : ∀ t ∈ link, t.passage.Honest)
  /-- Sessions are opened, moved and closed. -/
  | clients (sessions : Sessions) (serial : UInt64)
  | call (server : ServerId) (request : Request)
  /-- The call at a place takes a step at some instant, unless it has to wait. -/
  | advance (place now : Nat)
  /-- The caller of the call at a place gives it up. -/
  | abandon (place : Nat)

def initial (template : Settings) (seed : Roster) : Cluster :=
  ⟨.vacant template seed [], []⟩

def withLog (s : Cluster) (log : CommitLog Server) : Cluster :=
  { s with ensemble := { s.ensemble with log } }

/-- The cluster with the attempt at a place changed, and its ensemble by the same step. -/
def record (s : Cluster) (place : Nat) (a : Attempt)
    (progress : Option (Progress Reconfiguration (Except Fault Roster))) (e : Ensemble) :
    Cluster where
  ensemble := e
  calls := s.calls.set place
    ⟨a.request, progress, a.recorded ++ newPlaces s.ensemble.log.entries e.log.entries⟩

/-- The call of an attempt, if it has still to go on. -/
def call? (s : Cluster) (place : Nat) : Option (Attempt × Reconfiguration) :=
  match s.calls[place]? with
  | some a =>
    match a.progress with
    | some (.going c) => some (a, c)
    | _ => none
  | none => none

def advance (s : Cluster) (place now : Nat) : Cluster :=
  match s.call? place with
  | none => s
  | some (a, c) =>
    match c.step now s.ensemble with
    | none => s
    | some (progress, e) => s.record place a (some progress) e

def abandon (s : Cluster) (place : Nat) : Cluster :=
  match s.call? place with
  | none => s
  | some (a, c) => s.record place a none (c.abandon s.ensemble)

def perform (s : Cluster) : Action → Cluster
  | .spawn id => { s with ensemble := s.ensemble.spawn id }
  | .stop id => { s with ensemble := (s.ensemble.stop id).2 }
  | .start id => s.withLog (s.ensemble.log.start id).2
  | .elect => { s with ensemble := s.ensemble.elect.2 }
  | .resign leader => s.withLog (s.ensemble.log.resign leader)
  | .establish leader => s.withLog (s.ensemble.log.establish leader).2
  | .write sender record _ => s.withLog (s.ensemble.log.propose sender record).2
  | .relink link _ => { s with ensemble := { s.ensemble with link } }
  | .clients sessions serial => { s with ensemble := { s.ensemble with sessions, serial } }
  | .call server request =>
    { s with calls := s.calls ++ [⟨request, some (.going (.start server request)), []⟩] }
  | .advance place now => s.advance place now
  | .abandon place => s.abandon place

/-- No epoch and no counter stands at its greatest value. -/
def Bounded (s : Cluster) : Prop :=
  s.ensemble.log.InRange ∧ s.ensemble.log.roster.version.epoch ≠ 0xFFFFFFFF ∧
    s.ensemble.log.roster.version.counter ≠ 0xFFFFFFFF

instance (s : Cluster) : Decidable s.Bounded :=
  inferInstanceAs (Decidable (_ ∧ _))

/-- The clusters that come about over a seed, as long as nothing is counted too far. -/
def Reachable (template : Settings) (seed : Roster) (s : Cluster) : Prop :=
  Reaches perform Bounded (initial template seed) s

def run (template : Settings) (seed : Roster) (actions : List Action) : Cluster :=
  actions.foldl perform (initial template seed)

theorem run_concat (template : Settings) (seed : Roster) (actions : List Action)
    (action : Action) :
    run template seed (actions ++ [action]) = (run template seed actions).perform action := by
  rw [run, List.foldl_append]
  rfl

theorem reachable_run {template : Settings} {seed : Roster} (actions : List Action)
    (h : ∀ k ≤ actions.length, (run template seed (actions.take k)).Bounded) :
    (run template seed actions).Reachable template seed :=
  reaches_foldl actions h

end Cluster

end Quorate
