import Quorate.Proofs.Call.Orderly

/-!
# An ensemble and its clients

A service is an ensemble together with what its clients have under way on it: requests and
reads, which go on step by step. Operators spawn, stop and start servers and hold elections,
clients open, move and close sessions, write, read and request reconfigurations, in any
order, and anything of that may come between two steps of an errand.
-/

namespace Quorate

/-- What a client waits for. -/
inductive Errand where
  | request (call : Routed)
  | read (call : Reading)

/-- One step of an errand at some instant; nothing while it has to wait. -/
def Errand.step (now : Nat) (e : Ensemble) :
    Errand → Option (Progress Errand (Except Fault Roster) × Ensemble)
  | .request call => (call.step now e).map fun p => (p.1.bimap .request id, p.2)
  | .read call => (call.step now e).map fun p => (.done p.1, p.2)

/-- What an errand remembers is in a scope. -/
def Errand.Knows (k : Scope) : Errand → Prop
  | .request call => call.Knows k
  | .read _ => True

theorem Errand.Knows.mono {k k' : Scope} {errand : Errand} (h : errand.Knows k)
    (hpart : k.Part k') : errand.Knows k' := by
  cases errand with
  | request call => exact Routed.Knows.mono h hpart
  | read call => trivial

theorem Errand.knows_all (errand : Errand) : errand.Knows .all := by
  cases errand with
  | request call => exact call.knows_all
  | read call => trivial

/-- A step of an errand, in a scope of what it knows and the servers tell it. -/
theorem Errand.deeds_step {k : Scope} {now : Nat} {e : Ensemble} (he : e.Supports k)
    {errand : Errand} (hknows : errand.Knows k)
    {p : Progress Errand (Except Fault Roster) × Ensemble} (h : errand.step now e = some p) :
    e.Deeds k p.2 ∧ p.1.Within k (Knows k) := by
  cases errand with
  | request call =>
      obtain ⟨⟨progress, e'⟩, hstep, rfl⟩ := Option.map_eq_some_iff.1 h
      obtain ⟨hdeeds, hwithin⟩ := Routed.deeds_step he hknows hstep
      refine ⟨hdeeds, ?_⟩
      match progress, hwithin with
      | .going _, hgoing => exact hgoing
      | .done (.ok _), hdone => exact hdone
      | .done (.error _), _ => trivial
  | read call =>
      obtain ⟨⟨result, e'⟩, hstep, rfl⟩ := Option.map_eq_some_iff.1 h
      obtain ⟨htouches, hresult⟩ := Reading.touches_step he hstep
      refine ⟨.quiet htouches, ?_⟩
      cases result with
      | error fault => trivial
      | ok r => exact hresult r rfl

/-- An ensemble and the errands of its clients, the first one first. -/
structure Service where
  ensemble : Ensemble
  errands : List (Progress Errand (Except Fault Roster))

namespace Service

inductive Operation where
  | spawn (id : ServerId)
  | stop (id : ServerId)
  | start (id : ServerId)
  | elect
  | leaderOrElect
  | write (record : Record) (plain : record.isReconfigure = false)
  | connect (server : ServerId) (watch : Bool)
  | close (session : SessionId)
  | reconnect (session : SessionId) (server : ServerId)
  | failover (session : SessionId)
  | dropInbox (session : SessionId)
  /-- A session begins to read where it is connected, at some instant. -/
  | read (session : SessionId) (now : Nat)
  | request (session : SessionId) (request : Request)
  /-- The errand at a place takes a step at some instant, unless it has to wait. -/
  | advance (place now : Nat)

def withEnsemble (s : Service) (e : Ensemble) : Service :=
  { s with ensemble := e }

/-- The service with one more errand, unless that failed at once. -/
def undertake (s : Service) (errand : Except Fault Errand) : Service :=
  match errand with
  | .ok errand => { s with errands := s.errands ++ [.going errand] }
  | .error fault => { s with errands := s.errands ++ [.done (.error fault)] }

def advance (s : Service) (place now : Nat) : Service :=
  match s.errands[place]? with
  | some (.going errand) =>
    match errand.step now s.ensemble with
    | some (progress, e) => ⟨e, s.errands.set place progress⟩
    | none => s
  | _ => s

def perform (s : Service) : Operation → Service
  | .spawn id => s.withEnsemble (s.ensemble.spawn id)
  | .stop id => s.withEnsemble (s.ensemble.stop id).2
  | .start id => s.withEnsemble { s.ensemble with log := (s.ensemble.log.start id).2 }
  | .elect => s.withEnsemble s.ensemble.elect.2
  | .leaderOrElect => s.withEnsemble s.ensemble.leaderOrElect.2
  | .write record _ => s.withEnsemble (s.ensemble.write record).2
  | .connect server watch => s.withEnsemble (s.ensemble.connect server watch).2
  | .close session => s.withEnsemble (s.ensemble.close session).2
  | .reconnect session server =>
    match s.ensemble.reconnect session server with
    | .ok e => s.withEnsemble e
    | .error _ => s
  | .failover session =>
    match s.ensemble.failover session with
    | .ok (_, e) => s.withEnsemble e
    | .error _ => s
  | .dropInbox session =>
    s.withEnsemble { s.ensemble with sessions := s.ensemble.sessions.dropInbox session }
  | .read session now =>
    let (reading, e) := Reading.startConnected now s.ensemble session
    (s.withEnsemble e).undertake (reading.map .read)
  | .request session request =>
    s.undertake ((Routed.start s.ensemble session request).map .request)
  | .advance place now => s.advance place now

/-- The service after some operations on an ensemble that had no errands. -/
def run (e : Ensemble) (operations : List Operation) : Service :=
  operations.foldl perform ⟨e, []⟩

theorem run_concat (e : Ensemble) (operations : List Operation) (operation : Operation) :
    run e (operations ++ [operation]) = (run e operations).perform operation := by
  rw [run, List.foldl_append]
  rfl

theorem ensemble_undertake (s : Service) (errand : Except Fault Errand) :
    (s.undertake errand).ensemble = s.ensemble := by
  cases errand <;> rfl

end Service

end Quorate
