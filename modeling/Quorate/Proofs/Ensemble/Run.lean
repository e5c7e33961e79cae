import Quorate.Proofs.Call.Request
import Quorate.Proofs.Ensemble.Rest
import Quorate.Proofs.Reaches

/-!
# Runs of an ensemble

An ensemble starts with an election among the members of its seed, and from then on servers
are spawned, stopped, started and attached again, elections are held, leaders resign and
begin epochs, records are written and proposed, sessions come, move, read and go, and
servers and sessions run reconfigurations, in any order. A call that may wait is run as far
as it gets before anything else happens, as a schedule does it; only a read ever waits
(`Operation.look`), since a reconfiguration finds the ensemble `Calm` (`Calm.perform`) and
then comes to its end at once.
-/

namespace Quorate

namespace Ensemble

inductive Operation where
  | spawn (id : ServerId)
  | stop (id : ServerId)
  | start (id : ServerId)
  | reattach (id : ServerId)
  | elect
  | leaderOrElect
  | resign (leader : ServerId)
  | establish (leader : ServerId)
  /-- Commit a record through the leader. -/
  | write (record : Record)
  /-- A server proposes a record, whether it leads or not. -/
  | propose (sender : ServerId) (record : Record)
  | connect (server : ServerId) (watch : Bool)
  | close (session : SessionId)
  | reconnect (session : SessionId) (server : ServerId)
  | failover (session : SessionId)
  | dropInbox (session : SessionId)
  /-- The clients read what is in their inboxes. -/
  | drain
  /-- A session begins to read where it is connected. -/
  | read (session : SessionId) (now : Nat)
  /-- A read that was begun takes a step, unless it has to wait. -/
  | look (call : Reading) (now : Nat)
  /-- A server runs a reconfiguration. -/
  | reconfigure (server : ServerId) (request : Request) (now : Nat)
  /-- A session requests a reconfiguration. -/
  | request (session : SessionId) (request : Request) (now : Nat)

/-- The records that an operation brings in are such ones. -/
def Operation.Brings (allowed : Record → Prop) : Operation → Prop
  | .write record | .propose _ record => allowed record
  | _ => True

def withLog (e : Ensemble) (log : CommitLog Server) : Ensemble :=
  { e with log }

def perform (e : Ensemble) : Operation → Ensemble
  | .spawn id => e.spawn id
  | .stop id => (e.stop id).2
  | .start id => e.withLog (e.log.start id).2
  | .reattach id => e.withLog (e.log.reattach id)
  | .elect => e.elect.2
  | .leaderOrElect => e.leaderOrElect.2
  | .resign leader => e.withLog (e.log.resign leader)
  | .establish leader => e.withLog (e.log.establish leader).2
  | .write record => (e.write record).2
  | .propose sender record => e.withLog (e.log.propose sender record).2
  | .connect server watch => (e.connect server watch).2
  | .close session => (e.close session).2
  | .reconnect session server => ((e.reconnect session server).toOption).getD e
  | .failover session => (((e.failover session).map (·.2)).toOption).getD e
  | .dropInbox session => { e with sessions := e.sessions.dropInbox session }
  | .drain => { e with sessions := e.sessions.drained }
  | .read session now => (Reading.startConnected now e session).2
  | .look call now => ((call.step now e).map (·.2)).getD e
  | .reconfigure server request now => (e.reconfigure now server request).2
  | .request session request now => (e.request now session request).2

/-- The ensembles that the runs over a seed come to, if they bring in only such records and
neither epoch nor counter of the log is ever counted to its end. -/
def Reachable (template : Settings) (seed : Roster) (allowed : Record → Prop)
    (e : Ensemble) : Prop :=
  ∃ first, bootstrap template seed = .ok first ∧
    Reaches (fun e (o : { o : Operation // o.Brings allowed }) => e.perform o)
      (·.log.InRange) first e

variable {seed : Roster} {e e' : Ensemble}

/-- Who leads is settled without a wait, and nothing but the log is touched for that. -/
theorem Calm.leaderOrElect (h : e.Calm seed) (hr : e.log.InRange) :
    e.leaderOrElect.2.Calm seed := by
  rcases e.leaderOrElect_cases with ⟨leader, _, heq⟩ |
    ⟨_, ⟨_, winner, heq, _, hon⟩ | ⟨_, heq⟩⟩
  · rw [heq]
    exact h
  · rw [heq]
    exact h.renewed hr.1 hon
  · rw [heq]
    exact h.unled

theorem Calm.propose (h : e.Calm seed) (hcounter : e.log.counter ≠ 0xFFFFFFFF)
    (sender : ServerId) (record : Record) :
    { e with log := (e.log.propose sender record).2 }.Calm seed :=
  h.onward (CommitLog.onward_propose seed e.log sender record)
    (h.ordered.propose hcounter sender record)
    (CommitLog.keeps_propose Server.marks_learn Server.marks_hear e.log sender record)

theorem Calm.write (h : e.Calm seed) (hr : e.log.InRange) (record : Record) :
    (e.write record).2.Calm seed := by
  have hcalm := h.leaderOrElect hr
  have hcounter := counter_leaderOrElect hr
  unfold Ensemble.write
  cases heq : e.leaderOrElect with
  | mk leader e' =>
      rw [heq] at hcalm hcounter
      cases leader with
      | error fault => exact hcalm
      | ok leader => exact hcalm.propose hcounter leader record

theorem Calm.spawn (h : e.Calm seed) (id : ServerId) : (e.spawn id).Calm seed := by
  refine (h.rests.spawn id).calm ?_
  unfold Ensemble.spawn
  cases e.server id with
  | ok s => exact h.ordered
  | error fault => exact h.ordered.still rfl rfl rfl

theorem Calm.spawnAll (h : e.Calm seed) (ids : List ServerId) : (e.spawnAll ids).Calm seed := by
  induction ids generalizing e with
  | nil => exact h
  | cons id ids ih => exact ih (h.spawn id)

/-- A single turn of the log keeps the ensemble calm. -/
theorem Calm.turn (h : e.Calm seed) (hr : e.log.InRange) {log : CommitLog Server}
    (ho : CommitLog.Onward seed e.log log) (hk : CommitLog.Keeps Server.marks e.log log) :
    { e with log }.Calm seed :=
  h.onward ho (h.ordered.turn hr ho.turn) hk

theorem Calm.stop (h : e.Calm seed) (hr : e.log.InRange) (id : ServerId) :
    (e.stop id).2.Calm seed := by
  unfold Ensemble.stop
  cases e.server id with
  | error fault => exact h
  | ok s =>
      exact h.turn hr (CommitLog.onward_stop seed e.log id)
        (CommitLog.keeps_stop Server.marks_hear e.log id)

theorem Calm.connect (h : e.Calm seed) (hr : e.log.InRange) (server : ServerId) (watch : Bool) :
    (e.connect server watch).2.Calm seed := by
  refine (h.rests.connect server watch).calm ?_
  have hnext : { e with serial := e.serial + 1 }.Calm seed := { h with }
  rcases e.log_connect_cases server watch with heq | heq
  · rw [heq]
    exact h.ordered
  · rw [heq]
    exact (hnext.write hr (.openSession (sessionId server e.serial) server)).ordered

theorem Calm.close (h : e.Calm seed) (hr : e.log.InRange) (session : SessionId) :
    (e.close session).2.Calm seed := by
  rcases e.close_cases session with ⟨_, _, heq⟩ | ⟨sessions, _, _, hclose, hwrite, heq⟩
  · rw [heq]
    exact h
  · have hcalm := (h.withSessions (h.placed.close hclose)).write hr (.closeSession session)
    rw [hwrite] at hcalm
    rw [heq]
    exact hcalm

theorem Calm.reconnect (h : e.Calm seed) {session : SessionId} {server : ServerId}
    (he : e.reconnect session server = .ok e') : e'.Calm seed :=
  (h.rests.reconnect he).calm (log_reconnect he ▸ h.ordered)

theorem Calm.failover (h : e.Calm seed) {session : SessionId} {target : ServerId}
    (he : e.failover session = .ok (target, e')) : e'.Calm seed :=
  (h.rests.failover he).calm (log_failover he ▸ h.ordered)

theorem Calm.startConnected (h : e.Calm seed) (now : Nat) (session : SessionId) :
    (Reading.startConnected now e session).2.Calm seed :=
  (h.rests.startConnected now session).calm (Reading.log_startConnected now e session ▸ h.ordered)

theorem Calm.look (h : e.Calm seed) {call : Reading} {now : Nat}
    {p : Except Fault Roster × Ensemble} (hp : call.step now e = some p) : p.2.Calm seed :=
  (h.rests.look hp).calm (Reading.log_step hp ▸ h.ordered)

theorem reconfigure_of_missing {server : ServerId} {fault : Fault}
    (hs : e.server server = .error fault) (now : Nat) (request : Request) :
    e.reconfigure now server request = (.done (.error fault), e) := by
  refine Progress.burst_eq_of_leads (n := 1) (Progress.leads_one ?_) (by decide)
  simp only [Reconfiguration.step, Reconfiguration.start, hs]

/-- A server that is there runs a request to its end. -/
theorem exists_ends_of_reconfigure (h : e.Calm seed) (hr : e.log.InRange) {server : ServerId}
    {s : Server} (hs : e.server server = .ok s) (now : Nat) (request : Request) :
    ∃ result e', Reconfiguration.Ends e server s request result e' ∧
      e.reconfigure now server request = (.done result, e') := by
  obtain ⟨result, e', hends, n, hn, hleads⟩ := Reconfiguration.exists_ends (h.prepared hs) hr.2 request now
  exact ⟨result, e', hends, Progress.burst_eq_of_leads hleads (hn.trans (by decide))⟩

theorem ends_of_reconfigured (h : e.Calm seed) (hr : e.log.InRange) {now : Nat}
    {server : ServerId} {request : Request} {next : Roster}
    (hgranted : e.reconfigure now server request = (.done (.ok next), e')) :
    ∃ s, e.server server = .ok s ∧ Reconfiguration.Ends e server s request (.ok next) e' := by
  cases hs : e.server server with
  | error fault =>
      rw [reconfigure_of_missing hs] at hgranted
      cases hgranted
  | ok s =>
      obtain ⟨_, _, hends, heq⟩ := exists_ends_of_reconfigure h hr hs now request
      cases heq.symm.trans hgranted
      exact ⟨s, rfl, hends⟩

theorem Calm.reconfigure (h : e.Calm seed) (hr : e.log.InRange) {now : Nat} {server : ServerId}
    {request : Request} (hr' : (e.reconfigure now server request).2.log.InRange) :
    (e.reconfigure now server request).2.Calm seed := by
  cases hs : e.server server with
  | error fault =>
      rw [reconfigure_of_missing hs]
      exact h
  | ok s =>
      obtain ⟨result, e', hends, heq⟩ := exists_ends_of_reconfigure h hr hs now request
      rw [heq] at hr' ⊢
      exact hends.calm h hs hr.2 hr'.1

theorem request_of_missing {session : SessionId} {fault : Fault}
    (hsession : e.sessions.get session = .error fault) (now : Nat) (request : Request) :
    e.request now session request = (.done (.error fault), e) := by
  rw [Ensemble.request, Routed.start, hsession]
  rfl

theorem ends_of_granted (h : e.Calm seed) (hr : e.log.InRange) {now : Nat} {session : SessionId}
    {request : Request} {next : Roster}
    (hgranted : e.request now session request = (.done (.ok next), e')) :
    Routed.Ends e session request (.ok next) e' := by
  cases hsession : e.sessions.get session with
  | error fault =>
      rw [request_of_missing hsession] at hgranted
      cases hgranted
  | ok connected =>
      obtain ⟨_, _, hends, heq⟩ := Routed.exists_ends h hr hsession now request
      cases heq.symm.trans hgranted
      exact hends

end Ensemble

theorem Routed.Ends.calm {seed : Roster} {e e' : Ensemble} {session : SessionId}
    {request : Request} {result : Except Fault Roster} (h : Ends e session request result e')
    (he : e.Calm seed) (hr : e.log.InRange) (hepoch : e'.log.epoch ≠ 0xFFFFFFFF) :
    e'.Calm seed := by
  have hcalm := he.leaderOrElect hr
  have hcounter := Ensemble.counter_leaderOrElect hr
  cases h with
  | disabled _ => exact he
  | leaderless _ lost =>
      rw [lost] at hcalm
      exact hcalm
  | failed _ led found ends =>
      rw [led] at hcalm hcounter
      exact ends.calm hcalm found hcounter hepoch
  | committed _ led found ends observed =>
      rw [led] at hcalm hcounter
      have hend := ends.calm hcalm found hcounter hepoch
      exact hend.withSessions (hend.placed.observe observed)

namespace Ensemble

variable {seed : Roster} {e e' : Ensemble}

theorem Calm.request (h : e.Calm seed) (hr : e.log.InRange) {now : Nat} {session : SessionId}
    {request : Request} (hr' : (e.request now session request).2.log.InRange) :
    (e.request now session request).2.Calm seed := by
  cases hsession : e.sessions.get session with
  | error fault =>
      rw [request_of_missing hsession]
      exact h
  | ok connected =>
      obtain ⟨result, e', hends, heq⟩ := Routed.exists_ends h hr hsession now request
      rw [heq] at hr' ⊢
      exact hends.calm h hr hr'.1

/-- Every operation leaves a calm ensemble calm. -/
theorem Calm.perform (h : e.Calm seed) (hr : e.log.InRange) (o : Operation)
    (hr' : (e.perform o).log.InRange) : (e.perform o).Calm seed := by
  cases o with
  | spawn id => exact h.spawn id
  | stop id => exact h.stop hr id
  | start id =>
      exact h.turn hr (CommitLog.onward_start seed e.log id)
        (CommitLog.keeps_start Server.marks_learn e.log id)
  | reattach id =>
      exact h.turn hr (CommitLog.onward_reattach seed e.log id)
        (CommitLog.keeps_reattach Server.marks_learn e.log id)
  | elect => exact h.elect hr'.1
  | leaderOrElect => exact h.leaderOrElect hr
  | resign leader => exact h.resign leader
  | establish leader => exact h.establish hr'.1
  | write record => exact h.write hr record
  | propose sender record => exact h.propose hr.2 sender record
  | connect server watch => exact h.connect hr server watch
  | close session => exact h.close hr session
  | reconnect session server =>
      rw [Ensemble.perform]
      cases hmoved : e.reconnect session server with
      | error fault => exact h
      | ok moved => exact h.reconnect hmoved
  | failover session =>
      rw [Ensemble.perform]
      cases hmoved : e.failover session with
      | error fault => exact h
      | ok moved => exact h.failover hmoved
  | dropInbox session => exact h.withSessions h.placed
  | drain => exact h.withSessions h.placed
  | read session now => exact h.startConnected now session
  | look call now =>
      rw [Ensemble.perform]
      cases hlook : call.step now e with
      | none => exact h
      | some p => exact h.look hlook
  | reconfigure server request now => exact h.reconfigure hr hr'
  | request session request now => exact h.request hr hr'

theorem calm_bootstrap {template : Settings} (h : bootstrap template seed = .ok e)
    (hepoch : e.log.epoch ≠ 0xFFFFFFFF) : e.Calm seed := by
  obtain ⟨_, rfl⟩ := bootstrap_eq_ok_iff.1 h
  exact ((calm_vacant template seed).spawnAll seed.ids).elect hepoch

theorem Reachable.inRange {template : Settings} {allowed : Record → Prop}
    (h : Reachable template seed allowed e) : e.log.InRange := by
  obtain ⟨_, _, hreaches⟩ := h
  exact hreaches.within

theorem Reachable.calm {template : Settings} {allowed : Record → Prop}
    (h : Reachable template seed allowed e) : e.Calm seed := by
  obtain ⟨first, hfirst, hreaches⟩ := h
  have hwithin : first.log.InRange → first.Calm seed := fun hr => calm_bootstrap hfirst hr.1
  exact hreaches.invariant_within (·.Calm seed)
    (hwithin (hreaches.first_within)) fun e o hr hr' hcalm => hcalm.perform hr o.1 hr'

/-- The session that is opened first, on the first of three servers. -/
def firstSession : SessionId := sessionId 1 1

/-- Three servers, of which the last one leads. -/
def trio : Ensemble :=
  ((vacant {} .trio []).spawnAll Roster.trio.ids).elect.2

/-- The same with a session on a server that does not lead. The session watches. -/
def attended : Ensemble :=
  trio.perform (.connect 1 true)

theorem reachable_attended {allowed : Record → Prop} : Reachable {} .trio allowed attended := by
  have hboot : bootstrap {} .trio = .ok trio := by decide +kernel
  have hfirst : Reaches (fun e (o : { o : Operation // o.Brings allowed }) => e.perform o)
      (·.log.InRange) trio trio := .first (by decide +kernel)
  have hconnected : attended.log.InRange := by decide +kernel
  exact ⟨trio, hboot, Reaches.step
    (⟨.connect 1 true, trivial⟩ : { o : Operation // o.Brings allowed }) hfirst hconnected⟩

theorem get_firstSession_attended :
    attended.sessions.get firstSession = .ok ⟨1, .zero, false, true⟩ := by
  decide +kernel

end Ensemble

end Quorate
