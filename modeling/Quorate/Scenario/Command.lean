import Quorate.Call.Reading
import Quorate.Call.Routed
import Quorate.Request.Wire
import Quorate.Scenario.Reply
import Quorate.Schedule

/-!
# Commands to an ensemble

The world of an ensemble and its clients: what can be asked of the log, of a server, of
the sessions and of the ensemble as a whole. Commands that may wait become calls.
-/

namespace Quorate

/-- A session, by its id or by its place among those that were opened. -/
inductive SessionRef where
  | named (session : SessionId)
  | nth (index : Nat)
  deriving DecidableEq

inductive Command where
  /-- A command whose arguments could not be read. -/
  | unreadable (fault : Fault)
  | sleep (milliseconds : Nat)
  | log (command : LogCommand)
  | attach (server : ServerId)
  /-- Attach a server once more, or a new one if it is gone. -/
  | reattach (server : ServerId)
  | propose (sender : ServerId) (record : Record)
  | apply (server : ServerId) (stamp : Stamp) (record : Record)
  | current (server : ServerId)
  | rosterAt (server : ServerId) (version : Version)
  | history (server : ServerId)
  | wait (server : ServerId) (version : Version) (milliseconds : Nat)
  /-- Submit members on a base, the server's current roster if none is given. -/
  | submit (server : ServerId) (base : Option Roster) (members : List Member) (floor : Version)
  | hear (server : ServerId) (outcome : Outcome)
  | reconfigure (server : ServerId) (request : Request)
  | followUp (server : ServerId) (prev next : Roster)
  | register (session : SessionId) (server : ServerId) (observed : Version) (watch : Bool)
  | dropInbox (session : SessionRef)
  | push (roster : Roster)
  | session (session : SessionRef)
  | observe (session : SessionRef) (version : Version)
  /-- Move a session to a server that must be a member of the given roster. -/
  | reassign (session : SessionRef) (server : ServerId) (roster : Roster)
  | readFrom (session : SessionRef) (server : ServerId)
  | forget (session : SessionRef)
  | spawn (server : ServerId)
  | stop (server : ServerId)
  | leaderOrElect
  | write (record : Record)
  | connect (server : ServerId) (watch : Bool)
  | close (session : SessionRef)
  | getConfig (session : SessionRef)
  | request (session : SessionRef) (wire : WireRequest)
  | readConfig (session : SessionRef)
  | reconnect (session : SessionRef) (server : ServerId)
  | failover (session : SessionRef)

inductive Call where
  | sleeping (wake : Nat)
  | waiting (wait : Wait)
  /-- A record on its way to the log, without a timeout. -/
  | sending (sender : ServerId) (record : Record) (passage : Passage) (arrival : Nat)
  | submitting (submission : Submission)
  | reconfiguring (call : Reconfiguration)
  | followingUp (call : FollowUp)
  | routed (call : Routed)
  /-- A read, answered by a response or by the text of the roster. -/
  | reading (asResponse : Bool) (call : Reading)

/-- An ensemble and the sessions that its clients opened, the latest last. -/
structure Scene where
  ensemble : Ensemble
  opened : List SessionId

namespace Scene

def find? (s : Scene) : SessionRef → Option SessionId
  | .named session => some session
  | .nth index => s.opened[index]?

/-- The scene after a session was opened, or registered again. -/
def opening (s : Scene) (session : SessionId) : Scene :=
  { s with opened := s.opened.filter (· ≠ session) ++ [session] }

def withEnsemble (s : Scene) (e : Ensemble) : Scene :=
  { s with ensemble := e }

def withSessions (s : Scene) (sessions : Sessions) : Scene :=
  { s with ensemble := { s.ensemble with sessions } }

def answer (s : Scene) (reply : Reply) : Progress Call Reply × Scene :=
  (.done reply, s)

/-- The answer of a result. A success also gives the scene that follows. -/
def conclude {α : Type} (s : Scene) (result : Except Fault α) (success : α → Reply × Scene) :
    Progress Call Reply × Scene :=
  match result with
  | .error f => s.answer (.fault f)
  | .ok value =>
    let (reply, s) := success value
    (.done reply, s)

def operate {α : Type} (s : Scene) (success : α → Reply)
    (operation : Except Fault α × Ensemble) : Progress Call Reply × Scene :=
  (.done (.ofResult success operation.1), s.withEnsemble operation.2)

def operateSessions (s : Scene) (sessions : Except Fault Sessions) :
    Progress Call Reply × Scene :=
  s.conclude sessions fun sessions => (.done, s.withSessions sessions)

def ask (s : Scene) (server : ServerId) (answer : Server → Reply) :
    Progress Call Reply × Scene :=
  s.conclude (s.ensemble.server server) fun target => (answer target, s)

def withSession (s : Scene) (ref : SessionRef)
    (command : SessionId → Progress Call Reply × Scene) : Progress Call Reply × Scene :=
  match s.find? ref with
  | none => s.answer .unknownSession
  | some session => command session

def submit (s : Scene) (now : Nat) (server : ServerId) (base : Option Roster)
    (members : List Member) (floor : Version) : Progress Call Reply × Scene :=
  match s.ensemble.server server with
  | .error f => s.answer (.fault f)
  | .ok target =>
    let base := (base.getD target.current).version
    let (submission, e) := Submission.start now s.ensemble target { base, floor, members }
    (.going (.submitting submission), s.withEnsemble e)

def request (s : Scene) (session : SessionId) (wire : WireRequest) :
    Progress Call Reply × Scene :=
  match wire.read.bind (Routed.start s.ensemble session) with
  | .error f => s.answer (.response (.ofFault f))
  | .ok call => (.going (.routed call), s)

def read (s : Scene) (now : Nat) (session : SessionId) (asResponse : Bool) :
    Progress Call Reply × Scene :=
  match Reading.startConnected now s.ensemble session with
  | (.ok call, e) => (.going (.reading asResponse call), s.withEnsemble e)
  | (.error f, e) =>
    (.done (if asResponse then .response (.ofFault f) else .fault f), s.withEnsemble e)

def connect (s : Scene) (server : ServerId) (watch : Bool) : Progress Call Reply × Scene :=
  match s.ensemble.connect server watch with
  | (.error f, e) => (.done (.fault f), s.withEnsemble e)
  | (.ok session, e) => (.done (.opened session), (s.withEnsemble e).opening session)

def start (now : Nat) (command : Command) (s : Scene) : Progress Call Reply × Scene :=
  let e := s.ensemble
  match command with
  | .unreadable fault => s.answer (.fault fault)
  | .sleep milliseconds => (.going (.sleeping (now + milliseconds)), s)
  | .log command =>
    let (reply, log) := command.perform e.log
    (.done reply, s.withEnsemble { e with log })
  | .attach server => (.done .done, s.withEnsemble (e.install server))
  | .reattach server =>
    match e.server server with
    | .ok _ => (.done .done, s.withEnsemble { e with log := e.log.reattach server })
    | .error _ => (.done .done, s.withEnsemble (e.install server))
  | .propose sender record =>
    let (transit, e) := if record.isReconfigure then e.takeTransit else ({}, e)
    (.going (.sending sender record transit.passage (now + transit.delay)), s.withEnsemble e)
  | .apply server stamp record =>
    s.conclude (e.server server) fun _ =>
      (.done, s.withEnsemble (e.adjust server (·.learn stamp record)))
  | .current server => s.ask server fun target => .text target.current.text
  | .rosterAt server version =>
    s.ask server fun target => .ofText? ((target.view.rosterAt? version).map (·.text))
  | .history server =>
    s.ask server fun target => .texts (target.view.history.map (·.2.text))
  | .wait server version milliseconds =>
    (.going (.waiting { server, required := version, deadline := now + milliseconds }), s)
  | .submit server base members floor => s.submit now server base members floor
  | .hear server outcome =>
    s.conclude (e.server server) fun _ =>
      (.done, s.withEnsemble (e.adjust server (·.hear outcome)))
  | .reconfigure server request => (.going (.reconfiguring (.start server request)), s)
  | .followUp server prev next =>
    match FollowUp.start server prev next e with
    | (.going call, e) => (.going (.followingUp call), s.withEnsemble e)
    | (.done result, e) => (.done (.ofResult (fun _ => .done) result), s.withEnsemble e)
  | .register session server observed watch =>
    let s := (s.withSessions (e.sessions.register session server observed watch))
    (.done (.watching watch), s.opening session)
  | .dropInbox ref =>
    s.withSession ref fun session =>
      (.done .done, s.withSessions (e.sessions.dropInbox session))
  | .push roster => (.done .done, s.withEnsemble (e.push roster))
  | .session ref =>
    s.withSession ref fun session =>
      s.conclude (e.sessions.get session) fun found => (.session found, s)
  | .observe ref version =>
    s.withSession ref fun session => s.operateSessions (e.sessions.observe session version)
  | .reassign ref server roster =>
    s.withSession ref fun session =>
      s.operateSessions (e.sessions.reconnect session server roster)
  | .readFrom ref server =>
    s.withSession ref fun session =>
      match e.server server with
      | .error f => s.answer (.fault f)
      | .ok _ =>
        match Reading.start now e session server with
        | .error f => s.answer (.fault f)
        | .ok call => (.going (.reading false call), s)
  | .forget ref =>
    s.withSession ref fun session => s.operateSessions (e.sessions.close session)
  | .spawn server =>
    let s := s.withEnsemble (e.spawn server)
    s.ask server fun target => .spawned server target.settings.id target.role
  | .stop server => s.operate (fun _ => .done) (e.stop server)
  | .leaderOrElect => s.operate (fun leader => .leader (some leader)) e.leaderOrElect
  | .write record => s.operate .stamp (e.write record)
  | .connect server watch => s.connect server watch
  | .close ref =>
    s.withSession ref fun session => s.operate (fun _ => .done) (e.close session)
  | .getConfig ref => s.withSession ref fun session => s.read now session true
  | .request ref wire => s.withSession ref fun session => s.request session wire
  | .readConfig ref => s.withSession ref fun session => s.read now session false
  | .reconnect ref server =>
    s.withSession ref fun session =>
      s.conclude (e.reconnect session server) fun e => (.done, s.withEnsemble e)
  | .failover ref =>
    s.withSession ref fun session =>
      s.conclude (e.failover session) fun (target, e) => (.movedTo target, s.withEnsemble e)

def lift {σ α : Type} (s : Scene) (call : σ → Call) (reply : α → Reply)
    (step : Progress σ α × Ensemble) : Progress Call Reply × Scene :=
  (step.1.bimap call reply, s.withEnsemble step.2)

def resume (now : Nat) (call : Call) (s : Scene) : Option (Progress Call Reply × Scene) :=
  let e := s.ensemble
  match call with
  | .sleeping wake => if wake ≤ now then some (s.answer .nothing) else none
  | .waiting wait =>
    (wait.step now e).map fun result =>
      s.answer (.ofResult (fun r => .text r.text) result)
  | .sending sender record passage arrival =>
    if arrival ≤ now then
      some (s.operate (fun verdict => .ofText? (verdict.stamp?.map (·.text)))
        (e.arrive sender record passage))
    else none
  | .submitting submission =>
    (submission.step now e).map (s.lift .submitting (.ofResult .roster))
  | .reconfiguring call =>
    (call.step now e).map (s.lift .reconfiguring (.ofResult .reconfigured))
  | .followingUp call =>
    some (s.lift .followingUp (.ofResult fun _ => .done) (call.step e))
  | .routed call =>
    (call.step now e).map
      (s.lift .routed fun result => .response (.ofResult (result.map (·.text))))
  | .reading asResponse call =>
    (call.step now e).map fun (result, e) =>
      let reply :=
        if asResponse then .response (.ofResult (result.map (·.text)))
        else .ofResult (fun r => .text r.text) result
      (.done reply, s.withEnsemble e)

def alarm : Call → Option Nat
  | .sleeping wake => some wake
  | .waiting wait => some wait.deadline
  | .sending _ _ _ arrival => some arrival
  | .submitting submission => some submission.alarm
  | .reconfiguring call => call.alarm
  | .followingUp _ => none
  | .routed call => call.alarm
  | .reading _ call => some call.wait.deadline

instance : World Scene Command Call Reply where
  start := start
  resume := resume
  alarm := alarm
  read s := s.withSessions s.ensemble.sessions.drained

end Scene

end Quorate
