import Quorate.Server
import Quorate.Sessions
import Quorate.Verdict

/-!
# Ensembles

An ensemble is a commit log with servers as its replicas, the sessions of its clients,
and the link over which servers send config records to the log: a record may be delayed,
lost or answered on its way. The operations here answer at once; those that may have to
wait are calls in steps, in the modules below this one.
-/

namespace Quorate

inductive Passage where
  | forwarded
  /-- The record is lost, and so is the answer. -/
  | timedOut
  | pending
  /-- The record is lost, but answered as if it were committed. -/
  | answered (stamp : Stamp)
  | refused (fault : Fault)
  deriving DecidableEq

/-- How long a config record is on its way, and what happens to it then. -/
structure Transit where
  delay : Nat := 0
  passage : Passage := .forwarded
  deriving DecidableEq

structure Ensemble where
  /-- The settings of every server but for its id. -/
  template : Settings
  seed : Roster
  log : CommitLog Server
  sessions : Sessions
  /-- The number of the next session. -/
  serial : UInt64
  /-- What happens to the next config records on their way; later ones are forwarded
  at once. -/
  link : List Transit
  deriving DecidableEq

/-- The id of a session: the server that opened it in the top byte, then a number. -/
def sessionId (server : ServerId) (serial : UInt64) : SessionId :=
  (server <<< 56) ||| (serial &&& 0x00ffffffffffffff)

namespace Ensemble

def vacant (template : Settings) (seed : Roster) (link : List Transit) : Ensemble where
  template := template
  seed := seed
  log := .empty seed
  sessions := .empty
  serial := 1
  link := link

def server (e : Ensemble) (id : ServerId) : Except Fault Server :=
  match e.log.replica? id with
  | some s => .ok s
  | none => .error (.noSuchServer id)

def install (e : Ensemble) (id : ServerId) : Ensemble :=
  { e with log := e.log.attach id (.ofSeed (e.template.forServer id) e.seed) }

def spawn (e : Ensemble) (id : ServerId) : Ensemble :=
  match e.server id with
  | .ok _ => e
  | .error _ => e.install id

def spawnAll (e : Ensemble) (ids : List ServerId) : Ensemble :=
  ids.foldl spawn e

def elect (e : Ensemble) : Outcome × Ensemble :=
  let (outcome, log) := e.log.elect
  (outcome, { e with log })

/-- An ensemble of the members of a seed, after its first election. -/
def bootstrap (template : Settings) (seed : Roster) : Except Fault Ensemble :=
  if seed.participants = [] then .error (.invalidMembership .seedWithoutParticipant)
  else .ok ((vacant template seed []).spawnAll seed.ids).elect.2

def adjust (e : Ensemble) (id : ServerId) (f : Server → Server) : Ensemble :=
  { e with log := e.log.adjust id f }

def stop (e : Ensemble) (id : ServerId) : Except Fault Unit × Ensemble :=
  match e.server id with
  | .error f => (.error f, e)
  | .ok _ => (.ok (), { e with log := e.log.stop id })

def leaderOrElect (e : Ensemble) : Except Fault ServerId × Ensemble :=
  let (leader, log) := e.log.leaderOrElect
  (leader, { e with log })

def write (e : Ensemble) (record : Record) : Except Fault Stamp × Ensemble :=
  match e.leaderOrElect with
  | (.error f, e) => (.error f, e)
  | (.ok leader, e) =>
    let (stamp, log) := e.log.propose leader record
    (stamp, { e with log })

/-- Open a session on a server that runs and is a member of the roster it applied. The
log commits the session before it is registered. -/
def connect (e : Ensemble) (server : ServerId) (watch : Bool) :
    Except Fault SessionId × Ensemble :=
  match e.server server with
  | .error f => (.error f, e)
  | .ok target =>
    if !e.log.isOnline server || !target.current.contains server then
      (.error (.noSuchServer server), e)
    else
      let session := sessionId server e.serial
      match { e with serial := e.serial + 1 }.write (.openSession session server) with
      | (.error f, e) => (.error f, e)
      | (.ok _, e) =>
        let observed := ((e.log.replica? server).getD target).current.version
        (.ok session,
          { e with sessions := e.sessions.register session server observed watch })

/-- Close a session: forget it, then commit that it is closed. -/
def close (e : Ensemble) (session : SessionId) : Except Fault Unit × Ensemble :=
  match e.sessions.close session with
  | .error f => (.error f, e)
  | .ok sessions =>
    match { e with sessions }.write (.closeSession session) with
    | (.error f, e) => (.error f, e)
    | (.ok _, e) => (.ok (), e)

def reconnect (e : Ensemble) (session : SessionId) (server : ServerId) :
    Except Fault Ensemble := do
  let target ← e.server server
  if e.log.isOnline server then
    let sessions ← e.sessions.reconnect session server target.current
    return { e with sessions }
  else .error (.noSuchServer server)

def isRunning (e : Ensemble) (id : ServerId) : Bool :=
  (e.log.replica? id).isSome && e.log.isOnline id

/-- Move a session to the first running member of the roster that its server applied. -/
def failover (e : Ensemble) (session : SessionId) : Except Fault (ServerId × Ensemble) := do
  let connected ← e.sessions.get session
  let present ← e.server connected.server
  match present.current.ids.find? e.isRunning with
  | none => .error (.noSuchServer connected.server)
  | some target =>
    let e ← e.reconnect session target
    return (target, e)

def push (e : Ensemble) (r : Roster) : Ensemble :=
  { e with sessions := e.sessions.push r }

def takeTransit (e : Ensemble) : Transit × Ensemble :=
  match e.link with
  | [] => ({}, e)
  | transit :: link => (transit, { e with link })

def arrive (e : Ensemble) (sender : ServerId) (record : Record) :
    Passage → Except Fault Verdict × Ensemble
  | .forwarded =>
    let (stamp, log) := e.log.propose sender record
    (stamp.map .committed, { e with log })
  | .timedOut => (.ok .timedOut, e)
  | .pending => (.ok .pending, e)
  | .answered stamp => (.ok (.committed stamp), e)
  | .refused fault => (.error fault, e)

end Ensemble

end Quorate
