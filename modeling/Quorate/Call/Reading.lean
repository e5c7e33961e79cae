import Quorate.Ensemble
import Quorate.Progress

/-!
# Reading a roster

A read waits until a server has applied a roster of some version at least, for as long
as a timeout allows. A session's read requires the version that the session has observed,
and the session has seen what it returns.
-/

namespace Quorate

structure Wait where
  server : ServerId
  required : Version
  deadline : Nat
  deriving DecidableEq

namespace Wait

def step (now : Nat) (c : Wait) (e : Ensemble) : Option (Except Fault Roster) :=
  match e.server c.server with
  | .error fault => some (.error fault)
  | .ok s =>
    if c.required ≤ s.current.version then some (.ok s.current)
    else if c.deadline ≤ now then some (.error (.lagging c.required s.current.version))
    else none

end Wait

structure Reading where
  session : SessionId
  wait : Wait
  deriving DecidableEq

namespace Reading

/-- Begin a read of a session on a server, which need not be the one it is connected to. -/
def start (now : Nat) (e : Ensemble) (session : SessionId) (server : ServerId) :
    Except Fault Reading := do
  let connected ← e.sessions.get session
  if connected.mustReconnect then .error (.noSuchServer connected.server)
  else return {
    session
    wait := {
      server
      required := connected.observed
      deadline := now + e.template.readTimeout } }

def startConnected (now : Nat) (e : Ensemble) (session : SessionId) :
    Except Fault Reading × Ensemble :=
  match e.sessions.get session with
  | .error fault => (.error fault, e)
  | .ok connected =>
    let settled :=
      if connected.mustReconnect then (e.failover session).map (·.2) else .ok e
    match settled with
    | .error fault => (.error fault, e)
    | .ok e =>
      let reading := do
        let connected ← e.sessions.get session
        let _ ← e.server connected.server
        start now e session connected.server
      (reading, e)

def step (now : Nat) (c : Reading) (e : Ensemble) :
    Option (Except Fault Roster × Ensemble) :=
  (c.wait.step now e).map fun
    | .error fault => (.error fault, e)
    | .ok r =>
      match e.sessions.observe c.session r.version with
      | .error fault => (.error fault, e)
      | .ok sessions => (.ok r, { e with sessions })

end Reading

end Quorate
