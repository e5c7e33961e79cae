import Quorate.Call.Reconfiguration

/-!
# Requests of sessions

A session's request is run by the server it is connected to. If that does not lead, the
request is forwarded once to the leader it names, or to the winner of an election if
there is none. The session has then seen the roster that was committed.
-/

namespace Quorate

inductive Routed.Stage where
  | direct (call : Reconfiguration)
  /-- No server leads; the request goes to the one that an election makes leader. -/
  | leaderless
  | forwarded (call : Reconfiguration)
  deriving DecidableEq

/-- A request of a session, first run by the server `origin`. -/
structure Routed where
  session : SessionId
  origin : ServerId
  request : Request
  stage : Routed.Stage
  deriving DecidableEq

namespace Routed

def start (e : Ensemble) (session : SessionId) (request : Request) : Except Fault Routed := do
  let connected ← e.sessions.get session
  let _ ← e.server connected.server
  return { session, origin := connected.server, request,
           stage := .direct (.start connected.server request) }

def alarm (c : Routed) : Option Nat :=
  match c.stage with
  | .direct call | .forwarded call => call.alarm
  | .leaderless => none

def forward (c : Routed) (leader : ServerId) (e : Ensemble) :
    Progress Routed (Except Fault Roster) :=
  match e.server leader with
  | .error fault => .done (.error fault)
  | .ok _ => .going { c with stage := .forwarded (.start leader c.request) }

/-- The answer to the session, which has seen the roster that was committed. -/
def conclude (c : Routed) (result : Except Fault Roster) (e : Ensemble) :
    Progress Routed (Except Fault Roster) × Ensemble :=
  match result with
  | .error fault => (.done (.error fault), e)
  | .ok r =>
    match e.sessions.observe c.session r.version with
    | .error fault => (.done (.error fault), e)
    | .ok sessions => (.done (.ok r), { e with sessions })

def redirect (c : Routed) (result : Except Fault Roster) (e : Ensemble) :
    Progress Routed (Except Fault Roster) × Ensemble :=
  match result with
  | .error (.notLeader none) => (.going { c with stage := .leaderless }, e)
  | .error (.notLeader (some leader)) =>
    if leader ≠ c.origin then (c.forward leader e, e) else c.conclude result e
  | _ => c.conclude result e

def step (now : Nat) (c : Routed) (e : Ensemble) :
    Option (Progress Routed (Except Fault Roster) × Ensemble) :=
  match c.stage with
  | .direct call =>
    (call.step now e).map fun
      | (.going call, e) => (.going { c with stage := .direct call }, e)
      | (.done result, e) => c.redirect result e
  | .leaderless =>
    match e.leaderOrElect with
    | (.error fault, e) => some (.done (.error fault), e)
    | (.ok leader, e) => some (c.forward leader e, e)
  | .forwarded call =>
    (call.step now e).map fun
      | (.going call, e) => (.going { c with stage := .forwarded call }, e)
      | (.done result, e) => c.conclude result e

end Routed

end Quorate
