import Quorate.Call.FollowUp
import Quorate.Call.Submission
import Quorate.Change

/-!
# Reconfigurations

A request is run by the server that leads. The call claims the server's one place for a
proposal in flight, checks the request against the roster the server applied, submits
the next roster and follows it up. The place is given back on every way out.

A request that expects the very version on which a proposal is in flight waits until
that has settled, since only then it is known whether it is stale; any other request is
refused meanwhile. A call notes how many proposals have settled before it looks at the
place, so that none settles unnoticed.
-/

namespace Quorate

inductive Reconfiguration.Stage where
  | entering
  /-- About to ask who leads, having noted the number of settled proposals. -/
  | asking (ticket : Nat)
  /-- Waiting for the number of settled proposals to pass the one noted. -/
  | parked (ticket : Nat)
  /-- Holding the place, about to compare a candidate with the replicas in sync. -/
  | weighing (current : Roster) (change : Change) (candidate : Roster)
  /-- Holding the place, the candidate submitted. -/
  | submitting (current : Roster) (submission : Submission)
  | following (followUp : FollowUp)
  deriving DecidableEq

structure Reconfiguration where
  server : ServerId
  request : Request
  stage : Reconfiguration.Stage
  deriving DecidableEq

namespace Reconfiguration

def start (server : ServerId) (request : Request) : Reconfiguration :=
  ⟨server, request, .entering⟩

/-- The change that a request makes of the current roster and the candidate it leads to,
if the request expects that roster and the candidate may follow it. -/
def examine (request : Request) (current : Roster) : Except Fault (Change × Roster) :=
  match request.expected.filter (· ≠ current.version) with
  | some expected => .error (.staleVersion expected current.version)
  | none => do
    let change ← Change.compute current request.change
    let candidate ← Roster.make current.version change.members
    current.checkSafety candidate
    return (change, candidate)

/-- The least version of the roster that follows the current one: one of the next epoch
if other participants decide from then on. -/
def floor (current : Roster) (change : Change) : Version :=
  if change.changesParticipants current then current.version.nextEpoch
  else current.version.nextCounter

/-- The call ends with a fault and gives the place back. -/
def giveUp {σ α : Type} (e : Ensemble) (server : ServerId) (fault : Fault) :
    Progress σ (Except Fault α) × Ensemble :=
  (.done (.error fault), e.adjust server .release)

def alarm (c : Reconfiguration) : Option Nat :=
  match c.stage with
  | .submitting _ submission => some submission.alarm
  | _ => none

def ask (c : Reconfiguration) (ticket : Nat) (s : Server) (e : Ensemble) :
    Progress Reconfiguration (Except Fault Roster) × Ensemble :=
  if e.log.leader ≠ some c.server then (.done (.error (.notLeader e.log.leader)), e)
  else match s.inFlight with
    | some base =>
      if c.request.expected = some base then (.going { c with stage := .parked ticket }, e)
      else (.done (.error .inProgress), e)
    | none =>
      let e := e.adjust c.server (·.claim s.current.version)
      match examine c.request s.current with
      | .error fault => giveUp e c.server fault
      | .ok (change, next) => (.going { c with stage := .weighing s.current change next }, e)

def weigh (c : Reconfiguration) (now : Nat) (current : Roster) (change : Change)
    (candidate : Roster) (s : Server) (e : Ensemble) :
    Progress Reconfiguration (Except Fault Roster) × Ensemble :=
  let synced := e.log.synced
  if candidate.isQuorum synced.ids then
    let proposal : RosterProposal :=
      { base := current.version, floor := floor current change, members := change.members }
    let (submission, e) := Submission.start now e s proposal
    (.going { c with stage := .submitting current submission }, e)
  else giveUp e c.server (.noQuorum (.unsynced synced c.server candidate.voters))

def follow (c : Reconfiguration) (next : Roster) :
    Progress FollowUp (Except Fault Unit) × Ensemble →
      Progress Reconfiguration (Except Fault Roster) × Ensemble
  | (.going followUp, e) => (.going { c with stage := .following followUp }, e)
  | (.done result, e) => (.done (result.map fun _ => next), e)

def submit (c : Reconfiguration) (current : Roster) :
    Progress Submission (Except Fault Roster) × Ensemble →
      Progress Reconfiguration (Except Fault Roster) × Ensemble
  | (.going submission, e) => (.going { c with stage := .submitting current submission }, e)
  | (.done (.error fault), e) => giveUp e c.server fault
  | (.done (.ok next), e) =>
    c.follow next (FollowUp.start c.server current next (e.adjust c.server .release))

def step (now : Nat) (c : Reconfiguration) (e : Ensemble) :
    Option (Progress Reconfiguration (Except Fault Roster) × Ensemble) :=
  match e.server c.server with
  | .error fault => some (.done (.error fault), e)
  | .ok s =>
    match c.stage with
    | .entering =>
      if s.settings.enabled then some (.going { c with stage := .asking s.settled }, e)
      else some (.done (.error .disabled), e)
    | .asking ticket => some (c.ask ticket s e)
    | .parked ticket =>
      if ticket < s.settled then some (.going { c with stage := .asking s.settled }, e)
      else none
    | .weighing current change candidate => some (c.weigh now current change candidate s e)
    | .submitting current submission => (submission.step now e).map (c.submit current)
    | .following followUp => some (c.follow followUp.next (followUp.step e))

end Reconfiguration

end Quorate
