import Quorate.Ensemble
import Quorate.Fault.Wording
import Quorate.Progress

/-!
# Submitting a roster

A server submits the roster that follows a base and waits until its own replica has
applied it. The record is first on its way to the log, where the propose timeout may
cut it off, then it is committed and has to land in the view of the server, for which
it has the same time again. A failure to commit is always a lost leadership.
-/

namespace Quorate

inductive Submission.Stage where
  /-- The record is on its way until `arrival`, or is cut off at `deadline`. -/
  | sending (passage : Passage) (arrival deadline : Nat)
  /-- The record is committed and has to be applied before `deadline`. -/
  | landing (stamp : Stamp) (deadline : Nat)
  deriving DecidableEq

structure Submission where
  server : ServerId
  proposal : RosterProposal
  stage : Submission.Stage
  deriving DecidableEq

namespace Submission

def start (now : Nat) (e : Ensemble) (s : Server) (proposal : RosterProposal) :
    Submission × Ensemble :=
  let (transit, e) := e.takeTransit
  let arrival := now + transit.delay
  ({ server := s.settings.id, proposal,
     stage := .sending transit.passage arrival (now + s.settings.proposeTimeout) }, e)

def loss : Fault → Fault
  | .lostLeadership cause => .lostLeadership cause
  | fault => .lostLeadership (.stated fault.message)

def alarm (c : Submission) : Nat :=
  match c.stage with
  | .sending _ arrival deadline => min arrival deadline
  | .landing _ deadline => deadline

def arrive (c : Submission) (now : Nat) (e : Ensemble) (s : Server) (passage : Passage) :
    Progress Submission (Except Fault Roster) × Ensemble :=
  match e.arrive c.server (.reconfigure c.proposal) passage with
  | (verdict, e) =>
    match verdict.bind (·.result) with
    | .error fault => (.done (.error (loss fault)), e)
    | .ok stamp =>
      (.going { c with stage := .landing stamp (now + s.settings.proposeTimeout) }, e)

/-- The record of a stamp was applied: it made a roster, or another one won the race. -/
def landed (c : Submission) (s : Server) (stamp : Stamp) : Except Fault Roster :=
  match s.view.committedBy? stamp with
  | some r => .ok r
  | none => .error (.staleVersion c.proposal.base s.current.version)

/-- One step of a submission; nothing while it has to wait. What is awaited wins over a
deadline at the same instant. -/
def step (now : Nat) (c : Submission) (e : Ensemble) :
    Option (Progress Submission (Except Fault Roster) × Ensemble) :=
  match e.server c.server with
  | .error fault => some (.done (.error fault), e)
  | .ok s =>
    match c.stage with
    | .sending passage arrival deadline =>
      if arrival ≤ now then some (c.arrive now e s passage)
      else if deadline ≤ now then
        let cause := LossCause.uncommitted s.settings.proposeTimeout
        some (.done (.error (.lostLeadership cause)), e)
      else none
    | .landing stamp deadline =>
      if stamp ≤ s.view.applied then some (.done (c.landed s stamp), e)
      else if deadline ≤ now then some (.done (.error (.lagging stamp s.view.applied)), e)
      else none

end Submission

end Quorate
