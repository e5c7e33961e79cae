import Quorate.Ensemble
import Quorate.Progress

/-!
# Following a committed roster up

After a roster was committed by a leader, the leader gives way to an election if it is
no longer a participant, or begins a new epoch if the set of participants changed. Then
the roster is pushed to the sessions. Each version is followed up once on each server.
-/

namespace Quorate

inductive FollowUp.Stage where
  | resigning
  | electing
  | renewing
  deriving DecidableEq

/-- A follow-up of a roster by a server that led when it was committed. -/
structure FollowUp where
  server : ServerId
  next : Roster
  stage : FollowUp.Stage
  deriving DecidableEq

namespace FollowUp

def start (server : ServerId) (prev next : Roster) (e : Ensemble) :
    Progress FollowUp (Except Fault Unit) × Ensemble :=
  match e.server server with
  | .error fault => (.done (.error fault), e)
  | .ok s =>
    if next.version ≤ s.followed then (.done (.ok ()), e)
    else
      let e := e.adjust server fun s => { s with followed := next.version }
      if !next.isParticipant server then (.going { server, next, stage := .resigning }, e)
      else if 0 < prev.participantChanges next then
        (.going { server, next, stage := .renewing }, e)
      else (.done (.ok ()), e.push next)

/-- One step of a follow-up; none of them waits. -/
def step (c : FollowUp) (e : Ensemble) : Progress FollowUp (Except Fault Unit) × Ensemble :=
  match c.stage with
  | .resigning =>
    (.going { c with stage := .electing }, { e with log := e.log.resign c.server })
  | .electing => (.done (.ok ()), e.elect.2.push c.next)
  | .renewing =>
    (.done (.ok ()), { e with log := (e.log.establish c.server).2 }.push c.next)

end FollowUp

end Quorate
