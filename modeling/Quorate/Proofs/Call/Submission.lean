import Quorate.Call.FollowUp
import Quorate.Call.Submission
import Quorate.Proofs.Ensemble

/-!
# What becomes of a submission

A record at the end of an honest way is either committed, or the submission fails and
nothing was appended to the log (`Submission.arrive_cases`). The server that committed it
leads, so it runs and has applied the record already: it finds the roster that the record
put in effect, or that it put none (`landed_of_commit`). A follow-up commits nothing and
never fails.
-/

namespace Quorate

variable {seed : Roster}

namespace FollowUp

/-- A follow-up of a server that is there starts, or ends, well. -/
theorem start_cases (seed : Roster) {server : ServerId} {e : Ensemble} {s : Server}
    (hs : e.server server = .ok s) (prev next : Roster) :
    Ensemble.Still seed e (FollowUp.start server prev next e).2 ∧
      ((FollowUp.start server prev next e).1 = .done (.ok ()) ∨
        ∃ stage, (FollowUp.start server prev next e).1 = .going ⟨server, next, stage⟩) := by
  have hadjust : Ensemble.Still seed e
      (e.adjust server fun s => { s with followed := next.version }) :=
    Ensemble.still_adjust seed e server (fun _ => rfl) fun _ => rfl
  unfold FollowUp.start
  rw [hs]
  dsimp only
  split
  · exact ⟨Ensemble.still_refl seed e, Or.inl rfl⟩
  split
  · exact ⟨hadjust, Or.inr ⟨.resigning, rfl⟩⟩
  split
  · exact ⟨hadjust, Or.inr ⟨.renewing, rfl⟩⟩
  · exact ⟨hadjust.trans (Ensemble.still_push seed _ next), Or.inl rfl⟩

theorem step_cases (seed : Roster) (f : FollowUp) (e : Ensemble) :
    Ensemble.Onward seed e (f.step e).2 ∧ (f.step e).2.log.entries = e.log.entries ∧
      ((f.step e).1 = .done (.ok ()) ∨ ∃ stage, (f.step e).1 = .going { f with stage }) := by
  unfold FollowUp.step
  split
  · exact ⟨Ensemble.onward_of_log (CommitLog.onward_resign seed e.log f.server),
      CommitLog.entries_resign e.log f.server, Or.inr ⟨.electing, rfl⟩⟩
  · exact ⟨(Ensemble.onward_of_log (CommitLog.onward_elect seed e.log)).still
        (Ensemble.still_push seed _ f.next),
      CommitLog.entries_elect e.log, Or.inl rfl⟩
  · exact ⟨(Ensemble.onward_of_log (CommitLog.onward_establish seed e.log f.server)).still
        (Ensemble.still_push seed _ f.next),
      CommitLog.entries_establish e.log f.server, Or.inl rfl⟩

end FollowUp

namespace Submission

/-- A submission that did not end in a commit appended nothing. -/
theorem arrive_cases (seed : Roster) (c : Submission) (now : Nat) (e : Ensemble) (s : Server)
    {passage : Passage} (hp : passage.Honest) :
    (∃ fault e', c.arrive now e s passage = (.done (.error fault), e') ∧
      Ensemble.Onward seed e e' ∧ e'.log.entries = e.log.entries) ∨
    ∃ deadline, e.log.leader = some c.server ∧
      e.log.propose c.server (.reconfigure c.proposal) =
        (.ok e.log.nextStamp,
          (e.log.append e.log.nextStamp (.reconfigure c.proposal) c.server).deliver) ∧
      c.arrive now e s passage =
        (.going { c with stage := .landing e.log.nextStamp deadline },
          { e with log := (e.log.propose c.server (.reconfigure c.proposal)).2 }) := by
  cases passage with
  | forwarded =>
      have honward := CommitLog.onward_propose seed e.log c.server (.reconfigure c.proposal)
      rcases CommitLog.propose_cases e.log c.server (.reconfigure c.proposal) with
        ⟨_, heq⟩ | ⟨hlead, _, heq⟩ | ⟨_, heq⟩
      · refine Or.inl ⟨loss (.notLeader e.log.leader), e, ?_,
          (Ensemble.still_refl seed e).onward, rfl⟩
        rw [arrive, Ensemble.arrive, heq]
        rfl
      · refine Or.inr ⟨now + s.settings.proposeTimeout, hlead, heq, ?_⟩
        rw [arrive, Ensemble.arrive, heq]
        rfl
      · rw [heq] at honward
        refine Or.inl ⟨.lostLeadership (.recordUnacked e.log.nextStamp e.log.online),
          { e with log := e.log.unled }, ?_, Ensemble.onward_of_log honward, rfl⟩
        rw [arrive, Ensemble.arrive, heq]
        rfl
  | timedOut => exact Or.inl ⟨_, e, rfl, (Ensemble.still_refl seed e).onward, rfl⟩
  | pending => exact Or.inl ⟨_, e, rfl, (Ensemble.still_refl seed e).onward, rfl⟩
  | answered stamp => exact hp.elim
  | refused fault => exact Or.inl ⟨_, e, rfl, (Ensemble.still_refl seed e).onward, rfl⟩

/-- The server that has just committed a record has applied it, and finds what it made. -/
theorem landed_of_commit {l l' : CommitLog Server} (c : Submission) (ht : l'.Tracked seed)
    (ho : l'.Ordered) (hon : l'.isOnline c.server = true) {s : Server}
    (hs : l'.replica? c.server = some s) {e : Entry} (hentries : l'.entries = l.entries ++ [e]) :
    e.stamp ≤ s.view.applied ∧
      ((∃ next, e.record.successor? (rosterAfter seed l.entries) e.stamp = some next ∧
        c.landed s e.stamp = .ok next) ∨
      (e.record.successor? (rosterAfter seed l.entries) e.stamp = none ∧
        ∃ fault, c.landed s e.stamp = .error fault)) := by
  have hasc := ho.ascending
  have hview := ht.view_eq_of_isOnline hasc hon hs
  rw [hentries] at hview hasc
  have happlied : s.view.applied = e.stamp := by
    rw [hview]
    exact lastStampOf_concat l.entries e
  have hfound : s.view.committedBy? e.stamp =
      e.record.successor? (rosterAfter seed l.entries) e.stamp := by
    rw [hview]
    exact View.committedBy?_after_concat s.settings.one_le_kept hasc
  refine ⟨happlied.ge, ?_⟩
  rw [landed, hfound]
  cases e.record.successor? (rosterAfter seed l.entries) e.stamp with
  | none => exact Or.inr ⟨rfl, _, rfl⟩
  | some next => exact Or.inl ⟨next, rfl, rfl⟩

end Submission

end Quorate
