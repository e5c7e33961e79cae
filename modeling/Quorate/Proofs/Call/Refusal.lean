import Quorate.Proofs.Call.Reconfiguration

/-!
# Calls that are refused because another one is in progress

A server has one place for a proposal. A request that finds it taken waits if it expects the
very version that the proposal is on, and is refused if it expects another one or none
(`Reconfiguration.Barred`). No step refuses any other call in this way (`refused_step_iff`). So
a request that expects a version which is not current is told so where it is not barred, unless
the server does not lead or the request has to wait (`step_of_stale`).
-/

namespace Quorate

/-- Whether a call ends because another one is in progress. -/
def Progress.Refused {σ α : Type} (p : Progress σ (Except Fault α)) : Prop :=
  p = .done (.error .inProgress)

section Pieces

variable {now : Nat} {e : Ensemble}

theorem FollowUp.not_refused_start (server : ServerId) (prev next : Roster) (e : Ensemble) :
    ¬ (FollowUp.start server prev next e).1.Refused := by
  cases hs : e.server server with
  | error fault =>
      cases Ensemble.eq_noSuchServer_of_server hs
      rw [FollowUp.start, hs]
      exact nofun
  | ok s =>
      rcases (FollowUp.start_cases e.seed hs prev next).2 with heq | ⟨stage, heq⟩ <;>
        rw [heq] <;> exact nofun

theorem FollowUp.not_refused_step (f : FollowUp) (e : Ensemble) : ¬ (f.step e).1.Refused := by
  rcases (FollowUp.step_cases e.seed f e).2.2 with heq | ⟨stage, heq⟩ <;>
    rw [heq] <;> exact nofun

theorem Submission.loss_ne_inProgress (fault : Fault) : Submission.loss fault ≠ .inProgress := by
  cases fault <;> exact Fault.noConfusion

theorem Submission.not_refused_arrive (c : Submission) (now : Nat) (e : Ensemble) (s : Server)
    (passage : Passage) : ¬ (c.arrive now e s passage).1.Refused := by
  unfold arrive
  dsimp only
  split
  · intro h
    exact loss_ne_inProgress _ (Except.error.inj (Progress.done.inj h))
  · exact nofun

theorem Submission.not_refused_step {c : Submission}
    {p : Progress Submission (Except Fault Roster) × Ensemble} (h : c.step now e = some p) :
    ¬ p.1.Refused := by
  unfold step at h
  cases hs : e.server c.server with
  | error fault =>
      rw [hs] at h
      cases Ensemble.eq_noSuchServer_of_server hs
      cases h
      exact nofun
  | ok s =>
      rw [hs] at h
      dsimp only at h
      split at h
      · split at h
        · cases h
          exact c.not_refused_arrive now e s _
        · split at h <;> cases h
          exact nofun
      · split at h
        · cases h
          unfold landed
          split <;> exact nofun
        · split at h <;> cases h
          exact nofun

end Pieces

namespace Reconfiguration

variable {now : Nat} {c : Reconfiguration} {e : Ensemble} {s : Server}
  {p : Progress Reconfiguration (Except Fault Roster) × Ensemble}

/-- A call asks for the place of its server, which leads and holds a proposal on another
version than the request expects. -/
structure Barred (c : Reconfiguration) (e : Ensemble) : Prop where
  asks : ∃ ticket, c.stage = .asking ticket
  leads : e.log.leader = some c.server
  taken : ∃ s base, e.server c.server = .ok s ∧ s.inFlight = some base ∧
    c.request.expected ≠ some base

theorem not_refused_follow (c : Reconfiguration) (next : Roster)
    {q : Progress FollowUp (Except Fault Unit) × Ensemble} (h : ¬ q.1.Refused) :
    ¬ (c.follow next q).1.Refused := by
  obtain ⟨progress, e⟩ := q
  match progress with
  | .going _ => exact nofun
  | .done (.ok _) => exact nofun
  | .done (.error fault) =>
      intro hrefused
      exact h (congrArg _ (congrArg _ (Except.error.inj (Progress.done.inj hrefused))))

theorem not_refused_submit (c : Reconfiguration) (current : Roster)
    {q : Progress Submission (Except Fault Roster) × Ensemble} (h : ¬ q.1.Refused) :
    ¬ (c.submit current q).1.Refused := by
  obtain ⟨progress, e⟩ := q
  match progress with
  | .going _ => exact nofun
  | .done (.ok next) => exact c.not_refused_follow next (FollowUp.not_refused_start _ _ _ _)
  | .done (.error fault) =>
      intro hrefused
      exact h (congrArg _ (congrArg _ (Except.error.inj (Progress.done.inj hrefused))))

theorem refused_ask_iff (ticket : Nat) :
    (c.ask ticket s e).1.Refused ↔ e.log.leader = some c.server ∧
      ∃ base, s.inFlight = some base ∧ c.request.expected ≠ some base := by
  unfold ask
  split
  · rename_i hfollows
    exact iff_of_false nofun fun h => hfollows h.1
  rename_i hleads
  cases hplace : s.inFlight with
  | none =>
      refine iff_of_false ?_ fun ⟨_, _, h, _⟩ => by cases h
      dsimp only
      split
      · rename_i hexamine
        intro h
        cases Except.error.inj (Progress.done.inj h)
        rcases examine_error hexamine with ⟨_, h⟩ | ⟨_, h⟩ | ⟨_, h⟩ <;> cases h
      · exact nofun
  | some base =>
      dsimp only
      split
      · rename_i hsame
        exact iff_of_false nofun fun ⟨_, _, h, hother⟩ => by
          cases h
          exact hother hsame
      · rename_i hother
        exact iff_of_true rfl ⟨not_not.1 hleads, base, rfl, hother⟩

/-- A step refuses the request exactly if it is barred. -/
theorem refused_step_iff (h : c.step now e = some p) : p.1.Refused ↔ c.Barred e := by
  have hnot {stage : Stage} {q : Progress Reconfiguration (Except Fault Roster) × Ensemble}
      (hstage : c.stage = stage) (hother : ∀ ticket, stage ≠ .asking ticket)
      (hq : ¬ q.1.Refused) : q.1.Refused ↔ c.Barred e :=
    iff_of_false hq fun hbarred => hbarred.asks.elim fun ticket hasks =>
      hother ticket (hstage.symm.trans hasks)
  unfold step at h
  cases hs : e.server c.server with
  | error fault =>
      rw [hs] at h
      cases Ensemble.eq_noSuchServer_of_server hs
      cases h
      refine iff_of_false nofun fun ⟨_, _, _, _, hserver, _⟩ => ?_
      cases hs.symm.trans hserver
  | ok s =>
      rw [hs] at h
      dsimp only at h
      cases hstage : c.stage with
      | asking ticket =>
          rw [hstage] at h
          cases h
          rw [refused_ask_iff]
          constructor
          · rintro ⟨hleads, base, hplace, hother⟩
            exact ⟨⟨ticket, hstage⟩, hleads, s, base, hs, hplace, hother⟩
          · rintro ⟨_, hleads, t, base, ht, hplace, hother⟩
            cases hs.symm.trans ht
            exact ⟨hleads, base, hplace, hother⟩
      | entering =>
          rw [hstage] at h
          refine hnot hstage (by simp) ?_
          dsimp only at h
          split at h <;> cases h <;> exact nofun
      | parked ticket =>
          rw [hstage] at h
          refine hnot hstage (by simp) ?_
          dsimp only at h
          split at h <;> cases h
          exact nofun
      | weighing current change candidate =>
          rw [hstage] at h
          refine hnot hstage (by simp) ?_
          cases h
          unfold weigh
          dsimp only
          split <;> exact nofun
      | submitting current submission =>
          rw [hstage] at h
          refine hnot hstage (by simp) ?_
          obtain ⟨q, hq, rfl⟩ := Option.map_eq_some_iff.1 h
          exact c.not_refused_submit current (Submission.not_refused_step hq)
      | following f =>
          rw [hstage] at h
          refine hnot hstage (by simp) ?_
          cases h
          exact c.not_refused_follow f.next (f.not_refused_step e)

theorem step_of_asking {ticket : Nat} (hstage : c.stage = .asking ticket)
    (hs : e.server c.server = .ok s) (now : Nat) : c.step now e = some (c.ask ticket s e) := by
  rw [step, hs, hstage]

theorem exists_step_of_barred (h : c.Barred e) (now : Nat) : ∃ p, c.step now e = some p := by
  obtain ⟨ticket, hstage⟩ := h.asks
  obtain ⟨s, _, hs, _⟩ := h.taken
  exact ⟨_, step_of_asking hstage hs now⟩

/-- A request that expects another version than its server has applied is told so, unless it is
barred, the server does not lead, or the proposal in flight is on the very version that is
expected. In that case it waits until that has settled. -/
theorem step_of_stale {ticket : Nat} (hstage : c.stage = .asking ticket)
    (hs : e.server c.server = .ok s) {version : Version}
    (hexpected : c.request.expected = some version) (hstale : version ≠ s.current.version)
    (hopen : ¬ c.Barred e) (now : Nat) :
    (∃ e', c.step now e =
      some (.done (.error (.staleVersion version s.current.version)), e')) ∨
    (e.log.leader ≠ some c.server ∧
      c.step now e = some (.done (.error (.notLeader e.log.leader)), e)) ∨
    s.inFlight = some version ∧
      c.step now e = some (.going { c with stage := .parked ticket }, e) := by
  rw [step_of_asking hstage hs, ask]
  by_cases hleads : e.log.leader = some c.server
  · rw [if_neg (not_not.2 hleads)]
    cases hplace : s.inFlight with
    | none =>
        dsimp only
        rw [examine_of_stale hexpected hstale]
        exact Or.inl ⟨_, rfl⟩
    | some base =>
        have hsame : c.request.expected = some base := by
          by_contra hother
          exact hopen ⟨⟨ticket, hstage⟩, hleads, s, base, hs, hplace, hother⟩
        dsimp only
        rw [if_pos hsame]
        cases hexpected.symm.trans hsame
        exact Or.inr (Or.inr ⟨rfl, rfl⟩)
  · rw [if_pos hleads]
    exact Or.inr (Or.inl ⟨hleads, rfl⟩)

end Reconfiguration

end Quorate
