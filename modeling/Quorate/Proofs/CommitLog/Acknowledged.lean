import Quorate.Proofs.CommitLog.Deployment
import Quorate.Proofs.Quorum.Tally

/-!
# The quorum behind a commit

A log asks the running servers for the roster in effect and, where a record changes it, for
the next one as well. They have to be a quorum of each of the two that has a participant; a
roster without any has no quorum, and the log asks nothing for it (`acknowledged_iff`). So a
commit has both quorums exactly if both rosters have participants. A log that began with a
participant lost the last one to a record of its own, which was committed without a quorum
of the roster that it made, as is every record from then on
(`Deployment.isQuorum_of_commit_iff`).
-/

namespace Quorate

namespace Roster

variable {r : Roster} {acks : List ServerId}

theorem participants_ne_nil_of_isQuorum (h : r.isQuorum acks = true) : r.participants ≠ [] :=
  participants_ne_nil_of_isMajority (isQuorum_iff.1 h)

theorem isQuorum_iff_of_accepted (h : r.participants = [] ∨ r.isQuorum acks = true) :
    r.isQuorum acks = true ↔ r.participants ≠ [] :=
  ⟨participants_ne_nil_of_isQuorum, h.resolve_left⟩

end Roster

/-- The last participant is lost to one of the entries. -/
theorem exists_installs_of_participants_eq_nil {seed : Roster} (hseed : seed.participants ≠ [])
    {entries : List Entry} (h : (rosterAfter seed entries).participants = []) :
    ∃ n prev next, Installs seed entries n prev next ∧ prev.participants ≠ [] ∧
      next.participants = [] := by
  induction entries using List.reverseRecOn with
  | nil => exact absurd h hseed
  | append_singleton entries e ih =>
      by_cases hbefore : (rosterAfter seed entries).participants = []
      · obtain ⟨n, prev, next, hinstalls, hprev, hnext⟩ := ih hbefore
        exact ⟨n, prev, next, hinstalls.append [e], hprev, hnext⟩
      · rw [rosterAfter_concat] at h
        cases hsuccessor : e.record.successor? (rosterAfter seed entries) e.stamp with
        | none =>
            rw [hsuccessor] at h
            exact absurd h hbefore
        | some next =>
            rw [hsuccessor] at h
            exact ⟨entries.length, _, next, installs_length_iff.2 ⟨rfl, hsuccessor⟩, hbefore, h⟩

/-- What the log asks for, of the roster in effect and of the next one. -/
theorem CommitLog.acknowledged_iff {ρ : Type} {l : CommitLog ρ} {next : Option Roster} :
    l.acknowledged next = true ↔
      (l.roster.participants = [] ∨ l.roster.isQuorum l.online.ids = true) ∧
        ((next.getD l.roster).participants = [] ∨
          (next.getD l.roster).isQuorum l.online.ids = true) := by
  cases next with
  | none => exact Roster.accepts_majority_iff.trans (and_self_iff).symm
  | some next => exact Roster.accepts_handover_iff.trans and_comm

namespace Deployment

/-- The servers that run when a record is committed are a quorum of the roster in effect
before it exactly if that has a participant, and of the roster in effect after it likewise.
Without a participant, some entry has replaced a roster that had one by one that has none. -/
theorem isQuorum_of_commit_iff {seed : Roster} (hseed : seed.participants ≠ [])
    {d : Deployment} (h : d.Reachable seed fun _ => True) {sender : ServerId} {record : Record}
    {stamp : Stamp} {l : CommitLog Server} (hp : d.log.propose sender record = (.ok stamp, l)) :
    (d.log.roster.isQuorum d.log.online.ids = true ↔ d.log.roster.participants ≠ []) ∧
    (l.roster.isQuorum d.log.online.ids = true ↔ l.roster.participants ≠ []) ∧
    (l.roster.participants = [] → ∃ n prev next, Installs seed l.entries n prev next ∧
      prev.participants ≠ [] ∧ next.participants = []) := by
  have hderived : l.Derived seed := by
    have hturn := CommitLog.turn_propose d.log sender record
    rw [hp] at hturn
    exact h.tracked.log.derived.turn hturn
  rcases CommitLog.propose_cases d.log sender record with
    ⟨_, heq⟩ | ⟨_, hack, heq⟩ | ⟨_, heq⟩
  · rw [heq] at hp
    cases hp
  · rw [heq] at hp
    cases hp
    obtain ⟨hbefore, hafter⟩ := CommitLog.acknowledged_iff.1 hack
    refine ⟨Roster.isQuorum_iff_of_accepted hbefore, Roster.isQuorum_iff_of_accepted hafter,
      fun hnone => ?_⟩
    rw [hderived] at hnone
    exact exists_installs_of_participants_eq_nil hseed hnone
  · rw [heq] at hp
    cases hp

/-- Three participants, of which the last one leads. -/
def ledRun : List Operation :=
  [.attach 1 {}, .attach 2 {}, .attach 3 {}, .elect]

/-- A proposal that makes observers of all three. -/
def retire : Record :=
  .reconfigure ⟨.zero, .make 0 1,
    [.onPorts 1 10 .observer, .onPorts 2 20 .observer, .onPorts 3 30 .observer]⟩

/-- After that run the proposal is committed under a quorum of the roster in effect and
under none of the roster that it makes. -/
theorem isQuorum_of_commit_iff_ledRun :
    ∃ stamp l, (run .trio ledRun).log.propose 3 retire = (.ok stamp, l) ∧
      Roster.trio.isQuorum (run .trio ledRun).log.online.ids = true ∧
      ¬ l.roster.isQuorum (run .trio ledRun).log.online.ids = true ∧
      ∃ n prev next, Installs .trio l.entries n prev next ∧ prev.participants ≠ [] ∧
        next.participants = [] := by
  have hreach : (run .trio ledRun).Reachable .trio fun _ => True :=
    reachable_run ledRun fun _ _ => trivial
  have hok : ((run .trio ledRun).log.propose 3 retire).1 = .ok (.make 1 1) := by
    decide +kernel
  have hroster : (run .trio ledRun).log.roster = .trio := by
    decide +kernel
  have hnone : ((run .trio ledRun).log.propose 3 retire).2.roster.participants = [] := by
    decide +kernel
  obtain ⟨hbefore, hafter, hlost⟩ :=
    isQuorum_of_commit_iff (by decide +kernel) hreach (Prod.ext hok rfl)
  rw [hroster] at hbefore
  exact ⟨_, _, Prod.ext hok rfl, hbefore.2 (by decide +kernel), fun h => hafter.1 h hnone,
    hlost hnone⟩

/-- Not every commit has a quorum: the proposal changes the roster and is committed without
a quorum of the new one, and so is a record after it with but one of the servers running. -/
theorem commit_without_quorum_ledRun :
    Roster.trio.participants ≠ [] ∧
    ((run .trio ledRun).log.propose 3 retire).1 = .ok (.make 1 1) ∧
    ((run .trio ledRun).log.propose 3 retire).2.roster ≠ (run .trio ledRun).log.roster ∧
    ((run .trio ledRun).log.propose 3 retire).2.roster.isQuorum
      (run .trio ledRun).log.online.ids = false ∧
    (let d := run .trio (ledRun ++ [.propose 3 retire, .stop 1, .stop 2])
    (d.log.propose 3 (.data "a")).1 = .ok (.make 1 2) ∧ d.log.online.ids = [3] ∧
      d.log.roster.isQuorum d.log.online.ids = false) := by
  decide +kernel

end Deployment

end Quorate
