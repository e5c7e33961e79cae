import Quorate.Proofs.CommitLog.Keeps
import Quorate.Proofs.CommitLog.Muster
import Quorate.Proofs.Ensemble
import Quorate.Proofs.Sessions

/-!
# Ensembles at rest

An ensemble is `Calm` between two calls: its servers follow its log in order, none of them
holds a place for a proposal in flight, nothing is delayed on its way, and every session is
connected to a server that is there. Operations that only use the log keep it calm if they
go onward and keep the marks of the servers (`Calm.onward`).
-/

namespace Quorate.Ensemble

structure Calm (seed : Roster) (e : Ensemble) : Prop where
  seeded : e.seed = seed
  link : e.link = []
  tracked : e.log.Tracked seed
  ordered : e.log.Ordered
  idle : ∀ id s, e.log.replica? id = some s →
    s.settings = e.template.forServer id ∧ s.inFlight = none
  placed : e.sessions.At fun id => e.log.attached.contains id = true

variable {seed : Roster} {e : Ensemble}

theorem Calm.current_eq (h : e.Calm seed) {id : ServerId} {s : Server}
    (hon : e.log.isOnline id = true) (hs : e.server id = .ok s) : s.current = e.log.roster :=
  h.tracked.current_eq_of_isOnline h.ordered.ascending hon (server_eq_ok_iff.1 hs)

theorem Calm.log (h : e.Calm seed) {log : CommitLog Server}
    (ht : log.Tracked seed) (hord : log.Ordered)
    (hstays : ∀ id, e.log.attached.contains id = true → log.attached.contains id = true)
    (hidle : ∀ id s, log.replica? id = some s →
      s.settings = e.template.forServer id ∧ s.inFlight = none) :
    { e with log }.Calm seed :=
  ⟨h.seeded, h.link, ht, hord, hidle, h.placed.mono hstays⟩

/-- Servers that keep their marks are no busier than before. -/
theorem Calm.idle_of_keeps (h : e.Calm seed) {log : CommitLog Server}
    (hk : CommitLog.Keeps Server.marks e.log log) :
    ∀ id s, log.replica? id = some s →
      s.settings = e.template.forServer id ∧ s.inFlight = none :=
  hk.all (P := fun id m => m.1 = e.template.forServer id ∧ m.2.1 = none) h.idle

theorem Calm.onward (h : e.Calm seed) {log : CommitLog Server}
    (ho : CommitLog.Onward seed e.log log) (hord : log.Ordered)
    (hk : CommitLog.Keeps Server.marks e.log log) : { e with log }.Calm seed :=
  h.log (ho.tracked h.tracked) hord ho.stays (h.idle_of_keeps hk)

theorem Calm.renewed (h : e.Calm seed) (hepoch : e.log.epoch ≠ 0xFFFFFFFF) {winner : ServerId}
    (hon : e.log.isOnline winner = true) : { e with log := e.log.renewed winner }.Calm seed := by
  refine h.log (h.tracked.renewed hon) (h.ordered.renewed hepoch rfl rfl) (fun id hid => ?_)
    (h.idle_of_keeps (CommitLog.keeps_renewed Server.marks_hear e.log winner))
  exact (CommitLog.contains_announce _ id _).trans hid

theorem Calm.unled (h : e.Calm seed) : { e with log := e.log.unled }.Calm seed :=
  h.onward (CommitLog.onward_unled seed e.log) h.ordered.unled
    (CommitLog.keeps_unled Server.marks_hear e.log)

/-- An ensemble with a leader keeps it. Without one, enough servers elect one of them. -/
theorem leaderOrElect_cases (e : Ensemble) :
    (∃ leader, e.log.leader = some leader ∧ e.leaderOrElect = (.ok leader, e)) ∨
    e.log.leader = none ∧
      ((e.log.Musters e.log.roster ∧ ∃ winner,
        e.leaderOrElect = (.ok winner, { e with log := e.log.renewed winner }) ∧
          winner ∈ e.log.roster.participants ∧ e.log.isOnline winner = true) ∨
      ¬ e.log.Musters e.log.roster ∧
        e.leaderOrElect = (.error (.notLeader none), { e with log := e.log.unled })) := by
  unfold leaderOrElect
  rcases e.log.leaderOrElect_cases with ⟨leader, hlead, heq⟩ |
    ⟨hnone, ⟨hmusters, winner, heq, hin, hon⟩ | ⟨hnot, heq⟩⟩
  · refine Or.inl ⟨leader, hlead, ?_⟩
    rw [heq]
  · refine Or.inr ⟨hnone, Or.inl ⟨hmusters, winner, ?_, hin, hon⟩⟩
    rw [heq]
  · refine Or.inr ⟨hnone, Or.inr ⟨hnot, ?_⟩⟩
    rw [heq]

/-- Once who leads is settled, the counter can be counted up. -/
theorem counter_leaderOrElect (hr : e.log.InRange) :
    e.leaderOrElect.2.log.counter ≠ 0xFFFFFFFF := by
  rcases e.leaderOrElect_cases with ⟨leader, _, heq⟩ |
    ⟨_, ⟨_, winner, heq, _⟩ | ⟨_, heq⟩⟩
  · rw [heq]
    exact hr.2
  · rw [heq]
    exact show (0 : UInt32) ≠ 0xFFFFFFFF by decide
  · rw [heq]
    exact hr.2

theorem contains_leaderOrElect (e : Ensemble) (id : ServerId) :
    e.leaderOrElect.2.log.attached.contains id = e.log.attached.contains id := by
  rcases e.leaderOrElect_cases with ⟨leader, _, heq⟩ |
    ⟨_, ⟨_, winner, heq, _⟩ | ⟨_, heq⟩⟩
  · rw [heq]
  · rw [heq]
    exact CommitLog.contains_announce _ id _
  · rw [heq]
    exact CommitLog.contains_announce _ id _

/-- A server that is there stays there when a record is written. -/
theorem contains_write {id : ServerId} (h : e.log.attached.contains id = true)
    (record : Record) : (e.write record).2.log.attached.contains id = true := by
  have hsettled := (e.contains_leaderOrElect id).trans h
  unfold write
  cases heq : e.leaderOrElect with
  | mk leader e' =>
      rw [heq] at hsettled
      cases leader with
      | error fault => exact hsettled
      | ok leader =>
          exact (CommitLog.onward_propose e.seed e'.log leader record).stays id hsettled

theorem Calm.withSessions (h : e.Calm seed) {sessions : Sessions}
    (hplaced : sessions.At fun id => e.log.attached.contains id = true) :
    { e with sessions }.Calm seed :=
  ⟨h.seeded, h.link, h.tracked, h.ordered, h.idle, hplaced⟩

theorem Calm.push (h : e.Calm seed) (r : Roster) : (e.push r).Calm seed :=
  h.withSessions (h.placed.push r)

theorem calm_vacant (template : Settings) (seed : Roster) :
    (vacant template seed []).Calm seed where
  seeded := rfl
  link := rfl
  tracked := .empty seed
  ordered := CommitLog.ordered_empty seed
  idle id s hs := by
    rw [CommitLog.replica?, vacant, CommitLog.empty, Keyed.get?_empty] at hs
    cases hs
  placed := Sessions.at_empty _

end Quorate.Ensemble
