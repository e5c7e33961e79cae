import Quorate.Proofs.CommitLog.Tracking

/-!
# How a server comes to lead

The role of a server becomes that of a leader in one way: the server hears that it was
elected, as a participant of the roster that it applied last (`Role.next_eq_leader_iff`).
Records that it learns may take the role away and never give it, so that whoever leads
after a part of the log led before it (`Server.leads_of_leads_learnAll`).
-/

namespace Quorate

theorem Role.next_eq_leader_iff {id : ServerId} {current : Role} {r : Roster}
    {outcome : Option Outcome} :
    Role.next id current r outcome = .leader ↔
      r.isParticipant id = true ∧
        (outcome = some (.elected id) ∨ outcome = none ∧ current = .leader) := by
  rw [Roster.isParticipant, decide_eq_true_iff]
  unfold Role.next
  cases r.standing? id with
  | none => simp
  | some standing =>
      cases standing with
      | observer => simp
      | participant =>
          match outcome with
          | none => cases current <;> simp [isVoter]
          | some (.elected winner) =>
              by_cases h : winner = id <;> simp [h]
          | some .pending => simp

namespace Server

/-- The server takes itself for the leader. -/
def leads (s : Server) : Bool :=
  s.role = .leader

variable {s : Server}

theorem leads_iff : s.leads = true ↔ s.role = .leader :=
  decide_eq_true_iff

theorem not_leads_ofSeed (settings : Settings) (seed : Roster) :
    (ofSeed settings seed).leads = false := by
  rw [← Bool.not_eq_true, leads_iff, ofSeed, Role.next_eq_leader_iff]
  simp

theorem leads_hear {outcome : Outcome} (h : (s.hear outcome).leads = true) :
    outcome = .elected s.settings.id := by
  rw [leads_iff, hear, reassess, Role.next_eq_leader_iff] at h
  simpa using h.2

theorem leads_of_leads_learn {stamp : Stamp} {record : Record}
    (h : (s.learn stamp record).leads = true) : s.leads = true := by
  rw [leads_iff] at h ⊢
  unfold learn at h
  split at h
  · rw [reassess, Role.next_eq_leader_iff] at h
    simpa using h.2
  · exact h

theorem leads_of_leads_learnAll {entries : List Entry}
    (h : (entries.foldl (fun s e => Replica.learn s e.stamp e.record) s).leads = true) :
    s.leads = true := by
  induction entries generalizing s with
  | nil => exact h
  | cons e entries ih => exact leads_of_leads_learn (ih h)

end Server

end Quorate
