import Quorate.Proofs.CommitLog.Acknowledged
import Quorate.Proofs.CommitLog.Onward
import Quorate.Proofs.Roster.Members
import Quorate.Proofs.Roster.Succession

/-!
# Majorities that run

`Musters l r` says that the servers that run are more than half of the participants of `r`.
Everything that a log decides by a quorum comes down to it: an election is won exactly if
the roster in effect musters (`exists_elected_iff`), and so are an epoch and a record that
makes no roster acknowledged (`acknowledged_none_iff`); where there is a leader, the replicas
in sync are those that run (`isQuorum_synced_iff`).
-/

namespace Quorate

namespace CommitLog

section Any

variable {ρ : Type} {l l' : CommitLog ρ} {r : Roster}

/-- More than half of the participants of a roster run. -/
def Musters (l : CommitLog ρ) (r : Roster) : Prop :=
  r.IsMajority (r.participants.toFinset.filter fun id => l.isOnline id = true)

instance (l : CommitLog ρ) (r : Roster) : Decidable (l.Musters r) :=
  decidable_of_iff _ Roster.isMajority_filter_iff.symm

theorem musters_congr (h : ∀ id, l'.isOnline id = l.isOnline id) (r : Roster) :
    l'.Musters r ↔ l.Musters r := by
  rw [Musters, Musters]
  simp only [h]

theorem Musters.of_members_eq {r r' : Roster} (h : l.Musters r) (heq : r.members = r'.members) :
    l.Musters r' := by
  have hmajority := Roster.IsMajority.of_members_eq h heq
  rwa [Roster.participants_eq_of_members_eq heq] at hmajority

theorem Musters.participants_ne_nil (h : l.Musters r) : r.participants ≠ [] :=
  Roster.participants_ne_nil_of_isMajority h

theorem isQuorum_iff_musters {acks : IdSet} (h : ∀ id, id ∈ acks ↔ l.isOnline id = true) :
    r.isQuorum acks.ids = true ↔ l.Musters r := by
  rw [Roster.isQuorum_iff, Musters]
  simp only [← IdSet.mem_iff, h]

theorem isQuorum_online_iff : r.isQuorum l.online.ids = true ↔ l.Musters r :=
  isQuorum_iff_musters fun _ => mem_online_iff

theorem acknowledged_none_iff (hpeopled : l.roster.participants ≠ []) :
    l.acknowledged none = true ↔ l.Musters l.roster := by
  rw [acknowledged_iff, Option.getD_none, and_self_iff, isQuorum_online_iff, or_iff_right hpeopled]

variable [Replica ρ]

theorem exists_elected_iff :
    (∃ winner, l.elect = (.elected winner, l.renewed winner)) ↔ l.Musters l.roster := by
  have hlive : l.Musters l.roster ↔ l.roster.IsMajority
      (l.roster.participants.toFinset.filter (· ∈ l.online)) := by
    simp only [Musters, mem_online_iff]
  rw [hlive, ← @exists_elect_eq_elected_iff _ _ fun id => some (l.lastStamp id)]
  refine exists_congr fun winner => ⟨fun h => congrArg Prod.fst h, fun h => ?_⟩
  rcases elect_cases l with ⟨w, heq, hwin⟩ | heq
  · rw [h] at hwin
    cases hwin
    exact heq
  · have hpending : Quorate.elect l.roster l.online (fun id => some (l.lastStamp id)) =
        .pending := congrArg Prod.fst heq
    rw [h] at hpending
    cases hpending

/-- An election among enough servers is won by one of them, any other by none. -/
theorem elect_cases_musters (l : CommitLog ρ) :
    (l.Musters l.roster ∧ ∃ winner, l.elect = (.elected winner, l.renewed winner) ∧
      winner ∈ l.roster.participants ∧ l.isOnline winner = true) ∨
    ¬ l.Musters l.roster ∧ l.elect = (.pending, l.unled) := by
  rcases elect_cases l with ⟨winner, heq, hwin⟩ | heq
  · refine Or.inl ⟨exists_elected_iff.1 ⟨winner, heq⟩, winner, heq, ?_, isOnline_of_elected hwin⟩
    exact Roster.mem_voters_iff.1 (mem_of_elect_eq_elected hwin).1
  · refine Or.inr ⟨fun h => ?_, heq⟩
    obtain ⟨winner, hwon⟩ := exists_elected_iff.2 h
    rw [heq] at hwon
    cases hwon

/-- A log with a leader keeps it. Without one, enough servers elect one of them. -/
theorem leaderOrElect_cases (l : CommitLog ρ) :
    (∃ leader, l.leader = some leader ∧ l.leaderOrElect = (.ok leader, l)) ∨
    l.leader = none ∧
      ((l.Musters l.roster ∧ ∃ winner, l.leaderOrElect = (.ok winner, l.renewed winner) ∧
        winner ∈ l.roster.participants ∧ l.isOnline winner = true) ∨
      ¬ l.Musters l.roster ∧ l.leaderOrElect = (.error (.notLeader none), l.unled)) := by
  unfold leaderOrElect
  cases hlead : l.leader with
  | some leader => exact Or.inl ⟨leader, rfl, rfl⟩
  | none =>
      refine Or.inr ⟨rfl, ?_⟩
      rcases elect_cases_musters l with ⟨hmusters, winner, heq, hin, hon⟩ | ⟨hnot, heq⟩
      · refine Or.inl ⟨hmusters, winner, ?_, hin, hon⟩
        rw [heq]
        rfl
      · refine Or.inr ⟨hnot, ?_⟩
        rw [heq]
        rfl

end Any

/-- A server that runs has been handed everything, so under a leader it is in sync. -/
theorem mem_synced_iff {seed : Roster} {l : CommitLog Server} (h : l.Tracked seed)
    (hlead : l.leader ≠ none) {id : ServerId} : id ∈ l.synced ↔ l.isOnline id = true := by
  have hsome : l.leader.isNone = false :=
    Option.isNone_eq_false_iff.2 (Option.isSome_iff_ne_none.2 hlead)
  rw [synced, hsome, isOnline_iff, if_neg Bool.false_ne_true, Keyed.mem_keysWhere]
  simp only [Bool.and_eq_true, beq_iff_eq]
  constructor
  · rintro ⟨a, ha, hon, _⟩
    exact ⟨a, ha, hon⟩
  · rintro ⟨a, ha, hon⟩
    obtain ⟨_, _, _, hnext, _⟩ := h.follows id a ha
    exact ⟨a, ha, hon, hnext hon⟩

theorem isQuorum_synced_iff {seed : Roster} {l : CommitLog Server} (h : l.Tracked seed)
    (hlead : l.leader ≠ none) {r : Roster} : r.isQuorum l.synced.ids = true ↔ l.Musters r :=
  isQuorum_iff_musters fun _ => mem_synced_iff h hlead

end CommitLog

end Quorate
