import Quorate.Proofs.Roster.Valid
import Quorate.Proofs.Service.Run

/-!
# Leaders by role

In a run of an ensemble with its clients every server that presides leads the log, at every
moment, as long as no server that led when it was stopped comes back with that role. Where
one does, it presides without leading, beside another leader or beside none, until it hears
of an election (`Service.soleLeader_iff_not_revives`).
-/

namespace Quorate

namespace Ensemble

variable {template : Settings} {seed : Roster} {e : Ensemble}

theorem orderly_bootstrap (h : bootstrap template seed = .ok e) :
    (vacant template seed []).log.Orderly e.log := by
  unfold bootstrap at h
  split at h
  · cases h
  · cases h
    exact ((vacant template seed []).orderly_spawnAll seed.ids).trans (orderly_elect _)

theorem manned_bootstrap (h : bootstrap template seed = .ok e) : e.log.Manned :=
  (orderly_bootstrap h).manned (CommitLog.manned_empty seed)

theorem not_strays_bootstrap (h : bootstrap template seed = .ok e) (id : ServerId) :
    ¬ e.log.Strays id :=
  fun hs => CommitLog.not_strays_empty seed id
    ((orderly_bootstrap h).strays (CommitLog.manned_empty seed) id hs)

end Ensemble

theorem Errand.orderly_step {now : Nat} {e : Ensemble} {errand : Errand}
    {p : Progress Errand (Except Fault Roster) × Ensemble} (h : errand.step now e = some p) :
    e.log.Orderly p.2.log := by
  cases errand with
  | request call =>
      obtain ⟨q, hq, rfl⟩ := Option.map_eq_some_iff.1 h
      exact Routed.orderly_step hq
  | read call =>
      obtain ⟨q, hq, rfl⟩ := Option.map_eq_some_iff.1 h
      exact CommitLog.orderly_of_eq (Reading.log_step hq)

namespace Service

theorem orderly_advance (s : Service) (place now : Nat) :
    s.ensemble.log.Orderly (s.advance place now).ensemble.log := by
  unfold advance
  split
  · split
    · rename_i hstep
      exact Errand.orderly_step hstep
    · exact CommitLog.orderly_refl _
  · exact CommitLog.orderly_refl _

/-- Every operation is orderly but the start of a server. -/
theorem orderly_perform (s : Service) {operation : Operation}
    (h : ∀ id, operation ≠ .start id) :
    s.ensemble.log.Orderly (s.perform operation).ensemble.log := by
  have hrefl := CommitLog.orderly_refl s.ensemble.log
  cases operation with
  | spawn id => exact s.ensemble.orderly_spawn id
  | stop id => exact s.ensemble.orderly_stop id
  | start id => exact absurd rfl (h id)
  | elect => exact s.ensemble.orderly_elect
  | leaderOrElect => exact s.ensemble.orderly_leaderOrElect
  | write record plain => exact s.ensemble.orderly_write record
  | connect server watch => exact s.ensemble.orderly_connect server watch
  | close session => exact s.ensemble.orderly_close session
  | reconnect session server =>
      unfold perform
      dsimp only
      split
      · rename_i he
        exact CommitLog.orderly_of_eq (Ensemble.log_reconnect he)
      · exact hrefl
  | failover session =>
      unfold perform
      dsimp only
      split
      · rename_i he
        exact CommitLog.orderly_of_eq (Ensemble.log_failover he)
      · exact hrefl
  | dropInbox session => exact hrefl
  | read session now =>
      unfold perform
      rw [ensemble_undertake]
      exact CommitLog.orderly_of_eq (Reading.log_startConnected now s.ensemble session)
  | request session request =>
      unfold perform
      rw [ensemble_undertake]
      exact hrefl
  | advance place now => exact s.orderly_advance place now

theorem manned_perform {s : Service} (h : s.ensemble.log.Manned) (operation : Operation) :
    (s.perform operation).ensemble.log.Manned := by
  by_cases hstart : ∃ id, operation = .start id
  · obtain ⟨id, rfl⟩ := hstart
    exact h.start id
  · exact (s.orderly_perform (not_exists.1 hstart)).manned h

/-- Whoever strays after an operation strayed before, or comes back by it. -/
theorem strays_perform {s : Service} (h : s.ensemble.log.Manned) {operation : Operation}
    {id : ServerId} (hs : (s.perform operation).ensemble.log.Strays id) :
    s.ensemble.log.Strays id ∨ operation = .start id ∧ s.ensemble.log.Revives id := by
  by_cases hstart : ∃ j, operation = .start j
  · obtain ⟨j, rfl⟩ := hstart
    rcases CommitLog.strays_start hs with hbefore | ⟨rfl, hrevives⟩
    · exact Or.inl hbefore
    · exact Or.inr ⟨rfl, hrevives⟩
  · exact Or.inl ((s.orderly_perform (not_exists.1 hstart)).strays h id hs)

variable {template : Settings} {seed : Roster} {e : Ensemble}

theorem manned_run (h : Ensemble.bootstrap template seed = .ok e) (operations : List Operation) :
    (run e operations).ensemble.log.Manned := by
  induction operations using List.reverseRecOn with
  | nil => exact Ensemble.manned_bootstrap h
  | append_singleton operations operation ih =>
      rw [run_concat]
      exact manned_perform ih operation

/-- Whoever strays after a run has come back in it. -/
theorem exists_revives_of_strays (h : Ensemble.bootstrap template seed = .ok e)
    {operations : List Operation} {id : ServerId}
    (hs : (run e operations).ensemble.log.Strays id) :
    ∃ k, operations[k]? = some (.start id) ∧
      (run e (operations.take k)).ensemble.log.Revives id := by
  induction operations using List.reverseRecOn with
  | nil => exact absurd hs (Ensemble.not_strays_bootstrap h id)
  | append_singleton operations operation ih =>
      rw [run_concat] at hs
      rcases strays_perform (manned_run h operations) hs with hbefore | ⟨rfl, hrevives⟩
      · obtain ⟨k, hk, hrevives⟩ := ih hbefore
        have hlt : k < operations.length := (List.getElem?_eq_some_iff.1 hk).1
        refine ⟨k, ?_, ?_⟩
        · rw [List.getElem?_append_left hlt, hk]
        · rw [List.take_append_of_le_length hlt.le]
          exact hrevives
      · refine ⟨operations.length, by simp, ?_⟩
        rw [List.take_left]
        exact hrevives

/-- At every moment of a run the servers that run and take themselves for the leader are
the leader of the log and nobody else, exactly if none of the servers that are started in it
comes back as the leader that it was. -/
theorem soleLeader_iff_not_revives (h : Ensemble.bootstrap template seed = .ok e)
    (operations : List Operation) :
    (∀ k ≤ operations.length, (run e (operations.take k)).ensemble.log.SoleLeader) ↔
      ∀ k id, operations[k]? = some (.start id) →
        ¬ (run e (operations.take k)).ensemble.log.Revives id := by
  constructor
  · intro hsole k id hk hrevives
    obtain ⟨hlt, hop⟩ := List.getElem?_eq_some_iff.1 hk
    have hafter : run e (operations.take (k + 1)) =
        (run e (operations.take k)).perform (.start id) := by
      rw [List.take_succ_eq_append_getElem hlt, hop, run_concat]
    have hstrays := (manned_run h (operations.take k)).led.strays_of_revives hrevives
    have hnot := CommitLog.soleLeader_iff.1 (hsole (k + 1) hlt) id
    rw [hafter] at hnot
    exact hnot hstrays
  · intro hnot k _
    refine CommitLog.soleLeader_iff.2 fun id hs => ?_
    obtain ⟨i, hi, hrevives⟩ := exists_revives_of_strays h hs
    have hlt : i < k := by
      have hlen := (List.getElem?_eq_some_iff.1 hi).1
      rw [List.length_take] at hlen
      exact hlen.trans_le (Nat.min_le_left _ _)
    rw [List.getElem?_take_of_lt hlt] at hi
    rw [List.take_take, Nat.min_eq_left hlt.le] at hrevives
    exact hnot i id hi hrevives

/-- Three servers, of which the last one leads. -/
def trio : Ensemble :=
  ((Ensemble.vacant {} .trio []).spawnAll Roster.trio.ids).elect.2

/-- The leader is stopped and comes back after an election. -/
def returnRun : List Operation :=
  [.stop 3, .elect, .start 3]

/-- A follower is stopped and comes back after an election. -/
def followerRun : List Operation :=
  [.stop 1, .elect, .start 1]

/-- In the one run there comes a moment when a server presides that does not lead, in the
other there is none. -/
theorem soleLeader_iff_not_revives_returnRun :
    Ensemble.bootstrap {} .trio = .ok trio ∧
    (¬ ∀ k ≤ 3, (run trio (returnRun.take k)).ensemble.log.SoleLeader) ∧
    ∀ k ≤ 3, (run trio (followerRun.take k)).ensemble.log.SoleLeader := by
  have hboot : Ensemble.bootstrap {} .trio = .ok trio := by
    decide +kernel
  have hrevives : (run trio (returnRun.take 2)).ensemble.log.Revives 3 := by
    decide +kernel
  have hfollows : ¬ (run trio (followerRun.take 2)).ensemble.log.Revives 1 := by
    decide +kernel
  refine ⟨hboot, fun hsole => ?_, ?_⟩
  · exact (soleLeader_iff_not_revives hboot returnRun).1 hsole 2 3 rfl hrevives
  · refine (soleLeader_iff_not_revives hboot followerRun).2 fun k id hk => ?_
    match k, hk with
    | 2, rfl => exact hfollows

/-- Two servers that run take themselves for the leader, of which one leads the log; and one
does without an election in between, while the log has no leader. -/
theorem two_leaders_returnRun :
    Ensemble.bootstrap {} .trio = .ok trio ∧
    (let l := (run trio returnRun).ensemble.log
    l.leader = some 2 ∧ l.presides 2 = true ∧ l.presides 3 = true) ∧
    (let l := (run trio [.stop 3, .start 3]).ensemble.log
    l.leader = none ∧ l.presides 3 = true) := by
  decide +kernel

end Service

end Quorate
