import Quorate.Proofs.CommitLog.Deployment

/-!
# Replicas agree

In a run whose logs stay in range every attached server holds what a prefix of the one log
makes of the seed, each entry counted once and in order. A server that runs holds the whole
log, and so does the winner of an election. Since prefixes of one list are prefixes of each
other, so are the histories of any two servers (`Deployment.replicas_agree`).
-/

namespace Quorate

/-- The server is there and holds what the entries make of the seed, each one counted once
and in order. -/
def Attachment.Holds (seed : Roster) (entries : List Entry) (a : Attachment Server) : Prop :=
  ∃ s, a.replica = some s ∧ s.view = View.after s.settings.kept seed entries

/-- Where the stamps ascend, a server that follows the log holds what was handed to it. -/
theorem Attachment.Follows.holds {seed : Roster} {entries : List Entry}
    {a : Attachment Server} (h : a.Follows seed entries) (hasc : Ascending entries) :
    a.Holds seed (entries.take a.next) := by
  obtain ⟨s, hs, _, _, hk⟩ := h
  refine ⟨s, hs, ?_⟩
  rw [hk, View.replay_eq_after s.settings.one_le_kept (hasc.take a.next)]

theorem Attachment.Follows.holds_all {seed : Roster} {entries : List Entry}
    {a : Attachment Server} (h : a.Follows seed entries) (hasc : Ascending entries)
    (hon : a.online = true) : a.Holds seed entries := by
  have hnext : a.next = entries.length := by
    obtain ⟨_, _, _, hon', _⟩ := h
    exact hon' hon
  have hholds := h.holds hasc
  rwa [hnext, List.take_length] at hholds

theorem rosterHistory_take_comparable (seed : Roster) (entries : List Entry) (m n : Nat) :
    rosterHistory seed (entries.take m) <+: rosterHistory seed (entries.take n) ∨
      rosterHistory seed (entries.take n) <+: rosterHistory seed (entries.take m) := by
  rcases Nat.le_total m n with h | h
  · exact Or.inl (rosterHistory_mono (List.take_prefix_take_left h))
  · exact Or.inr (rosterHistory_mono (List.take_prefix_take_left h))

namespace Deployment

/-- Every attached server holds a prefix of the log, the whole log if it runs, in which case
its roster is that of the next commit; of any two histories one continues the other; and
the winner of an election runs and holds the whole log. -/
theorem replicas_agree {seed : Roster} {d : Deployment}
    (h : d.Reachable seed CommitLog.InRange) :
    (∀ id a, d.log.attached.get? id = some a →
      a.next ≤ d.log.entries.length ∧ a.Holds seed (d.log.entries.take a.next) ∧
      (a.online = true → a.next = d.log.entries.length ∧
        ∃ s, a.replica = some s ∧ s.current = d.log.roster)) ∧
    (∀ id a, d.log.attached.get? id = some a → ∀ id' a', d.log.attached.get? id' = some a' →
      rosterHistory seed (d.log.entries.take a.next) <+:
          rosterHistory seed (d.log.entries.take a'.next) ∨
        rosterHistory seed (d.log.entries.take a'.next) <+:
          rosterHistory seed (d.log.entries.take a.next)) ∧
    (∀ winner, d.log.elect.1 = .elected winner →
      ∃ a, d.log.elect.2.attached.get? winner = some a ∧ a.online = true ∧
        d.log.elect.2.leader = some winner ∧ a.Holds seed d.log.elect.2.entries) := by
  have htracked := h.tracked.log
  have hasc := h.ordered.ascending
  refine ⟨fun id a ha => ?_, fun _ a _ _ a' _ => ?_, fun winner hwin => ?_⟩
  · have hfollows := htracked.follows id a ha
    obtain ⟨s, hs, hle, hon, _⟩ := htracked.follows id a ha
    refine ⟨hle, hfollows.holds hasc, fun honline => ⟨hon honline, s, hs, ?_⟩⟩
    obtain ⟨t, ht, hview⟩ := hfollows.holds_all hasc honline
    cases hs.symm.trans ht
    rw [Server.current, hview, htracked.derived]
    rfl
  · exact rosterHistory_take_comparable seed d.log.entries a.next a'.next
  · have helect := htracked.elect
    rcases CommitLog.elect_cases d.log with ⟨id, heq, _⟩ | heq
    · rw [heq] at hwin helect ⊢
      cases hwin
      obtain ⟨a, ha, hon⟩ := CommitLog.isOnline_iff.1 (helect.led winner rfl)
      exact ⟨a, ha, hon, rfl, (helect.follows winner a ha).holds_all hasc hon⟩
    · rw [heq] at hwin
      cases hwin

/-- A run with a server that lags behind, stale and fitting proposals, and a server that is
replaced and comes back. -/
def mixedRun : List Operation :=
  [.attach 1 {}, .attach 2 {}, .attach 3 {}, .elect, .stop 1, .propose 3 (.data "a"),
    .propose 3 (.reconfigure ⟨.zero, .make 0 1, [.onPorts 2 20, .onPorts 3 30]⟩),
    .propose 3 (.reconfigure ⟨.zero, .make 0 1, []⟩), .attach 2 {}, .restore 2 0]

/-- In that run server 1 holds nothing but the seed, and the log has three entries. -/
theorem replicas_agree_mixedRun :
    ∃ a, (run .trio mixedRun).log.attached.get? 1 = some a ∧ a.next = 0 ∧
      a.Holds .trio ((run .trio mixedRun).log.entries.take 0) ∧
      (run .trio mixedRun).log.entries.length = 3 := by
  have hreach : (run .trio mixedRun).Reachable .trio CommitLog.InRange :=
    reachable_run mixedRun (by decide +kernel)
  have hsome : ((run .trio mixedRun).log.attached.get? 1).map (·.next) = some 0 := by
    decide +kernel
  obtain ⟨a, ha, hnext⟩ := Option.map_eq_some_iff.1 hsome
  have hholds := ((replicas_agree hreach).1 1 a ha).2.1
  rw [hnext] at hholds
  exact ⟨a, ha, hnext, hholds, by decide +kernel⟩

end Deployment

end Quorate
