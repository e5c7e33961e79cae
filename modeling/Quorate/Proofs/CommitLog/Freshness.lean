import Quorate.Proofs.CommitLog.Deployment

/-!
# When a commit is fresh

Epoch and counter of a log stay at their greatest value once they have come there, so that
a stamp may be used twice. `Saturated` says when: the counter is used up, or the epoch is
and a later counter of it has been used before the epoch was begun anew. In every state
that a run comes to, however long it is and whatever its seed, the next stamp is past all
stamps of the log exactly if the log is not saturated (`Dated.fresh_iff`). A server that
runs learns the record in that case; in the other it takes the record for one that it has
seen and skips it (`Deployment.fresh_iff_not_saturated`).
-/

namespace Quorate

namespace CommitLog

variable {ρ : Type}

/-- The next stamp is not past those in use: the counter is used up, or the epoch is and
the counter was counted further in it before. -/
def Saturated (l : CommitLog ρ) : Prop :=
  l.counter = 0xFFFFFFFF ∨
    l.epoch = 0xFFFFFFFF ∧
      ∃ e ∈ l.entries, e.stamp.epoch = 0xFFFFFFFF ∧ l.counter < e.stamp.counter

instance (l : CommitLog ρ) : Decidable l.Saturated :=
  inferInstanceAs (Decidable (_ ∨ _))

/-- What the entries of any log have to do with its epoch and its counter. -/
structure Dated (l : CommitLog ρ) : Prop where
  past : ∀ e ∈ l.entries, e.stamp ≤ l.lastCommitted ∨
    l.epoch = 0xFFFFFFFF ∧ e.stamp.epoch = 0xFFFFFFFF
  positive : ∀ e ∈ l.entries, Stamp.zero < e.stamp
  latest : l.leader ≠ none → l.counter ≠ 0 → ∃ e ∈ l.entries, e.stamp = l.lastCommitted

theorem dated_empty (seed : Roster) : (empty seed : CommitLog ρ).Dated where
  past _ h := absurd h List.not_mem_nil
  positive _ h := absurd h List.not_mem_nil
  latest h := absurd rfl h

/-- In the next epoch every entry is past, but for those of the last epoch there is. -/
theorem Dated.past_renewed {l l' : CommitLog ρ} (h : l.Dated) (epoch : l'.epoch = bump l.epoch)
    {e : Entry} (he : e ∈ l.entries) :
    e.stamp ≤ l'.lastCommitted ∨ l'.epoch = 0xFFFFFFFF ∧ e.stamp.epoch = 0xFFFFFFFF := by
  by_cases hmax : l.epoch = 0xFFFFFFFF
  · have hepoch : l'.epoch = 0xFFFFFFFF := by rw [epoch, hmax, bump_greatest]
    by_cases hlast : e.stamp.epoch = 0xFFFFFFFF
    · exact Or.inr ⟨hepoch, hlast⟩
    · refine Or.inl (Stamp.le_iff.2 (Or.inl ?_))
      rw [lastCommitted, Stamp.epoch_make, hepoch]
      exact lt_greatest hlast
  · rcases h.past e he with hle | ⟨hmax', _⟩
    · have hlt : l.lastCommitted < l'.lastCommitted := by
        refine Stamp.lt_iff.2 (Or.inl ?_)
        rw [lastCommitted, lastCommitted, epoch]
        simpa using lt_bump hmax
      exact Or.inl (hle.trans hlt.le)
    · exact absurd hmax' hmax

theorem Dated.turn {l l' : CommitLog ρ} (h : l.Dated) (ht : Turn l l') : l'.Dated := by
  cases ht with
  | still epoch counter _ entries leader =>
      have hlast : l'.lastCommitted = l.lastCommitted := by
        rw [lastCommitted, epoch, counter, lastCommitted]
      refine ⟨?_, ?_, fun hlead hcounter => ?_⟩
      · rw [entries, hlast, epoch]
        exact h.past
      · rw [entries]
        exact h.positive
      · rw [entries, hlast]
        rcases leader with heq | hnone
        · exact h.latest (heq ▸ hlead) (counter ▸ hcounter)
        · exact absurd hnone hlead
  | renewed epoch counter _ entries _ _ =>
      refine ⟨fun e he => ?_, ?_, fun _ hcounter => absurd counter hcounter⟩
      · rw [entries] at he
        exact h.past_renewed epoch he
      · rw [entries]
        exact h.positive
  | committed record sender _ epoch counter _ entries _ =>
      have hlast : l'.lastCommitted = l.nextStamp := by
        rw [lastCommitted, epoch, counter, make_nextStamp_counter]
      refine ⟨fun e he => ?_, fun e he => ?_, fun _ _ => ?_⟩
      · rw [entries] at he
        rw [hlast, epoch]
        rcases List.mem_append.1 he with hm | hm
        · rcases h.past e hm with hle | hmax
          · exact Or.inl (hle.trans (lastCommitted_le_nextStamp l))
          · exact Or.inr hmax
        · exact Or.inl (le_of_eq (congrArg Entry.stamp (List.mem_singleton.1 hm)))
      · rw [entries] at he
        rcases List.mem_append.1 he with hm | hm
        · exact h.positive e hm
        · rw [List.mem_singleton.1 hm]
          exact Stamp.zero_lt_make_bump _ _
      · rw [entries, hlast]
        exact ⟨_, List.mem_append_right _ (List.mem_singleton_self _), rfl⟩

/-- A log with a leader gives out a fresh stamp next exactly if it is not saturated. -/
theorem Dated.fresh_iff {l : CommitLog ρ} (h : l.Dated) (hlead : l.leader ≠ none) :
    (∀ e ∈ l.entries, e.stamp < l.nextStamp) ↔ ¬ l.Saturated := by
  constructor
  · rintro hfresh (hcounter | ⟨hepoch, e, he, hmax, hlt⟩)
    · have hpos : l.counter ≠ 0 := by
        rw [hcounter]
        decide
      obtain ⟨e, he, hstamp⟩ := h.latest hlead hpos
      have hlast : l.nextStamp = l.lastCommitted := by
        rw [nextStamp, lastCommitted, hcounter, bump_greatest]
      exact (hfresh e he).ne (hstamp.trans hlast.symm)
    · refine (hfresh e he).not_ge (Stamp.le_iff.2 (Or.inr ⟨?_, ?_⟩))
      · rw [nextStamp, Stamp.epoch_make, hepoch, hmax]
      · rw [nextStamp, Stamp.counter_make]
        exact bump_le_of_lt hlt
  · intro hsat e he
    have hcounter : l.counter ≠ 0xFFFFFFFF := fun heq => hsat (Or.inl heq)
    rcases h.past e he with hle | ⟨hepoch, hmax⟩
    · exact hle.trans_lt (lastCommitted_lt_nextStamp hcounter)
    · have hle : ¬ l.counter < e.stamp.counter := fun hlt =>
        hsat (Or.inr ⟨hepoch, e, he, hmax, hlt⟩)
      refine Stamp.lt_iff.2 (Or.inr ⟨?_, ?_⟩)
      · rw [nextStamp, Stamp.epoch_make, hepoch, hmax]
      · rw [nextStamp, Stamp.counter_make]
        exact UInt32.lt_of_le_of_lt (UInt32.not_lt.1 hle) (lt_bump hcounter)

/-- A commit is handed to a server that has been handed all entries before it. -/
theorem replica?_deliver_append {l : CommitLog Server} {id : ServerId} {a : Attachment Server}
    {s : Server} (ha : l.attached.get? id = some a) (hs : a.replica = some s)
    (hon : a.online = true) (hnext : a.next = l.entries.length) (stamp : Stamp)
    (record : Record) (sender : ServerId) :
    (l.append stamp record sender).deliver.replica? id = some (s.learn stamp record) := by
  have hget : (l.append stamp record sender).attached.get? id = some a := ha
  have hentries : (l.append stamp record sender).entries =
      l.entries ++ [⟨stamp, record, sender⟩] := rfl
  rw [replica?, attached_deliver, hget, hentries, Option.map_some, if_pos hon,
    Option.bind_some, Attachment.catchUp, hs, hnext, List.drop_left]
  rfl

end CommitLog

namespace Deployment

theorem Reachable.dated {seed : Roster} {within : CommitLog Server → Prop} {d : Deployment}
    (h : d.Reachable seed within) : d.log.Dated :=
  h.invariant (fun d => d.log.Dated) (CommitLog.dated_empty seed)
    fun d operation _ hd => hd.turn (turn_perform seed d operation)

/-- In every state that a run comes to, a commit has a stamp past all of its log exactly if
the log was not saturated. Then every server that runs learns the record and, where it held
the roster of the log before, holds that of the log again; otherwise none of them does. -/
theorem fresh_iff_not_saturated {seed : Roster} {d : Deployment}
    (h : d.Reachable seed fun _ => True) {sender : ServerId} {record : Record} {stamp : Stamp}
    {l : CommitLog Server} (hp : d.log.propose sender record = (.ok stamp, l)) :
    ((∀ e ∈ d.log.entries, e.stamp < stamp) ↔ ¬ d.log.Saturated) ∧
    ∀ id s, d.log.isOnline id = true → d.log.replica? id = some s →
      (Ascending d.log.entries → s.current = d.log.roster) ∧
      ∃ s', l.replica? id = some s' ∧
        (¬ d.log.Saturated → s.view.applied < stamp ∧ s'.view.applied = stamp) ∧
        (d.log.Saturated → s'.view = s.view) ∧
        (s.current = d.log.roster → l.roster ≠ d.log.roster →
          (s'.current = l.roster ↔ ¬ d.log.Saturated)) := by
  rcases CommitLog.propose_cases d.log sender record with
    ⟨_, heq⟩ | ⟨hlead, _, heq⟩ | ⟨_, heq⟩
  · rw [heq] at hp
    cases hp
  · rw [heq] at hp
    cases hp
    have hsome : d.log.leader ≠ none := by
      rw [hlead]
      exact Option.some_ne_none sender
    have hfresh := h.dated.fresh_iff hsome
    refine ⟨hfresh, fun id s hon hs => ⟨fun hasc => ?_, ?_⟩⟩
    · rw [Server.current, h.tracked.log.view_eq_of_isOnline hasc hon hs, h.tracked.log.derived]
      rfl
    obtain ⟨a, ha, hreplica, honline, hnext, hk⟩ := h.tracked.log.handed hon hs
    have hnew : s.view.applied < d.log.nextStamp ↔ ¬ d.log.Saturated := by
      rw [← hfresh, hk, View.replay, View.applied_learnAll_lt_iff]
      exact and_iff_right (Stamp.zero_lt_make_bump _ _)
    have hskip (hsat : d.log.Saturated) :
        s.view.learn s.settings.kept d.log.nextStamp record = s.view :=
      View.learn_of_le (not_lt.1 fun hlt => hnew.1 hlt hsat)
    refine ⟨_, CommitLog.replica?_deliver_append ha hreplica honline hnext _ record sender,
      ?_, ?_, ?_⟩
    · intro hsat
      rw [Server.view_learn]
      exact ⟨hnew.2 hsat, View.applied_learn (hnew.2 hsat).not_ge⟩
    · intro hsat
      rw [Server.view_learn]
      exact hskip hsat
    · intro hcurrent hroster
      rw [Server.current, Server.view_learn]
      constructor
      · intro hsame hsat
        rw [hskip hsat] at hsame
        exact hroster (hsame.symm.trans hcurrent)
      · intro hsat
        rw [Server.current] at hcurrent
        rw [View.current_learn (hnew.2 hsat).not_ge, hcurrent]
        rfl
  · rw [heq] at hp
    cases hp

/-- One participant, whose seed is of the last epoch. -/
def lastEpoch : Roster :=
  ⟨⟨0xFFFFFFFF00000000⟩, [.onPorts 1 10], by decide +kernel⟩

/-- A commit in the last epoch, which an election then begins once more. -/
def lastEpochRun : List Operation :=
  [.attach 1 {}, .elect, .propose 1 (.data "a"), .elect]

/-- A proposal of one more member. -/
def joinTwo : Record :=
  .reconfigure ⟨⟨0xFFFFFFFF00000000⟩, ⟨0xFFFFFFFF00000001⟩,
    [.onPorts 1 10, .onPorts 2 20 .observer]⟩

/-- After that run a proposal is committed with a stamp in use, and the roster that it makes
never reaches the server that runs. -/
theorem fresh_iff_not_saturated_lastEpoch :
    ∃ s s' stamp l, (run lastEpoch lastEpochRun).log.propose 1 joinTwo = (.ok stamp, l) ∧
      (¬ ∀ e ∈ (run lastEpoch lastEpochRun).log.entries, e.stamp < stamp) ∧
      (run lastEpoch lastEpochRun).log.replica? 1 = some s ∧ l.replica? 1 = some s' ∧
      s'.view = s.view ∧ s'.current ≠ l.roster := by
  have hreach : (run lastEpoch lastEpochRun).Reachable lastEpoch fun _ => True :=
    reachable_run lastEpochRun fun _ _ => trivial
  have hsat : (run lastEpoch lastEpochRun).log.Saturated := by
    decide +kernel
  have hok : ((run lastEpoch lastEpochRun).log.propose 1 joinTwo).1 =
      .ok ⟨0xFFFFFFFF00000001⟩ := by
    decide +kernel
  have hroster : ((run lastEpoch lastEpochRun).log.propose 1 joinTwo).2.roster ≠
      (run lastEpoch lastEpochRun).log.roster := by
    decide +kernel
  obtain ⟨s, hs, hcurrent⟩ : ∃ s, (run lastEpoch lastEpochRun).log.replica? 1 = some s ∧
      s.current = (run lastEpoch lastEpochRun).log.roster := by
    refine ⟨((run lastEpoch lastEpochRun).log.replica? 1).getD (.ofSeed {} lastEpoch), ?_, ?_⟩
    · decide +kernel
    · decide +kernel
  obtain ⟨hfresh, hservers⟩ := fresh_iff_not_saturated hreach (Prod.ext hok rfl)
  obtain ⟨_, s', hs', _, hview, hsame⟩ := hservers 1 s (by decide +kernel) hs
  exact ⟨s, s', _, _, Prod.ext hok rfl, fun h => hfresh.1 h hsat, hs, hs', hview hsat,
    fun h => (hsame hcurrent hroster).1 h hsat⟩

/-- Not every commit is fresh: this one has the stamp of an entry before it, and the server
that runs and leads does not come to hold the roster of the log. -/
theorem commit_not_fresh_lastEpoch :
    ((run lastEpoch lastEpochRun).log.propose 1 joinTwo).1 = .ok ⟨0xFFFFFFFF00000001⟩ ∧
    (∃ e ∈ (run lastEpoch lastEpochRun).log.entries, e.stamp = ⟨0xFFFFFFFF00000001⟩) ∧
    ((run lastEpoch lastEpochRun).log.propose 1 joinTwo).2.isOnline 1 = true ∧
    ((run lastEpoch lastEpochRun).log.propose 1 joinTwo).2.roster.version =
      ⟨0xFFFFFFFF00000001⟩ ∧
    (((run lastEpoch lastEpochRun).log.propose 1 joinTwo).2.replica? 1).map (·.current.version) =
      some ⟨0xFFFFFFFF00000000⟩ := by
  decide +kernel

end Deployment

end Quorate
