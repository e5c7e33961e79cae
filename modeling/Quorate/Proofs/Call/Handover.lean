import Quorate.Proofs.Call.Aftermath
import Quorate.Proofs.CommitLog.Governed

/-!
# What a committed reconfiguration hands over

After a commit the roster in effect is the new one, and a participant of it has to lead. If
the participants are the same and the leader is among them, it stays. Otherwise the follow-up
begins an epoch, either under the same leader or after an election (`renews_complete`); the
majority of the new roster that acknowledged the commit is enough for both. So a participant
leads in any case (`Ends.handsOver`).

The version of the new roster is one of the next epoch if the participants change, and else
that of the commit, unless it has to be later than the roster before. Whether the log reaches
it depends on whether it `KeepsPace` with that roster, and whether the same participants keep
their leader depends on whether it is one of them (`Ends.seams`). On a governed log both is so,
and the hand-over is `Seamless` (`Ends.handsOver_of_governed`).
-/

namespace Quorate

namespace CommitLog

structure Renews (l l' : CommitLog Server) : Prop where
  led : ∃ leader, l'.leader = some leader ∧ l'.isOnline leader = true ∧
    leader ∈ l'.roster.participants
  epoch : l'.epoch = bump l.epoch
  counter : l'.counter = 0
  roster : l'.roster = l.roster
  entries : l'.entries = l.entries
  followed : Keeps Server.followed l l'

/-- What is left of a log when a request has been granted with a roster: the roster is in
effect, and the log is led by one of its participants, in a new epoch if they are others than
before. -/
structure HandsOver (l l' : CommitLog Server) (next : Roster) : Prop where
  installed : ∃ leader p, l.leader = some leader ∧
    l'.entries = l.entries ++ [⟨l.nextStamp, .reconfigure p, leader⟩] ∧
    (Record.reconfigure p).successor? l.roster l.nextStamp = some next
  roster : l'.roster = next
  led : ∃ leader, l'.leader = some leader ∧ l'.isOnline leader = true ∧
    leader ∈ next.participants
  changed : l.roster.participants.toFinset ≠ next.participants.toFinset →
    l'.epoch.toNat = l.nextStamp.epoch.toNat + 1 ∧ l'.counter = 0
  followed_le : l'.FollowsUp (· ≤ next.version)

/-- Whether other participants decide from then on is found alike on the change, before it is
proposed, and by the leader that follows the new roster up. -/
def Agreed (request : Request) (l : CommitLog Server) (next : Roster) : Prop :=
  ∃ change candidate, Reconfiguration.examine request l.roster = .ok (change, candidate) ∧
    ∀ leader, l.leader = some leader →
      (change.changesParticipants l.roster = true ↔
        next.isParticipant leader = false ∨ 0 < l.roster.participantChanges next)

/-- A hand-over after which the version of the roster is not ahead of the log, and which leaves
the leader and its epoch alone if the participants are the same. -/
structure Seamless (request : Request) (l l' : CommitLog Server) (next : Roster) : Prop where
  version_le : next.version ≤ l'.lastCommitted
  unchanged : l.roster.participants.toFinset = next.participants.toFinset →
    l'.leader = l.leader ∧ l'.epoch = l.epoch
  agreed : Agreed request l next

/-- The log has reached the roster in effect before another one follows: its version if the
leader and the participants stay the same, and else its epoch. -/
structure KeepsPace (l : CommitLog Server) (next : Roster) : Prop where
  stays : l.roster.participants.toFinset = next.participants.toFinset → l.Presided →
    l.roster.version ≤ l.lastCommitted
  renews : (l.roster.participants.toFinset = next.participants.toFinset → ¬ l.Presided) →
    l.roster.version.epoch ≤ l.epoch

/-- Where a hand-over has a seam: at the version of the roster unless the log kept pace, and at
the leader of the same participants unless it is one of them. -/
structure Seams (request : Request) (l l' : CommitLog Server) (next : Roster) : Prop where
  version_le_iff : next.version ≤ l'.lastCommitted ↔ l.KeepsPace next
  unchanged_iff : l.roster.participants.toFinset = next.participants.toFinset →
    (l'.leader = l.leader ∧ l'.epoch = l.epoch ↔ l.Presided)
  agreed_iff : Agreed request l next ↔
    (l.roster.participants.toFinset = next.participants.toFinset → l.Presided)

/-- After a commit the leader stays, or a new epoch begins. -/
inductive Passes (l l' : CommitLog Server) (id : ServerId) (next : Roster) : Prop
  | stays (same : l.roster.participants.toFinset = next.participants.toFinset)
      (member : id ∈ next.participants) (leader : l'.leader = l.leader)
      (epoch : l'.epoch = l.epoch) (last : l'.lastCommitted = l.nextStamp)
  | renews (other : id ∉ next.participants ∨
        l.roster.participants.toFinset ≠ next.participants.toFinset)
      (epoch : l'.epoch = bump l.epoch) (counter : l'.counter = 0)

/-- What a log is once a leader has committed a proposal on it, before anything follows. -/
structure Lands (l l' : CommitLog Server) (leader : ServerId) (p : RosterProposal)
    (next : Roster) : Prop where
  leads : l'.leader = some leader
  epoch : l'.epoch = l.epoch
  counter : l'.counter = l.nextStamp.counter
  entries : l'.entries = l.entries ++ [⟨l.nextStamp, .reconfigure p, leader⟩]
  roster : l'.roster = next
  online : ∀ id, l'.isOnline id = l.isOnline id
  followed : Keeps Server.followed l l'

variable {l l' : CommitLog Server} {leader : ServerId}

theorem renews_renewed (hon : l.isOnline leader = true) (hin : leader ∈ l.roster.participants) :
    Renews l (l.renewed leader) where
  led := ⟨leader, rfl, (isOnline_announce _ _ leader).trans hon, hin⟩
  epoch := rfl
  counter := rfl
  roster := rfl
  entries := rfl
  followed := keeps_renewed Server.followed_hear l leader

theorem renews_elect (h : l.Musters l.roster) : Renews l l.elect.2 := by
  rcases elect_cases_musters l with ⟨_, winner, heq, hin, hon⟩ | ⟨hnot, _⟩
  · rw [heq]
    exact renews_renewed hon hin
  · exact absurd h hnot

theorem renews_establish (h : l.Musters l.roster) (hlead : l.leader = some leader)
    (hon : l.isOnline leader = true) (hin : leader ∈ l.roster.participants) :
    Renews l (l.establish leader).2 := by
  have heq : (l.establish leader).2 = l.renewed leader := by
    rw [establish, if_neg (not_not.2 hlead),
      if_pos ((acknowledged_none_iff h.participants_ne_nil).2 h), renewed, ← hlead]
  rw [heq]
  exact renews_renewed hon hin

/-- It is the same if the leader has resigned before. -/
theorem Renews.of_unled (h : Renews l.unled l') : Renews l l' :=
  ⟨h.led, h.epoch, h.counter, h.roster, h.entries,
    (keeps_unled Server.followed_hear l).trans h.followed⟩

theorem nextCounter_le_nextStamp {v : Version} (h : v ≤ l.lastCommitted) :
    v.nextCounter ≤ l.nextStamp := by
  rw [Stamp.le_iff, Stamp.nextCounter, nextStamp, Stamp.epoch_make, Stamp.epoch_make,
    Stamp.counter_make, Stamp.counter_make]
  rw [Stamp.le_iff, lastCommitted, Stamp.epoch_make, Stamp.counter_make] at h
  exact h.imp_right (And.imp_right bump_mono)

theorem le_lastCommitted_of_nextCounter_le {v : Version} (hv : v.counter ≠ 0xFFFFFFFF)
    (h : v.nextCounter ≤ l.nextStamp) : v ≤ l.lastCommitted := by
  rw [Stamp.le_iff, Stamp.nextCounter, nextStamp, Stamp.epoch_make, Stamp.epoch_make,
    Stamp.counter_make, Stamp.counter_make] at h
  rw [Stamp.le_iff, lastCommitted, Stamp.epoch_make, Stamp.counter_make]
  exact h.imp_right (And.imp_right (le_of_bump_le_bump hv))

theorem nextEpoch_le {v : Version} (h : v.epoch ≤ l.epoch) :
    v.nextEpoch ≤ .make (bump l.epoch) 0 := by
  rw [Stamp.le_iff, Stamp.nextEpoch, Stamp.epoch_make, Stamp.epoch_make, Stamp.counter_make,
    Stamp.counter_make]
  rcases UInt32.lt_or_eq_of_le (bump_mono h) with hlt | heq
  · exact Or.inl hlt
  · exact Or.inr ⟨heq, UInt32.le_refl 0⟩

theorem epoch_le_of_nextEpoch_le {v : Version} (hv : v.epoch ≠ 0xFFFFFFFF)
    (h : v.nextEpoch ≤ .make (bump l.epoch) 0) : v.epoch ≤ l.epoch := by
  have hle := Stamp.epoch_le_of_le h
  rw [Stamp.nextEpoch, Stamp.epoch_make, Stamp.epoch_make] at hle
  exact le_of_bump_le_bump hv hle

theorem nextCounter_le {v : Version} (hr : l.epoch ≠ 0xFFFFFFFF) (h : v.epoch ≤ l.epoch) :
    v.nextCounter ≤ .make (bump l.epoch) 0 := by
  rw [Stamp.le_iff, Stamp.nextCounter, Stamp.epoch_make, Stamp.epoch_make]
  exact Or.inl (UInt32.lt_of_le_of_lt h (lt_bump hr))

/-- A counter that was counted on is not the first one of an epoch. -/
theorem epoch_le_of_nextCounter_le {v : Version}
    (h : v.nextCounter ≤ .make (bump l.epoch) 0) : v.epoch ≤ l.epoch := by
  rw [Stamp.le_iff, Stamp.nextCounter, Stamp.epoch_make, Stamp.epoch_make, Stamp.counter_make,
    Stamp.counter_make] at h
  rcases h with hlt | ⟨_, hcounter⟩
  · exact UInt32.not_lt.1 fun hgt => UInt32.not_lt.2 (bump_le_of_lt hgt) hlt
  · exact absurd (UInt32.le_antisymm hcounter UInt32.zero_le) (bump_ne_zero _)

theorem nextStamp_le_nextEpoch (hr : l.epoch ≠ 0xFFFFFFFF) :
    l.nextStamp ≤ .make (bump l.epoch) 0 := by
  refine Stamp.le_iff.2 (Or.inl ?_)
  rw [nextStamp, Stamp.epoch_make, Stamp.epoch_make]
  exact lt_bump hr

theorem Governed.keepsPace (h : l.Governed) (next : Roster) : l.KeepsPace next := by
  refine ⟨fun _ _ => h.version_le, fun _ => ?_⟩
  have hle := Stamp.epoch_le_of_le h.version_le
  rwa [lastCommitted, Stamp.epoch_make] at hle

theorem HandsOver.governed {request : Request} {next : Roster} (h : HandsOver l l' next)
    (hs : Seamless request l l' next) : l'.Governed := by
  obtain ⟨leader, hlead, _, hin⟩ := h.led
  refine ⟨?_, ?_, fun id hid => ?_, ?_⟩
  · rw [h.roster]
    exact List.ne_nil_of_mem hin
  · rw [h.roster]
    exact hs.version_le
  · rw [h.roster, ← Option.some.inj (hlead.symm.trans hid)]
    exact hin
  · rw [h.roster]
    exact h.followed_le

end CommitLog

namespace FollowUp

variable {e : Ensemble} {id : ServerId} {s : Server} {prev next : Roster}

theorem complete_of_unchanged (hs : e.server id = .ok s) (hnew : s.followed < next.version)
    (hin : next.isParticipant id = true) (hsame : prev.participantChanges next = 0) :
    complete id prev next e = (e.marked id next.version).push next := by
  simp only [complete, hs, if_neg (not_le.2 hnew), hin, hsame, Bool.not_true, lt_irrefl,
    if_false, Bool.false_eq_true, Ensemble.marked]

theorem renews_complete (hs : e.server id = .ok s) (hnew : s.followed < next.version)
    (hchanged : next.isParticipant id = false ∨ 0 < prev.participantChanges next)
    (hlead : e.log.leader = some id) (hon : e.log.isOnline id = true)
    (hroster : e.log.roster = next) (hmusters : e.log.Musters next) :
    CommitLog.Renews (e.marked id next.version).log (complete id prev next e).log := by
  have honline : ∀ j, (e.marked id next.version).log.isOnline j = e.log.isOnline j :=
    CommitLog.isOnline_adjust e.log id _
  have hmarked : (e.marked id next.version).log.Musters (e.marked id next.version).log.roster := by
    rw [CommitLog.musters_congr honline]
    exact hroster ▸ hmusters
  simp only [complete, hs, if_neg (not_le.2 hnew)]
  cases hin : next.isParticipant id with
  | false =>
      -- The leader resigns, and an election is won under the new roster.
      rw [if_pos (by rfl)]
      refine CommitLog.Renews.of_unled ?_
      have hresigned : (e.marked id next.version).log.resign id =
          (e.marked id next.version).log.unled := if_pos hlead
      rw [← hresigned]
      refine CommitLog.renews_elect ?_
      rw [hresigned]
      exact (CommitLog.musters_congr (CommitLog.isOnline_announce _ _) _).2 hmarked
  | true =>
      have hpositive : 0 < prev.participantChanges next :=
        hchanged.resolve_left fun h => Bool.noConfusion (hin.symm.trans h)
      rw [if_neg (by decide), if_pos hpositive]
      have hvoter : id ∈ e.log.roster.participants := hroster ▸ Roster.isParticipant_iff.1 hin
      exact CommitLog.renews_establish hmarked hlead ((honline id).trans hon) hvoter

theorem epoch_complete (id : ServerId) (prev next : Roster) (e : Ensemble) :
    (complete id prev next e).log.epoch = e.log.epoch ∨
      (complete id prev next e).log.epoch = bump e.log.epoch := by
  have hmarked : (e.marked id next.version).log.epoch = e.log.epoch := rfl
  unfold complete
  split
  · exact Or.inl rfl
  · dsimp only
    split
    · exact Or.inl rfl
    split
    · have hresign : ((e.marked id next.version).log.resign id).epoch = e.log.epoch := by
        rcases (e.marked id next.version).log.resign_cases id with heq | heq <;> rw [heq] <;> rfl
      rw [← hresign]
      exact (CommitLog.turn_elect _).epoch
    split
    · exact (CommitLog.turn_establish (e.marked id next.version).log id).epoch
    · exact Or.inl rfl

end FollowUp

namespace Reconfiguration

variable {seed : Roster} {e e' : Ensemble} {id : ServerId} {s : Server} {request : Request}

theorem participantChanges_pos_iff {current next : Roster} :
    0 < current.participantChanges next ↔
      current.participants.toFinset ≠ next.participants.toFinset :=
  Nat.pos_iff_ne_zero.trans (not_congr Roster.participantChanges_eq_zero_iff)

/-- Whether other participants decide is found alike on the change, before it is proposed, and
by the leader that follows the new roster up, exactly if they are others or the leader was one
of them. -/
theorem agrees_iff {current next : Roster} {change : Change}
    (hmembers : next.members = change.members) :
    (change.changesParticipants current = true ↔
      next.isParticipant id = false ∨ 0 < current.participantChanges next) ↔
    (current.participants.toFinset = next.participants.toFinset →
      id ∈ current.participants) := by
  rw [changesParticipants_iff hmembers, participantChanges_pos_iff]
  by_cases hsame : current.participants.toFinset = next.participants.toFinset
  · have hin : next.isParticipant id = true ↔ id ∈ current.participants := by
      rw [Roster.isParticipant_iff, ← List.mem_toFinset, ← hsame, List.mem_toFinset]
    simp [hsame, ← hin]
  · simp [hsame]

theorem lands_committed {p : RosterProposal} {next : Roster} (hlead : e.log.leader = some id)
    (hnext : (Record.reconfigure p).successor? e.log.roster e.log.nextStamp = some next) :
    CommitLog.Lands e.log (((e.claimed id s).committed id p).released id).log id p next where
  leads := hlead
  epoch := rfl
  counter := rfl
  entries := rfl
  roster := roster_committed hnext
  online j := (CommitLog.isOnline_adjust _ id _ j).trans
    ((CommitLog.isOnline_deliver _ j).trans (CommitLog.isOnline_adjust e.log id _ j))
  followed := by
    have hclaimed : CommitLog.Keeps Server.followed e.log (e.claimed id s).log :=
      CommitLog.keeps_adjust e.log id fun _ => rfl
    have hcommitted := CommitLog.keeps_commit Server.followed_learn (e.claimed id s).log
      e.log.nextStamp (.reconfigure p) id
    have hreleased : CommitLog.Keeps Server.followed ((e.claimed id s).committed id p).log
        (((e.claimed id s).committed id p).released id).log :=
      CommitLog.keeps_adjust _ id fun _ => rfl
    exact (hclaimed.trans hcommitted).trans hreleased

theorem version_eq_of_installed {l : CommitLog Server} {change : Change} {next : Roster}
    (h : (Record.reconfigure (proposalOf l.roster change)).successor? l.roster l.nextStamp =
      some next) : next.version = max (floor l.roster change) l.nextStamp := by
  obtain ⟨_, hp, _, hversion, _⟩ := Record.successor?_eq_some_iff.1 h
  cases hp
  exact hversion

section Landed

variable {l : CommitLog Server} {p : RosterProposal} {next : Roster} (hled : l.Led)
  (hlead : l.leader = some id)
  (hnext : (Record.reconfigure p).successor? l.roster l.nextStamp = some next)
  (hlands : CommitLog.Lands l e.log id p next)
  (hs : e.server id = .ok s) (hnew : s.followed < next.version)
  (hfollowed : e.log.FollowsUp (· ≤ next.version))

include hlead hled hnext hlands hs hnew hfollowed

theorem handsOver_of_unchanged
    (hsame : l.roster.participants.toFinset = next.participants.toFinset)
    (hstays : id ∈ next.participants) :
    CommitLog.HandsOver l (FollowUp.complete id l.roster next e).log next ∧
      CommitLog.Passes l (FollowUp.complete id l.roster next e).log id next := by
  have hlast : e.log.lastCommitted = l.nextStamp := by
    rw [CommitLog.lastCommitted, hlands.epoch, hlands.counter, CommitLog.make_nextStamp_counter]
  rw [FollowUp.complete_of_unchanged hs hnew (Roster.isParticipant_iff.2 hstays)
    (Roster.participantChanges_eq_zero_iff.2 hsame)]
  refine ⟨?_, .stays hsame hstays (hlands.leads.trans hlead.symm) hlands.epoch hlast⟩
  exact {
    installed := ⟨id, p, hlead, hlands.entries, hnext⟩
    roster := hlands.roster
    led := ⟨id, hlands.leads, (CommitLog.isOnline_adjust _ id _ id).trans
      ((hlands.online id).trans (hled id hlead)), hstays⟩
    changed := fun hne => absurd hsame hne
    followed_le := hfollowed.marked id (le_refl next.version) }

theorem handsOver_of_changed (hr : l.epoch ≠ 0xFFFFFFFF) (hmusters : l.Musters next)
    (hother : id ∉ next.participants ∨
      l.roster.participants.toFinset ≠ next.participants.toFinset) :
    CommitLog.HandsOver l (FollowUp.complete id l.roster next e).log next ∧
      CommitLog.Passes l (FollowUp.complete id l.roster next e).log id next := by
  have hfollows : next.isParticipant id = false ∨ 0 < l.roster.participantChanges next := by
    rw [Bool.eq_false_iff, Ne, Roster.isParticipant_iff, participantChanges_pos_iff]
    exact hother
  have hrenews := FollowUp.renews_complete hs hnew hfollows hlands.leads
    ((hlands.online id).trans (hled id hlead)) hlands.roster
    ((CommitLog.musters_congr hlands.online next).2 hmusters)
  have hepoch : (FollowUp.complete id l.roster next e).log.epoch = bump l.epoch := by
    rw [hrenews.epoch]
    exact congrArg bump hlands.epoch
  have hroster : (FollowUp.complete id l.roster next e).log.roster = next :=
    hrenews.roster.trans hlands.roster
  refine ⟨?_, .renews hother hepoch hrenews.counter⟩
  exact {
    installed := ⟨id, p, hlead, hrenews.entries.trans hlands.entries, hnext⟩
    roster := hroster
    led := by
      obtain ⟨leader, hleads, hon, hin⟩ := hrenews.led
      rw [hroster] at hin
      exact ⟨leader, hleads, hon, hin⟩
    changed := fun _ => by
      rw [hepoch, CommitLog.nextStamp, Stamp.epoch_make]
      exact ⟨toNat_bump_of_ne hr, hrenews.counter⟩
    followed_le := (hfollowed.marked id (le_refl next.version)).keeps hrenews.followed }

end Landed

/-- A request that is granted leaves the log to a participant of the new roster. -/
theorem Ends.handsOver {next : Roster} (h : Ends e id s request (.ok next) e')
    (hled : e.log.Led) (hr : e.log.epoch ≠ 0xFFFFFFFF) (hs : e.server id = .ok s)
    (hfollowed : e.log.FollowsUp (· ≤ e.log.roster.version))
    (hlater : e.log.roster.version < next.version) :
    CommitLog.HandsOver e.log e'.log next ∧ CommitLog.Passes e.log e'.log id next := by
  cases h with
  | committed _ leads change candidate examined synced _ _ installed =>
      have hlands := lands_committed (s := s) leads installed
      have hmusters : e.log.Musters next :=
        synced.of_members_eq (members_of_installed examined installed).symm
      obtain ⟨t, ht, hsame⟩ := hlands.followed.exists_replica (Ensemble.server_eq_ok_iff.1 hs)
      have hnew : t.followed < next.version :=
        hsame ▸ (hfollowed id s (Ensemble.server_eq_ok_iff.1 hs)).trans_lt hlater
      have hbehind : (((e.claimed id s).committed id
          (proposalOf e.log.roster change)).released id).log.FollowsUp (· ≤ next.version) :=
        CommitLog.FollowsUp.keeps (fun j u hu => (hfollowed j u hu).trans hlater.le)
          hlands.followed
      by_cases hstays : e.log.roster.participants.toFinset = next.participants.toFinset ∧
          id ∈ next.participants
      · exact handsOver_of_unchanged hled leads installed hlands
          (Ensemble.server_eq_ok_iff.2 ht) hnew hbehind hstays.1 hstays.2
      · refine handsOver_of_changed hled leads installed hlands
          (Ensemble.server_eq_ok_iff.2 ht) hnew hbehind hr hmusters ?_
        rw [or_comm, ← not_and_or]
        exact hstays

section Seams

variable {l l' : CommitLog Server} {change : Change} {candidate next : Roster}

theorem presided_iff (hlead : l.leader = some id) :
    l.Presided ↔ id ∈ l.roster.participants := by
  constructor
  · exact fun h => h id hlead
  · intro hin leader hleader
    exact Option.some.inj (hlead.symm.trans hleader) ▸ hin

theorem presided_of_member (hlead : l.leader = some id)
    (hsame : l.roster.participants.toFinset = next.participants.toFinset)
    (hin : id ∈ next.participants) : l.Presided := by
  rw [← List.mem_toFinset, ← hsame, List.mem_toFinset] at hin
  exact (presided_iff hlead).2 hin

theorem not_presided_of_other (hlead : l.leader = some id)
    (hother : id ∉ next.participants ∨
      l.roster.participants.toFinset ≠ next.participants.toFinset)
    (hsame : l.roster.participants.toFinset = next.participants.toFinset) : ¬ l.Presided := by
  rw [presided_iff hlead, ← List.mem_toFinset, hsame, List.mem_toFinset]
  exact hother.resolve_right (absurd hsame)

/-- The same participants keep their leader if it is one of them. -/
theorem unchanged_iff (hlead : l.leader = some id) (hpasses : CommitLog.Passes l l' id next)
    (hr : l.epoch ≠ 0xFFFFFFFF)
    (hsame : l.roster.participants.toFinset = next.participants.toFinset) :
    l'.leader = l.leader ∧ l'.epoch = l.epoch ↔ l.Presided := by
  cases hpasses with
  | stays _ member leader epoch _ =>
      exact iff_of_true ⟨leader, epoch⟩ (presided_of_member hlead hsame member)
  | renews other epoch _ =>
      refine iff_of_false (fun h => ?_) (not_presided_of_other hlead other hsame)
      exact absurd (epoch.symm.trans h.2).symm (UInt32.ne_of_lt (lt_bump hr))

variable (hlead : l.leader = some id)
  (hexamine : examine request l.roster = .ok (change, candidate))
  (hnext : (Record.reconfigure (proposalOf l.roster change)).successor? l.roster l.nextStamp =
    some next)

include hlead hexamine hnext

theorem agreed_iff : CommitLog.Agreed request l next ↔
    (l.roster.participants.toFinset = next.participants.toFinset → l.Presided) := by
  have hmembers : next.members = change.members :=
    (members_of_installed hexamine hnext).trans (examine_eq_ok hexamine).2.2.1
  have hagrees : (change.changesParticipants l.roster = true ↔
      next.isParticipant id = false ∨ 0 < l.roster.participantChanges next) ↔
      (l.roster.participants.toFinset = next.participants.toFinset →
        id ∈ l.roster.participants) := agrees_iff hmembers
  rw [presided_iff hlead, ← hagrees]
  constructor
  · rintro ⟨change', candidate', hexamine', hagreed⟩
    cases hexamine.symm.trans hexamine'
    exact hagreed id hlead
  · intro hagreed
    refine ⟨change, candidate, hexamine, fun leader hleader => ?_⟩
    cases hlead.symm.trans hleader
    exact hagreed

variable (hpasses : CommitLog.Passes l l' id next)

include hpasses

theorem version_le_of_keepsPace (hr : l.epoch ≠ 0xFFFFFFFF) (hpace : l.KeepsPace next) :
    next.version ≤ l'.lastCommitted := by
  have hmembers : next.members = change.members :=
    (members_of_installed hexamine hnext).trans (examine_eq_ok hexamine).2.2.1
  have hversion := version_eq_of_installed hnext
  rw [floor] at hversion
  rw [hversion]
  cases hpasses with
  | stays same member leader epoch last =>
      have hreached := hpace.stays same (presided_of_member hlead same member)
      rw [if_neg fun hchanges => (changesParticipants_iff hmembers).1 hchanges same, last]
      exact max_le (CommitLog.nextCounter_le_nextStamp hreached) (le_refl _)
  | renews other epoch counter =>
      have hreached := hpace.renews (not_presided_of_other hlead other)
      rw [CommitLog.lastCommitted, epoch, counter]
      refine max_le ?_ (CommitLog.nextStamp_le_nextEpoch hr)
      split
      · exact CommitLog.nextEpoch_le hreached
      · exact CommitLog.nextCounter_le hr hreached

theorem keepsPace_of_version_le (hv : l.roster.version.counter ≠ 0xFFFFFFFF)
    (hepoch : l.roster.version.epoch ≠ 0xFFFFFFFF) (hle : next.version ≤ l'.lastCommitted) :
    l.KeepsPace next := by
  have hmembers : next.members = change.members :=
    (members_of_installed hexamine hnext).trans (examine_eq_ok hexamine).2.2.1
  rw [version_eq_of_installed hnext, floor] at hle
  have hfloor := (le_max_left _ _).trans hle
  cases hpasses with
  | stays same member leader epoch last =>
      rw [if_neg fun hchanges => (changesParticipants_iff hmembers).1 hchanges same, last] at hfloor
      exact ⟨fun _ _ => CommitLog.le_lastCommitted_of_nextCounter_le hv hfloor,
        fun hnot => absurd (presided_of_member hlead same member) (hnot same)⟩
  | renews other epoch counter =>
      rw [CommitLog.lastCommitted, epoch, counter] at hfloor
      refine ⟨fun same hpresided => absurd hpresided (not_presided_of_other hlead other same),
        fun _ => ?_⟩
      split at hfloor
      · exact CommitLog.epoch_le_of_nextEpoch_le hepoch hfloor
      · exact CommitLog.epoch_le_of_nextCounter_le hfloor

end Seams

theorem Ends.steady {fault : Fault} (h : Ends e id s request (.error fault) e') :
    CommitLog.Steady e.log e'.log := by
  have hclaimed : CommitLog.Steady e.log (e.claimed id s).log :=
    CommitLog.steady_claim e.log id s.current.version
  cases h with
  | disabled _ => exact CommitLog.steady_refl e.log
  | following _ _ => exact CommitLog.steady_refl e.log
  | refused _ _ _ _ => exact hclaimed.trans (CommitLog.steady_release _ id)
  | unsynced _ _ _ _ _ _ _ => exact hclaimed.trans (CommitLog.steady_release _ id)
  | unacknowledged _ _ _ _ _ _ _ _ =>
      exact (hclaimed.trans (CommitLog.steady_unled _)).trans
        (CommitLog.steady_release _ id)

/-- On a governed log the roster that is committed is later than the one before. -/
theorem version_lt_of_installed {l : CommitLog Server} {change : Change} {next : Roster}
    (hg : l.Governed) (hcounter : l.counter ≠ 0xFFFFFFFF)
    (h : (Record.reconfigure (proposalOf l.roster change)).successor? l.roster l.nextStamp =
      some next) : l.roster.version < next.version :=
  (hg.version_le.trans_lt (CommitLog.lastCommitted_lt_nextStamp hcounter)).trans_le
    (version_eq_of_installed h ▸ le_max_right _ _)

/-- What a request that is granted hands over, and where that has a seam. -/
theorem Ends.seams {next : Roster} (h : Ends e id s request (.ok next) e') (hled : e.log.Led)
    (hr : e.log.epoch ≠ 0xFFFFFFFF) (hepoch : e.log.roster.version.epoch ≠ 0xFFFFFFFF)
    (hcounter : e.log.roster.version.counter ≠ 0xFFFFFFFF) (hs : e.server id = .ok s)
    (hfollowed : e.log.FollowsUp (· ≤ e.log.roster.version)) :
    CommitLog.HandsOver e.log e'.log next ∧ CommitLog.Seams request e.log e'.log next := by
  obtain ⟨change, candidate, hexamine, _, hinstalled, _⟩ := h.commits
  have hlater : e.log.roster.version < next.version :=
    (lt_floor change hepoch hcounter).trans_le
      (version_eq_of_installed hinstalled ▸ le_max_left _ _)
  obtain ⟨hhands, hpasses⟩ := h.handsOver hled hr hs hfollowed hlater
  refine ⟨hhands, ⟨?_, ?_⟩, unchanged_iff h.leads hpasses hr,
    agreed_iff h.leads hexamine hinstalled⟩
  · exact keepsPace_of_version_le h.leads hexamine hinstalled hpasses hcounter hepoch
  · exact version_le_of_keepsPace h.leads hexamine hinstalled hpasses hr

/-- A governed log is handed over without a seam. -/
theorem Ends.handsOver_of_governed {next : Roster} (h : Ends e id s request (.ok next) e')
    (hg : e.log.Governed) (hled : e.log.Led) (hr : e.log.InRange) (hs : e.server id = .ok s) :
    CommitLog.HandsOver e.log e'.log next ∧ CommitLog.Seamless request e.log e'.log next := by
  obtain ⟨change, candidate, hexamine, _, hinstalled, _⟩ := h.commits
  obtain ⟨hhands, hpasses⟩ := h.handsOver hled hr.1 hs hg.followed_le
    (version_lt_of_installed hg hr.2 hinstalled)
  refine ⟨hhands, ?_, fun hsame => ?_, ?_⟩
  · exact version_le_of_keepsPace h.leads hexamine hinstalled hpasses hr.1 (hg.keepsPace next)
  · exact (unchanged_iff h.leads hpasses hr.1 hsame).2 hg.presided
  · exact (agreed_iff h.leads hexamine hinstalled).2 fun _ => hg.presided

/-- However a request ends, a governed log stays so. -/
theorem Ends.governed {result : Except Fault Roster} (h : Ends e id s request result e')
    (hg : e.log.Governed) (hled : e.log.Led) (hr : e.log.InRange) (hs : e.server id = .ok s) :
    e'.log.Governed := by
  cases result with
  | ok next =>
      obtain ⟨hhands, hseamless⟩ := h.handsOver_of_governed hg hled hr hs
      exact hhands.governed hseamless
  | error fault => exact hg.steady h.steady

theorem Ends.epoch_ne {result : Except Fault Roster} (h : Ends e id s request result e')
    (hepoch : e'.log.epoch ≠ 0xFFFFFFFF) : e.log.epoch ≠ 0xFFFFFFFF := by
  cases h with
  | disabled _ => exact hepoch
  | following _ _ => exact hepoch
  | refused _ _ _ _ => exact hepoch
  | unsynced _ _ _ _ _ _ _ => exact hepoch
  | unacknowledged _ _ _ _ _ _ _ _ => exact hepoch
  | committed _ _ change _ _ _ _ next _ =>
      rcases FollowUp.epoch_complete id e.log.roster next (((e.claimed id s).committed id
        (proposalOf e.log.roster change)).released id) with heq | heq
      · rw [heq] at hepoch
        exact hepoch
      · rw [heq] at hepoch
        exact CommitLog.ne_greatest_of_bump_ne hepoch

end Reconfiguration

end Quorate
