import Quorate.Proofs.Call.Deeds
import Quorate.Proofs.Ensemble.Calm
import Quorate.Proofs.Sessions.Observed

/-!
# Ensembles in which nothing is ahead of the log

An ensemble is `Abreast` of a version if the roster in effect has reached it and nothing is
ahead of that roster: no roster that was in effect before has a greater version, and every
session is connected to a server that is there and has observed no more than that. Its servers
follow the log in order, so one that runs has applied the roster in effect
(`Abreast.current_eq`).

Unlike a calm ensemble, one that is abreast may have calls under way. They keep it so if they
propose no roster that goes back and show the sessions no version that is not reached
(`Abreast.deeds`), which is what the servers tell them (`Abreast.supports`).
-/

namespace Quorate

/-- A proposal does not go back behind its base. -/
def RosterProposal.Forward (p : RosterProposal) : Prop :=
  p.base ≤ p.floor

/-- The calls that propose nothing that goes back and come across no greater version. -/
def Scope.upTo (v : Version) : Scope :=
  ⟨RosterProposal.Forward, (· ≤ v)⟩

theorem Scope.upTo_part {v w : Version} (hle : v ≤ w) : (upTo v).Part (upTo w) :=
  ⟨fun _ h => h, fun _ h => h.trans hle⟩

theorem Reconfiguration.forward_proposal {current : Roster} (change : Change)
    (hepoch : current.version.epoch ≠ 0xFFFFFFFF) : (proposal current change).Forward := by
  unfold RosterProposal.Forward proposal floor
  dsimp only
  split
  · exact (Stamp.lt_nextEpoch hepoch).le
  · exact Stamp.le_nextCounter current.version

namespace CommitLog

variable {seed : Roster} {l l' : CommitLog Server}

/-- No roster that was in effect has a greater version than the one that is. -/
def Rising (seed : Roster) (l : CommitLog Server) : Prop :=
  ∀ r ∈ rosters seed l.entries, r.version ≤ l.roster.version

theorem rising_empty (seed : Roster) : (empty seed : CommitLog Server).Rising seed := by
  intro r hr
  cases List.mem_singleton.1 hr
  exact le_refl _

theorem Rising.still (h : l.Rising seed) (hentries : l'.entries = l.entries)
    (hroster : l'.roster = l.roster) : l'.Rising seed := by
  unfold Rising at h ⊢
  rw [hentries, hroster]
  exact h

/-- The roster that a record makes is not behind the one in effect. -/
def Advances (record : Record) : Prop :=
  ∀ p, record = .reconfigure p → p.Forward

theorem advances_of_plain {record : Record} (h : record.isReconfigure = false) :
    Advances record := by
  rintro p rfl
  cases h

theorem Advances.version_le {record : Record} (h : Advances record) {current next : Roster}
    {stamp : Stamp} (hnext : record.successor? current stamp = some next) :
    current.version ≤ next.version := by
  obtain ⟨p, hp, hbase, hversion, _⟩ := Record.successor?_eq_some_iff.1 hnext
  rw [← hbase, hversion]
  exact (h p hp).trans (le_max_left _ _)

theorem Rising.propose (h : l.Rising seed) (hderived : l.Derived seed) {record : Record}
    (hrecord : Advances record) (sender : ServerId) :
    (l.propose sender record).2.Rising seed ∧
      l.roster.version ≤ (l.propose sender record).2.roster.version := by
  rcases propose_cases l sender record with ⟨_, heq⟩ | ⟨_, _, heq⟩ | ⟨_, heq⟩
  · rw [heq]
    exact ⟨h, le_refl _⟩
  · rw [heq]
    have hafter : rosters seed (l.entries ++ [⟨l.nextStamp, record, sender⟩]) =
        rosters seed l.entries ++ (record.successor? l.roster l.nextStamp).toList := by
      rw [rosters_concat, ← hderived]
    unfold Rising
    change (∀ r ∈ rosters seed (l.entries ++ [⟨l.nextStamp, record, sender⟩]),
      r.version ≤ ((record.successor? l.roster l.nextStamp).getD l.roster).version) ∧
      l.roster.version ≤ ((record.successor? l.roster l.nextStamp).getD l.roster).version
    rw [hafter]
    cases hnext : record.successor? l.roster l.nextStamp with
    | none =>
        rw [Option.toList_none, List.append_nil]
        exact ⟨h, le_refl _⟩
    | some next =>
        have hle := hrecord.version_le hnext
        refine ⟨fun r hr => ?_, hle⟩
        rcases List.mem_append.1 hr with hold | hnew
        · exact (h r hold).trans hle
        · cases List.mem_singleton.1 hnew
          exact le_refl _
  · rw [heq]
    exact ⟨h.still rfl rfl, le_refl _⟩

end CommitLog

namespace Ensemble

/-- The roster in effect has reached a version, and nothing is ahead of it. -/
structure Abreast (seed : Roster) (v : Version) (e : Ensemble) : Prop where
  seeded : e.seed = seed
  tracked : e.log.Tracked seed
  ordered : e.log.Ordered
  rising : e.log.Rising seed
  reached : v ≤ e.log.roster.version
  placed : e.sessions.At fun id => e.log.attached.contains id = true
  behind : e.sessions.Behind e.log.roster.version

variable {seed : Roster} {v : Version} {e e' : Ensemble}

theorem abreast_vacant (template : Settings) (seed : Roster) :
    (vacant template seed []).Abreast seed seed.version where
  seeded := rfl
  tracked := .empty seed
  ordered := CommitLog.ordered_empty seed
  rising := CommitLog.rising_empty seed
  reached := le_refl _
  placed := Sessions.at_empty _
  behind := Sessions.behind_empty _

/-- An ensemble is abreast of its own roster. -/
theorem Abreast.renew (h : e.Abreast seed v) : e.Abreast seed e.log.roster.version :=
  { h with reached := le_refl _ }

/-- A server that runs has applied the roster in effect. -/
theorem Abreast.current_eq (h : e.Abreast seed v) {id : ServerId} {s : Server}
    (hon : e.log.isOnline id = true) (hs : e.server id = .ok s) : s.current = e.log.roster :=
  h.tracked.current_eq_of_isOnline h.ordered.ascending hon (server_eq_ok_iff.1 hs)

theorem Abreast.current_version_le (h : e.Abreast seed v) {id : ServerId} {s : Server}
    (hs : e.server id = .ok s) : s.current.version ≤ e.log.roster.version :=
  h.rising _ (h.tracked.current_mem_rosters h.ordered.ascending (server_eq_ok_iff.1 hs))

/-- What the servers tell is not ahead of the log. -/
theorem Abreast.supports (h : e.Abreast seed v)
    (hepoch : e.log.roster.version.epoch ≠ 0xFFFFFFFF) :
    e.Supports (.upTo e.log.roster.version) where
  current _ _ hs := h.current_version_le hs
  committed _ _ _ _ hs hr :=
    h.rising _ (h.tracked.committedBy?_mem_rosters h.ordered.ascending (server_eq_ok_iff.1 hs) hr)
  examined _ s _ change _ hs _ := by
    have hle := Stamp.epoch_le_of_le (h.current_version_le hs)
    exact Reconfiguration.forward_proposal change
      (UInt32.ne_of_lt (UInt32.lt_of_le_of_lt hle (lt_greatest hepoch)))

theorem Abreast.withSessions (h : e.Abreast seed v) {sessions : Sessions}
    (hplaced : sessions.At fun id => e.log.attached.contains id = true)
    (hbehind : sessions.Behind e.log.roster.version) : { e with sessions }.Abreast seed v :=
  { h with placed := hplaced, behind := hbehind }

theorem Abreast.onward (h : e.Abreast seed v) {log : CommitLog Server}
    (ho : CommitLog.Onward seed e.log log) (hordered : log.Ordered) (hrising : log.Rising seed)
    (hle : e.log.roster.version ≤ log.roster.version) : { e with log }.Abreast seed v where
  seeded := h.seeded
  tracked := ho.tracked h.tracked
  ordered := hordered
  rising := hrising
  reached := h.reached.trans hle
  placed := h.placed.mono ho.stays
  behind := h.behind.mono hle

/-- An operation of the log that commits nothing. -/
theorem Abreast.still (h : e.Abreast seed v) {log : CommitLog Server}
    (ho : CommitLog.Onward seed e.log log) (hordered : log.Ordered)
    (hentries : log.entries = e.log.entries) : { e with log }.Abreast seed v := by
  have hroster := ho.turn.roster_eq hentries
  exact h.onward ho hordered (h.rising.still hentries hroster) (hroster ▸ le_refl _)

theorem Abreast.propose (h : e.Abreast seed v) (hcounter : e.log.counter ≠ 0xFFFFFFFF)
    {record : Record} (hrecord : CommitLog.Advances record) (sender : ServerId) :
    { e with log := (e.log.propose sender record).2 }.Abreast seed v := by
  obtain ⟨hrising, hle⟩ := h.rising.propose h.tracked.derived hrecord sender
  exact h.onward (CommitLog.onward_propose seed e.log sender record)
    (h.ordered.propose hcounter sender record) hrising hle

/-- A turn of the log that commits nothing, from within the range of its stamps. -/
theorem Abreast.turn (h : e.Abreast seed v) (hr : e.log.InRange) {log : CommitLog Server}
    (ho : CommitLog.Onward seed e.log log) (hentries : log.entries = e.log.entries) :
    { e with log }.Abreast seed v :=
  h.still ho (h.ordered.turn hr ho.turn) hentries

theorem Abreast.stroke (h : e.Abreast seed v) (hr : e.log.InRange)
    (hs : Stroke (.upTo v) e e') : e'.Abreast seed v := by
  cases hs with
  | propose sender proposal within =>
      refine h.propose hr.2 ?_ sender
      rintro p hp
      cases hp
      exact within
  | elect => exact h.turn hr (CommitLog.onward_elect seed e.log) e.log.entries_elect
  | resign leader =>
      exact h.turn hr (CommitLog.onward_resign seed e.log leader) (e.log.entries_resign leader)
  | establish leader =>
      exact h.turn hr (CommitLog.onward_establish seed e.log leader)
        (e.log.entries_establish leader)

theorem Abreast.touch (h : e.Abreast seed v) (ht : Touch (.upTo v) e e') :
    e'.Abreast seed v := by
  cases ht with
  | adjust id settings view role =>
      have hstill := CommitLog.still_adjust seed e.log id view settings
      exact h.still hstill.onward (h.ordered.still rfl rfl rfl) rfl
  | takeTransit =>
      unfold Ensemble.takeTransit
      split
      · exact h
      · exact { h with }
  | push r within =>
      exact h.withSessions (h.placed.push r) (h.behind.push (within.trans h.reached))
  | observe session version within observes =>
      exact h.withSessions (h.placed.observe observes)
        (h.behind.observe (within.trans h.reached) observes)
  | reconnect session server found moves =>
      exact h.withSessions (h.placed.reconnect (contains_of_server found) moves)
        (h.behind.reconnect moves)

theorem Abreast.touches (h : e.Abreast seed v) (ht : Touches (.upTo v) e e') :
    e'.Abreast seed v := by
  induction ht with
  | refl => exact h
  | tail _ hlast ih => exact ih.touch hlast

/-- A step of a call keeps an ensemble abreast. -/
theorem Abreast.deeds (h : e.Abreast seed v) (hr : e.log.InRange)
    (hd : Deeds (.upTo v) e e') : e'.Abreast seed v := by
  cases hd with
  | quiet touches => exact h.touches touches
  | struck stroke touches => exact (h.stroke hr stroke).touches touches

theorem Abreast.leaderOrElect (h : e.Abreast seed v) (hr : e.log.InRange) :
    e.leaderOrElect.2.Abreast seed v :=
  h.deeds hr (e.deeds_leaderOrElect (.upTo v))

theorem Abreast.write (h : e.Abreast seed v) (hr : e.log.InRange) {record : Record}
    (hplain : record.isReconfigure = false) : (e.write record).2.Abreast seed v := by
  have hsettled := h.leaderOrElect hr
  have hcounter := counter_leaderOrElect hr
  unfold Ensemble.write
  cases heq : e.leaderOrElect with
  | mk leader e' =>
      rw [heq] at hsettled hcounter
      cases leader with
      | error fault => exact hsettled
      | ok leader =>
          exact hsettled.propose hcounter (CommitLog.advances_of_plain hplain) leader

theorem Abreast.spawn (h : e.Abreast seed v) (id : ServerId) : (e.spawn id).Abreast seed v := by
  unfold Ensemble.spawn
  cases hs : e.server id with
  | ok s => exact h
  | error fault =>
      have honward := CommitLog.onward_attach seed e.log (replica?_eq_none hs)
        (e.template.forServer id)
      have hseed := h.seeded
      rw [← hseed] at honward
      exact h.still (hseed ▸ honward) (h.ordered.still rfl rfl rfl) rfl

theorem Abreast.spawnAll (h : e.Abreast seed v) (ids : List ServerId) :
    (e.spawnAll ids).Abreast seed v := by
  induction ids generalizing e with
  | nil => exact h
  | cons id ids ih => exact ih (h.spawn id)

theorem abreast_bootstrap {template : Settings} (h : bootstrap template seed = .ok e)
    (hepoch : e.log.epoch ≠ 0xFFFFFFFF) : e.Abreast seed seed.version := by
  unfold bootstrap at h
  split at h
  · cases h
  · cases h
    have hspawned := (abreast_vacant template seed).spawnAll seed.ids
    exact hspawned.still (CommitLog.onward_elect seed _) (hspawned.ordered.elect hepoch)
      (CommitLog.entries_elect _)

theorem Abreast.stop (h : e.Abreast seed v) (hr : e.log.InRange) (id : ServerId) :
    (e.stop id).2.Abreast seed v := by
  unfold Ensemble.stop
  cases e.server id with
  | error fault => exact h
  | ok s => exact h.turn hr (CommitLog.onward_stop seed e.log id) (e.log.entries_stop id)

theorem Abreast.connect (h : e.Abreast seed v) (hr : e.log.InRange) (server : ServerId)
    (watch : Bool) : (e.connect server watch).2.Abreast seed v := by
  have hnext : { e with serial := e.serial + 1 }.Abreast seed v := { h with }
  have habreast := hnext.write hr
    (show (Record.openSession (sessionId server e.serial) server).isReconfigure = false from rfl)
  rcases e.connect_cases server watch with ⟨_, heq⟩ |
    ⟨_, hs, ⟨_, _, hwrite, heq⟩ | ⟨_, e', hwrite, heq⟩⟩
  · rw [heq]
    exact h
  · rw [hwrite] at habreast
    rw [heq]
    exact habreast
  · have hstays := contains_write (e := { e with serial := e.serial + 1 })
      (contains_of_server hs) (.openSession (sessionId server e.serial) server)
    rw [hwrite] at habreast hstays
    obtain ⟨present, hpresent⟩ := exists_server habreast.tracked hstays
    have hle := habreast.current_version_le hpresent
    rw [heq, server_eq_ok_iff.1 hpresent]
    exact habreast.withSessions (habreast.placed.register hstays _ watch)
      (habreast.behind.register hle server watch)

theorem Abreast.close (h : e.Abreast seed v) (hr : e.log.InRange) (session : SessionId) :
    (e.close session).2.Abreast seed v := by
  rcases e.close_cases session with ⟨_, _, heq⟩ | ⟨sessions, _, _, hclose, hwrite, heq⟩
  · rw [heq]
    exact h
  · have habreast := (h.withSessions (h.placed.close hclose) (h.behind.close hclose)).write hr
      (show (Record.closeSession session).isReconfigure = false from rfl)
    rw [hwrite] at habreast
    rw [heq]
    exact habreast

end Ensemble

end Quorate
