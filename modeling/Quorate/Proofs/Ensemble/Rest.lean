import Quorate.Call.Reading
import Quorate.Proofs.Ensemble.Calm

/-!
# Ensembles at rest, however far they have counted

An ensemble is `Poised` if its servers follow its log with the settings of the template, nothing
is delayed on its way, and every session is connected to a server that is there. It `Rests` if
moreover no server has a proposal in flight. That is all of `Calm` but for the order of the stamps
(`Rests.calm`), and unlike that order it does not depend on how far epoch and counter have been
counted: every operation that answers at once leaves the ensemble at rest.
-/

namespace Quorate

theorem Server.settings_hear (s : Server) (outcome : Outcome) :
    (s.hear outcome).settings = s.settings :=
  rfl

namespace Ensemble

structure Poised (seed : Roster) (e : Ensemble) : Prop where
  seeded : e.seed = seed
  link : e.link = []
  tracked : e.log.Tracked seed
  settings : ∀ id s, e.log.replica? id = some s → s.settings = e.template.forServer id
  placed : e.sessions.At fun id => e.log.attached.contains id = true

structure Rests (seed : Roster) (e : Ensemble) : Prop extends Poised seed e where
  free : ∀ id s, e.log.replica? id = some s → s.inFlight = none

variable {seed : Roster} {e e' : Ensemble}

theorem Poised.onward (h : e.Poised seed) {log : CommitLog Server}
    (ho : CommitLog.Onward seed e.log log) (hk : CommitLog.Keeps Server.settings e.log log) :
    { e with log }.Poised seed where
  seeded := h.seeded
  link := h.link
  tracked := ho.tracked h.tracked
  settings := hk.all (P := fun id settings => settings = e.template.forServer id) h.settings
  placed := h.placed.mono ho.stays

theorem Poised.withSessions (h : e.Poised seed) {sessions : Sessions}
    (hplaced : sessions.At fun id => e.log.attached.contains id = true) :
    { e with sessions }.Poised seed :=
  { h with placed := hplaced }

theorem Calm.rests (h : e.Calm seed) : e.Rests seed where
  seeded := h.seeded
  link := h.link
  tracked := h.tracked
  settings id s hs := (h.idle id s hs).1
  placed := h.placed
  free id s hs := (h.idle id s hs).2

theorem Rests.idle (h : e.Rests seed) :
    ∀ id s, e.log.replica? id = some s →
      s.settings = e.template.forServer id ∧ s.inFlight = none :=
  fun id s hs => ⟨h.settings id s hs, h.free id s hs⟩

theorem Rests.calm (h : e.Rests seed) (hord : e.log.Ordered) : e.Calm seed :=
  ⟨h.seeded, h.link, h.tracked, hord, h.idle, h.placed⟩

/-- Operations that go onward and keep the marks of the servers leave the ensemble at rest. -/
theorem Rests.onward (h : e.Rests seed) {log : CommitLog Server}
    (ho : CommitLog.Onward seed e.log log) (hk : CommitLog.Keeps Server.marks e.log log) :
    { e with log }.Rests seed where
  toPoised := h.toPoised.onward ho (hk.comp Prod.fst)
  free := (hk.comp (·.2.1)).all (P := fun _ slot => slot = none) h.free

theorem Rests.withSessions (h : e.Rests seed) {sessions : Sessions}
    (hplaced : sessions.At fun id => e.log.attached.contains id = true) :
    { e with sessions }.Rests seed :=
  { h with placed := hplaced }

theorem rests_vacant (template : Settings) (seed : Roster) : (vacant template seed []).Rests seed :=
  (calm_vacant template seed).rests

theorem Rests.spawn (h : e.Rests seed) (id : ServerId) : (e.spawn id).Rests seed := by
  unfold Ensemble.spawn
  cases hs : e.server id with
  | ok s => exact h
  | error fault =>
      have honward := CommitLog.onward_attach seed e.log (replica?_eq_none hs)
        (e.template.forServer id)
      have hseed := h.seeded
      have hidle : ∀ j t, (e.install id).log.replica? j = some t →
          t.settings = e.template.forServer j ∧ t.inFlight = none := by
        intro j t ht
        rw [install, CommitLog.replica?_attach] at ht
        split at ht
        · rename_i hj
          cases ht
          have hmarks := CommitLog.feature_learnAll Server.marks_learn e.log.entries
            (.ofSeed (e.template.forServer id) e.seed)
          exact hj ▸ ⟨congrArg Prod.fst hmarks, congrArg (·.2.1) hmarks⟩
        · exact h.idle j t ht
      rw [← hseed] at honward
      exact {
        seeded := hseed
        link := h.link
        tracked := hseed ▸ honward.tracked (hseed.symm ▸ h.tracked)
        settings := fun j t ht => (hidle j t ht).1
        placed := h.placed.mono honward.stays
        free := fun j t ht => (hidle j t ht).2 }

theorem Rests.spawnAll (h : e.Rests seed) (ids : List ServerId) : (e.spawnAll ids).Rests seed := by
  induction ids generalizing e with
  | nil => exact h
  | cons id ids ih => exact ih (h.spawn id)

theorem Rests.stop (h : e.Rests seed) (id : ServerId) : (e.stop id).2.Rests seed := by
  unfold Ensemble.stop
  cases e.server id with
  | error fault => exact h
  | ok s =>
      exact h.onward (CommitLog.onward_stop seed e.log id)
        (CommitLog.keeps_stop Server.marks_hear e.log id)

theorem Rests.elect (h : e.Rests seed) : e.elect.2.Rests seed :=
  h.onward (CommitLog.onward_elect seed e.log) (CommitLog.keeps_elect Server.marks_hear e.log)

theorem Rests.leaderOrElect (h : e.Rests seed) : e.leaderOrElect.2.Rests seed := by
  have helect := h.elect
  unfold Ensemble.leaderOrElect CommitLog.leaderOrElect
  unfold Ensemble.elect at helect
  cases e.log.leader with
  | some leader => exact h
  | none =>
      dsimp only at helect ⊢
      cases e.log.elect.1.leader? <;> exact helect

theorem Rests.propose (h : e.Rests seed) (sender : ServerId) (record : Record) :
    { e with log := (e.log.propose sender record).2 }.Rests seed :=
  h.onward (CommitLog.onward_propose seed e.log sender record)
    (CommitLog.keeps_propose Server.marks_learn Server.marks_hear e.log sender record)

theorem Rests.write (h : e.Rests seed) (record : Record) : (e.write record).2.Rests seed := by
  have hrests := h.leaderOrElect
  unfold Ensemble.write
  cases heq : e.leaderOrElect with
  | mk leader e' =>
      rw [heq] at hrests
      cases leader with
      | error fault => exact hrests
      | ok leader => exact hrests.propose leader record

theorem Rests.connect (h : e.Rests seed) (server : ServerId) (watch : Bool) :
    (e.connect server watch).2.Rests seed := by
  have hnext : { e with serial := e.serial + 1 }.Rests seed := { h with }
  have hrests := hnext.write (.openSession (sessionId server e.serial) server)
  rcases e.connect_cases server watch with ⟨_, heq⟩ |
    ⟨_, hs, ⟨_, _, hwrite, heq⟩ | ⟨_, e', hwrite, heq⟩⟩
  · rw [heq]
    exact h
  · rw [hwrite] at hrests
    rw [heq]
    exact hrests
  · have hstays := contains_write (e := { e with serial := e.serial + 1 })
      (contains_of_server hs) (.openSession (sessionId server e.serial) server)
    rw [hwrite] at hrests hstays
    rw [heq]
    exact hrests.withSessions (hrests.placed.register hstays _ watch)

theorem Rests.close (h : e.Rests seed) (session : SessionId) :
    (e.close session).2.Rests seed := by
  rcases e.close_cases session with ⟨_, _, heq⟩ | ⟨sessions, _, _, hclose, hwrite, heq⟩
  · rw [heq]
    exact h
  · have hrests := (h.withSessions (h.placed.close hclose)).write (.closeSession session)
    rw [hwrite] at hrests
    rw [heq]
    exact hrests

theorem Rests.reconnect (h : e.Rests seed) {session : SessionId} {server : ServerId}
    (he : e.reconnect session server = .ok e') : e'.Rests seed := by
  obtain ⟨target, hs, he⟩ := bind_eq_ok_iff.1 he
  split at he
  · obtain ⟨sessions, hsessions, he⟩ := bind_eq_ok_iff.1 he
    cases he
    exact h.withSessions (h.placed.reconnect (contains_of_server hs) hsessions)
  · cases he

theorem Rests.failover (h : e.Rests seed) {session : SessionId} {target : ServerId}
    (he : e.failover session = .ok (target, e')) : e'.Rests seed := by
  obtain ⟨connected, _, he⟩ := bind_eq_ok_iff.1 he
  obtain ⟨present, _, he⟩ := bind_eq_ok_iff.1 he
  split at he
  · cases he
  · obtain ⟨moved, hmoved, he⟩ := bind_eq_ok_iff.1 he
    cases he
    exact h.reconnect hmoved

theorem Rests.startConnected (h : e.Rests seed) (now : Nat) (session : SessionId) :
    (Reading.startConnected now e session).2.Rests seed := by
  unfold Reading.startConnected
  cases e.sessions.get session with
  | error fault => exact h
  | ok connected =>
      dsimp only
      split
      · exact h
      · rename_i moved hmoved
        split at hmoved
        · obtain ⟨_, hfailover, rfl⟩ := map_eq_ok_iff.1 hmoved
          exact h.failover hfailover
        · cases hmoved
          exact h

theorem Rests.look (h : e.Rests seed) {call : Reading} {now : Nat}
    {p : Except Fault Roster × Ensemble} (hp : call.step now e = some p) : p.2.Rests seed := by
  obtain ⟨result, _, rfl⟩ := Option.map_eq_some_iff.1 hp
  cases result with
  | error fault => exact h
  | ok r =>
      dsimp only
      split
      · exact h
      · rename_i sessions hobserve
        exact h.withSessions (h.placed.observe hobserve)

end Ensemble

end Quorate
