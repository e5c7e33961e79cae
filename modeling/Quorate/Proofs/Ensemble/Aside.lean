import Quorate.Call.Reading
import Quorate.Proofs.CommitLog.Governed
import Quorate.Proofs.Ensemble.Books
import Quorate.Proofs.Ensemble.Calm
import Quorate.Proofs.Sessions.Shift

/-!
# What happens aside from reconfigurations

Whatever operators, clients and servers do aside from reconfigurations commits no roster and
pushes none: it is steady for the log and a shift for the sessions (`Ensemble.Aside`). That
holds wherever those that run have applied the roster in effect (`Ensemble.Current`), for a
session is only opened on, and only moved to, a server that says it is a member.
-/

namespace Quorate

namespace Ensemble

/-- A server that runs has applied the roster in effect. -/
def Current (e : Ensemble) : Prop :=
  ∀ id s, e.log.isOnline id = true → e.server id = .ok s → s.current = e.log.roster

theorem Calm.current {seed : Roster} {e : Ensemble} (h : e.Calm seed) : e.Current :=
  fun _ _ => h.current_eq

/-- No roster is committed or pushed; one session may be gone or new afterwards. -/
structure Aside (e : Ensemble) (gone : Option SessionId) (e' : Ensemble) : Prop where
  steady : CommitLog.Steady e.log e'.log
  shift : e.sessions.Shift e.log.roster gone e'.sessions
  link : e'.link = e.link

variable {e e' : Ensemble} {gone : Option SessionId}

theorem aside_of_log {log : CommitLog Server} (h : CommitLog.Steady e.log log)
    (gone : Option SessionId) : e.Aside gone { e with log } :=
  ⟨h, .stay gone, rfl⟩

theorem aside_refl (e : Ensemble) (gone : Option SessionId) : e.Aside gone e :=
  aside_of_log (CommitLog.steady_refl e.log) gone

theorem aside_of_sessions {sessions : Sessions} (h : e.sessions.Shift e.log.roster gone sessions) :
    e.Aside gone { e with sessions } :=
  ⟨CommitLog.steady_refl e.log, h, rfl⟩

section Log

theorem log_write_cases (e : Ensemble) (record : Record) :
    (e.write record).2.log = e.log.leaderOrElect.2 ∨ ∃ leader,
      (e.write record).2.log = (e.log.leaderOrElect.2.propose leader record).2 := by
  unfold write leaderOrElect
  cases e.log.leaderOrElect with
  | mk leader log =>
      cases leader with
      | error fault => exact Or.inl rfl
      | ok leader => exact Or.inr ⟨leader, rfl⟩

/-- A record that is written changes nothing but the log. -/
theorem write_eq (e : Ensemble) (record : Record) :
    (e.write record).2 = { e with log := (e.write record).2.log } := by
  rcases e.write_cases record with ⟨_, log, heq, _⟩ | ⟨_, _, log, heq, _⟩ <;> rw [heq]

theorem steady_write (hr : e.log.epoch ≠ 0xFFFFFFFF) {record : Record}
    (hplain : record.isReconfigure = false) :
    CommitLog.Steady e.log (e.write record).2.log := by
  have helect := CommitLog.steady_leaderOrElect hr
  rcases e.log_write_cases record with heq | ⟨leader, heq⟩
  · rw [heq]
    exact helect
  · rw [heq]
    exact helect.trans (CommitLog.steady_propose _ leader hplain)

theorem aside_write (hr : e.log.epoch ≠ 0xFFFFFFFF) {record : Record}
    (hplain : record.isReconfigure = false) : e.Aside gone (e.write record).2 := by
  rw [write_eq]
  exact aside_of_log (steady_write hr hplain) gone

theorem aside_leaderOrElect (hr : e.log.epoch ≠ 0xFFFFFFFF) :
    e.Aside gone e.leaderOrElect.2 :=
  aside_of_log (CommitLog.steady_leaderOrElect hr) gone

theorem aside_stop (e : Ensemble) (id : ServerId) : e.Aside gone (e.stop id).2 := by
  rw [stop]
  cases e.server id with
  | error fault => exact aside_refl e gone
  | ok s => exact aside_of_log (CommitLog.steady_stop e.log id) gone

theorem aside_spawn (e : Ensemble) (id : ServerId) : e.Aside gone (e.spawn id) := by
  unfold spawn
  cases hs : e.server id with
  | ok s => exact aside_refl e gone
  | error fault =>
      exact aside_of_log (CommitLog.steady_attach (replica?_eq_none hs) _ e.seed) gone

theorem sessions_spawn (e : Ensemble) (id : ServerId) : (e.spawn id).sessions = e.sessions := by
  unfold spawn
  split <;> rfl

/-- Spawning the members of the seed tells nobody anything and puts nothing on the link. -/
theorem steady_spawnAll (e : Ensemble) (ids : List ServerId) :
    CommitLog.Steady e.log (e.spawnAll ids).log ∧ (e.spawnAll ids).sessions = e.sessions ∧
      (e.spawnAll ids).link = e.link := by
  induction ids generalizing e with
  | nil => exact ⟨CommitLog.steady_refl e.log, rfl, rfl⟩
  | cons id ids ih =>
      have hspawn : e.Aside none (e.spawn id) := e.aside_spawn id
      obtain ⟨hsteady, hsessions, hlink⟩ := ih (e.spawn id)
      exact ⟨hspawn.steady.trans hsteady, hsessions.trans (e.sessions_spawn id),
        hlink.trans hspawn.link⟩

end Log

section Clients

theorem serves_of_connect {server : ServerId} {watch : Bool} {session : SessionId}
    (h : e.connect server watch = (.ok session, e')) :
    e.log.isOnline server = true ∧
      ∃ target, e.server server = .ok target ∧ target.current.contains server = true := by
  unfold connect at h
  split at h
  · cases h
  · rename_i target hs
    split at h
    · cases h
    · rename_i hserves
      rw [Bool.or_eq_true, Bool.not_eq_true', Bool.not_eq_true', not_or, Bool.not_eq_false,
        Bool.not_eq_false] at hserves
      exact ⟨hserves.1, target, hs, hserves.2⟩

theorem aside_connect (h : e.Current) (hr : e.log.InRange) (server : ServerId) (watch : Bool) :
    e.Aside (e.connect server watch).1.toOption (e.connect server watch).2 := by
  let opens : Record := .openSession (sessionId server e.serial) server
  have hwritten : e.Aside (e.connect server watch).1.toOption
      ({ e with serial := e.serial + 1 }.write opens).2 := by
    have haside : { e with serial := e.serial + 1 }.Aside (e.connect server watch).1.toOption
        ({ e with serial := e.serial + 1 }.write opens).2 :=
      aside_write (e := { e with serial := e.serial + 1 }) hr.1
        (show opens.isReconfigure = false from rfl)
    exact ⟨haside.steady, haside.shift, haside.link⟩
  have hsessions : ({ e with serial := e.serial + 1 }.write opens).2.sessions = e.sessions := by
    rw [write_eq]
  rcases e.connect_cases server watch with ⟨_, heq⟩ |
    ⟨_, _, ⟨_, _, hwrite, heq⟩ | ⟨_, _, hwrite, heq⟩⟩
  · rw [heq]
    exact aside_refl e _
  · rw [heq] at hwritten ⊢
    rw [hwrite] at hwritten
    exact hwritten
  · obtain ⟨hon, target, hs, hmember⟩ := serves_of_connect heq
    rw [h server target hon hs] at hmember
    rw [heq] at hwritten ⊢
    rw [hwrite] at hwritten hsessions
    dsimp only at hsessions ⊢
    refine ⟨hwritten.steady, ?_, hwritten.link⟩
    rw [hsessions]
    exact .register _ server _ watch hmember

theorem aside_close (hr : e.log.InRange) (session : SessionId) :
    e.Aside (some session) (e.close session).2 := by
  rcases e.close_cases session with ⟨_, _, heq⟩ | ⟨sessions, _, _, hclose, hwrite, heq⟩
  · rw [heq]
    exact aside_refl e _
  · have hplain : (Record.closeSession session).isReconfigure = false := rfl
    have haside : { e with sessions }.Aside (some session)
        ({ e with sessions }.write (.closeSession session)).2 :=
      aside_write (e := { e with sessions }) hr.1 hplain
    have hsessions : ({ e with sessions }.write (.closeSession session)).2.sessions =
        sessions := by rw [write_eq]
    rw [hwrite] at haside hsessions
    rw [heq]
    exact ⟨haside.steady, hsessions ▸ .close session hclose, haside.link⟩

theorem aside_reconnect (h : e.Current) {session : SessionId} {server : ServerId}
    (he : e.reconnect session server = .ok e') : e.Aside gone e' := by
  obtain ⟨target, hs, he⟩ := bind_eq_ok_iff.1 he
  split at he
  · rename_i hon
    obtain ⟨sessions, hsessions, he⟩ := bind_eq_ok_iff.1 he
    cases he
    rw [h server target hon hs] at hsessions
    exact aside_of_sessions (.reconnect gone hsessions)
  · cases he

theorem aside_failover (h : e.Current) {session : SessionId} {target : ServerId}
    (he : e.failover session = .ok (target, e')) : e.Aside gone e' := by
  obtain ⟨_, _, he⟩ := bind_eq_ok_iff.1 he
  obtain ⟨_, _, he⟩ := bind_eq_ok_iff.1 he
  split at he
  · cases he
  · obtain ⟨_, hmoved, he⟩ := bind_eq_ok_iff.1 he
    cases he
    exact aside_reconnect h hmoved

theorem aside_startConnected (h : e.Current) (now : Nat) (session : SessionId) :
    e.Aside gone (Reading.startConnected now e session).2 := by
  unfold Reading.startConnected
  cases e.sessions.get session with
  | error fault => exact aside_refl e gone
  | ok connected =>
      dsimp only
      split
      · exact aside_refl e gone
      · rename_i moved hmoved
        split at hmoved
        · obtain ⟨_, hfailover, rfl⟩ := map_eq_ok_iff.1 hmoved
          exact aside_failover h hfailover
        · cases hmoved
          exact aside_refl e gone

theorem aside_look {call : Reading} {now : Nat} {p : Except Fault Roster × Ensemble}
    (hp : call.step now e = some p) : e.Aside gone p.2 := by
  obtain ⟨result, _, rfl⟩ := Option.map_eq_some_iff.1 hp
  cases result with
  | error fault => exact aside_refl e gone
  | ok r =>
      dsimp only
      split
      · exact aside_refl e gone
      · rename_i hobserve
        exact aside_of_sessions (.observe gone hobserve)

end Clients

end Ensemble

end Quorate
