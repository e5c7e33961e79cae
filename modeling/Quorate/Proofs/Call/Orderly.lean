import Quorate.Proofs.Call.Deeds
import Quorate.Proofs.CommitLog.Presiding
import Quorate.Proofs.Ensemble

/-!
# What calls do to the servers that preside

Neither the operations of an ensemble nor any step of a call starts a server, so all of them
are orderly: they propose records, hold elections, resign and renew epochs, and apart from
that change nothing but the marks that servers keep for their calls. So a request of a
session is orderly step by step (`Routed.orderly_step`), and a read does not touch the log
(`Reading.log_step`).
-/

namespace Quorate

namespace Ensemble

variable (e : Ensemble)

theorem orderly_spawn (id : ServerId) : e.log.Orderly (e.spawn id).log := by
  unfold spawn
  cases e.server id with
  | ok s => exact CommitLog.orderly_refl e.log
  | error fault => exact CommitLog.orderly_attach e.log id rfl e.seed

theorem orderly_spawnAll (ids : List ServerId) : e.log.Orderly (e.spawnAll ids).log := by
  induction ids generalizing e with
  | nil => exact CommitLog.orderly_refl e.log
  | cons id ids ih => exact (e.orderly_spawn id).trans (ih (e.spawn id))

theorem orderly_elect : e.log.Orderly e.elect.2.log :=
  CommitLog.orderly_elect e.log

theorem orderly_stop (id : ServerId) : e.log.Orderly (e.stop id).2.log := by
  unfold stop
  cases e.server id with
  | ok s => exact CommitLog.orderly_stop e.log id
  | error fault => exact CommitLog.orderly_refl e.log

theorem orderly_leaderOrElect : e.log.Orderly e.leaderOrElect.2.log :=
  CommitLog.orderly_leaderOrElect e.log

theorem orderly_write (record : Record) : e.log.Orderly (e.write record).2.log := by
  have helect := e.orderly_leaderOrElect
  unfold write
  cases h : e.leaderOrElect with
  | mk leader e' =>
      rw [h] at helect
      cases leader with
      | error fault => exact helect
      | ok leader => exact helect.trans (CommitLog.orderly_propose e'.log leader record)

theorem orderly_connect (server : ServerId) (watch : Bool) :
    e.log.Orderly (e.connect server watch).2.log := by
  rcases e.log_connect_cases server watch with heq | heq
  · exact CommitLog.orderly_of_eq heq
  · rw [heq]
    exact orderly_write { e with serial := e.serial + 1 } _

theorem orderly_close (session : SessionId) : e.log.Orderly (e.close session).2.log := by
  rcases e.log_close_cases session with heq | ⟨sessions, heq⟩
  · exact CommitLog.orderly_of_eq heq
  · rw [heq]
    exact orderly_write { e with sessions } _

theorem log_takeTransit : e.takeTransit.2.log = e.log := by
  unfold takeTransit
  split <;> rfl

variable {e} {e' : Ensemble} {session : SessionId}

theorem log_reconnect {server : ServerId} (h : e.reconnect session server = .ok e') :
    e'.log = e.log := by
  obtain ⟨target, _, h⟩ := bind_eq_ok_iff.1 h
  split at h
  · obtain ⟨sessions, _, h⟩ := bind_eq_ok_iff.1 h
    cases h
    rfl
  · cases h

theorem log_failover {target : ServerId} (h : e.failover session = .ok (target, e')) :
    e'.log = e.log := by
  obtain ⟨connected, _, h⟩ := bind_eq_ok_iff.1 h
  obtain ⟨present, _, h⟩ := bind_eq_ok_iff.1 h
  split at h
  · cases h
  · obtain ⟨moved, hmoved, h⟩ := bind_eq_ok_iff.1 h
    cases h
    exact log_reconnect hmoved

theorem Stroke.orderly {k : Scope} (h : Stroke k e e') : e.log.Orderly e'.log := by
  cases h with
  | propose sender proposal within => exact CommitLog.orderly_propose e.log sender _
  | elect => exact e.orderly_elect
  | resign leader => exact CommitLog.orderly_resign e.log leader
  | establish leader => exact CommitLog.orderly_establish e.log leader

theorem Touch.orderly {k : Scope} (h : Touch k e e') : e.log.Orderly e'.log := by
  cases h with
  | adjust id settings _ role => exact CommitLog.orderly_adjust e.log id settings role
  | takeTransit => exact CommitLog.orderly_of_eq e.log_takeTransit
  | push r within => exact CommitLog.orderly_refl e.log
  | observe session version within observes => exact CommitLog.orderly_refl e.log
  | reconnect session server found moves => exact CommitLog.orderly_refl e.log

end Ensemble

variable {e : Ensemble} {now : Nat}

theorem Ensemble.Deeds.orderly {k : Scope} {e' : Ensemble} (h : Deeds k e e') :
    e.log.Orderly e'.log :=
  h.keeps (R := fun e e' => e.log.Orderly e'.log) (fun e => CommitLog.orderly_refl e.log)
    (fun _ _ _ => CommitLog.Orderly.trans) (fun _ _ => Stroke.orderly) fun _ _ => Touch.orderly

theorem Reconfiguration.orderly_step {c : Reconfiguration}
    {p : Progress Reconfiguration (Except Fault Roster) × Ensemble} (h : c.step now e = some p) :
    e.log.Orderly p.2.log :=
  (deeds_step e.supports_all c.knows_all h).1.orderly

theorem Routed.orderly_step {c : Routed} {p : Progress Routed (Except Fault Roster) × Ensemble}
    (h : c.step now e = some p) : e.log.Orderly p.2.log :=
  (deeds_step e.supports_all c.knows_all h).1.orderly

namespace Reading

theorem log_startConnected (now : Nat) (e : Ensemble) (session : SessionId) :
    (startConnected now e session).2.log = e.log := by
  unfold startConnected
  cases e.sessions.get session with
  | error fault => rfl
  | ok connected =>
      dsimp only
      split
      · rfl
      · rename_i moved hmoved
        split at hmoved
        · cases hfailover : e.failover session with
          | error fault =>
              rw [hfailover] at hmoved
              cases hmoved
          | ok pair =>
              rw [hfailover] at hmoved
              cases hmoved
              exact Ensemble.log_failover hfailover
        · cases hmoved
          rfl

theorem log_step {c : Reading} {p : Except Fault Roster × Ensemble} (h : c.step now e = some p) :
    p.2.log = e.log := by
  obtain ⟨result, _, rfl⟩ := Option.map_eq_some_iff.1 h
  cases result with
  | error fault => rfl
  | ok r =>
      dsimp only
      split <;> rfl

end Reading

end Quorate
