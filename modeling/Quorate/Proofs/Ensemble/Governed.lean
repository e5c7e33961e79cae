import Quorate.Proofs.Call.Handover
import Quorate.Proofs.Ensemble.Aside
import Quorate.Proofs.Ensemble.Run

/-!
# Runs that keep the log governed

If a run commits rosters only by reconfigurations, each of which is run to its end before
anything else happens, then its log is `Governed` wherever the run has come to. Every operation
but a reconfiguration is steady for the log, and a reconfiguration hands it over.
-/

namespace Quorate

namespace Ensemble

variable {seed : Roster} {e e' : Ensemble}

/-- Before a request is run, a leader is there, at the price of an election if need be. -/
theorem governed_leaderOrElect (h : e.Calm seed) (hg : e.log.Governed) (hr : e.log.InRange) :
    e.leaderOrElect.2.Calm seed ∧ e.leaderOrElect.2.log.Governed ∧
      e.leaderOrElect.2.log.counter ≠ 0xFFFFFFFF :=
  ⟨h.leaderOrElect hr, hg.steady (CommitLog.steady_leaderOrElect hr.1), counter_leaderOrElect hr⟩

theorem governed_of_routed (h : e.Calm seed) (hg : e.log.Governed) (hr : e.log.InRange)
    {session : SessionId} {request : Request} {result : Except Fault Roster}
    (hends : Routed.Ends e session request result e') (hepoch : e'.log.epoch ≠ 0xFFFFFFFF) :
    e'.log.Governed := by
  obtain ⟨hcalm, hgoverned, hcounter⟩ := governed_leaderOrElect h hg hr
  cases hends with
  | disabled _ => exact hg
  | leaderless _ lost =>
      rw [lost] at hgoverned
      exact hgoverned
  | failed _ led found ends =>
      rw [led] at hcalm hgoverned hcounter
      exact ends.governed hgoverned hcalm.tracked.led ⟨ends.epoch_ne hepoch, hcounter⟩ found
  | committed _ led found ends _ =>
      rw [led] at hcalm hgoverned hcounter
      exact ends.governed hgoverned hcalm.tracked.led ⟨ends.epoch_ne hepoch, hcounter⟩ found

theorem governed_reconfigure (h : e.Calm seed) (hg : e.log.Governed) (hr : e.log.InRange)
    (now : Nat) (server : ServerId) (request : Request) :
    (e.reconfigure now server request).2.log.Governed := by
  cases hs : e.server server with
  | error fault =>
      rw [reconfigure_of_missing hs]
      exact hg
  | ok s =>
      obtain ⟨result, e', hends, heq⟩ := exists_ends_of_reconfigure h hr hs now request
      rw [heq]
      exact hends.governed hg h.tracked.led hr hs

theorem governed_request (h : e.Calm seed) (hg : e.log.Governed) (hr : e.log.InRange) {now : Nat}
    {session : SessionId} {request : Request}
    (hr' : (e.request now session request).2.log.InRange) :
    (e.request now session request).2.log.Governed := by
  cases hsession : e.sessions.get session with
  | error fault =>
      rw [request_of_missing hsession]
      exact hg
  | ok connected =>
      obtain ⟨result, e', hends, heq⟩ := Routed.exists_ends h hr hsession now request
      rw [heq] at hr' ⊢
      exact governed_of_routed h hg hr hends hr'.1

theorem governed_perform (h : e.Calm seed) (hg : e.log.Governed) (hr : e.log.InRange)
    {o : Operation} (hplain : o.Brings (·.isReconfigure = false))
    (hr' : (e.perform o).log.InRange) : (e.perform o).log.Governed := by
  have haside (gone : Option SessionId) {e' : Ensemble} (h : e.Aside gone e') :
      e'.log.Governed := hg.steady h.steady
  cases o with
  | spawn id => exact haside none (e.aside_spawn id)
  | stop id => exact haside none (e.aside_stop id)
  | start id => exact hg.steady (CommitLog.steady_start e.log id)
  | reattach id => exact hg.steady (CommitLog.steady_reattach e.log id)
  | elect => exact hg.steady (CommitLog.steady_elect hr'.1)
  | leaderOrElect => exact hg.steady (CommitLog.steady_leaderOrElect hr.1)
  | resign leader => exact hg.steady (CommitLog.steady_resign e.log leader)
  | establish leader => exact hg.steady (CommitLog.steady_establish hr'.1)
  | write record => exact hg.steady (steady_write hr.1 hplain)
  | propose sender record => exact hg.steady (CommitLog.steady_propose e.log sender hplain)
  | connect server watch => exact haside _ (aside_connect h.current hr server watch)
  | close session => exact haside _ (aside_close hr session)
  | reconnect session server =>
      rw [perform]
      cases hmoved : e.reconnect session server with
      | error fault => exact hg
      | ok moved => exact haside none (aside_reconnect h.current hmoved)
  | failover session =>
      rw [perform]
      cases hmoved : e.failover session with
      | error fault => exact hg
      | ok moved => exact haside none (aside_failover h.current hmoved)
  | dropInbox session => exact hg
  | drain => exact hg
  | read session now => exact haside none (aside_startConnected h.current now session)
  | look call now =>
      rw [perform]
      cases hlook : call.step now e with
      | none => exact hg
      | some p => exact haside none (aside_look hlook)
  | reconfigure server request now => exact governed_reconfigure h hg hr now server request
  | request session request now => exact governed_request h hg hr hr'

theorem governed_bootstrap {template : Settings} (h : bootstrap template seed = .ok e)
    (hepoch : e.log.epoch ≠ 0xFFFFFFFF) : e.log.Governed := by
  obtain ⟨hpeopled, rfl⟩ := bootstrap_eq_ok_iff.1 h
  have hvacant : (vacant template seed []).log.Governed := CommitLog.governed_empty hpeopled
  exact (hvacant.steady (steady_spawnAll _ seed.ids).1).steady (CommitLog.steady_elect hepoch)

theorem Reachable.governed {template : Settings}
    (h : Reachable template seed (·.isReconfigure = false) e) : e.log.Governed := by
  obtain ⟨first, hfirst, hreaches⟩ := h
  have hwithin := hreaches.first_within
  refine (hreaches.invariant_within (fun e => e.Calm seed ∧ e.log.Governed)
    ⟨calm_bootstrap hfirst hwithin.1, governed_bootstrap hfirst hwithin.1⟩ ?_).2
  rintro e o hr hr' ⟨hcalm, hg⟩
  exact ⟨hcalm.perform hr o.1 hr', governed_perform hcalm hg hr o.2 hr'⟩

end Ensemble

end Quorate
