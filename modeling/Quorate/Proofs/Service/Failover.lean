import Quorate.Proofs.CommitLog.Muster
import Quorate.Proofs.Service.Reads

/-!
# Failing over to a server that runs

A session fails over to the first server that runs of those in the roster which its own server
has applied. If that one is a member of the roster in effect, the session moves there and can
read that roster at once (`Site.failover_of_running`). Its own server may have been stopped
long ago, though. Then it does not know of members that joined since, and the session fails
over to none of them, even if no other server runs (`Site.failover_error_longGoneRun`).
-/

namespace Quorate

namespace Ensemble

variable {seed : Roster} {v : Version} {e e' : Ensemble} {session : SessionId} {x : Session}
  {present : Server} {target : ServerId}

theorem isRunning_iff {id : ServerId} :
    e.isRunning id = true ↔ (∃ s, e.server id = .ok s) ∧ e.log.isOnline id = true := by
  rw [isRunning, Bool.and_eq_true, Option.isSome_iff_exists]
  simp only [server_eq_ok_iff]

/-- The ensemble once a session has moved to a server, where it need not reconnect. -/
def moved (e : Ensemble) (session : SessionId) (x : Session) (target : ServerId) : Ensemble :=
  { e with sessions := { e.sessions with
    registered := e.sessions.registered.insert session
      { x with server := target, mustReconnect := false } } }

theorem get_moved (e : Ensemble) (session : SessionId) (x : Session) (target : ServerId) :
    (e.moved session x target).sessions.get session =
      .ok { x with server := target, mustReconnect := false } := by
  rw [Sessions.get_eq_ok_iff, moved, Keyed.get?_insert, if_pos rfl]

/-- A session can move to the members of the roster in effect that run, and to no others. -/
theorem Abreast.reconnect_eq_ok_iff (h : e.Abreast seed v)
    (hx : e.sessions.get session = .ok x) :
    e.reconnect session target = .ok e' ↔ e.isRunning target = true ∧
      e.log.roster.contains target = true ∧ e' = e.moved session x target := by
  have hreconnect (s : Server) : s.current = e.log.roster →
      ((∃ sessions, e.sessions.reconnect session target s.current = .ok sessions ∧
          { e with sessions } = e') ↔
        e.log.roster.contains target = true ∧ e' = e.moved session x target) := by
    intro hcurrent
    simp only [Sessions.reconnect_eq_ok_iff, hx, hcurrent, Except.ok.injEq]
    constructor
    · rintro ⟨_, ⟨hmember, _, rfl, rfl⟩, rfl⟩
      exact ⟨hmember, rfl⟩
    · rintro ⟨hmember, rfl⟩
      exact ⟨_, ⟨hmember, x, rfl, rfl⟩, rfl⟩
  rw [Ensemble.reconnect, bind_eq_ok_iff, isRunning_iff]
  constructor
  · rintro ⟨s, hs, hmoves⟩
    split at hmoves
    · rename_i hon
      obtain ⟨sessions, hsessions, hmoves⟩ := bind_eq_ok_iff.1 hmoves
      cases hmoves
      exact ⟨⟨⟨s, hs⟩, hon⟩, (hreconnect s (h.current_eq hon hs)).1 ⟨sessions, hsessions, rfl⟩⟩
    · cases hmoves
  · rintro ⟨⟨⟨s, hs⟩, hon⟩, hmember⟩
    obtain ⟨sessions, hsessions, rfl⟩ := (hreconnect s (h.current_eq hon hs)).2 hmember
    refine ⟨s, hs, ?_⟩
    rw [if_pos hon]
    exact bind_eq_ok_iff.2 ⟨sessions, hsessions, rfl⟩

/-- The server that a session fails over to is the first one that runs of those in the roster
which its own server has applied. The target has applied the one in effect, and that one
decides whether the session may move. -/
theorem Abreast.failover_eq_ok_iff (h : e.Abreast seed v) (hx : e.sessions.get session = .ok x)
    (hpresent : e.server x.server = .ok present) :
    e.failover session = .ok (target, e') ↔
      present.current.ids.find? e.isRunning = some target ∧
        e.log.roster.contains target = true ∧ e' = e.moved session x target := by
  constructor
  · intro hmoved
    obtain ⟨_, hget, hmoved⟩ := bind_eq_ok_iff.1 hmoved
    cases hx.symm.trans hget
    obtain ⟨_, hserver, hmoved⟩ := bind_eq_ok_iff.1 hmoved
    cases hpresent.symm.trans hserver
    split at hmoved
    · cases hmoved
    · rename_i hfind
      obtain ⟨_, hreconnect, hmoved⟩ := bind_eq_ok_iff.1 hmoved
      cases hmoved
      exact ⟨hfind, ((h.reconnect_eq_ok_iff hx).1 hreconnect).2⟩
  · rintro ⟨hfind, hmember, rfl⟩
    refine bind_eq_ok_iff.2 ⟨x, hx, bind_eq_ok_iff.2 ⟨present, hpresent, ?_⟩⟩
    rw [hfind]
    exact bind_eq_ok_iff.2 ⟨_, (h.reconnect_eq_ok_iff hx).2
      ⟨List.find?_some hfind, hmember, rfl⟩, rfl⟩

/-- If the roster that a session's server has applied is the one in effect, any member that
runs will do. -/
theorem Abreast.exists_failover (h : e.Abreast seed v) (hx : e.sessions.get session = .ok x)
    (hpresent : e.server x.server = .ok present) (hcurrent : present.current = e.log.roster)
    {id : ServerId} (hruns : e.isRunning id = true) (hmember : e.log.roster.contains id = true) :
    ∃ target, e.failover session = .ok (target, e.moved session x target) := by
  cases hfind : present.current.ids.find? e.isRunning with
  | none =>
      rw [hcurrent] at hfind
      exact absurd hruns (List.find?_eq_none.1 hfind id (Roster.contains_iff.1 hmember))
  | some target =>
      have htarget := List.mem_of_find?_eq_some hfind
      rw [hcurrent] at htarget
      exact ⟨target, (h.failover_eq_ok_iff hx hpresent).2
        ⟨hfind, Roster.contains_iff.2 htarget, rfl⟩⟩

/-- A read of a session that has to reconnect and can is one on the server it moves to. -/
theorem startConnected_of_moved (hx : e.sessions.get session = .ok x)
    (hstranded : x.mustReconnect = true)
    (hmoved : e.failover session = .ok (target, e.moved session x target)) (now : Nat) :
    Reading.startConnected now e session =
      Reading.startConnected now (e.moved session x target) session := by
  simp only [Reading.startConnected, hx, hstranded, if_true, hmoved, Except.map, get_moved,
    Bool.false_eq_true, if_false]

/-- It returns the roster in effect at once. -/
theorem Abreast.reads_roster (h : e.Abreast seed v) (hx : e.sessions.get session = .ok x)
    (hpresent : e.server x.server = .ok present) (hstranded : x.mustReconnect = true)
    (hmoved : e.failover session = .ok (target, e')) (now later : Nat) :
    ∃ call e'', Reading.startConnected now e session = (.ok call, e') ∧
      call.step later e' = some (.ok e.log.roster, e'') := by
  have habreast : e'.Abreast seed v := h.touches (touches_failover _ hmoved)
  obtain ⟨hfind, _, rfl⟩ := (h.failover_eq_ok_iff hx hpresent).1 hmoved
  obtain ⟨⟨s, hs⟩, hon⟩ := isRunning_iff.1 (List.find?_some hfind)
  obtain ⟨call, hstart, hstep⟩ := habreast.reads_at_once (get_moved e session x target) rfl hs
    (h.current_eq hon hs) now
  rw [startConnected_of_moved hx hstranded hmoved]
  exact ⟨call, _, hstart, hstep later⟩

end Ensemble

namespace Site

variable {template : Settings} {seed : Roster} {s : Site}

/-- The server of a session is there. If the first server that runs of those in the roster
which it has applied is a member of the roster in effect, the session moves to that one.
Whenever a session moves, it moves to a member of the roster in effect that runs, and nothing
else changes. If its server has applied the roster in effect, as every server has that runs,
one member of it that runs is enough. A session that had to reconnect and has moved reads the
roster in effect, without a wait. -/
theorem failover_of_running (h : s.Reachable template seed) {session : SessionId} {x : Session}
    (hx : s.ensemble.sessions.get session = .ok x) :
    ∃ present, s.ensemble.server x.server = .ok present ∧
      (∀ target, present.current.ids.find? s.ensemble.isRunning = some target →
        s.ensemble.log.roster.contains target = true →
        s.ensemble.failover session = .ok (target, s.ensemble.moved session x target)) ∧
      (∀ target e', s.ensemble.failover session = .ok (target, e') →
        s.ensemble.isRunning target = true ∧ s.ensemble.log.roster.contains target = true ∧
        e' = s.ensemble.moved session x target ∧
        e'.sessions.get session = .ok { x with server := target, mustReconnect := false }) ∧
      (present.current = s.ensemble.log.roster →
        (∃ id, s.ensemble.isRunning id = true ∧ s.ensemble.log.roster.contains id = true) →
        ∃ target, s.ensemble.failover session =
          .ok (target, s.ensemble.moved session x target)) ∧
      (s.ensemble.log.isOnline x.server = true → present.current = s.ensemble.log.roster) ∧
      (x.mustReconnect = true →
        ∀ target e', s.ensemble.failover session = .ok (target, e') → ∀ now later,
          ∃ call e'', Reading.startConnected now s.ensemble session = (.ok call, e') ∧
            call.step later e' = some (.ok s.ensemble.log.roster, e'')) := by
  have habreast := h.abreast.service.ensemble
  obtain ⟨present, hpresent⟩ :=
    Ensemble.exists_server habreast.tracked
      (habreast.placed session x (Sessions.get_eq_ok_iff.1 hx))
  refine ⟨present, hpresent, fun target hfind hmember => ?_, fun target e' hmoved => ?_,
    fun hcurrent ⟨id, hruns, hmember⟩ => ?_, fun hon => habreast.current_eq hon hpresent,
    fun hstranded target e' hmoved now later => ?_⟩
  · exact (habreast.failover_eq_ok_iff hx hpresent).2 ⟨hfind, hmember, rfl⟩
  · obtain ⟨hfind, hmember, rfl⟩ := (habreast.failover_eq_ok_iff hx hpresent).1 hmoved
    exact ⟨List.find?_some hfind, hmember, rfl, Ensemble.get_moved _ session x target⟩
  · exact habreast.exists_failover hx hpresent hcurrent hruns hmember
  · exact habreast.reads_roster hx hpresent hstranded hmoved now later

/-- The server of a session is removed by the leader. -/
def removalRun : List Event :=
  [.operate (.connect 1 false), .reform 3 ⟨.incremental [] [1], none⟩] ++
    List.replicate 6 (.further 0 0)

/-- The session moves to a server that remains, and reads the roster that its former server
is no member of. -/
theorem failover_of_running_removalRun :
    (run .trio removalRun).Reachable {} .trio ∧
    (run .trio removalRun).ensemble.sessions.get (sessionId 1 1) =
      .ok ⟨1, .make 1 2, true, false⟩ ∧
    (run .trio removalRun).ensemble.log.roster.contains 1 = false ∧
    ∃ target e', (run .trio removalRun).ensemble.failover (sessionId 1 1) = .ok (target, e') ∧
      (run .trio removalRun).ensemble.log.roster.contains target = true ∧
      e'.sessions.get (sessionId 1 1) = .ok ⟨target, .make 1 2, false, false⟩ ∧
      ∃ call e'',
        Reading.startConnected 0 (run .trio removalRun).ensemble (sessionId 1 1) =
          (.ok call, e') ∧
        call.step 0 e' = some (.ok (run .trio removalRun).ensemble.log.roster, e'') := by
  have hreach : (run .trio removalRun).Reachable {} .trio :=
    reachable_run (by decide +kernel) removalRun (by decide +kernel)
  have hx : (run .trio removalRun).ensemble.sessions.get (sessionId 1 1) =
      .ok ⟨1, .make 1 2, true, false⟩ := by decide +kernel
  have hon : (run .trio removalRun).ensemble.log.isOnline 1 = true := by decide +kernel
  have hruns : (run .trio removalRun).ensemble.isRunning 2 = true ∧
      (run .trio removalRun).ensemble.log.roster.contains 2 = true := by decide +kernel
  obtain ⟨present, _, _, hmoves, henough, hcurrent, hreads⟩ := failover_of_running hreach hx
  obtain ⟨target, hmoved⟩ := henough (hcurrent hon) ⟨2, hruns⟩
  obtain ⟨_, hmember, _, hget⟩ := hmoves target _ hmoved
  exact ⟨hreach, hx, by decide +kernel, target, _, hmoved, hmember, hget,
    hreads rfl target _ hmoved 0 0⟩

/-- A server that votes, and one that does not. -/
def pair : Roster :=
  ⟨.zero, [.onPorts 1 10, .onPorts 2 20 .observer], by decide +kernel⟩

/-- The same as servers, of which the first one leads. -/
def pairEnsemble : Ensemble :=
  ((Ensemble.vacant {} pair []).spawnAll pair.ids).elect.2

/-- The server of a session is stopped before another one joins the only voter, which then
leaves and is stopped as well. -/
def longGoneRun : List Event :=
  [.operate (.connect 2 false), .operate (.stop 2), .operate (.spawn 3),
    .reform 1 ⟨.incremental [.onPorts 3 30] [], none⟩] ++ List.replicate 6 (.further 0 0) ++
  [.reform 1 ⟨.incremental [] [1], none⟩] ++ List.replicate 7 (.further 1 0) ++
  [.operate (.stop 1)]

/-- A session does not fail over to a member of the roster in effect that runs, as its server
has not heard of it. -/
theorem failover_error_longGoneRun :
    (run pairEnsemble longGoneRun).Reachable {} pair ∧
    (run pairEnsemble longGoneRun).ensemble.sessions.get (sessionId 2 1) =
      .ok ⟨2, .zero, false, false⟩ ∧
    (run pairEnsemble longGoneRun).ensemble.isRunning 3 = true ∧
    (run pairEnsemble longGoneRun).ensemble.log.roster.contains 3 = true ∧
    (run pairEnsemble longGoneRun).ensemble.failover (sessionId 2 1) =
      .error (.noSuchServer 2) := by
  have hreach : (run pairEnsemble longGoneRun).Reachable {} pair :=
    reachable_run (by decide +kernel) longGoneRun (by decide +kernel)
  exact ⟨hreach, by decide +kernel, by decide +kernel, by decide +kernel, by decide +kernel⟩

end Site

end Quorate
