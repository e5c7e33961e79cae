import Quorate.Proofs.Service.Abreast

/-!
# Reads through servers that run

A session that need not reconnect reads where it is connected. If the server there runs, it has
applied the roster in effect, and no session has observed more than that, so the read comes to
its end at once and returns that roster, whatever was committed while the server was stopped
or calls were under way (`Site.readConfig_of_isOnline`).
-/

namespace Quorate

namespace Ensemble

variable {seed : Roster} {v : Version} {e : Ensemble} {session : SessionId} {x : Session}
  {s : Server}

/-- A read of a session where it is connected, as far as it gets without a wait. -/
def readConfig (e : Ensemble) (now : Nat) (session : SessionId) :
    Progress Reading (Except Fault Roster) × Ensemble :=
  match Reading.startConnected now e session with
  | (.error fault, e) => (.done (.error fault), e)
  | (.ok call, e) =>
    match call.step now e with
    | none => (.going call, e)
    | some (result, e) => (.done result, e)

/-- The ensemble once a session has seen the roster in effect. -/
def shown (e : Ensemble) (session : SessionId) (x : Session) : Ensemble :=
  { e with sessions := { e.sessions with
    registered := e.sessions.registered.insert session
      { x with observed := e.log.roster.version } } }

theorem get_shown (e : Ensemble) (session : SessionId) (x : Session) (other : SessionId) :
    (e.shown session x).sessions.get other =
      if other = session then .ok { x with observed := e.log.roster.version }
      else e.sessions.get other := by
  rw [shown, Sessions.get, Sessions.get, Keyed.get?_insert]
  by_cases h : other = session
  · rw [if_pos h, if_pos h.symm]
  · rw [if_neg h, if_neg (Ne.symm h)]

/-- No session has observed more than the roster in effect, so once its server has applied
that one, the wait of a read is over when it begins. -/
theorem Abreast.reads_at_once (h : e.Abreast seed v) (hx : e.sessions.get session = .ok x)
    (hfree : x.mustReconnect = false) (hs : e.server x.server = .ok s)
    (hcurrent : s.current = e.log.roster) (now : Nat) :
    ∃ call, Reading.startConnected now e session = (.ok call, e) ∧
      ∀ later, call.step later e = some (.ok e.log.roster, e.shown session x) := by
  have hbehind : x.observed ≤ e.log.roster.version :=
    h.behind session x (Sessions.get_eq_ok_iff.1 hx)
  have hobserve : e.sessions.observe session e.log.roster.version =
      .ok (e.shown session x).sessions := by
    refine Sessions.observe_eq_ok_iff.2 ⟨x, hx, ?_⟩
    rw [Session.observe, max_eq_right hbehind]
    rfl
  refine ⟨⟨session, ⟨x.server, x.observed, now + e.template.readTimeout⟩⟩, ?_, fun later => ?_⟩
  · simp only [Reading.startConnected, hx, hfree, Bool.false_eq_true, if_false]
    simp only [Reading.start, hx, hfree, hs, bind, Except.bind]
    rfl
  · simp only [Reading.step, Wait.step, hs, hcurrent, hbehind, if_true, Option.map_some,
      hobserve]
    rfl

/-- A server that runs has applied it. -/
theorem Abreast.reads_of_isOnline (h : e.Abreast seed v) (hx : e.sessions.get session = .ok x)
    (hfree : x.mustReconnect = false) (hon : e.log.isOnline x.server = true) (now : Nat) :
    ∃ call, Reading.startConnected now e session = (.ok call, e) ∧
      ∀ later, call.step later e = some (.ok e.log.roster, e.shown session x) := by
  obtain ⟨s, hs⟩ := exists_server h.tracked (h.placed session x (Sessions.get_eq_ok_iff.1 hx))
  exact h.reads_at_once hx hfree hs (h.current_eq hon hs) now

theorem readConfig_eq_done {now : Nat} {call : Reading} {e' e'' : Ensemble}
    {result : Except Fault Roster} (hstart : Reading.startConnected now e session = (.ok call, e'))
    (hstep : call.step now e' = some (result, e'')) :
    e.readConfig now session = (.done result, e'') := by
  rw [readConfig, hstart]
  dsimp only
  rw [hstep]

end Ensemble

/-- A read that a client begins and that takes its first step next, if that is its last. -/
theorem Service.perform_advance_read (s : Service) {session : SessionId} {now later : Nat}
    {call : Reading} {e e' : Ensemble} {result : Except Fault Roster}
    (hstart : Reading.startConnected now s.ensemble session = (.ok call, e))
    (hstep : call.step later e = some (result, e')) :
    (s.perform (.read session now)).perform (.advance s.errands.length later) =
      ⟨e', s.errands ++ [.done result]⟩ := by
  have hbegun : s.perform (.read session now) = ⟨e, s.errands ++ [.going (.read call)]⟩ := by
    simp only [perform, hstart]
    rfl
  rw [hbegun]
  simp [perform, advance, Errand.step, hstep]

namespace Site

variable {template : Settings} {seed : Roster} {s : Site}

/-- Whatever happened at a site, and whatever is under way there, a session that need not
reconnect and whose server runs reads the roster committed last, at once and without an error.
A client that begins a read gets this answer with the step that comes next. The session has
then observed the version of that roster, and nothing else has changed. -/
theorem readConfig_of_isOnline (h : s.Reachable template seed) {session : SessionId}
    {x : Session} (hx : s.ensemble.sessions.get session = .ok x)
    (hfree : x.mustReconnect = false) (hon : s.ensemble.log.isOnline x.server = true)
    (now : Nat) :
    ∃ latest, (rosters seed s.ensemble.log.entries).getLast? = some latest ∧
      s.ensemble.readConfig now session =
        (.done (.ok latest), s.ensemble.shown session x) ∧
      (∀ later, (s.perform (.read session now)).perform (.advance s.errands.length later) =
        ⟨s.ensemble.shown session x, s.errands ++ [.done (.ok latest)]⟩) ∧
      (s.ensemble.shown session x).sessions.get session =
        .ok { x with observed := latest.version } ∧
      ∀ other ≠ session,
        (s.ensemble.shown session x).sessions.get other = s.ensemble.sessions.get other := by
  have habreast := h.abreast.service.ensemble
  obtain ⟨call, hstart, hstep⟩ := habreast.reads_of_isOnline hx hfree hon now
  refine ⟨s.ensemble.log.roster, ?_, Ensemble.readConfig_eq_done hstart (hstep now),
    fun later => s.perform_advance_read hstart (hstep later), ?_, fun other hother => ?_⟩
  · rw [getLast?_rosters, habreast.tracked.derived]
  · rw [Ensemble.get_shown, if_pos rfl]
  · rw [Ensemble.get_shown, if_neg hother]

/-- A server is stopped while its session stays, and runs again once the leader has brought in
another one. -/
def catchUpRun : List Event :=
  [.operate (.connect 2 false), .operate (.stop 2),
    .reform 3 ⟨.incremental [.onPorts 4 40 .observer] [], none⟩] ++
    List.replicate 6 (.further 0 0) ++ [.operate (.start 2)]

/-- The session reads a roster that it has not observed before. -/
theorem readConfig_of_isOnline_catchUpRun :
    (run .trio catchUpRun).Reachable {} .trio ∧
    (run .trio catchUpRun).ensemble.sessions.get (sessionId 2 1) =
      .ok ⟨2, .zero, false, false⟩ ∧
    ∃ latest, (rosters .trio (run .trio catchUpRun).ensemble.log.entries).getLast? =
        some latest ∧ latest.contains 4 = true ∧
      (run .trio catchUpRun).ensemble.readConfig 0 (sessionId 2 1) =
        (.done (.ok latest), (run .trio catchUpRun).ensemble.shown (sessionId 2 1)
          ⟨2, .zero, false, false⟩) := by
  have hreach : (run .trio catchUpRun).Reachable {} .trio :=
    reachable_run (by decide +kernel) catchUpRun (by decide +kernel)
  have hx : (run .trio catchUpRun).ensemble.sessions.get (sessionId 2 1) =
      .ok ⟨2, .zero, false, false⟩ := by decide +kernel
  have hon : (run .trio catchUpRun).ensemble.log.isOnline 2 = true := by decide +kernel
  have hjoined : ∀ r ∈ (rosters .trio
      (run .trio catchUpRun).ensemble.log.entries).getLast?, r.contains 4 = true := by
    decide +kernel
  obtain ⟨latest, hlatest, hread, _⟩ := readConfig_of_isOnline hreach hx rfl hon 0
  exact ⟨hreach, hx, latest, hlatest, hjoined latest hlatest, hread⟩

end Site

end Quorate
