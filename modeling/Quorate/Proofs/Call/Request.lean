import Quorate.Proofs.Call.Aftermath
import Quorate.Proofs.Call.Orderly

/-!
# Requests of sessions that nothing comes in between

A request of a session is run by the leader, whichever server the session is connected to:
by that server if it leads, else by the leader it names, or by the winner of an election if
there is none. So in a calm ensemble a request is a reconfiguration by the server that
`leaderOrElect` comes to (`Ends`, `exists_ends`). No fault of that server sends the request
on once more, since it leads (`Ends.ne_notLeader`).
-/

namespace Quorate

/-- What is found wrong with a request is never that the server does not lead. -/
theorem examine_ne_notLeader {request : Request} {current : Roster} {fault : Fault}
    (h : Reconfiguration.examine request current = .error fault) (leader : Option ServerId) :
    fault ≠ .notLeader leader := by
  rcases examine_error h with ⟨_, rfl⟩ | ⟨_, rfl⟩ | ⟨_, rfl⟩ <;> exact Fault.noConfusion

namespace Reconfiguration

variable {e e' : Ensemble} {id : ServerId} {s : Server} {request : Request} {fault : Fault}

theorem Ends.ne_notLeader (h : Ends e id s request (.error fault) e')
    (hlead : e.log.leader = some id) (leader : Option ServerId) : fault ≠ .notLeader leader := by
  cases h with
  | disabled _ => exact Fault.noConfusion
  | following _ other => exact absurd hlead other
  | refused _ _ _ examined => exact examine_ne_notLeader examined leader
  | unsynced _ _ _ _ _ _ _ => exact Fault.noConfusion
  | unacknowledged _ _ _ _ _ _ _ _ => exact Fault.noConfusion

theorem Ends.of_off {result : Except Fault Roster} (h : Ends e id s request result e')
    (off : s.settings.enabled = false) : result = .error .disabled ∧ e' = e := by
  have hnot : ¬ s.settings.enabled = true := Bool.eq_false_iff.1 off
  cases h with
  | disabled _ => exact ⟨rfl, rfl⟩
  | following on _ => exact absurd on hnot
  | refused on _ _ _ => exact absurd on hnot
  | unsynced on _ _ _ _ _ _ => exact absurd on hnot
  | unacknowledged on _ _ _ _ _ _ _ => exact absurd on hnot
  | committed on _ _ _ _ _ _ _ _ => exact absurd on hnot

theorem Ends.of_other {result : Except Fault Roster} (h : Ends e id s request result e')
    (on : s.settings.enabled = true) (other : e.log.leader ≠ some id) :
    result = .error (.notLeader e.log.leader) ∧ e' = e := by
  cases h with
  | disabled off => exact absurd on (Bool.eq_false_iff.1 off)
  | following _ _ => exact ⟨rfl, rfl⟩
  | refused _ leads _ _ => exact absurd leads other
  | unsynced _ leads _ _ _ _ _ => exact absurd leads other
  | unacknowledged _ leads _ _ _ _ _ _ => exact absurd leads other
  | committed _ leads _ _ _ _ _ _ _ => exact absurd leads other

end Reconfiguration

namespace Ensemble

/-- A reconfiguration by a server, run as far as it gets. -/
def reconfigure (now : Nat) (e : Ensemble) (server : ServerId) (request : Request) :
    Progress Reconfiguration (Except Fault Roster) × Ensemble :=
  Progress.burst (Reconfiguration.step now) Schedule.burstLimit
    (.going (.start server request), e)

/-- A request of a session, run as far as it gets. -/
def request (now : Nat) (e : Ensemble) (session : SessionId) (request : Request) :
    Progress Routed (Except Fault Roster) × Ensemble :=
  match Routed.start e session request with
  | .error fault => (.done (.error fault), e)
  | .ok call => Progress.burst (Routed.step now) Schedule.burstLimit (.going call, e)

end Ensemble

namespace Routed

/-- How a request of a registered session ends in a calm ensemble. -/
inductive Ends (e : Ensemble) (session : SessionId) (request : Request) :
    Except Fault Roster → Ensemble → Prop
  | disabled (off : e.template.enabled = false) : Ends e session request (.error .disabled) e
  | leaderless (on : e.template.enabled = true) {e' : Ensemble}
      (lost : e.leaderOrElect = (.error (.notLeader none), e')) :
      Ends e session request (.error (.notLeader none)) e'
  | failed (on : e.template.enabled = true) {leader : ServerId} {s : Server} {fault : Fault}
      {e' e'' : Ensemble} (led : e.leaderOrElect = (.ok leader, e'))
      (found : e'.server leader = .ok s)
      (ends : Reconfiguration.Ends e' leader s request (.error fault) e'') :
      Ends e session request (.error fault) e''
  | committed (on : e.template.enabled = true) {leader : ServerId} {s : Server} {next : Roster}
      {e' e'' : Ensemble} {sessions : Sessions} (led : e.leaderOrElect = (.ok leader, e'))
      (found : e'.server leader = .ok s)
      (ends : Reconfiguration.Ends e' leader s request (.ok next) e'')
      (observed : e''.sessions.observe session next.version = .ok sessions) :
      Ends e session request (.ok next) { e'' with sessions }

variable {seed : Roster} {e e' e'' : Ensemble} {session : SessionId} {request : Request}
  {now : Nat}

theorem redirect_of_ne_notLeader (c : Routed) {result : Except Fault Roster}
    (h : ∀ leader, result ≠ .error (.notLeader leader)) (e : Ensemble) :
    c.redirect result e = c.conclude result e := by
  unfold redirect
  split
  · exact absurd rfl (h none)
  · rename_i leader
    exact absurd rfl (h (some leader))
  · rfl

/-- What the answer becomes does not depend on how far the request had come. -/
theorem redirect_stage (c : Routed) (stage : Stage) (result : Except Fault Roster)
    (e : Ensemble) : ({ c with stage } : Routed).redirect result e = c.redirect result e := by
  unfold redirect
  split
  · rfl
  · split <;> rfl
  · rfl

/-- The server that the session is connected to runs the request, and what it answers may be
redirected. -/
theorem step_direct (now : Nat) (c : Routed) (call : Reconfiguration) (e : Ensemble) :
    ({ c with stage := .direct call } : Routed).step now e = (call.step now e).map
      (Progress.handOn (fun call => { c with stage := .direct call }) c.redirect) := by
  refine Option.map_congr fun p _ => ?_
  obtain ⟨progress, e⟩ := p
  cases progress with
  | going call => rfl
  | done result => exact c.redirect_stage _ result e

theorem step_forwarded (now : Nat) (c : Routed) (call : Reconfiguration) (e : Ensemble) :
    ({ c with stage := .forwarded call } : Routed).step now e = (call.step now e).map
      (Progress.handOn (fun call => { c with stage := .forwarded call }) c.conclude) := by
  refine Option.map_congr fun p _ => ?_
  obtain ⟨progress, e⟩ := p
  cases progress <;> rfl

/-- A request goes as far as the call of the server that the session is connected to. -/
theorem leads_direct {n : Nat} {call : Reconfiguration} {result : Except Fault Roster}
    (h : Progress.Leads (Reconfiguration.step now) n (.going call, e) (.done result, e'))
    (c : Routed) :
    Progress.Leads (step now) n (.going { c with stage := .direct call }, e)
      (c.redirect result e') :=
  h.within (c.step_direct now)

theorem leads_forwarded {n : Nat} {call : Reconfiguration} {result : Except Fault Roster}
    (h : Progress.Leads (Reconfiguration.step now) n (.going call, e) (.done result, e'))
    (c : Routed) :
    Progress.Leads (step now) n (.going { c with stage := .forwarded call }, e)
      (c.conclude result e') :=
  h.within (c.step_forwarded now)

/-- The leader's answer is the answer to the session. -/
theorem exists_ends_of_served (hon : e.template.enabled = true) {leader : ServerId} {s : Server}
    {result : Except Fault Roster} (hled : e.leaderOrElect = (.ok leader, e'))
    (hs : e'.server leader = .ok s)
    (hends : Reconfiguration.Ends e' leader s request result e'') {connected : Session}
    (hsession : e''.sessions.get session = .ok connected) (c : Routed)
    (hc : c.session = session) :
    ∃ e₃, c.conclude result e'' = (.done result, e₃) ∧ Ends e session request result e₃ := by
  cases result with
  | error fault => exact ⟨e'', rfl, .failed hon hled hs hends⟩
  | ok next =>
      have hobserved : e''.sessions.observe session next.version = .ok { e''.sessions with
          registered := e''.sessions.registered.insert session
            (connected.observe next.version) } :=
        Sessions.observe_eq_ok_iff.2 ⟨connected, hsession, rfl⟩
      refine ⟨_, ?_, .committed hon hled hs hends hobserved⟩
      rw [conclude]
      dsimp only
      rw [hc, hobserved]

/-- A request that is sent on to the leader is answered with what that comes to. -/
theorem exists_ends_of_forward (hon : e.template.enabled = true) {leader : ServerId}
    (hled : e.leaderOrElect = (.ok leader, e')) (he : e'.Calm seed)
    (hin : e'.log.attached.contains leader = true) (hcounter : e'.log.counter ≠ 0xFFFFFFFF)
    {connected : Session} (hsession : e'.sessions.get session = .ok connected) (now : Nat)
    (c : Routed) (hc : c.session = session) :
    ∃ result e₃, Ends e session c.request result e₃ ∧
      ∃ n ≤ 7, Progress.Leads (step now) n (c.forward leader e', e') (.done result, e₃) := by
  obtain ⟨s, hs⟩ := Ensemble.exists_server he.tracked hin
  obtain ⟨result, e'', hends, n, hn, hleads⟩ :=
    Reconfiguration.exists_ends (he.prepared hs) hcounter c.request now
  obtain ⟨found, hfound⟩ := hends.exists_session hsession
  obtain ⟨e₃, hconclude, hresult⟩ := exists_ends_of_served hon hled hs hends hfound c hc
  have hforward := leads_forwarded hleads c
  rw [hconclude] at hforward
  refine ⟨result, e₃, hresult, n, hn, ?_⟩
  rw [forward, hs]
  exact hforward

/-- The request of a session, before its first step. -/
def opening (session : SessionId) (connected : Session) (request : Request) : Routed :=
  ⟨session, connected.server, request, .direct (.start connected.server request)⟩

/-- A request comes to what its steps lead to. -/
theorem request_eq_of_leads {connected : Session}
    (hsession : e.sessions.get session = .ok connected) {s : Server}
    (hs : e.server connected.server = .ok s) {n : Nat} {result : Except Fault Roster}
    (hleads : Progress.Leads (step now) n (.going (opening session connected request), e)
      (.done result, e')) (hn : n ≤ Schedule.burstLimit) :
    e.request now session request = (.done result, e') := by
  have hstart : Routed.start e session request = .ok (opening session connected request) := by
    simp only [Routed.start, hsession, hs, bind, Except.bind, pure, Except.pure]
    rfl
  rw [Ensemble.request, hstart]
  exact Progress.burst_eq_of_leads hleads hn

theorem exists_ends (h : e.Calm seed) (hr : e.log.InRange) {connected : Session}
    (hsession : e.sessions.get session = .ok connected) (now : Nat) (request : Request) :
    ∃ result e', Ends e session request result e' ∧
      e.request now session request = (.done result, e') := by
  obtain ⟨s, hs⟩ := Ensemble.exists_server h.tracked
    (h.placed session connected (Sessions.get_eq_ok_iff.1 hsession))
  have hsettings : s.settings.enabled = e.template.enabled := by
    rw [(h.idle _ s (Ensemble.server_eq_ok_iff.1 hs)).1]
    rfl
  let c := opening session connected request
  have hrequest : ∀ {n result e'}, n ≤ 20 →
      Progress.Leads (step now) n (.going c, e) (.done result, e') →
      e.request now session request = (.done result, e') := fun hn hleads =>
    request_eq_of_leads hsession hs hleads (hn.trans (by decide))
  obtain ⟨result, e', hends, n, hn, hleads⟩ := Reconfiguration.exists_ends (h.prepared hs) hr.2 request now
  have hdirect := leads_direct hleads c
  cases hon : e.template.enabled with
  | false =>
      obtain ⟨hresult, he'⟩ := hends.of_off (hsettings.trans hon)
      rw [hresult, he'] at hdirect
      exact ⟨_, _, .disabled hon, hrequest (by omega) hdirect⟩
  | true =>
  by_cases hlead : e.log.leader = some connected.server
  · -- The session is connected to the leader itself.
    have hled : e.leaderOrElect = (.ok connected.server, e) := by
      rw [Ensemble.leaderOrElect, CommitLog.leaderOrElect, hlead]
    obtain ⟨found, hfound⟩ := hends.exists_session hsession
    obtain ⟨e₃, hconclude, hresult⟩ := exists_ends_of_served hon hled hs hends hfound c rfl
    rw [c.redirect_of_ne_notLeader, hconclude] at hdirect
    · exact ⟨_, _, hresult, hrequest (by omega) hdirect⟩
    · rintro leader rfl
      exact hends.ne_notLeader hlead leader rfl
  obtain ⟨hresult, he'⟩ := hends.of_other (hsettings.trans hon) hlead
  rw [hresult, he'] at hdirect
  rcases e.leaderOrElect_cases with ⟨leader, hleader, hled⟩ |
    ⟨hnone, ⟨_, winner, hled, _, honline⟩ | ⟨_, hled⟩⟩
  · -- It is connected to another server, which names the leader.
    have hforward : c.redirect (.error (.notLeader e.log.leader)) e = (c.forward leader e, e) := by
      rw [hleader, redirect]
      exact if_pos fun heq : leader = connected.server => hlead (heq ▸ hleader)
    obtain ⟨result, e₃, hends, m, hm, hrest⟩ := exists_ends_of_forward hon hled h
      (CommitLog.contains_of_isOnline (h.tracked.led leader hleader)) hr.2 hsession now c rfl
    rw [hforward] at hdirect
    exact ⟨_, _, hends, hrequest (by omega) (hdirect.trans hrest)⟩
  · -- Nobody leads, and an election is won.
    have hforward : Progress.Leads (step now) 1 (c.redirect (.error (.notLeader e.log.leader)) e)
        (c.forward winner { e with log := e.log.renewed winner },
          { e with log := e.log.renewed winner }) := by
      rw [hnone]
      refine Progress.leads_one ?_
      rw [step, hled]
      rfl
    obtain ⟨result, e₃, hends, m, hm, hrest⟩ := exists_ends_of_forward hon hled
      (h.renewed hr.1 honline) ((CommitLog.contains_announce _ winner _).trans
        (CommitLog.contains_of_isOnline honline)) (show (0 : UInt32) ≠ 0xFFFFFFFF by decide)
      hsession now c rfl
    exact ⟨_, _, hends, hrequest (by omega) ((hdirect.trans hforward).trans hrest)⟩
  · -- Nobody leads, and an election is lost.
    have hlost : Progress.Leads (step now) 1 (c.redirect (.error (.notLeader e.log.leader)) e)
        (.done (.error (.notLeader none)), { e with log := e.log.unled }) := by
      rw [hnone]
      refine Progress.leads_one ?_
      rw [step, hled]
    exact ⟨_, _, .leaderless hon hled, hrequest (by omega) (hdirect.trans hlost)⟩

end Routed

end Quorate
