import Quorate.Proofs.Call.Prompt
import Quorate.Proofs.Ensemble.Run

/-!
# Requests do not depend on the session

A request is run directly if the session is connected to the leader, it is forwarded if another
server leads, and an election comes first if none does. Whichever of these it is, the request comes
to what the leader makes of it (`exists_served`): the answer, and all that is left behind but what
the session itself has observed, is the same for every session (`request_transparent`). That holds
in all ensembles that runs come to, however far epoch and counter have been counted (`Possible`).
-/

namespace Quorate

namespace Ensemble

/-- Two ensembles are the same, but for what is registered of one session. -/
structure SameBut (session : SessionId) (e e' : Ensemble) : Prop where
  outside : { e' with sessions := e.sessions } = e
  inboxes : e'.sessions.inboxes = e.sessions.inboxes
  notified : e'.sessions.notified = e.sessions.notified
  others : ∀ j ≠ session, e'.sessions.get j = e.sessions.get j

variable {template : Settings} {seed : Roster} {e e' e'' : Ensemble} {session : SessionId}

theorem sameBut_refl (session : SessionId) (e : Ensemble) : e.SameBut session e :=
  ⟨rfl, rfl, rfl, fun _ _ => rfl⟩

theorem sameBut_observe {version : Version} {sessions : Sessions}
    (h : e.sessions.observe session version = .ok sessions) :
    e.SameBut session { e with sessions } := by
  obtain ⟨_, _, rfl⟩ := Sessions.observe_eq_ok_iff.1 h
  refine ⟨rfl, rfl, rfl, fun j hj => ?_⟩
  rw [Sessions.get, Keyed.get?_insert, if_neg (Ne.symm hj), Sessions.get]

/-- Sessions that are in the same books stay registered. -/
theorem exists_get_of_books (h : e'.books = e.books) {connected : Session}
    (hsession : e.sessions.get session = .ok connected) :
    ∃ found, e'.sessions.get session = .ok found := by
  have hin : e'.sessions.registered.contains session = true := by
    refine (congrFun (congrArg Books.registered h) session).trans ?_
    exact Option.isSome_iff_exists.2 ⟨connected, Sessions.get_eq_ok_iff.1 hsession⟩
  obtain ⟨found, hfound⟩ := Option.isSome_iff_exists.1 hin
  exact ⟨found, Sessions.get_eq_ok_iff.2 hfound⟩

end Ensemble

namespace Routed

variable {seed : Roster} {e e' e₁ : Ensemble} {now : Nat}

/-- An answer leaves a trace in the session that it is for, and nowhere else. -/
theorem exists_conclude (h : e.Rests seed) (c : Routed) {connected : Session}
    (hsession : e.sessions.get c.session = .ok connected) (result : Except Fault Roster) :
    ∃ e', c.conclude result e = (.done result, e') ∧ e.SameBut c.session e' ∧ e'.Rests seed := by
  cases result with
  | error fault => exact ⟨e, rfl, Ensemble.sameBut_refl c.session e, h⟩
  | ok next =>
      have hobserved : e.sessions.observe c.session next.version = .ok { e.sessions with
          registered := e.sessions.registered.insert c.session
            (connected.observe next.version) } :=
        Sessions.observe_eq_ok_iff.2 ⟨connected, hsession, rfl⟩
      refine ⟨_, ?_, Ensemble.sameBut_observe hobserved,
        h.withSessions (h.placed.observe hobserved)⟩
      rw [conclude]
      dsimp only
      rw [hobserved]

/-- A request that does not find the leader where its session is connected is forwarded to it,
after an election if need be. -/
theorem exists_leads_forwarded {leader : ServerId} {s t : Server} {request : Request}
    {session : SessionId} {connected : Session} (hs : e.server connected.server = .ok s)
    (hon : s.settings.enabled = true) (hother : e.log.leader ≠ some connected.server)
    (hled : e.leaderOrElect = (.ok leader, e₁)) (ht : e₁.server leader = .ok t) {n : Nat}
    {result : Except Fault Roster}
    (hleads : Progress.Leads (Reconfiguration.step now) n (.going (.start leader request), e₁)
      (.done result, e')) :
    ∃ m ≤ n + 3, Progress.Leads (step now) m (.going (opening session connected request), e)
      ((opening session connected request).conclude result e') := by
  have hdirect := leads_direct (Reconfiguration.leads_of_following now hs hon hother request)
    (opening session connected request)
  have hforward := leads_forwarded hleads (opening session connected request)
  have hgoes : (opening session connected request).forward leader e₁ =
      .going { opening session connected request with
        stage := .forwarded (.start leader request) } := by
    rw [forward, ht]
    rfl
  rcases e.leaderOrElect_cases with ⟨named, hnamed, heq⟩ | ⟨hnone, _⟩
  · cases heq.symm.trans hled
    have hredirect : (opening session connected request).redirect
        (.error (.notLeader e.log.leader)) e =
          ((opening session connected request).forward leader e, e) := by
      rw [hnamed, redirect]
      exact if_pos fun heq : leader = connected.server => hother (heq ▸ hnamed)
    rw [hredirect, hgoes] at hdirect
    exact ⟨2 + n, by omega, hdirect.trans hforward⟩
  · have helect : Progress.Leads (step now) 1
        ((opening session connected request).redirect (.error (.notLeader e.log.leader)) e)
        ((opening session connected request).forward leader e₁, e₁) := by
      rw [hnone]
      refine Progress.leads_one ?_
      rw [step, hled]
      rfl
    rw [hgoes] at helect
    exact ⟨2 + 1 + n, by omega, (hdirect.trans helect).trans hforward⟩

end Routed

namespace Ensemble

variable {template : Settings} {seed : Roster} {e e' : Ensemble} {session : SessionId}

theorem leader_of_leaderOrElect {leader : ServerId} (h : e.leaderOrElect = (.ok leader, e')) :
    e'.log.leader = some leader ∧ ∀ named, e.log.leader = some named → leader = named ∧ e' = e := by
  rcases e.leaderOrElect_cases with ⟨present, hpresent, heq⟩ |
    ⟨hnone, ⟨_, winner, heq, _⟩ | ⟨_, heq⟩⟩
  · cases heq.symm.trans h
    refine ⟨hpresent, fun named hnamed => ?_⟩
    cases hpresent.symm.trans hnamed
    exact ⟨rfl, rfl⟩
  · cases heq.symm.trans h
    exact ⟨rfl, fun named hnamed => by cases hnone.symm.trans hnamed⟩
  · cases heq.symm.trans h

theorem eq_notLeader_of_leaderOrElect {fault : Fault}
    (h : e.leaderOrElect = (.error fault, e')) :
    fault = .notLeader none ∧ e.log.leader = none := by
  rcases e.leaderOrElect_cases with ⟨named, _, heq⟩ | ⟨hnone, ⟨_, winner, heq, _⟩ | ⟨_, heq⟩⟩
  · cases heq.symm.trans h
  · cases heq.symm.trans h
  · cases heq.symm.trans h
    exact ⟨rfl, hnone⟩

/-- A request comes to the same for every session, whichever server that is connected to. -/
theorem exists_served (h : e.Rests seed) (now : Nat) (request : Request) :
    ∃ (result : Except Fault Roster) (e' : Ensemble), ∀ session connected,
      e.sessions.get session = .ok connected →
      ∃ e₁, e.request now session request = (.done result, e₁) ∧ e'.SameBut session e₁ ∧
        e₁.Rests seed := by
  have hserver {session : SessionId} {connected : Session}
      (hsession : e.sessions.get session = .ok connected) :
      ∃ s, e.server connected.server = .ok s ∧ s.settings.enabled = e.template.enabled := by
    obtain ⟨s, hs⟩ := exists_server h.tracked
      (h.placed session connected (Sessions.get_eq_ok_iff.1 hsession))
    refine ⟨s, hs, ?_⟩
    rw [h.settings _ s (server_eq_ok_iff.1 hs)]
    rfl
  cases hon : e.template.enabled with
  | false =>
      refine ⟨.error .disabled, e, fun session connected hsession => ?_⟩
      obtain ⟨s, hs, hsettings⟩ := hserver hsession
      have hdirect := Routed.leads_direct (Reconfiguration.leads_of_disabled now hs
        (hsettings.trans hon) request) (Routed.opening session connected request)
      exact ⟨e, Routed.request_eq_of_leads hsession hs hdirect (by decide),
        sameBut_refl session e, h⟩
  | true =>
  have hrests := h.leaderOrElect
  have hbooks := (deeds_leaderOrElect e .all).books_eq
  cases hled : e.leaderOrElect with
  | mk outcome e₁ =>
  rw [hled] at hrests hbooks
  cases outcome with
  | error fault =>
      -- Nobody leads, and an election is lost.
      obtain ⟨rfl, hnone⟩ := eq_notLeader_of_leaderOrElect hled
      refine ⟨.error (.notLeader none), e₁, fun session connected hsession => ?_⟩
      obtain ⟨s, hs, hsettings⟩ := hserver hsession
      have hdirect := Routed.leads_direct (Reconfiguration.leads_of_following now hs
        (hsettings.trans hon) (by simp [hnone]) request) (Routed.opening session connected request)
      have hlost : Progress.Leads (Routed.step now) 1
          ((Routed.opening session connected request).redirect (.error (.notLeader e.log.leader)) e)
          (.done (.error (.notLeader none)), e₁) := by
        rw [hnone]
        refine Progress.leads_one ?_
        rw [Routed.step, hled]
      exact ⟨e₁, Routed.request_eq_of_leads hsession hs (hdirect.trans hlost) (by decide),
        sameBut_refl session e₁, hrests⟩
  | ok leader =>
      obtain ⟨hlead, hsame⟩ := leader_of_leaderOrElect hled
      obtain ⟨t, ht⟩ := exists_server hrests.tracked
        (CommitLog.contains_of_isOnline (hrests.tracked.led leader hlead))
      have hton : t.settings.enabled = true := by
        rw [hrests.settings leader t (server_eq_ok_iff.1 ht)]
        exact (congrArg (·.2.template.enabled) hled).symm.trans hon
      obtain ⟨result, e', hne, n, hn, hleads⟩ :=
        Reconfiguration.exists_leads_of_leader hrests ht hton hlead request now
      obtain ⟨hend, hbooks'⟩ := Reconfiguration.rests_of_leads hrests hleads
      refine ⟨result, e', fun session connected hsession => ?_⟩
      obtain ⟨s, hs, hsettings⟩ := hserver hsession
      obtain ⟨found, hfound⟩ := exists_get_of_books (hbooks'.trans hbooks) hsession
      obtain ⟨e₂, hconclude, hbut, hrests₂⟩ :=
        Routed.exists_conclude hend (Routed.opening session connected request) hfound result
      refine ⟨e₂, ?_, hbut, hrests₂⟩
      by_cases hhere : e.log.leader = some connected.server
      · obtain ⟨rfl, rfl⟩ := hsame _ hhere
        have hdirect := Routed.leads_direct hleads (Routed.opening session connected request)
        rw [Routed.redirect_of_ne_notLeader _ hne, hconclude] at hdirect
        exact Routed.request_eq_of_leads hsession hs hdirect (hn.trans (by decide))
      · obtain ⟨m, hm, hrest⟩ := Routed.exists_leads_forwarded hs (hsettings.trans hon) hhere
          hled ht hleads
        rw [hconclude] at hrest
        exact Routed.request_eq_of_leads hsession hs hrest
          ((hm.trans (Nat.add_le_add_right hn 3)).trans (by decide))

theorem Rests.reconfigure (h : e.Rests seed) (now : Nat) (server : ServerId) (request : Request) :
    (e.reconfigure now server request).2.Rests seed := by
  cases hs : e.server server with
  | error fault =>
      rw [reconfigure_of_missing hs]
      exact h
  | ok s =>
      obtain ⟨result, e', n, hn, hleads⟩ := Reconfiguration.exists_leads h hs request now
      rw [Ensemble.reconfigure, Progress.burst_eq_of_leads hleads (hn.trans (by decide))]
      exact (Reconfiguration.rests_of_leads h hleads).1

theorem Rests.request (h : e.Rests seed) (now : Nat) (session : SessionId) (request : Request) :
    (e.request now session request).2.Rests seed := by
  cases hsession : e.sessions.get session with
  | error fault =>
      rw [request_of_missing hsession]
      exact h
  | ok connected =>
      obtain ⟨_, _, hserved⟩ := exists_served h now request
      obtain ⟨e₁, heq, _, hrests⟩ := hserved session connected hsession
      rw [heq]
      exact hrests

/-- Every operation leaves an ensemble at rest. -/
theorem Rests.perform (h : e.Rests seed) (o : Operation) : (e.perform o).Rests seed := by
  cases o with
  | spawn id => exact h.spawn id
  | stop id => exact h.stop id
  | start id =>
      exact h.onward (CommitLog.onward_start seed e.log id)
        (CommitLog.keeps_start Server.marks_learn e.log id)
  | reattach id =>
      exact h.onward (CommitLog.onward_reattach seed e.log id)
        (CommitLog.keeps_reattach Server.marks_learn e.log id)
  | elect => exact h.elect
  | leaderOrElect => exact h.leaderOrElect
  | resign leader =>
      exact h.onward (CommitLog.onward_resign seed e.log leader)
        (CommitLog.keeps_resign Server.marks_hear e.log leader)
  | establish leader =>
      exact h.onward (CommitLog.onward_establish seed e.log leader)
        (CommitLog.keeps_establish Server.marks_hear e.log leader)
  | write record => exact h.write record
  | propose sender record => exact h.propose sender record
  | connect server watch => exact h.connect server watch
  | close session => exact h.close session
  | reconnect session server =>
      rw [Ensemble.perform]
      cases hmoved : e.reconnect session server with
      | error fault => exact h
      | ok moved => exact h.reconnect hmoved
  | failover session =>
      rw [Ensemble.perform]
      cases hmoved : e.failover session with
      | error fault => exact h
      | ok moved => exact h.failover hmoved
  | dropInbox session => exact h.withSessions h.placed
  | drain => exact h.withSessions h.placed
  | read session now => exact h.startConnected now session
  | look call now =>
      rw [Ensemble.perform]
      cases hlook : call.step now e with
      | none => exact h
      | some p => exact h.look hlook
  | reconfigure server request now => exact h.reconfigure now server request
  | request session request now => exact h.request now session request

/-- The ensembles that the runs over a seed come to, whatever records they bring in. -/
def Possible (template : Settings) (seed : Roster) (e : Ensemble) : Prop :=
  ∃ (first : Ensemble) (operations : List Operation),
    bootstrap template seed = .ok first ∧ operations.foldl perform first = e

theorem Rests.run (h : e.Rests seed) (operations : List Operation) :
    (operations.foldl Ensemble.perform e).Rests seed := by
  induction operations generalizing e with
  | nil => exact h
  | cons o operations ih => exact ih (h.perform o)

theorem Possible.rests (h : Possible template seed e) : e.Rests seed := by
  obtain ⟨first, operations, hfirst, rfl⟩ := h
  obtain ⟨_, rfl⟩ := bootstrap_eq_ok_iff.1 hfirst
  exact ((rests_vacant template seed).spawnAll seed.ids).elect.run operations

variable {session₁ session₂ : SessionId} {connected₁ connected₂ : Session}

/-- Requested through one session or another, whatever servers these are connected to, a
reconfiguration has the same answer and leaves the same behind: log, leader, servers and roles,
the inboxes, and every other session. -/
theorem request_transparent (h : Possible template seed e)
    (h₁ : e.sessions.get session₁ = .ok connected₁)
    (h₂ : e.sessions.get session₂ = .ok connected₂) (now : Nat) (request : Request) :
    ∃ (result : Except Fault Roster) (e₁ e₂ : Ensemble),
      e.request now session₁ request = (.done result, e₁) ∧
      e.request now session₂ request = (.done result, e₂) ∧
      e₁.log = e₂.log ∧ { e₁ with sessions := e₂.sessions } = e₂ ∧
      e₁.sessions.inboxes = e₂.sessions.inboxes ∧
      e₁.sessions.notified = e₂.sessions.notified ∧
      ∀ session, session ≠ session₁ → session ≠ session₂ →
        e₁.sessions.get session = e₂.sessions.get session := by
  obtain ⟨result, e', hserved⟩ := exists_served h.rests now request
  obtain ⟨e₁, heq₁, hbut₁, _⟩ := hserved session₁ connected₁ h₁
  obtain ⟨e₂, heq₂, hbut₂, _⟩ := hserved session₂ connected₂ h₂
  have houtside : { e₁ with sessions := e₂.sessions } = e₂ := by
    have hsame := congrArg (fun e : Ensemble => { e with sessions := e₂.sessions })
      (hbut₁.outside.trans hbut₂.outside.symm)
    exact hsame
  refine ⟨result, e₁, e₂, heq₁, heq₂, congrArg (·.log) houtside, houtside,
    hbut₁.inboxes.trans hbut₂.inboxes.symm, hbut₁.notified.trans hbut₂.notified.symm, ?_⟩
  intro session hne₁ hne₂
  exact (hbut₁.others session hne₁).trans (hbut₂.others session hne₂).symm

/-- Three servers, of which the first one has stopped and the last one leads, with a session on
each of these two. The first session watches. -/
def divided : Ensemble :=
  [.connect 1 true, .connect 3 false, .stop 1].foldl perform trio

/-- An observer is added through the session on the stopped server, or through the one on the
leader. It is the same. -/
theorem request_transparent_divided :
    ∃ (next : Roster) (e₁ e₂ : Ensemble), next.ids = [1, 2, 3, 4] ∧
      divided.request 0 (sessionId 1 1) ⟨.incremental [.onPorts 4 40 .observer] [], none⟩ =
        (.done (.ok next), e₁) ∧
      divided.request 0 (sessionId 3 2) ⟨.incremental [.onPorts 4 40 .observer] [], none⟩ =
        (.done (.ok next), e₂) ∧
      e₁.log = e₂.log ∧ e₁.sessions.inboxes = e₂.sessions.inboxes := by
  have hpossible : Possible {} .trio divided := ⟨trio, _, by decide +kernel, rfl⟩
  have hget₁ : divided.sessions.get (sessionId 1 1) = .ok ⟨1, .zero, false, true⟩ := by
    decide +kernel
  have hget₂ : divided.sessions.get (sessionId 3 2) = .ok ⟨3, .zero, false, false⟩ := by
    decide +kernel
  obtain ⟨result, e₁, e₂, heq₁, heq₂, hlog, _, hinboxes, _⟩ := request_transparent hpossible
    hget₁ hget₂ 0 ⟨.incremental [.onPorts 4 40 .observer] [], none⟩
  have hids : ((divided.request 0 (sessionId 1 1)
      ⟨.incremental [.onPorts 4 40 .observer] [], none⟩).1.bimap (fun _ => ())
        (·.map (·.ids))) = .done (.ok [1, 2, 3, 4]) := by decide +kernel
  rw [heq₁] at hids
  obtain ⟨next, rfl, hnext⟩ := map_eq_ok_iff.1 (Progress.done.inj hids)
  exact ⟨next, e₁, e₂, hnext, heq₁, heq₂, hlog, hinboxes⟩

end Ensemble

end Quorate
