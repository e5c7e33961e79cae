import Quorate.Proofs.Ensemble.Governed

/-!
# When a request succeeds

In a run that commits rosters only by reconfigurations, a request of a session is always
answered, and it succeeds exactly if it is `Grantable`: reconfigurations are enabled, the
roster in effect and the candidate both muster a majority, the version is the expected one,
and the change is accepted and safe. A request that fails leaves everything that is committed
as it was (`Routed.Ends.unmoved`).
-/

namespace Quorate

namespace Ensemble

/-- What a request of a session takes to succeed. -/
structure Grantable (e : Ensemble) (request : Request) : Prop where
  enabled : e.template.enabled = true
  mustered : e.log.Musters e.log.roster
  expected : ∀ version, request.expected = some version → version = e.log.roster.version
  accepted : ∃ change candidate,
    Change.compute e.log.roster request.change = .ok change ∧
      Roster.make e.log.roster.version change.members = .ok candidate ∧
      e.log.roster.quorumsMeet candidate = true ∧ e.log.Musters candidate

variable {seed : Roster} {e e' : Ensemble} {request : Request}

theorem grantable_iff : e.Grantable request ↔
    e.template.enabled = true ∧ e.log.Musters e.log.roster ∧ ∃ change candidate,
      Reconfiguration.examine request e.log.roster = .ok (change, candidate) ∧
        e.log.Musters candidate := by
  simp only [examine_eq_ok_iff]
  constructor
  · rintro ⟨henabled, hmustered, hexpected, change, candidate, hchange, hmake, hmeet, hmusters⟩
    exact ⟨henabled, hmustered, change, candidate, ⟨hexpected, hchange, hmake, hmeet⟩, hmusters⟩
  · rintro ⟨henabled, hmustered, change, candidate, ⟨hexpected, hchange, hmake, hmeet⟩, hmusters⟩
    exact ⟨henabled, hmustered, hexpected, change, candidate, hchange, hmake, hmeet, hmusters⟩

/-- Settling who leads moves neither what is committed nor who runs. -/
theorem unmoved_leaderOrElect (e : Ensemble) :
    e.Unmoved e.leaderOrElect.2 ∧ ∀ id, e.leaderOrElect.2.log.isOnline id = e.log.isOnline id := by
  rcases e.leaderOrElect_cases with ⟨leader, _, heq⟩ |
    ⟨_, ⟨_, winner, heq, _, _⟩ | ⟨_, heq⟩⟩
  · rw [heq]
    exact ⟨unmoved_refl e, fun _ => rfl⟩
  · rw [heq]
    exact ⟨⟨rfl, rfl, CommitLog.keeps_renewed Server.view_hear e.log winner⟩,
      CommitLog.isOnline_announce _ _⟩
  · rw [heq]
    exact ⟨⟨rfl, rfl, CommitLog.keeps_unled Server.view_hear e.log⟩,
      CommitLog.isOnline_announce _ _⟩

theorem leads_of_leaderOrElect {leader : ServerId} (h : e.leaderOrElect = (.ok leader, e')) :
    e'.log.leader = some leader := by
  rcases e.leaderOrElect_cases with ⟨l, hlead, heq⟩ | ⟨_, ⟨_, winner, heq, _, _⟩ | ⟨_, heq⟩⟩
  · cases heq.symm.trans h
    exact hlead
  · cases heq.symm.trans h
    rfl
  · cases heq.symm.trans h

theorem not_musters_of_leaderOrElect {fault : Fault} (h : e.leaderOrElect = (.error fault, e')) :
    ¬ e.log.Musters e.log.roster := by
  rcases e.leaderOrElect_cases with ⟨l, _, heq⟩ | ⟨_, ⟨_, winner, heq, _, _⟩ | ⟨hnot, _⟩⟩
  · cases heq.symm.trans h
  · cases heq.symm.trans h
  · exact hnot

end Ensemble

namespace Reconfiguration

variable {seed : Roster} {e e' : Ensemble} {id : ServerId} {s : Server} {request : Request}

/-- A server that leads fails only on a request that is not grantable. -/
theorem Ends.not_grantable {fault : Fault} (h : Ends e id s request (.error fault) e')
    (hlead : e.log.leader = some id) (hsettings : s.settings.enabled = e.template.enabled) :
    ¬ e.Grantable request := by
  intro hgrantable
  obtain ⟨henabled, hmustered, change, candidate, hexamine, hmusters⟩ :=
    Ensemble.grantable_iff.1 hgrantable
  cases h with
  | disabled off => exact Bool.noConfusion (off.symm.trans (hsettings.trans henabled))
  | following _ other => exact other hlead
  | refused _ _ _ examined => cases examined.symm.trans hexamine
  | unsynced _ _ _ _ examined short _ =>
      cases examined.symm.trans hexamine
      exact short hmusters
  | unacknowledged _ _ _ _ _ _ short _ => exact short.2 hmustered

theorem Ends.grantable {next : Roster} (h : Ends e id s request (.ok next) e')
    (hpeopled : e.log.roster.participants ≠ [])
    (hsettings : s.settings.enabled = e.template.enabled) : e.Grantable request := by
  cases h with
  | committed on _ change candidate examined synced acked _ _ =>
      exact Ensemble.grantable_iff.2 ⟨hsettings.symm.trans on, acked.resolve_left hpeopled,
        change, candidate, examined, synced⟩

end Reconfiguration

namespace Ensemble

variable {seed : Roster} {e e' : Ensemble} {request : Request}

/-- What a request takes does not depend on who leads. -/
theorem grantable_congr (htemplate : e'.template = e.template) (hmoved : e.Unmoved e')
    (honline : ∀ id, e'.log.isOnline id = e.log.isOnline id) :
    e'.Grantable request ↔ e.Grantable request := by
  rw [grantable_iff, grantable_iff, htemplate, hmoved.roster]
  simp only [CommitLog.musters_congr honline]

end Ensemble

namespace Routed

variable {seed : Roster} {e e' : Ensemble} {session : SessionId} {request : Request}

theorem Ends.unmoved {fault : Fault} (h : Ends e session request (.error fault) e') :
    e.Unmoved e' := by
  obtain ⟨hmoved, _⟩ := e.unmoved_leaderOrElect
  cases h with
  | disabled _ => exact Ensemble.unmoved_refl e
  | leaderless _ lost =>
      rw [lost] at hmoved
      exact hmoved
  | failed _ led found ends =>
      rw [led] at hmoved
      exact hmoved.trans ends.unmoved

theorem Ends.granted_iff {result : Except Fault Roster} (h : Ends e session request result e')
    (he : e.Calm seed) (hg : e.log.Governed) (hr : e.log.InRange) :
    (∃ next, result = .ok next) ↔ e.Grantable request := by
  obtain ⟨hcalm, hgoverned, _⟩ := Ensemble.governed_leaderOrElect he hg hr
  obtain ⟨hmoved, honline⟩ := e.unmoved_leaderOrElect
  have hcongr : e.leaderOrElect.2.Grantable request ↔ e.Grantable request :=
    Ensemble.grantable_congr rfl hmoved honline
  have hsettings : ∀ {id s}, e.leaderOrElect.2.server id = .ok s →
      s.settings.enabled = e.leaderOrElect.2.template.enabled := by
    intro id s hs
    rw [(hcalm.idle id s (Ensemble.server_eq_ok_iff.1 hs)).1]
    rfl
  have hfails : ∀ fault, ¬ ∃ next, (Except.error fault : Except Fault Roster) = .ok next :=
    fun _ ⟨_, h⟩ => nomatch h
  cases h with
  | disabled off =>
      exact iff_of_false (hfails _) fun h => Bool.noConfusion (off.symm.trans h.enabled)
  | leaderless _ lost =>
      exact iff_of_false (hfails _) fun h =>
        Ensemble.not_musters_of_leaderOrElect lost h.mustered
  | failed _ led found ends =>
      rw [led] at hcongr hsettings
      exact iff_of_false (hfails _) fun h =>
        ends.not_grantable (Ensemble.leads_of_leaderOrElect led) (hsettings found) (hcongr.2 h)
  | committed _ led found ends _ =>
      rw [led] at hcongr hsettings hgoverned
      exact iff_of_true ⟨_, rfl⟩
        (hcongr.1 (ends.grantable hgoverned.peopled (hsettings found)))

end Routed

namespace Ensemble

variable {template : Settings} {seed : Roster} {e : Ensemble}

/-- A request of a session is answered, and with a roster exactly if it is grantable. If it
fails, the committed log and the rosters of the log and of every server are as before. -/
theorem request_succeeds_iff (h : Reachable template seed (·.isReconfigure = false) e)
    {session : SessionId} {connected : Session}
    (hsession : e.sessions.get session = .ok connected) (now : Nat) (request : Request) :
    ∃ result e', e.request now session request = (.done result, e') ∧
      ((∃ next, result = .ok next) ↔ e.Grantable request) ∧
      (∀ fault, result = .error fault → e'.log.entries = e.log.entries ∧
        e'.log.roster = e.log.roster ∧
        ∀ id, (e'.log.replica? id).map (·.current) = (e.log.replica? id).map (·.current)) := by
  obtain ⟨result, e', hends, heq⟩ :=
    Routed.exists_ends h.calm h.inRange hsession now request
  refine ⟨result, e', heq, hends.granted_iff h.calm h.governed h.inRange, ?_⟩
  rintro fault rfl
  have hmoved := hends.unmoved
  refine ⟨hmoved.entries, hmoved.roster, fun id => ?_⟩
  have hview := congrArg (Option.map View.current) (hmoved.views id)
  rw [Option.map_map, Option.map_map] at hview
  exact hview

/-- A fourth server is asked for that does not vote. -/
def joinObserver : Request :=
  ⟨.incremental [.onPorts 4 40 .observer] [], none⟩

def trioObserved : Roster :=
  ⟨.make 1 2, Roster.trio.members ++ [.onPorts 4 40 .observer], by decide +kernel⟩

theorem grantable_joinObserver : attended.Grantable joinObserver where
  enabled := by decide +kernel
  mustered := by decide +kernel
  expected version h := nomatch h
  accepted := by
    refine ⟨⟨[.onPorts 1 10, .onPorts 2 20, .onPorts 3 30, .onPorts 4 40 .observer], [(4, .add)]⟩,
      ⟨.zero, [.onPorts 1 10, .onPorts 2 20, .onPorts 3 30, .onPorts 4 40 .observer],
        by decide +kernel⟩, ?_⟩
    decide +kernel

/-- The observer is granted to the session of the attended ensemble. -/
theorem request_succeeds_iff_attended : ∃ next e',
    attended.request 0 firstSession joinObserver = (.done (.ok next), e') := by
  obtain ⟨result, e', heq, hiff, _⟩ :=
    request_succeeds_iff reachable_attended get_firstSession_attended 0 joinObserver
  obtain ⟨next, rfl⟩ := hiff.2 grantable_joinObserver
  exact ⟨next, e', heq⟩

end Ensemble

end Quorate
