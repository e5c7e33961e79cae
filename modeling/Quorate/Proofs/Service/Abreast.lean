import Quorate.Proofs.Call.News
import Quorate.Proofs.Ensemble.Abreast
import Quorate.Proofs.Ensemble.Run
import Quorate.Proofs.Service.Run

/-!
# Services in which nothing is ahead of the log

At a site servers run reconfigurations on their own, beside what the clients of a service
request and read. Whatever happens there, and in whichever order the calls take their steps,
rosters are brought in by nothing but these calls. So an ensemble that neither counts its
stamps nor the epochs of its rosters to their end stays abreast (`Site.Reachable.abreast`).
-/

namespace Quorate

namespace Service

variable {seed : Roster} {v : Version} {s : Service}

/-- The ensemble is abreast of a version, and no errand is ahead of that. -/
structure Abreast (seed : Roster) (v : Version) (s : Service) : Prop where
  ensemble : s.ensemble.Abreast seed v
  errands : ∀ p ∈ s.errands, p.Within (.upTo v) (Errand.Knows (.upTo v))

theorem Abreast.renew (h : s.Abreast seed v) : s.Abreast seed s.ensemble.log.roster.version where
  ensemble := h.ensemble.renew
  errands p hp := by
    have hpart := Scope.upTo_part h.ensemble.reached
    exact (h.errands p hp).mono hpart fun _ hknows => hknows.mono hpart

theorem Abreast.withEnsemble (h : s.Abreast seed v) {e : Ensemble} (he : e.Abreast seed v) :
    (s.withEnsemble e).Abreast seed v :=
  ⟨he, h.errands⟩

theorem Abreast.undertake (h : s.Abreast seed v) {errand : Except Fault Errand}
    (hnew : ∀ c, errand = .ok c → c.Knows (.upTo v)) : (s.undertake errand).Abreast seed v := by
  cases errand with
  | error fault =>
      refine ⟨h.ensemble, fun p hp => ?_⟩
      rcases List.mem_append.1 hp with hold | hlast
      · exact h.errands p hold
      · cases List.mem_singleton.1 hlast
        trivial
  | ok c =>
      refine ⟨h.ensemble, fun p hp => ?_⟩
      rcases List.mem_append.1 hp with hold | hlast
      · exact h.errands p hold
      · cases List.mem_singleton.1 hlast
        exact hnew c rfl

/-- The log can count on, and so can the rosters. -/
def Bounded (s : Service) : Prop :=
  s.ensemble.log.InRange ∧ s.ensemble.log.roster.version.epoch ≠ 0xFFFFFFFF

instance (s : Service) : Decidable s.Bounded :=
  inferInstanceAs (Decidable (_ ∧ _))

theorem Abreast.advance (h : s.Abreast seed s.ensemble.log.roster.version) (hb : s.Bounded)
    (place now : Nat) : (s.advance place now).Abreast seed s.ensemble.log.roster.version := by
  unfold Service.advance
  split
  · rename_i errand hplace
    split
    · rename_i hstep
      have hknows := h.errands _ (List.mem_of_getElem? hplace)
      obtain ⟨hdeeds, hwithin⟩ :=
        Errand.deeds_step (h.ensemble.supports hb.2) hknows hstep
      refine ⟨h.ensemble.deeds hb.1 hdeeds, fun p hp => ?_⟩
      rcases List.mem_or_eq_of_mem_set hp with hold | rfl
      · exact h.errands p hold
      · exact hwithin
    · exact h
  · exact h

theorem Abreast.perform (h : s.Abreast seed s.ensemble.log.roster.version) (hb : s.Bounded)
    (operation : Operation) :
    (s.perform operation).Abreast seed s.ensemble.log.roster.version := by
  have he := h.ensemble
  cases operation with
  | spawn id => exact h.withEnsemble (he.spawn id)
  | stop id => exact h.withEnsemble (he.stop hb.1 id)
  | start id =>
      exact h.withEnsemble (he.turn hb.1 (CommitLog.onward_start seed _ id)
        (CommitLog.entries_start _ id))
  | elect =>
      exact h.withEnsemble (he.turn hb.1 (CommitLog.onward_elect seed _)
        (CommitLog.entries_elect _))
  | leaderOrElect => exact h.withEnsemble (he.leaderOrElect hb.1)
  | write record plain => exact h.withEnsemble (he.write hb.1 plain)
  | connect server watch => exact h.withEnsemble (he.connect hb.1 server watch)
  | close session => exact h.withEnsemble (he.close hb.1 session)
  | reconnect session server =>
      unfold Service.perform
      dsimp only
      split
      · rename_i hmoved
        exact h.withEnsemble (he.touches (Ensemble.touches_reconnect _ hmoved))
      · exact h
  | failover session =>
      unfold Service.perform
      dsimp only
      split
      · rename_i hmoved
        exact h.withEnsemble (he.touches (Ensemble.touches_failover _ hmoved))
      · exact h
  | dropInbox session => exact h.withEnsemble (he.withSessions he.placed he.behind)
  | read session now =>
      have hstarted := he.touches (Reading.touches_startConnected _ now s.ensemble session)
      refine (h.withEnsemble hstarted).undertake fun c hc => ?_
      obtain ⟨call, _, rfl⟩ := map_eq_ok_iff.1 hc
      trivial
  | request session request =>
      refine h.undertake fun c hc => ?_
      obtain ⟨call, hstart, rfl⟩ := map_eq_ok_iff.1 hc
      obtain ⟨connected, _, hstart⟩ := bind_eq_ok_iff.1 hstart
      obtain ⟨_, _, hstart⟩ := bind_eq_ok_iff.1 hstart
      cases hstart
      trivial
  | advance place now => exact h.advance hb place now

end Service

/-- A service and the reconfigurations that its servers run on their own. -/
structure Site extends Service where
  reforms : List (Progress Reconfiguration (Except Fault Roster))

namespace Site

/-- What can happen at a site: the operations of the service, those of its log that need no
client, and the steps of reconfigurations. -/
inductive Event where
  | operate (operation : Service.Operation)
  | reattach (id : ServerId)
  | resign (leader : ServerId)
  | establish (leader : ServerId)
  /-- A server proposes a record that is no roster, whether it leads or not. -/
  | propose (sender : ServerId) (record : Record) (plain : record.isReconfigure = false)
  /-- The clients read what is in their inboxes. -/
  | drain
  | reform (server : ServerId) (request : Request)
  /-- The reconfiguration at a place takes a step at some instant, unless it has to wait. -/
  | further (place now : Nat)
  /-- A server follows up a roster that was committed, though it may have been followed up
  before. -/
  | followAgain (server : ServerId) (prev next : Roster)

def withEnsemble (s : Site) (e : Ensemble) : Site :=
  { s with toService := s.toService.withEnsemble e }

def further (s : Site) (place now : Nat) : Site :=
  match s.reforms[place]? with
  | some (.going call) =>
    match call.step now s.ensemble with
    | some (progress, e) => ⟨s.toService.withEnsemble e, s.reforms.set place progress⟩
    | none => s
  | _ => s

def followAgain (s : Site) (server : ServerId) (prev next : Roster) : Site :=
  let p := Reconfiguration.echo server prev next s.ensemble
  ⟨s.toService.withEnsemble p.2, s.reforms ++ [p.1]⟩

def happen (s : Site) : Event → Site
  | .operate operation => { s with toService := s.toService.perform operation }
  | .reattach id => s.withEnsemble (s.ensemble.withLog (s.ensemble.log.reattach id))
  | .resign leader => s.withEnsemble (s.ensemble.withLog (s.ensemble.log.resign leader))
  | .establish leader =>
    s.withEnsemble (s.ensemble.withLog (s.ensemble.log.establish leader).2)
  | .propose sender record _ =>
    s.withEnsemble (s.ensemble.withLog (s.ensemble.log.propose sender record).2)
  | .drain => s.withEnsemble { s.ensemble with sessions := s.ensemble.sessions.drained }
  | .reform server request =>
    { s with reforms := s.reforms ++ [.going (.start server request)] }
  | .further place now => s.further place now
  | .followAgain server prev next =>
    if next ∈ (rosters s.ensemble.seed s.ensemble.log.entries).tail then
      s.followAgain server prev next
    else s

/-- The site after some events at an ensemble on which nothing was under way. -/
def run (e : Ensemble) (events : List Event) : Site :=
  events.foldl happen ⟨⟨e, []⟩, []⟩

/-- The sites that runs over a seed come to, if neither the stamps of the log nor the epochs
of its rosters are ever counted to their end. -/
def Reachable (template : Settings) (seed : Roster) (s : Site) : Prop :=
  ∃ first, Ensemble.bootstrap template seed = .ok first ∧
    Reaches happen (·.toService.Bounded) ⟨⟨first, []⟩, []⟩ s

theorem reachable_run {template : Settings} {seed : Roster} {e : Ensemble}
    (he : Ensemble.bootstrap template seed = .ok e) (events : List Event)
    (h : ∀ k ≤ events.length, (run e (events.take k)).toService.Bounded) :
    (run e events).Reachable template seed :=
  ⟨e, he, reaches_foldl events h⟩

/-- Neither are the reconfigurations of the servers. -/
structure Abreast (seed : Roster) (v : Version) (s : Site) : Prop where
  service : s.toService.Abreast seed v
  reforms : ∀ p ∈ s.reforms, p.Within (.upTo v) (Reconfiguration.Knows (.upTo v))

variable {seed : Roster} {v : Version} {s : Site}

theorem Abreast.renew (h : s.Abreast seed v) : s.Abreast seed s.ensemble.log.roster.version where
  service := h.service.renew
  reforms p hp := by
    have hpart := Scope.upTo_part h.service.ensemble.reached
    exact (h.reforms p hp).mono hpart fun _ hknows => hknows.mono hpart

theorem Abreast.withEnsemble (h : s.Abreast seed v) {e : Ensemble} (he : e.Abreast seed v) :
    (s.withEnsemble e).Abreast seed v :=
  ⟨h.service.withEnsemble he, h.reforms⟩

theorem Abreast.further (h : s.Abreast seed s.ensemble.log.roster.version)
    (hb : s.toService.Bounded) (place now : Nat) :
    (s.further place now).Abreast seed s.ensemble.log.roster.version := by
  have he := h.service.ensemble
  unfold Site.further
  split
  · rename_i call hplace
    split
    · rename_i hstep
      have hknows := h.reforms _ (List.mem_of_getElem? hplace)
      obtain ⟨hdeeds, hwithin⟩ := Reconfiguration.deeds_step (he.supports hb.2) hknows hstep
      refine ⟨h.service.withEnsemble (he.deeds hb.1 hdeeds), fun p hp => ?_⟩
      rcases List.mem_or_eq_of_mem_set hp with hold | rfl
      · exact h.reforms p hold
      · exact hwithin
    · exact h
  · exact h

theorem Abreast.followAgain (h : s.Abreast seed s.ensemble.log.roster.version)
    (server : ServerId) (prev : Roster) {next : Roster}
    (hnext : next ∈ rosters seed s.ensemble.log.entries) :
    (s.followAgain server prev next).Abreast seed s.ensemble.log.roster.version := by
  have he := h.service.ensemble
  have hle : (Scope.upTo s.ensemble.log.roster.version).shows next.version :=
    he.rising next hnext
  obtain ⟨htouches, hgoing⟩ := FollowUp.touches_start server prev hle s.ensemble
  refine ⟨h.service.withEnsemble ?_, fun p hp => ?_⟩
  · rw [Reconfiguration.echo, Reconfiguration.ensemble_follow]
    exact he.touches htouches
  · rcases List.mem_append.1 hp with hold | hlast
    · exact h.reforms p hold
    · cases List.mem_singleton.1 hlast
      exact Reconfiguration.within_follow _ hle hgoing

theorem Abreast.happen (h : s.Abreast seed s.ensemble.log.roster.version)
    (hb : s.toService.Bounded) (event : Event) :
    (s.happen event).Abreast seed s.ensemble.log.roster.version := by
  have he := h.service.ensemble
  -- Calls apart, nothing brings in a roster, so only they could get ahead of the log.
  cases event with
  | operate operation => exact ⟨h.service.perform hb operation, h.reforms⟩
  | reattach id =>
      exact h.withEnsemble (he.turn hb.1 (CommitLog.onward_reattach seed _ id) rfl)
  | resign leader =>
      exact h.withEnsemble (he.turn hb.1 (CommitLog.onward_resign seed _ leader)
        (CommitLog.entries_resign _ leader))
  | establish leader =>
      exact h.withEnsemble (he.turn hb.1 (CommitLog.onward_establish seed _ leader)
        (CommitLog.entries_establish _ leader))
  | propose sender record plain =>
      exact h.withEnsemble (he.propose hb.1.2 (CommitLog.advances_of_plain plain) sender)
  | drain => exact h.withEnsemble (he.withSessions he.placed he.behind)
  | reform server request =>
      refine ⟨h.service, fun p hp => ?_⟩
      rcases List.mem_append.1 hp with hold | hlast
      · exact h.reforms p hold
      · cases List.mem_singleton.1 hlast
        trivial
  | further place now => exact h.further hb place now
  | followAgain server prev next =>
      unfold Site.happen
      dsimp only
      split
      · rename_i hnext
        rw [he.seeded] at hnext
        exact h.followAgain server prev (List.mem_of_mem_tail hnext)
      · exact h

theorem Reachable.abreast {template : Settings} (h : Reachable template seed s) :
    s.Abreast seed s.ensemble.log.roster.version := by
  obtain ⟨first, hfirst, hreaches⟩ := h
  have hbooted := (Ensemble.abreast_bootstrap hfirst hreaches.first_within.1.1).renew
  refine hreaches.invariant (fun s => s.Abreast seed s.ensemble.log.roster.version)
    ⟨⟨hbooted, fun p hp => ?_⟩, fun p hp => ?_⟩ fun s event hb hs => (hs.happen hb event).renew
  · cases hp
  · cases hp

end Site

end Quorate
