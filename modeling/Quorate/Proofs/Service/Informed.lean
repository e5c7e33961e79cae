import Quorate.Proofs.Ensemble.Informed
import Quorate.Proofs.Service.Abreast

/-!
# Sites whose sessions are kept informed

At a site a roster may be in effect for a while before the sessions are told of it, and other
calls may come in between. Wherever a run has come to, its ensemble is informed as to the
reconfigurations that are under way (`Site.Arises.informed`). So a session that does not have to
reconnect is connected to a member of the roster that was committed last, unless one of those
still owes the sessions that roster (`Site.stranded_flagged`).
-/

namespace Quorate

/-- The reconfiguration that a server runs for the session, if one does. -/
def Routed.call? (c : Routed) : Option Reconfiguration :=
  match c.stage with
  | .direct call | .forwarded call => some call
  | .leaderless => none

def Errand.call? : Errand → Option Reconfiguration
  | .request c => c.call?
  | .read _ => none

def Progress.isDone {σ α : Type} : Progress σ α → Bool
  | .going _ => false
  | .done _ => true

/-- What is going on at a progress has this reconfiguration under way. -/
def Progress.Runs {σ α : Type} (call? : σ → Option Reconfiguration) (p : Progress σ α)
    (c : Reconfiguration) : Prop :=
  ∃ stage, p = .going stage ∧ call? stage = some c

namespace Ensemble

/-- What an event does to the log and the sessions: the log grows by one roster at most, or it
stays as it is and the sessions are told of a roster that has taken effect. Apart from that they
shift. -/
inductive Conveys (seed : Roster) (e : Ensemble) (gone : Option SessionId) (e' : Ensemble) : Prop
  | shift {r : Roster} (gains : Gains seed e.log.entries e'.log.entries)
      (shift : e.sessions.Shift r gone e'.sessions)
  | told {r : Roster} (entries : e'.log.entries = e.log.entries) (next : Roster)
      (committed : next ∈ (rosters seed e.log.entries).tail)
      (shift : (e.sessions.push next).Shift r gone e'.sessions)

variable {seed : Roster} {e e' : Ensemble} {gone : Option SessionId} {v : Version}
  {calls calls' others : Reconfiguration → Prop} {now : Nat}

theorem Tells.conveys (h : Tells seed e e') {sessions : Sessions} {r : Roster}
    (hshift : e'.sessions.Shift r gone sessions) :
    e.Conveys seed gone { e' with sessions } := by
  rcases h.sessions with heq | ⟨hentries, next, hnext, heq⟩
  · exact .shift h.gains (heq ▸ hshift)
  · exact .told hentries next hnext (heq ▸ hshift)

theorem Aside.conveys (h : e.Aside gone e') : e.Conveys seed gone e' :=
  .shift (gains_of_rosters h.steady.grows (h.steady.rosters seed)) h.shift

theorem conveys_refl (seed : Roster) (e : Ensemble) (gone : Option SessionId) :
    e.Conveys seed gone e :=
  (aside_refl e gone).conveys

theorem Informed.finished {σ α : Type} (h : e.Informed seed others)
    (call? : σ → Option Reconfiguration) (result : α) :
    e.Informed seed fun x => (Progress.done result).Runs call? x ∨ others x :=
  h.congr fun x => or_iff_right fun ⟨_, hdone, _⟩ => by cases hdone

section Routed

variable {c : Routed} {p : Progress Routed (Except Fault Roster) × Ensemble}

theorem Informed.conclude (h : e.Informed seed others) (c : Routed)
    (result : Except Fault Roster) :
    ((c.conclude result e).2.Informed seed fun x =>
        (c.conclude result e).1.Runs Routed.call? x ∨ others x) ∧
      ∃ sessions, (c.conclude result e).2 = { e with sessions } ∧
        e.sessions.Shift e.log.roster gone sessions := by
  cases result with
  | error fault => exact ⟨h.finished _ _, e.sessions, rfl, .stay gone⟩
  | ok r =>
      unfold Routed.conclude
      dsimp only
      split
      · exact ⟨h.finished _ _, e.sessions, rfl, .stay gone⟩
      · rename_i sessions hobserve
        have hshift (gone : Option SessionId) : e.sessions.Shift e.log.roster gone sessions :=
          .observe gone hobserve
        have hinformed : ({ e with sessions } : Ensemble).Informed seed others :=
          h.stay { h.sound with } h.link (CommitLog.lasting_refl e.log) rfl (fun _ _ hP => hP)
            (hshift none).notified_eq (hshift none).settled
        exact ⟨hinformed.finished _ _, sessions, rfl, hshift gone⟩

theorem runs_going {c : Routed} {call : Reconfiguration} (hcall : c.call? = some call)
    (x : Reconfiguration) :
    ((Progress.going (α := Except Fault Roster) c).Runs Routed.call? x ∨ others x) ↔
      Reconfiguration.Beside (.going call) others x := by
  refine or_congr_left ?_
  constructor
  · rintro ⟨stage, hgoing, hx⟩
    cases hgoing
    exact congrArg Progress.going (Option.some.inj (hcall.symm.trans hx))
  · intro hgoing
    cases hgoing
    exact ⟨c, rfl, hcall⟩

/-- A request that is forwarded is started on another server. -/
theorem Informed.forward (h : e.Informed seed others) (c : Routed) (leader : ServerId) :
    e.Informed seed fun x => (c.forward leader e).Runs Routed.call? x ∨ others x := by
  unfold Routed.forward
  cases e.server leader with
  | error fault => exact h.finished _ _
  | ok s => exact (h.start leader c.request).congr (runs_going rfl)

theorem Informed.redirect (h : e.Informed seed others) (c : Routed)
    (result : Except Fault Roster) :
    ((c.redirect result e).2.Informed seed fun x =>
        (c.redirect result e).1.Runs Routed.call? x ∨ others x) ∧
      ∃ sessions, (c.redirect result e).2 = { e with sessions } ∧
        e.sessions.Shift e.log.roster gone sessions := by
  unfold Routed.redirect
  split
  · refine ⟨h.congr fun x => or_iff_right ?_, e.sessions, rfl, .stay gone⟩
    rintro ⟨stage, hgoing, hcall⟩
    cases hgoing
    cases hcall
  · split
    · exact ⟨h.forward c _, e.sessions, rfl, .stay gone⟩
    · exact h.conclude c _
  · exact h.conclude c _

/-- A request makes the step of the reconfiguration that it has under way, and goes on from the
result of that. -/
theorem Informed.handOn {call : Reconfiguration}
    (h : e.Informed seed (Reconfiguration.Beside (.going call) others)) (hr : e.log.InRange)
    (hepoch : e.log.roster.version.epoch ≠ 0xFFFFFFFF)
    (hcounter : e.log.roster.version.counter ≠ 0xFFFFFFFF)
    {wrap : Reconfiguration → Routed}
    {finish : Except Fault Roster → Ensemble → Progress Routed (Except Fault Roster) × Ensemble}
    (hstep : (call.step now e).map (Progress.handOn wrap finish) = some p)
    (hwrap : ∀ call, (wrap call).call? = some call)
    (hfinish : ∀ result {e' : Ensemble}, e'.Informed seed others →
      ((finish result e').2.Informed seed fun x =>
          (finish result e').1.Runs Routed.call? x ∨ others x) ∧
        ∃ sessions, (finish result e').2 = { e' with sessions } ∧
          e'.sessions.Shift e'.log.roster gone sessions) :
    (p.2.Informed seed fun x => p.1.Runs Routed.call? x ∨ others x) ∧
      e.Conveys seed gone p.2 := by
  obtain ⟨⟨progress, e₁⟩, hone, rfl⟩ := Option.map_eq_some_iff.1 hstep
  obtain ⟨hinformed, htells⟩ := h.step hr hepoch hcounter hone
  cases progress with
  | going call' =>
      exact ⟨hinformed.congr (runs_going (hwrap call')), htells.conveys (r := seed) (.stay gone)⟩
  | done result =>
      rw [Reconfiguration.beside_done] at hinformed
      obtain ⟨hfinished, sessions, heq, hshift⟩ := hfinish result hinformed
      refine ⟨hfinished, ?_⟩
      dsimp only [Progress.handOn] at heq ⊢
      rw [heq]
      exact htells.conveys hshift

theorem Informed.routed (h : e.Informed seed fun x => c.call? = some x ∨ others x)
    (ha : e.Abreast seed v) (hr : e.log.InRange)
    (hepoch : e.log.roster.version.epoch ≠ 0xFFFFFFFF)
    (hcounter : e.log.roster.version.counter ≠ 0xFFFFFFFF) (hstep : c.step now e = some p)
    (gone : Option SessionId) :
    (p.2.Informed seed fun x => p.1.Runs Routed.call? x ∨ others x) ∧
      e.Conveys seed gone p.2 := by
  have hcalls {call : Reconfiguration} (hcall : c.call? = some call) :
      e.Informed seed (Reconfiguration.Beside (.going call) others) := by
    refine h.congr fun x => or_congr_left ?_
    rw [hcall, Progress.going.injEq, Option.some.injEq]
  cases hs : c.stage with
  | direct call =>
      have hc : c = { c with stage := .direct call } := by rw [← hs]
      rw [hc, c.step_direct] at hstep
      exact (hcalls (by rw [Routed.call?, hs])).handOn hr hepoch hcounter hstep
        (fun _ => rfl) fun result _ hdone => hdone.redirect c result
  | leaderless =>
      have hothers : e.Informed seed others := h.congr fun x => by simp [Routed.call?, hs]
      have haside : e.Aside none e.leaderOrElect.2 := aside_leaderOrElect hr.1
      have helected := hothers.aside (ha.leaderOrElect hr) haside
      have hconveys : e.Conveys seed gone e.leaderOrElect.2 :=
        (aside_leaderOrElect hr.1).conveys
      unfold Routed.step at hstep
      simp only [hs] at hstep
      split at hstep
      · rename_i fault e₁ heq
        rw [heq] at helected hconveys
        cases hstep
        exact ⟨helected.finished _ _, hconveys⟩
      · rename_i leader e₁ heq
        rw [heq] at helected hconveys
        cases hstep
        exact ⟨helected.forward c leader, hconveys⟩
  | forwarded call =>
      have hc : c = { c with stage := .forwarded call } := by rw [← hs]
      rw [hc, c.step_forwarded] at hstep
      exact (hcalls (by rw [Routed.call?, hs])).handOn hr hepoch hcounter hstep
        (fun _ => rfl) fun result _ hdone => hdone.conclude c result

end Routed

theorem Informed.errand {errand : Errand}
    (h : e.Informed seed fun x => errand.call? = some x ∨ others x)
    (ha : e.Abreast seed v) (hr : e.log.InRange)
    (hepoch : e.log.roster.version.epoch ≠ 0xFFFFFFFF)
    (hcounter : e.log.roster.version.counter ≠ 0xFFFFFFFF)
    {p : Progress Errand (Except Fault Roster) × Ensemble} (hstep : errand.step now e = some p)
    (ha' : p.2.Abreast seed v) (gone : Option SessionId) :
    (p.2.Informed seed fun x => p.1.Runs Errand.call? x ∨ others x) ∧
      e.Conveys seed gone p.2 := by
  cases errand with
  | request call =>
      obtain ⟨⟨progress, e₁⟩, hone, rfl⟩ := Option.map_eq_some_iff.1 hstep
      obtain ⟨hinformed, hconveys⟩ :=
        Informed.routed (c := call) h ha hr hepoch hcounter hone gone
      refine ⟨hinformed.congr fun x => or_congr_left ?_, hconveys⟩
      cases progress with
      | going stage =>
          constructor
          · rintro ⟨_, hgoing, hx⟩
            cases hgoing
            exact ⟨stage, rfl, hx⟩
          · rintro ⟨_, hgoing, hx⟩
            cases hgoing
            exact ⟨.request stage, rfl, hx⟩
      | done result =>
          exact iff_of_false (fun ⟨_, hdone, _⟩ => by cases hdone)
            fun ⟨_, hdone, _⟩ => by cases hdone
  | read call =>
      obtain ⟨⟨result, e₁⟩, hone, rfl⟩ := Option.map_eq_some_iff.1 hstep
      have hothers : e.Informed seed others := h.congr fun x => by simp [Errand.call?]
      have haside : e.Aside gone e₁ := aside_look hone
      exact ⟨(hothers.aside ha' haside).finished _ _, haside.conveys⟩

end Ensemble

namespace Service

variable {seed : Roster} {s : Service}

/-- The session that an operation opens, closes or takes the inbox of. -/
def Operation.ends (e : Ensemble) : Operation → Option SessionId
  | .connect server watch => (e.connect server watch).1.toOption
  | .close session => some session
  | .dropInbox session => some session
  | _ => none

def Operation.Advances : Operation → Prop
  | .advance _ _ => True
  | _ => False

theorem advance_cases (s : Service) (place now : Nat) : s.advance place now = s ∨
    ∃ errand progress e, s.errands[place]? = some (.going errand) ∧
      errand.step now s.ensemble = some (progress, e) ∧
      s.advance place now = ⟨e, s.errands.set place progress⟩ := by
  unfold advance
  split
  · rename_i errand hplace
    split
    · rename_i progress e hstep
      exact Or.inr ⟨errand, progress, e, hplace, hstep, rfl⟩
    · exact Or.inl rfl
  · exact Or.inl rfl

/-- Anything but a step of an errand happens aside from reconfigurations. -/
theorem aside_perform (hcurrent : s.ensemble.Current) (hr : s.ensemble.log.InRange)
    (operation : Operation) (hrests : ¬ operation.Advances)
    (hr' : (s.perform operation).ensemble.log.InRange) :
    s.ensemble.Aside (operation.ends s.ensemble) (s.perform operation).ensemble := by
  have hrefl := s.ensemble.aside_refl (operation.ends s.ensemble)
  cases operation with
  | spawn id => exact s.ensemble.aside_spawn id
  | stop id => exact s.ensemble.aside_stop id
  | start id => exact Ensemble.aside_of_log (CommitLog.steady_start _ id) _
  | elect => exact Ensemble.aside_of_log (CommitLog.steady_elect hr'.1) _
  | leaderOrElect => exact Ensemble.aside_leaderOrElect hr.1
  | write record plain => exact Ensemble.aside_write hr.1 plain
  | connect server watch => exact Ensemble.aside_connect hcurrent hr server watch
  | close session => exact Ensemble.aside_close hr session
  | reconnect session server =>
      unfold perform
      dsimp only
      split
      · rename_i hmoved
        exact Ensemble.aside_reconnect hcurrent hmoved
      · exact hrefl
  | failover session =>
      unfold perform
      dsimp only
      split
      · rename_i hmoved
        exact Ensemble.aside_failover hcurrent hmoved
      · exact hrefl
  | dropInbox session => exact Ensemble.aside_of_sessions (.dropInbox session)
  | read session now =>
      unfold perform
      rw [ensemble_undertake]
      exact Ensemble.aside_startConnected hcurrent now session
  | request session request =>
      unfold perform
      rw [ensemble_undertake]
      exact hrefl
  | advance place now => exact absurd trivial hrests

/-- It puts at most one errand behind those that are there, and the reconfiguration of that one
has not begun. -/
theorem errands_perform (s : Service) (operation : Operation) (hrests : ¬ operation.Advances) :
    (s.perform operation).errands = s.errands ∨
      ∃ p, (s.perform operation).errands = s.errands ++ [p] ∧
        ∀ c, p.Runs Errand.call? c → ∃ server request, c = .start server request := by
  have hundertake (s' : Service) (errand : Except Fault Errand)
      (hstart : ∀ new c, errand = .ok new → new.call? = some c →
        ∃ server request, c = .start server request) :
      ∃ p, (s'.undertake errand).errands = s'.errands ++ [p] ∧
        ∀ c, p.Runs Errand.call? c → ∃ server request, c = .start server request := by
    cases errand with
    | error fault => exact ⟨_, rfl, fun c ⟨_, hdone, _⟩ => by cases hdone⟩
    | ok new =>
        refine ⟨_, rfl, fun c ⟨stage, hgoing, hcall⟩ => ?_⟩
        cases hgoing
        exact hstart new c rfl hcall
  cases operation with
  | reconnect session server =>
      refine Or.inl ?_
      unfold perform
      dsimp only
      split <;> rfl
  | failover session =>
      refine Or.inl ?_
      unfold perform
      dsimp only
      split <;> rfl
  | read session now =>
      refine Or.inr (hundertake (s.withEnsemble _) _ fun new c hnew hcall => ?_)
      obtain ⟨call, _, rfl⟩ := map_eq_ok_iff.1 hnew
      cases hcall
  | request session request =>
      refine Or.inr (hundertake s _ fun new c hnew hcall => ?_)
      obtain ⟨call, hstart, rfl⟩ := map_eq_ok_iff.1 hnew
      obtain ⟨connected, _, hstart⟩ := bind_eq_ok_iff.1 hstart
      obtain ⟨_, _, hstart⟩ := bind_eq_ok_iff.1 hstart
      cases hstart
      cases hcall
      exact ⟨_, _, rfl⟩
  | advance place now => exact absurd trivial hrests
  | _ => exact Or.inl rfl

end Service

/-- What is at a place of a list, and what is left when something else is put there. -/
theorem exists_rest_of_getElem? {α : Type} {l : List α} {place : Nat} {a : α}
    (h : l[place]? = some a) :
    ∃ rest : List α, (∀ x, x ∈ l ↔ x = a ∨ x ∈ rest) ∧
      ∀ b x, x ∈ l.set place b ↔ x = b ∨ x ∈ rest := by
  obtain ⟨hlt, rfl⟩ := List.getElem?_eq_some_iff.1 h
  refine ⟨l.take place ++ l.drop (place + 1), fun x => ?_, fun b x => ?_⟩
  · conv_lhs => rw [← List.take_append_drop place l, List.drop_eq_getElem_cons hlt]
    simp only [List.mem_append, List.mem_cons]
    exact or_left_comm
  · rw [List.set_eq_take_append_cons_drop, if_pos hlt]
    simp only [List.mem_append, List.mem_cons]
    exact or_left_comm

namespace Site

variable {template : Settings} {seed : Roster} {v : Version} {s : Site}

def UnderWay (s : Site) (c : Reconfiguration) : Prop :=
  (∃ p ∈ s.errands, p.Runs Errand.call? c) ∨ .going c ∈ s.reforms

def Bounded (s : Site) : Prop :=
  s.toService.Bounded ∧ s.ensemble.log.roster.version.counter ≠ 0xFFFFFFFF

instance (s : Site) : Decidable s.Bounded :=
  inferInstanceAs (Decidable (_ ∧ _))

/-- The sites that runs over a seed come to, if no epoch and no counter is ever counted to its
end. -/
def Arises (template : Settings) (seed : Roster) (s : Site) : Prop :=
  ∃ first, Ensemble.bootstrap template seed = .ok first ∧
    Reaches happen Bounded ⟨⟨first, []⟩, []⟩ s

/-- The session that an event opens, closes or takes the inbox of. -/
def Event.ends (s : Site) : Event → Option SessionId
  | .operate operation => operation.ends s.ensemble
  | _ => none

/-- The ensemble of the site is informed as to the reconfigurations under way. -/
def Informed (seed : Roster) (s : Site) : Prop :=
  s.ensemble.Informed seed s.UnderWay

theorem further_cases (s : Site) (place now : Nat) : s.further place now = s ∨
    ∃ call progress e, s.reforms[place]? = some (.going call) ∧
      call.step now s.ensemble = some (progress, e) ∧
      s.further place now = ⟨s.toService.withEnsemble e, s.reforms.set place progress⟩ := by
  unfold further
  split
  · rename_i call hplace
    split
    · rename_i progress e hstep
      exact Or.inr ⟨call, progress, e, hplace, hstep, rfl⟩
    · exact Or.inl rfl
  · exact Or.inl rfl

theorem Informed.advance (h : s.Informed seed) (ha : s.Abreast seed v) (hb : s.Bounded)
    (place now : Nat) (ha' : (s.happen (.operate (.advance place now))).Abreast seed v) :
    (s.happen (.operate (.advance place now))).Informed seed ∧
      s.ensemble.Conveys seed none (s.happen (.operate (.advance place now))).ensemble := by
  have hensemble := ha'.service.ensemble
  rw [happen, Service.perform] at hensemble ⊢
  rcases s.toService.advance_cases place now with
    heq | ⟨errand, progress, e, hplace, hstep, heq⟩
  · rw [heq]
    exact ⟨h, Ensemble.conveys_refl seed _ none⟩
  rw [heq] at hensemble ⊢
  obtain ⟨rest, hbefore, hafter⟩ := exists_rest_of_getElem? hplace
  have hcalls : s.ensemble.Informed seed fun x =>
      errand.call? = some x ∨ (∃ p ∈ rest, p.Runs Errand.call? x) ∨ .going x ∈ s.reforms :=
    Ensemble.Informed.congr h fun x => by
      simp [UnderWay, hbefore, or_and_right, exists_or, or_assoc, Progress.Runs]
  obtain ⟨hinformed, hconveys⟩ :=
    hcalls.errand ha.service.ensemble hb.1.1 hb.1.2 hb.2 hstep hensemble none
  refine ⟨hinformed.congr fun x => ?_, hconveys⟩
  simp [UnderWay, hafter, or_and_right, exists_or, or_assoc]

theorem Informed.further (h : s.Informed seed) (hb : s.Bounded) (place now : Nat) :
    (s.further place now).Informed seed ∧
      s.ensemble.Conveys seed none (s.further place now).ensemble := by
  rcases s.further_cases place now with heq | ⟨call, progress, e, hplace, hstep, heq⟩
  · rw [heq]
    exact ⟨h, Ensemble.conveys_refl seed _ none⟩
  rw [heq]
  obtain ⟨rest, hbefore, hafter⟩ := exists_rest_of_getElem? hplace
  have hcalls : s.ensemble.Informed seed (Reconfiguration.Beside (.going call) fun x =>
      (∃ p ∈ s.errands, p.Runs Errand.call? x) ∨ .going x ∈ rest) :=
    Ensemble.Informed.congr h fun x => by
      simp only [UnderWay, Reconfiguration.Beside, hbefore]
      rw [eq_comm, or_left_comm]
  obtain ⟨hinformed, htells⟩ := hcalls.step hb.1.1 hb.1.2 hb.2 hstep
  refine ⟨hinformed.congr fun x => ?_, htells.conveys (r := seed) (.stay none)⟩
  simp only [UnderWay, Reconfiguration.Beside, hafter]
  rw [eq_comm, or_left_comm]
  rfl

theorem Informed.followAgain (h : s.Informed seed) (server : ServerId) (prev : Roster)
    {next : Roster} (hnext : next ∈ (rosters seed s.ensemble.log.entries).tail) :
    (s.followAgain server prev next).Informed seed ∧
      s.ensemble.Conveys seed none (s.followAgain server prev next).ensemble := by
  obtain ⟨hinformed, htells⟩ := Ensemble.Informed.echo h server prev hnext
  refine ⟨hinformed.congr fun x => ?_, htells.conveys (r := seed) (.stay none)⟩
  simp only [UnderWay, Reconfiguration.Beside, Site.followAgain, List.mem_append,
    List.mem_singleton]
  rw [← or_assoc, or_comm, eq_comm]
  rfl

theorem Informed.aside (h : s.Informed seed) {e : Ensemble} {gone : Option SessionId}
    (haside : s.ensemble.Aside gone e) (ha : e.Abreast seed v) :
    (s.withEnsemble e).Informed seed ∧ s.ensemble.Conveys seed gone e :=
  ⟨Ensemble.Informed.aside h ha haside, haside.conveys⟩

theorem current_of_abreast (ha : s.Abreast seed v) : s.ensemble.Current :=
  fun _ _ => ha.service.ensemble.current_eq

theorem Informed.operate (h : s.Informed seed) (ha : s.Abreast seed v) (hb : s.Bounded)
    (operation : Service.Operation)
    (ha' : (s.happen (.operate operation)).Abreast seed v)
    (hr' : (s.happen (.operate operation)).ensemble.log.InRange) :
    (s.happen (.operate operation)).Informed seed ∧ s.ensemble.Conveys seed
      (operation.ends s.ensemble) (s.happen (.operate operation)).ensemble := by
  by_cases hrests : operation.Advances
  · cases operation with
    | advance place now => exact h.advance ha hb place now ha'
    | _ => exact hrests.elim
  have haside := Service.aside_perform (current_of_abreast ha) hb.1.1 operation hrests hr'
  obtain ⟨hinformed, hconveys⟩ := h.aside haside ha'.service.ensemble
  refine ⟨?_, hconveys⟩
  rcases s.toService.errands_perform operation hrests with heq | ⟨p, heq, hstart⟩
  · refine Ensemble.Informed.congr hinformed fun x => ?_
    rw [UnderWay, happen, heq]
    rfl
  · refine Ensemble.Informed.more hinformed (fun x hx => ?_) fun x hx => ?_
    · rw [UnderWay, happen, heq]
      exact hx.imp_left fun ⟨q, hq, hruns⟩ => ⟨q, List.mem_append_left _ hq, hruns⟩
    · rw [UnderWay, happen, heq] at hx
      rcases hx with ⟨q, hq, hruns⟩ | hx
      · rcases List.mem_append.1 hq with hold | hlast
        · exact Ensemble.Informed.minds hinformed x (Or.inl ⟨q, hold, hruns⟩)
        · cases List.mem_singleton.1 hlast
          obtain ⟨server, request, rfl⟩ := hstart x hruns
          exact Reconfiguration.minds_start seed _ server request
      · exact Ensemble.Informed.minds hinformed x (Or.inr hx)

/-- What one event does: the site stays informed, and unless the clients read their inboxes, the
sessions are told of a roster or shift. -/
theorem Informed.happen (h : s.Informed seed)
    (ha : s.Abreast seed s.ensemble.log.roster.version) (hb : s.Bounded) (event : Event)
    (hr' : (s.happen event).ensemble.log.InRange) :
    (s.happen event).Informed seed ∧ (event ≠ .drain →
      s.ensemble.Conveys seed (event.ends s) (s.happen event).ensemble) := by
  have ha' := ha.happen hb.1 event
  have hlog {log : CommitLog Server} (hsteady : CommitLog.Steady s.ensemble.log log)
      (hlogs : (s.withEnsemble (s.ensemble.withLog log)).Abreast seed
        s.ensemble.log.roster.version) :
      (s.withEnsemble (s.ensemble.withLog log)).Informed seed ∧
        s.ensemble.Conveys seed none (s.ensemble.withLog log) :=
    h.aside (Ensemble.aside_of_log hsteady none) hlogs.service.ensemble
  cases event with
  | operate operation =>
      obtain ⟨hinformed, hconveys⟩ := h.operate ha hb operation ha' hr'
      exact ⟨hinformed, fun _ => hconveys⟩
  | reattach id =>
      obtain ⟨hinformed, hconveys⟩ := hlog (CommitLog.steady_reattach _ id) ha'
      exact ⟨hinformed, fun _ => hconveys⟩
  | resign leader =>
      obtain ⟨hinformed, hconveys⟩ := hlog (CommitLog.steady_resign _ leader) ha'
      exact ⟨hinformed, fun _ => hconveys⟩
  | establish leader =>
      obtain ⟨hinformed, hconveys⟩ := hlog (CommitLog.steady_establish hr'.1) ha'
      exact ⟨hinformed, fun _ => hconveys⟩
  | propose sender record plain =>
      obtain ⟨hinformed, hconveys⟩ := hlog (CommitLog.steady_propose _ sender plain) ha'
      exact ⟨hinformed, fun _ => hconveys⟩
  | drain => exact ⟨Ensemble.Informed.drained h, fun hnot => absurd rfl hnot⟩
  | reform server request =>
      refine ⟨?_, fun _ => Ensemble.conveys_refl seed _ none⟩
      refine (Ensemble.Informed.start h server request).congr fun x => ?_
      simp only [UnderWay, Reconfiguration.Beside, Site.happen, List.mem_append,
        List.mem_singleton]
      rw [← or_assoc, or_comm, eq_comm]
  | further place now =>
      obtain ⟨hinformed, hconveys⟩ := h.further hb place now
      exact ⟨hinformed, fun _ => hconveys⟩
  | followAgain server prev next =>
      unfold Site.happen
      dsimp only
      split
      · rename_i hnext
        rw [h.sound.seeded] at hnext
        obtain ⟨hinformed, hconveys⟩ := h.followAgain server prev hnext
        exact ⟨hinformed, fun _ => hconveys⟩
      · exact ⟨h, fun _ => Ensemble.conveys_refl seed _ none⟩

theorem Arises.reachable (h : s.Arises template seed) : s.Reachable template seed := by
  obtain ⟨first, hfirst, hreaches⟩ := h
  exact ⟨first, hfirst, hreaches.mono fun _ => And.left⟩

theorem Arises.abreast (h : s.Arises template seed) :
    s.Abreast seed s.ensemble.log.roster.version :=
  h.reachable.abreast

theorem Arises.bounded (h : s.Arises template seed) : s.Bounded := by
  obtain ⟨_, _, hreaches⟩ := h
  exact hreaches.within

theorem Arises.happen (h : s.Arises template seed) (event : Event)
    (hb : (s.happen event).Bounded) : (s.happen event).Arises template seed := by
  obtain ⟨first, hfirst, hreaches⟩ := h
  exact ⟨first, hfirst, hreaches.step event hb⟩

theorem arises_run {e : Ensemble} (he : Ensemble.bootstrap template seed = .ok e)
    (events : List Event) (h : ∀ k ≤ events.length, (run e (events.take k)).Bounded) :
    (run e events).Arises template seed :=
  ⟨e, he, reaches_foldl events h⟩

/-- Wherever a run has come to, the sessions are informed. -/
theorem Arises.informed (h : s.Arises template seed) : s.Informed seed := by
  obtain ⟨first, hfirst, hreaches⟩ := h
  have hepoch := hreaches.first_within.1.1.1
  let first : Site := ⟨⟨first, []⟩, []⟩
  have hbooted : first.Abreast seed first.ensemble.log.roster.version :=
    ⟨⟨(Ensemble.abreast_bootstrap hfirst hepoch).renew, fun _ hp => absurd hp List.not_mem_nil⟩,
      fun _ hp => absurd hp List.not_mem_nil⟩
  have hinformed : first.Informed seed :=
    (Ensemble.informed_bootstrap hfirst hepoch).congr fun x => by simp [first, UnderWay]
  refine (hreaches.invariant_within
    (fun s => s.Abreast seed s.ensemble.log.roster.version ∧ s.Informed seed)
    ⟨hbooted, hinformed⟩ fun s event hb hb' hs => ?_).2
  exact ⟨(hs.1.happen hb.1 event).renew, (hs.2.happen hs.1 hb event hb'.1.1).1⟩

/-- At every moment of a run at which no reconfiguration is under way, each session has to
reconnect, or it is connected to a member of the roster committed last. At any other moment this
holds as well, or one of the reconfigurations has still to tell the sessions of that roster. -/
theorem stranded_flagged (h : s.Arises template seed) :
    ∃ latest, (rosters seed s.ensemble.log.entries).getLast? = some latest ∧
      ∀ session x, s.ensemble.sessions.get session = .ok x →
        ((∀ c, ¬ s.UnderWay c) → x.mustReconnect = true ∨ latest.contains x.server = true) ∧
        ((x.mustReconnect = true ∨ latest.contains x.server = true) ∨
          ∃ c, s.UnderWay c ∧ c.Owes seed s.ensemble.log latest) := by
  have hinformed : s.ensemble.Informed seed s.UnderWay := h.informed
  refine ⟨s.ensemble.log.roster, ?_, fun session x hx => ?_⟩
  · rw [getLast?_rosters, hinformed.sound.tracked.derived]
  · have hflagged := hinformed.owed.imp_left fun htold =>
      hinformed.settled htold session x (Sessions.get_eq_ok_iff.1 hx)
    exact ⟨fun hnone => hflagged.resolve_right fun ⟨c, hc, _⟩ => hnone c hc, hflagged⟩

theorem not_underWay (herrands : s.errands.all Progress.isDone = true)
    (hreforms : s.reforms.all Progress.isDone = true) (c : Reconfiguration) : ¬ s.UnderWay c := by
  rintro (⟨p, hp, stage, rfl, _⟩ | hp)
  · exact Bool.false_ne_true (List.all_eq_true.1 herrands _ hp)
  · exact Bool.false_ne_true (List.all_eq_true.1 hreforms _ hp)

def bereft : Roster :=
  ⟨.make 1 3, [.onPorts 2 20, .onPorts 3 30], by decide +kernel⟩

/-- Two sessions, the second of which has the server of the first removed. A server that did not
lead follows that up again. -/
def desertion : List Event :=
  [.operate (.connect 1 false), .operate (.connect 2 false),
    .operate (.request (sessionId 2 2) ⟨.incremental [] [1], none⟩)] ++
  List.replicate 7 (.operate (.advance 0 0)) ++
  [.operate (.advance 0 0), .followAgain 2 .trio bereft, .further 0 0]

/-- In the end the first session is flagged; the second one is not and need not be. While the
roster was being followed up, the first one was not flagged either. -/
theorem stranded_flagged_desertion :
    (run Ensemble.trio desertion).Arises {} .trio ∧
    ∃ latest x y,
      (rosters .trio (run Ensemble.trio desertion).ensemble.log.entries).getLast? = some latest ∧
      (run Ensemble.trio desertion).ensemble.sessions.get (sessionId 1 1) = .ok x ∧
      (run Ensemble.trio desertion).ensemble.sessions.get (sessionId 2 2) = .ok y ∧
      latest.contains x.server = false ∧ x.mustReconnect = true ∧
      y.mustReconnect = false ∧ latest.contains y.server = true ∧
      (run Ensemble.trio (desertion.take 10)).ensemble.log.roster = latest ∧
      (run Ensemble.trio (desertion.take 10)).ensemble.sessions.get (sessionId 1 1) =
        .ok ⟨1, .zero, false, false⟩ := by
  have harises : (run Ensemble.trio desertion).Arises {} .trio :=
    arises_run (by decide +kernel) desertion (by decide +kernel)
  have hx : (run Ensemble.trio desertion).ensemble.sessions.get (sessionId 1 1) =
      .ok ⟨1, .make 1 3, true, false⟩ := by decide +kernel
  have hy : (run Ensemble.trio desertion).ensemble.sessions.get (sessionId 2 2) =
      .ok ⟨2, .make 1 3, false, false⟩ := by decide +kernel
  have hlast : (rosters .trio (run Ensemble.trio desertion).ensemble.log.entries).getLast? =
      some bereft := by decide +kernel
  obtain ⟨latest, hlatest, hsettled⟩ := stranded_flagged harises
  cases hlast.symm.trans hlatest
  have hidle : ∀ c, ¬ (run Ensemble.trio desertion).UnderWay c :=
    not_underWay (by decide +kernel) (by decide +kernel)
  exact ⟨harises, bereft, _, _, hlatest, hx, hy, by decide +kernel,
    ((hsettled _ _ hx).1 hidle).resolve_right (by decide +kernel), rfl,
    ((hsettled _ _ hy).1 hidle).resolve_left (by decide +kernel), by decide +kernel,
    by decide +kernel⟩

end Site

end Quorate
