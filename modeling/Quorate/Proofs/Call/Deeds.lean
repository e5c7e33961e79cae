import Mathlib.Logic.Relation
import Quorate.Call.Reading
import Quorate.Call.Routed
import Quorate.Proofs.Fault

/-!
# What calls do

One step of a call uses the log once at most, to propose a roster, to hold an election, to
resign or to renew an epoch (`Ensemble.Stroke`). What it does then stands beside the log: it
changes the marks of a server, takes a transit from the link, pushes a roster, and lets a
session observe or move (`Ensemble.Touch`). Every step of a request and of a read is of that
form (`Routed.deeds_step`, `Reading.touches_step`), so what strokes and touches keep is kept
by every call. No call starts a server, commits anything but a roster, or opens or closes a
session.

A `Scope` limits what calls propose and what versions they bring to sessions. A call stays
within a scope if what it remembers is in it, and what it reads from the servers as well.
-/

namespace Quorate

/-- Proposals that calls make, and versions of rosters that they come across. -/
structure Scope where
  proposes : RosterProposal → Prop
  shows : Version → Prop

/-- The scope of all proposals and versions. -/
def Scope.all : Scope :=
  ⟨fun _ => True, fun _ => True⟩

/-- One scope is a part of another. -/
structure Scope.Part (k k' : Scope) : Prop where
  proposes : ∀ p, k.proposes p → k'.proposes p
  shows : ∀ v, k.shows v → k'.shows v

/-- The proposal of a call that has examined its request on a roster. -/
def Reconfiguration.proposal (current : Roster) (change : Change) : RosterProposal :=
  ⟨current.version, floor current change, change.members⟩

namespace Ensemble

/-- What a call can do with the log. -/
inductive Stroke (k : Scope) : Ensemble → Ensemble → Prop
  | propose (e : Ensemble) (sender : ServerId) (proposal : RosterProposal)
      (within : k.proposes proposal) :
      Stroke k e { e with log := (e.log.propose sender (.reconfigure proposal)).2 }
  | elect (e : Ensemble) : Stroke k e e.elect.2
  | resign (e : Ensemble) (leader : ServerId) : Stroke k e { e with log := e.log.resign leader }
  | establish (e : Ensemble) (leader : ServerId) :
      Stroke k e { e with log := (e.log.establish leader).2 }

/-- What a call can do beside the log. -/
inductive Touch (k : Scope) : Ensemble → Ensemble → Prop
  /-- The marks of a server change, but nothing that follows from the log. -/
  | adjust (e : Ensemble) (id : ServerId) {f : Server → Server}
      (settings : ∀ s, (f s).settings = s.settings) (view : ∀ s, (f s).view = s.view)
      (role : ∀ s, (f s).role = s.role) : Touch k e (e.adjust id f)
  | takeTransit (e : Ensemble) : Touch k e e.takeTransit.2
  | push (e : Ensemble) (r : Roster) (within : k.shows r.version) : Touch k e (e.push r)
  | observe (e : Ensemble) (session : SessionId) (version : Version) {sessions : Sessions}
      (within : k.shows version) (observes : e.sessions.observe session version = .ok sessions) :
      Touch k e { e with sessions }
  | reconnect (e : Ensemble) (session : SessionId) (server : ServerId) {target : Server}
      {sessions : Sessions} (found : e.server server = .ok target)
      (moves : e.sessions.reconnect session server target.current = .ok sessions) :
      Touch k e { e with sessions }

/-- One thing after the other, none of it with the log. -/
abbrev Touches (k : Scope) : Ensemble → Ensemble → Prop :=
  Relation.ReflTransGen (Touch k)

/-- What a call does in one step. -/
inductive Deeds (k : Scope) : Ensemble → Ensemble → Prop
  | quiet {e e' : Ensemble} (touches : Touches k e e') : Deeds k e e'
  | struck {e e₁ e' : Ensemble} (stroke : Stroke k e e₁) (touches : Touches k e₁ e') :
      Deeds k e e'

/-- Whatever a call reads from a server of the ensemble is in a scope. -/
structure Supports (k : Scope) (e : Ensemble) : Prop where
  current : ∀ id s, e.server id = .ok s → k.shows s.current.version
  committed : ∀ id s stamp r, e.server id = .ok s → s.view.committedBy? stamp = some r →
    k.shows r.version
  examined : ∀ id s request change candidate, e.server id = .ok s →
    Reconfiguration.examine request s.current = .ok (change, candidate) →
    k.proposes (Reconfiguration.proposal s.current change)

theorem supports_all (e : Ensemble) : e.Supports .all :=
  ⟨fun _ _ _ => trivial, fun _ _ _ _ _ _ => trivial, fun _ _ _ _ _ _ _ => trivial⟩

variable {k : Scope} {e e' e'' : Ensemble}

theorem deeds_refl (k : Scope) (e : Ensemble) : Deeds k e e :=
  .quiet .refl

theorem Touch.deeds (h : Touch k e e') : Deeds k e e' :=
  .quiet (.single h)

theorem Stroke.deeds (h : Stroke k e e') : Deeds k e e' :=
  .struck h .refl

theorem Deeds.trans (h : Deeds k e e') (h' : Touches k e' e'') : Deeds k e e'' := by
  cases h with
  | quiet touches => exact .quiet (touches.trans h')
  | struck stroke touches => exact .struck stroke (touches.trans h')

theorem Touches.keeps {R : Ensemble → Ensemble → Prop} (h : Touches k e e') (hrefl : ∀ e, R e e)
    (htrans : ∀ e e' e'', R e e' → R e' e'' → R e e'') (htouch : ∀ e e', Touch k e e' → R e e') :
    R e e' := by
  induction h with
  | refl => exact hrefl e
  | tail _ hlast ih => exact htrans _ _ _ ih (htouch _ _ hlast)

/-- What strokes and touches keep is kept by every step of a call. -/
theorem Deeds.keeps {R : Ensemble → Ensemble → Prop} (h : Deeds k e e') (hrefl : ∀ e, R e e)
    (htrans : ∀ e e' e'', R e e' → R e' e'' → R e e'')
    (hstroke : ∀ e e', Stroke k e e' → R e e') (htouch : ∀ e e', Touch k e e' → R e e') :
    R e e' := by
  cases h with
  | quiet touches => exact touches.keeps hrefl htrans htouch
  | struck stroke touches =>
      exact htrans _ _ _ (hstroke _ _ stroke) (touches.keeps hrefl htrans htouch)

theorem touches_claim (k : Scope) (e : Ensemble) (id : ServerId) (base : Version) :
    Touches k e (e.adjust id (·.claim base)) :=
  .single (.adjust e id (f := (·.claim base)) (fun _ => rfl) (fun _ => rfl) fun _ => rfl)

theorem touches_release (k : Scope) (e : Ensemble) (id : ServerId) :
    Touches k e (e.adjust id .release) :=
  .single (.adjust e id (f := .release) (fun _ => rfl) (fun _ => rfl) fun _ => rfl)

theorem deeds_leaderOrElect (e : Ensemble) (k : Scope) : Deeds k e e.leaderOrElect.2 := by
  have helect := (Stroke.elect (k := k) e).deeds
  unfold leaderOrElect CommitLog.leaderOrElect
  unfold elect at helect
  cases e.log.leader with
  | some leader => exact deeds_refl k e
  | none =>
      dsimp only at helect ⊢
      cases e.log.elect.1.leader? <;> exact helect

theorem deeds_arrive (e : Ensemble) (sender : ServerId) {proposal : RosterProposal}
    (hwithin : k.proposes proposal) (passage : Passage) :
    Deeds k e (e.arrive sender (.reconfigure proposal) passage).2 := by
  cases passage with
  | forwarded => exact (Stroke.propose e sender proposal hwithin).deeds
  | timedOut => exact deeds_refl k e
  | pending => exact deeds_refl k e
  | answered stamp => exact deeds_refl k e
  | refused fault => exact deeds_refl k e

theorem touches_reconnect (k : Scope) {session : SessionId} {server : ServerId}
    (h : e.reconnect session server = .ok e') : Touches k e e' := by
  obtain ⟨target, hfound, h⟩ := bind_eq_ok_iff.1 h
  split at h
  · obtain ⟨sessions, hmoves, h⟩ := bind_eq_ok_iff.1 h
    cases h
    exact .single (.reconnect e session server hfound hmoves)
  · cases h

theorem touches_failover (k : Scope) {session : SessionId} {target : ServerId}
    (h : e.failover session = .ok (target, e')) : Touches k e e' := by
  obtain ⟨connected, _, h⟩ := bind_eq_ok_iff.1 h
  obtain ⟨present, _, h⟩ := bind_eq_ok_iff.1 h
  split at h
  · cases h
  · obtain ⟨moved, hmoved, h⟩ := bind_eq_ok_iff.1 h
    cases h
    exact touches_reconnect k hmoved

end Ensemble

open Ensemble (Stroke Touch Touches Deeds deeds_refl)

/-- A call that goes on satisfies `knows`, and a roster that it returns is in a scope. -/
def Progress.Within {σ : Type} (k : Scope) (knows : σ → Prop) :
    Progress σ (Except Fault Roster) → Prop
  | .going c => knows c
  | .done (.ok r) => k.shows r.version
  | .done (.error _) => True

theorem Progress.Within.mono {σ : Type} {k k' : Scope} {knows knows' : σ → Prop}
    {p : Progress σ (Except Fault Roster)} (h : p.Within k knows) (hpart : k.Part k')
    (hknows : ∀ c, knows c → knows' c) : p.Within k' knows' :=
  match p, h with
  | .going c, hgoing => hknows c hgoing
  | .done (.ok r), hdone => hpart.shows r.version hdone
  | .done (.error _), _ => trivial

variable {k k' : Scope} {e : Ensemble} {now : Nat}

namespace FollowUp

theorem touches_start (server : ServerId) (prev : Roster) {next : Roster}
    (hnext : k.shows next.version) (e : Ensemble) :
    Touches k e (FollowUp.start server prev next e).2 ∧
      ∀ f, (FollowUp.start server prev next e).1 = .going f → f.next = next := by
  unfold FollowUp.start
  cases e.server server with
  | error fault => exact ⟨.refl, fun f hf => by cases hf⟩
  | ok s =>
      have hmark : Touches k e (e.adjust server fun s => { s with followed := next.version }) :=
        .single (.adjust e server (f := fun s => { s with followed := next.version })
          (fun _ => rfl) (fun _ => rfl) fun _ => rfl)
      dsimp only
      split
      · exact ⟨.refl, fun f hf => by cases hf⟩
      · split
        · exact ⟨hmark, fun f hf => by cases hf; rfl⟩
        · split
          · exact ⟨hmark, fun f hf => by cases hf; rfl⟩
          · exact ⟨hmark.tail (.push _ next hnext), fun f hf => by cases hf⟩

theorem deeds_step {c : FollowUp} (hnext : k.shows c.next.version) (e : Ensemble) :
    Deeds k e (c.step e).2 ∧ ∀ f, (c.step e).1 = .going f → f.next = c.next := by
  unfold FollowUp.step
  split
  · exact ⟨(Stroke.resign e c.server).deeds, fun f hf => by cases hf; rfl⟩
  · exact ⟨.struck (.elect e) (.single (.push _ c.next hnext)), fun f hf => by cases hf⟩
  · exact ⟨.struck (.establish e c.server) (.single (.push _ c.next hnext)),
      fun f hf => by cases hf⟩

end FollowUp

namespace Submission

def Knows (k : Scope) (c : Submission) : Prop :=
  k.proposes c.proposal

theorem deeds_arrive {c : Submission} (hc : c.Knows k) (now : Nat) (e : Ensemble) (s : Server)
    (passage : Passage) : Deeds k e (c.arrive now e s passage).2 ∧
      (c.arrive now e s passage).1.Within k (Knows k) := by
  have harrive := e.deeds_arrive c.server hc passage
  unfold Submission.arrive
  dsimp only
  split
  · exact ⟨harrive, trivial⟩
  · exact ⟨harrive, hc⟩

theorem deeds_step (he : e.Supports k) {c : Submission} (hc : c.Knows k)
    {p : Progress Submission (Except Fault Roster) × Ensemble} (h : c.step now e = some p) :
    Deeds k e p.2 ∧ p.1.Within k (Knows k) := by
  unfold Submission.step at h
  split at h
  · cases h
    exact ⟨deeds_refl k e, trivial⟩
  rename_i s hs
  split at h
  · split at h
    · cases h
      exact deeds_arrive hc now e s _
    · split at h <;> cases h
      exact ⟨deeds_refl k e, trivial⟩
  · split at h
    · cases h
      refine ⟨deeds_refl k e, ?_⟩
      unfold landed
      split
      · rename_i r hr
        exact he.committed c.server s _ r hs hr
      · trivial
    · split at h <;> cases h
      exact ⟨deeds_refl k e, trivial⟩

end Submission

namespace Reconfiguration

/-- What the call remembers is in a scope. -/
def Knows (k : Scope) (c : Reconfiguration) : Prop :=
  match c.stage with
  | .entering | .asking _ | .parked _ => True
  | .weighing current change _ => k.proposes (proposal current change)
  | .submitting _ submission => submission.Knows k
  | .following followUp => k.shows followUp.next.version

theorem Knows.mono {c : Reconfiguration} (h : c.Knows k) (hpart : k.Part k') : c.Knows k' := by
  unfold Knows at h ⊢
  split at h
  · trivial
  · trivial
  · trivial
  · exact hpart.proposes _ h
  · exact hpart.proposes _ h
  · exact hpart.shows _ h

theorem knows_all (c : Reconfiguration) : c.Knows .all := by
  unfold Knows
  split <;> trivial

variable (c : Reconfiguration)

theorem deeds_ask (he : e.Supports k) (ticket : Nat) {s : Server}
    (hs : e.server c.server = .ok s) :
    Deeds k e (c.ask ticket s e).2 ∧ (c.ask ticket s e).1.Within k (Knows k) := by
  have hclaim := Ensemble.touches_claim k e c.server s.current.version
  unfold ask
  split
  · exact ⟨deeds_refl k e, trivial⟩
  · cases s.inFlight with
    | some base =>
        dsimp only
        split
        · exact ⟨deeds_refl k e, trivial⟩
        · exact ⟨deeds_refl k e, trivial⟩
    | none =>
        dsimp only
        cases hexamine : examine c.request s.current with
        | error fault =>
            exact ⟨.quiet (hclaim.trans (Ensemble.touches_release k _ c.server)), trivial⟩
        | ok pair => exact ⟨.quiet hclaim, he.examined c.server s _ _ _ hs hexamine⟩

theorem deeds_weigh {current : Roster} {change : Change}
    (hproposes : k.proposes (proposal current change)) (candidate : Roster) (s : Server)
    (e : Ensemble) : Deeds k e (c.weigh now current change candidate s e).2 ∧
      (c.weigh now current change candidate s e).1.Within k (Knows k) := by
  unfold weigh
  dsimp only
  split
  · exact ⟨(Touch.takeTransit e).deeds, hproposes⟩
  · exact ⟨.quiet (Ensemble.touches_release k e c.server), trivial⟩

theorem within_follow {next : Roster} (hnext : k.shows next.version)
    {p : Progress FollowUp (Except Fault Unit) × Ensemble}
    (hp : ∀ f, p.1 = .going f → f.next = next) : (c.follow next p).1.Within k (Knows k) := by
  obtain ⟨progress, e'⟩ := p
  match progress with
  | .going followUp => exact (hp followUp rfl).symm ▸ hnext
  | .done (.ok _) => exact hnext
  | .done (.error _) => trivial

theorem ensemble_follow (next : Roster) (p : Progress FollowUp (Except Fault Unit) × Ensemble) :
    (c.follow next p).2 = p.2 := by
  obtain ⟨progress, e'⟩ := p
  cases progress <;> rfl

theorem deeds_submit (current : Roster)
    {p : Progress Submission (Except Fault Roster) × Ensemble} (h : Deeds k e p.2)
    (hp : p.1.Within k (Submission.Knows k)) :
    Deeds k e (c.submit current p).2 ∧ (c.submit current p).1.Within k (Knows k) := by
  obtain ⟨progress, e'⟩ := p
  match progress with
  | .going submission => exact ⟨h, hp⟩
  | .done (.error fault) => exact ⟨h.trans (Ensemble.touches_release k e' c.server), trivial⟩
  | .done (.ok next) =>
      have hstart := FollowUp.touches_start c.server current (show k.shows next.version from hp)
        (e'.adjust c.server .release)
      rw [submit, ensemble_follow]
      exact ⟨h.trans ((Ensemble.touches_release k e' c.server).trans hstart.1),
        c.within_follow hp hstart.2⟩

theorem deeds_step (he : e.Supports k) {c : Reconfiguration} (hc : c.Knows k)
    {p : Progress Reconfiguration (Except Fault Roster) × Ensemble} (h : c.step now e = some p) :
    Deeds k e p.2 ∧ p.1.Within k (Knows k) := by
  have hrefl := deeds_refl k e
  unfold step at h
  split at h
  · cases h
    exact ⟨hrefl, trivial⟩
  rename_i s hs
  unfold Knows at hc
  split at h <;> rename_i hstage <;> rw [hstage] at hc
  · split at h <;> cases h <;> exact ⟨hrefl, trivial⟩
  · cases h
    exact c.deeds_ask he _ hs
  · split at h <;> cases h
    exact ⟨hrefl, trivial⟩
  · cases h
    exact c.deeds_weigh hc _ s e
  · obtain ⟨q, hq, rfl⟩ := Option.map_eq_some_iff.1 h
    obtain ⟨hdeeds, hwithin⟩ := Submission.deeds_step he hc hq
    exact c.deeds_submit _ hdeeds hwithin
  · cases h
    rename_i followUp
    obtain ⟨hdeeds, hnext⟩ := FollowUp.deeds_step hc e
    rw [ensemble_follow]
    exact ⟨hdeeds, c.within_follow hc hnext⟩

end Reconfiguration

namespace Routed

def Knows (k : Scope) (c : Routed) : Prop :=
  match c.stage with
  | .direct call | .forwarded call => call.Knows k
  | .leaderless => True

theorem Knows.mono {c : Routed} (h : c.Knows k) (hpart : k.Part k') : c.Knows k' := by
  unfold Knows at h ⊢
  split at h
  · exact Reconfiguration.Knows.mono h hpart
  · exact Reconfiguration.Knows.mono h hpart
  · trivial

theorem within_forward (k : Scope) (c : Routed) (leader : ServerId) (e : Ensemble) :
    (c.forward leader e).Within k (Knows k) := by
  unfold forward
  split <;> trivial

theorem touches_conclude (c : Routed) {result : Except Fault Roster} (e : Ensemble)
    (hresult : ∀ r, result = .ok r → k.shows r.version) :
    Touches k e (c.conclude result e).2 ∧ (c.conclude result e).1.Within k (Knows k) := by
  unfold conclude
  cases result with
  | error fault => exact ⟨.refl, trivial⟩
  | ok r =>
      dsimp only
      split
      · exact ⟨.refl, trivial⟩
      · rename_i hobserves
        exact ⟨.single (.observe e c.session r.version (hresult r rfl) hobserves), hresult r rfl⟩

theorem touches_redirect (c : Routed) {result : Except Fault Roster} (e : Ensemble)
    (hresult : ∀ r, result = .ok r → k.shows r.version) :
    Touches k e (c.redirect result e).2 ∧ (c.redirect result e).1.Within k (Knows k) := by
  unfold redirect
  split
  · exact ⟨.refl, trivial⟩
  · split
    · exact ⟨.refl, c.within_forward k _ e⟩
    · exact c.touches_conclude e hresult
  · exact c.touches_conclude e hresult

/-- A step of a request, in a scope of what the request knows and the servers tell it. -/
theorem deeds_step (he : e.Supports k) {c : Routed} (hc : c.Knows k)
    {p : Progress Routed (Except Fault Roster) × Ensemble} (h : c.step now e = some p) :
    Deeds k e p.2 ∧ p.1.Within k (Knows k) := by
  have hresult {result : Except Fault Roster}
      (hwithin : Progress.Within k (Reconfiguration.Knows k) (.done result)) :
      ∀ r, result = .ok r → k.shows r.version := by
    rintro r rfl
    exact hwithin
  unfold Knows at hc
  unfold step at h
  split at h <;> rename_i hstage <;> rw [hstage] at hc
  · obtain ⟨⟨progress, e'⟩, hstep, rfl⟩ := Option.map_eq_some_iff.1 h
    obtain ⟨hdeeds, hwithin⟩ := Reconfiguration.deeds_step he hc hstep
    cases progress with
    | going call => exact ⟨hdeeds, hwithin⟩
    | done result =>
        obtain ⟨htouches, hredirect⟩ := c.touches_redirect e' (hresult hwithin)
        exact ⟨hdeeds.trans htouches, hredirect⟩
  · have helect := e.deeds_leaderOrElect k
    split at h <;> rename_i heq <;> rw [heq] at helect <;> cases h
    · exact ⟨helect, trivial⟩
    · exact ⟨helect, c.within_forward k _ _⟩
  · obtain ⟨⟨progress, e'⟩, hstep, rfl⟩ := Option.map_eq_some_iff.1 h
    obtain ⟨hdeeds, hwithin⟩ := Reconfiguration.deeds_step he hc hstep
    cases progress with
    | going call => exact ⟨hdeeds, hwithin⟩
    | done result =>
        obtain ⟨htouches, hconclude⟩ := c.touches_conclude e' (hresult hwithin)
        exact ⟨hdeeds.trans htouches, hconclude⟩

theorem knows_all (c : Routed) : c.Knows .all := by
  unfold Knows
  split
  · exact Reconfiguration.knows_all _
  · exact Reconfiguration.knows_all _
  · trivial

end Routed

namespace Reading

theorem touches_startConnected (k : Scope) (now : Nat) (e : Ensemble) (session : SessionId) :
    Touches k e (startConnected now e session).2 := by
  unfold startConnected
  cases e.sessions.get session with
  | error fault => exact .refl
  | ok connected =>
      dsimp only
      split
      · exact .refl
      · rename_i moved hmoved
        split at hmoved
        · cases hfailover : e.failover session with
          | error fault =>
              rw [hfailover] at hmoved
              cases hmoved
          | ok pair =>
              rw [hfailover] at hmoved
              cases hmoved
              exact Ensemble.touches_failover k hfailover
        · cases hmoved
          exact .refl

theorem touches_step (he : e.Supports k) {c : Reading} {p : Except Fault Roster × Ensemble}
    (h : c.step now e = some p) :
    Touches k e p.2 ∧ ∀ r, p.1 = .ok r → k.shows r.version := by
  obtain ⟨result, hwait, rfl⟩ := Option.map_eq_some_iff.1 h
  cases result with
  | error fault => exact ⟨.refl, fun r hr => by cases hr⟩
  | ok found =>
      have hfound : k.shows found.version := by
        unfold Wait.step at hwait
        split at hwait
        · cases hwait
        rename_i s hs
        split at hwait
        · cases hwait
          exact he.current c.wait.server s hs
        · split at hwait <;> cases hwait
      dsimp only
      split
      · exact ⟨.refl, fun r hr => by cases hr⟩
      · rename_i hobserves
        refine ⟨.single (.observe e c.session found.version hfound hobserves), fun r hr => ?_⟩
        cases hr
        exact hfound

end Reading

end Quorate
