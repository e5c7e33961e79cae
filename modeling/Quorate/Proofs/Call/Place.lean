import Quorate.Proofs.Call.Reconfiguration
import Quorate.Proofs.CommitLog.Keeps

/-!
# The place for a proposal in flight

A call claims the place of its server, keeps it while it makes and submits its candidate, and
gives it back on every way out. `Handles` says what that does to the places of the servers: a
call keeps them all as they are, takes the place of its own server while it is free, or gives it
back and settles. Every step is one of these (`handles_step`), and so is what is left of a call
that was given up (`handles_abandon`).

A waiting call has to hear of the next proposal that settles (`Informed`). What it has noted when
it looks at the place is never ahead of its server, and it waits only while the place is taken on
the version that it expects (`stage_step`).
-/

namespace Quorate

/-- The version on which a server has a proposal in flight, and how many have settled. -/
def Server.place (s : Server) : Option Version × Nat :=
  (s.inFlight, s.settled)

theorem Server.place_hear (s : Server) (outcome : Outcome) : (s.hear outcome).place = s.place :=
  rfl

theorem Server.place_learn (s : Server) (stamp : Stamp) (record : Record) :
    (s.learn stamp record).place = s.place := by
  unfold learn
  split <;> rfl

namespace Ensemble

/-- The place of a server, if it is there. -/
def place? (e : Ensemble) (id : ServerId) : Option (Option Version × Nat) :=
  (e.log.replica? id).map Server.place

theorem place?_of_server {e : Ensemble} {id : ServerId} {s : Server} (h : e.server id = .ok s) :
    e.place? id = some (s.inFlight, s.settled) := by
  rw [place?, server_eq_ok_iff.1 h]
  rfl

theorem exists_server_of_place? {e : Ensemble} {id : ServerId} {base : Option Version}
    {settled : Nat} (h : e.place? id = some (base, settled)) :
    ∃ s, e.server id = .ok s ∧ s.inFlight = base ∧ s.settled = settled := by
  obtain ⟨s, hs, hplace⟩ := Option.map_eq_some_iff.1 h
  cases hplace
  exact ⟨s, server_eq_ok_iff.2 hs, rfl, rfl⟩

theorem place?_adjust (e : Ensemble) (id j : ServerId) (f : Server → Server) :
    (e.adjust id f).place? j =
      if j = id then (e.log.replica? j).map fun s => (f s).place else e.place? j := by
  rw [place?, adjust, CommitLog.replica?_adjust, place?]
  split
  · rw [Option.map_map]
    rfl
  · rfl

/-- The places of all servers are the same. -/
abbrev KeepsPlaces (e e' : Ensemble) : Prop :=
  CommitLog.Keeps Server.place e.log e'.log

theorem keepsPlaces_refl (e : Ensemble) : e.KeepsPlaces e :=
  CommitLog.keeps_refl Server.place e.log

end Ensemble

open Ensemble (KeepsPlaces keepsPlaces_refl)

variable {e e' e'' : Ensemble} {now : Nat}

theorem FollowUp.keepsPlaces_start (server : ServerId) (prev next : Roster) (e : Ensemble) :
    e.KeepsPlaces (FollowUp.start server prev next e).2 := by
  have hmark : e.KeepsPlaces (e.adjust server fun s => { s with followed := next.version }) :=
    CommitLog.keeps_adjust e.log server fun _ => rfl
  unfold FollowUp.start
  split
  · exact keepsPlaces_refl e
  split
  · exact keepsPlaces_refl e
  dsimp only
  split
  · exact hmark
  split <;> exact hmark

theorem FollowUp.keepsPlaces_step (f : FollowUp) (e : Ensemble) :
    e.KeepsPlaces (f.step e).2 := by
  unfold FollowUp.step
  split
  · exact CommitLog.keeps_resign Server.place_hear e.log f.server
  · exact CommitLog.keeps_elect Server.place_hear e.log
  · exact CommitLog.keeps_establish Server.place_hear e.log f.server

theorem Submission.keepsPlaces_start (now : Nat) (e : Ensemble) (s : Server)
    (proposal : RosterProposal) : e.KeepsPlaces (Submission.start now e s proposal).2 := by
  have htake : e.KeepsPlaces e.takeTransit.2 := by
    unfold Ensemble.takeTransit
    split <;> exact keepsPlaces_refl e
  exact htake

theorem Submission.keepsPlaces_arrive (c : Submission) (now : Nat) (e : Ensemble) (s : Server)
    (passage : Passage) : e.KeepsPlaces (c.arrive now e s passage).2 := by
  have harrive : e.KeepsPlaces (e.arrive c.server (.reconfigure c.proposal) passage).2 := by
    cases passage with
    | forwarded =>
        exact CommitLog.keeps_propose Server.place_learn Server.place_hear e.log c.server _
    | timedOut => exact keepsPlaces_refl e
    | pending => exact keepsPlaces_refl e
    | answered stamp => exact keepsPlaces_refl e
    | refused fault => exact keepsPlaces_refl e
  unfold arrive
  dsimp only
  split <;> exact harrive

theorem Submission.keepsPlaces_step {c : Submission}
    {p : Progress Submission (Except Fault Roster) × Ensemble} (h : c.step now e = some p) :
    e.KeepsPlaces p.2 := by
  unfold step at h
  split at h
  · cases h
    exact keepsPlaces_refl e
  split at h
  · split at h
    · cases h
      exact c.keepsPlaces_arrive now e _ _
    · split at h <;> cases h
      exact keepsPlaces_refl e
  · split at h
    · cases h
      exact keepsPlaces_refl e
    · split at h <;> cases h
      exact keepsPlaces_refl e

/-- A submission goes on at its alarm. -/
theorem Submission.isSome_step (c : Submission) (hlate : c.alarm ≤ now) (e : Ensemble) :
    (c.step now e).isSome := by
  obtain ⟨server, proposal, stage⟩ := c
  unfold step
  split
  · rfl
  cases stage with
  | sending passage arrival deadline =>
      have hdue : min arrival deadline ≤ now := hlate
      dsimp only
      split
      · rfl
      · rw [if_pos (by omega)]
        rfl
  | landing stamp deadline =>
      have hdue : deadline ≤ now := hlate
      simp only [if_pos hdue]
      split <;> rfl

namespace Reconfiguration

variable {c : Reconfiguration} {s : Server}

/-- The roster that the call read as the current one when it claimed the place that it holds. -/
def held (c : Reconfiguration) : Option Roster :=
  match c.stage with
  | .weighing current _ _ | .submitting current _ => some current
  | _ => none

theorem isSome_held (c : Reconfiguration) : c.held.isSome = c.holds := by
  unfold held holds
  cases c.stage <;> rfl

/-- The roster that a call holds a place on, nothing once it has ended or was given up. -/
def heldBy : Option (Progress Reconfiguration (Except Fault Roster)) → Option Roster
  | some (.going c) => c.held
  | _ => none

theorem heldBy_eq_some_iff {progress : Option (Progress Reconfiguration (Except Fault Roster))}
    {r : Roster} :
    heldBy progress = some r ↔ ∃ c, progress = some (.going c) ∧ c.held = some r := by
  match progress with
  | none => simp [heldBy]
  | some (.done result) => simp [heldBy]
  | some (.going c) => simp [heldBy]

/-- What a call does to the places of the servers, with the rosters that it holds the place of
server `id` on before and after. -/
inductive Handles (id : ServerId) (before after : Option Roster) (e e' : Ensemble) : Prop
  | keeps (same : e.KeepsPlaces e') (held : after = before)
  | claims {settled : Nat} {current : Roster} (free : e.place? id = some (none, settled))
      (taken : e'.place? id = some (some current.version, settled))
      (others : ∀ j ≠ id, e'.place? j = e.place? j) (idle : before = none)
      (held : after = some current)
  | releases {slot : Option Version} {settled : Nat} (was : e.place? id = some (slot, settled))
      (own : before.isSome ∨ slot = none) (free : e'.place? id = some (none, settled + 1))
      (others : ∀ j ≠ id, e'.place? j = e.place? j) (gone : after = none)

section Places

variable {id : ServerId} {before after : Option Roster}

/-- Before a call handles its place the places may be read in a later ensemble, and afterwards in
a later one still. -/
theorem Handles.between {e₁ e₂ : Ensemble} (h : Handles id before after e₁ e₂)
    (hbefore : e.KeepsPlaces e₁) (hafter : e₂.KeepsPlaces e') : Handles id before after e e' := by
  have hfirst (j : ServerId) : e₁.place? j = e.place? j := hbefore j
  have hlast (j : ServerId) : e'.place? j = e₂.place? j := hafter j
  cases h with
  | keeps same held => exact .keeps ((hbefore.trans same).trans hafter) held
  | claims free taken others idle held =>
      refine .claims ((hfirst id).symm.trans free) ((hlast id).trans taken) (fun j hj => ?_)
        idle held
      rw [hlast, others j hj, hfirst]
  | releases was own free others gone =>
      refine .releases ((hfirst id).symm.trans was) own ((hlast id).trans free) (fun j hj => ?_)
        gone
      rw [hlast, others j hj, hfirst]

theorem handles_release (hs : e.server id = .ok s) (hown : before.isSome ∨ s.inFlight = none) :
    Handles id before none e (e.adjust id .release) := by
  refine .releases (Ensemble.place?_of_server hs) hown ?_ (fun j hj => ?_) rfl
  · rw [Ensemble.place?_adjust, if_pos rfl, Ensemble.server_eq_ok_iff.1 hs]
    rfl
  · rw [Ensemble.place?_adjust, if_neg hj]

theorem handles_claim (hs : e.server id = .ok s) (hfree : s.inFlight = none) (r : Roster) :
    Handles id none (some r) e (e.adjust id (·.claim r.version)) := by
  have hplace := Ensemble.place?_of_server hs
  rw [hfree] at hplace
  refine .claims hplace ?_ (fun j hj => ?_) rfl rfl
  · rw [Ensemble.place?_adjust, if_pos rfl, Ensemble.server_eq_ok_iff.1 hs]
    rfl
  · rw [Ensemble.place?_adjust, if_neg hj]

/-- A place that was claimed a moment ago is given back. -/
theorem handles_claim_release (hs : e.server id = .ok s) (hfree : s.inFlight = none)
    (base : Version) :
    Handles id none none e ((e.adjust id (·.claim base)).adjust id .release) := by
  refine .releases (Ensemble.place?_of_server hs) (Or.inr hfree) ?_ (fun j hj => ?_) rfl
  · rw [Ensemble.place?_adjust, if_pos rfl, Ensemble.adjust, CommitLog.replica?_adjust,
      if_pos rfl, Ensemble.server_eq_ok_iff.1 hs]
    rfl
  · rw [Ensemble.place?_adjust, if_neg hj, Ensemble.place?_adjust, if_neg hj]

end Places

theorem follow_eq (c : Reconfiguration) (next : Roster)
    (p : Progress FollowUp (Except Fault Unit) × Ensemble) :
    (c.follow next p).2 = p.2 ∧ heldBy (some (c.follow next p).1) = none := by
  obtain ⟨progress, e'⟩ := p
  cases progress <;> exact ⟨rfl, rfl⟩

theorem handles_ask (hs : e.server c.server = .ok s) (hidle : c.held = none) (ticket : Nat) :
    Handles c.server c.held (heldBy (some (c.ask ticket s e).1)) e (c.ask ticket s e).2 := by
  rw [hidle]
  unfold ask
  split
  · exact .keeps (keepsPlaces_refl e) rfl
  cases hplace : s.inFlight with
  | some base =>
      dsimp only
      split <;> exact .keeps (keepsPlaces_refl e) rfl
  | none =>
      dsimp only
      split
      · exact handles_claim_release hs hplace s.current.version
      · exact handles_claim hs hplace s.current

theorem handles_weigh (hs : e.server c.server = .ok s) {current : Roster}
    (hheld : c.held = some current) (now : Nat) (change : Change) (candidate : Roster) :
    Handles c.server c.held (heldBy (some (c.weigh now current change candidate s e).1)) e
      (c.weigh now current change candidate s e).2 := by
  unfold weigh
  dsimp only
  split
  · exact .keeps (Submission.keepsPlaces_start now e s
      ⟨current.version, floor current change, change.members⟩) hheld.symm
  · exact handles_release hs (Or.inl (hheld ▸ rfl))

/-- What a call makes of a step of its submission. -/
theorem handles_submit (hs : e.server c.server = .ok s) {current : Roster}
    (hheld : c.held = some current) {p : Progress Submission (Except Fault Roster) × Ensemble}
    (hp : e.KeepsPlaces p.2) :
    Handles c.server c.held (heldBy (some (c.submit current p).1)) e (c.submit current p).2 := by
  obtain ⟨progress, e'⟩ := p
  obtain ⟨t, ht, _⟩ := hp.exists_replica (Ensemble.server_eq_ok_iff.1 hs)
  have hrelease : Handles c.server c.held none e' (e'.adjust c.server .release) :=
    handles_release (Ensemble.server_eq_ok_iff.2 ht) (Or.inl (hheld ▸ rfl))
  match progress with
  | .going submission => exact .keeps hp hheld.symm
  | .done (.error fault) => exact hrelease.between hp (keepsPlaces_refl _)
  | .done (.ok next) =>
      obtain ⟨hensemble, hafter⟩ := c.follow_eq next
        (FollowUp.start c.server current next (e'.adjust c.server .release))
      rw [submit, hensemble, hafter]
      exact hrelease.between hp (FollowUp.keepsPlaces_start c.server current next _)

/-- Every step of a call keeps the places as they are, takes the place of its server while it is
free, or gives back what it holds. -/
theorem handles_step {p : Progress Reconfiguration (Except Fault Roster) × Ensemble}
    (hs : e.server c.server = .ok s) (h : c.step now e = some p) :
    Handles c.server c.held (heldBy (some p.1)) e p.2 := by
  obtain ⟨server, request, stage⟩ := c
  unfold step at h
  rw [hs] at h
  cases stage with
  | entering =>
      dsimp only at h
      split at h <;> cases h <;> exact .keeps (keepsPlaces_refl e) rfl
  | asking ticket =>
      cases h
      exact handles_ask hs rfl ticket
  | parked ticket =>
      dsimp only at h
      split at h <;> cases h
      exact .keeps (keepsPlaces_refl e) rfl
  | weighing current change candidate =>
      cases h
      exact handles_weigh hs rfl now change candidate
  | submitting current submission =>
      obtain ⟨q, hq, rfl⟩ := Option.map_eq_some_iff.1 h
      exact handles_submit hs rfl (Submission.keepsPlaces_step hq)
  | following followUp =>
      cases h
      obtain ⟨hensemble, hafter⟩ :=
        follow_eq ⟨server, request, .following followUp⟩ followUp.next (followUp.step e)
      rw [hensemble, hafter]
      exact .keeps (followUp.keepsPlaces_step e) rfl

/-- A call that is given up leaves no claim to the place behind. -/
theorem handles_abandon (hs : e.server c.server = .ok s) :
    Handles c.server c.held none e (c.abandon e) := by
  unfold abandon
  split
  · rename_i hholds
    exact handles_release hs (Or.inl (c.isSome_held.trans hholds))
  · rename_i hnot
    have hidle : c.held = none := by
      rw [← Option.not_isSome_iff_eq_none, isSome_held]
      exact hnot
    exact .keeps (keepsPlaces_refl e) hidle.symm

/-- What a call has noted to hear of the next proposal that settles on its server. -/
def Informed (c : Reconfiguration) (place : Option (Option Version × Nat)) : Prop :=
  match c.stage with
  | .asking ticket => ∃ slot settled, place = some (slot, settled) ∧ ticket ≤ settled
  | .parked ticket => ∃ slot settled, place = some (slot, settled) ∧
      (ticket < settled ∨ ticket = settled ∧ slot.isSome ∧ c.request.expected = slot)
  | _ => True

theorem stage_ask (hs : e.server c.server = .ok s) {ticket : Nat} {d : Reconfiguration}
    (h : c.ask ticket s e = (.going d, e')) :
    ∃ stage, d = { c with stage } ∧ (ticket ≤ s.settled → d.Informed (e'.place? c.server)) := by
  unfold ask at h
  split at h
  · cases h
  cases hplace : s.inFlight with
  | some base =>
      rw [hplace] at h
      dsimp only at h
      split at h <;> cases h
      rename_i hexpected
      refine ⟨_, rfl, fun hticket => ⟨some base, s.settled, ?_, ?_⟩⟩
      · rw [Ensemble.place?_of_server hs, hplace]
      · exact hticket.lt_or_eq.imp_right fun heq => ⟨heq, rfl, hexpected⟩
  | none =>
      rw [hplace] at h
      dsimp only at h
      split at h <;> cases h
      exact ⟨_, rfl, fun _ => trivial⟩

theorem stage_follow {next : Roster} {p : Progress FollowUp (Except Fault Unit) × Ensemble}
    {d : Reconfiguration} (h : c.follow next p = (.going d, e')) :
    ∃ followUp, d = { c with stage := .following followUp } := by
  obtain ⟨progress, e₁⟩ := p
  cases progress <;> cases h
  exact ⟨_, rfl⟩

/-- A call that goes on is the same but for its stage, and it stays informed. -/
theorem stage_step {d : Reconfiguration} (h : c.step now e = some (.going d, e')) :
    ∃ stage, d = { c with stage } ∧
      (c.Informed (e.place? c.server) → d.Informed (e'.place? c.server)) := by
  obtain ⟨server, request, stage⟩ := c
  unfold step at h
  cases hs : e.server server with
  | error fault =>
      rw [hs] at h
      cases h
  | ok s =>
  have hplace := Ensemble.place?_of_server hs
  have hasking : Informed ⟨server, request, .asking s.settled⟩ (e.place? server) :=
    ⟨s.inFlight, s.settled, hplace, Nat.le_refl _⟩
  rw [hs] at h
  cases stage with
  | entering =>
      dsimp only at h
      split at h <;> cases h
      exact ⟨_, rfl, fun _ => hasking⟩
  | asking ticket =>
      obtain ⟨stage, rfl, hinformed⟩ := stage_ask hs (Option.some.inj h)
      refine ⟨stage, rfl, fun ⟨_, _, hread, hticket⟩ => hinformed ?_⟩
      cases hplace.symm.trans hread
      exact hticket
  | parked ticket =>
      dsimp only at h
      split at h <;> cases h
      exact ⟨_, rfl, fun _ => hasking⟩
  | weighing current change candidate =>
      simp only [weigh, Option.some.injEq] at h
      split at h <;> cases h
      exact ⟨_, rfl, fun _ => trivial⟩
  | submitting current submission =>
      obtain ⟨⟨progress, e₁⟩, hq, h⟩ := Option.map_eq_some_iff.1 h
      match progress with
      | .going submission =>
          cases h
          exact ⟨_, rfl, fun _ => trivial⟩
      | .done (.error fault) => cases h
      | .done (.ok next) =>
          obtain ⟨followUp, rfl⟩ := stage_follow h
          exact ⟨_, rfl, fun _ => trivial⟩
  | following followUp =>
      obtain ⟨followUp, rfl⟩ := stage_follow (Option.some.inj h)
      exact ⟨_, rfl, fun _ => trivial⟩

/-- A call that waits goes back to ask as soon as a proposal has settled. -/
theorem step_of_settled {ticket : Nat} (hstage : c.stage = .parked ticket)
    (hs : e.server c.server = .ok s) (hsettled : ticket < s.settled) (now : Nat) :
    c.step now e = some (.going { c with stage := .asking s.settled }, e) := by
  simp [step, hs, hstage, hsettled]

/-- A call that holds a place goes on at its alarm, or at once if it has none, whatever has become
of the ensemble. -/
theorem isSome_step_of_held {current : Roster} (hheld : c.held = some current)
    (hlate : ∀ alarm, c.alarm = some alarm → alarm ≤ now) (e : Ensemble) :
    (c.step now e).isSome := by
  obtain ⟨server, request, stage⟩ := c
  unfold step
  split
  · rfl
  cases stage with
  | weighing _ _ _ => rfl
  | submitting _ submission =>
      exact Option.isSome_map.trans (submission.isSome_step (hlate _ rfl) e)
  | entering => cases hheld
  | asking _ => cases hheld
  | parked _ => cases hheld
  | following _ => cases hheld

end Reconfiguration

end Quorate
