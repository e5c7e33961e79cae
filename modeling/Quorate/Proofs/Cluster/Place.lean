import Mathlib.Logic.Relation
import Quorate.Proofs.Call.Place
import Quorate.Proofs.Cluster.Refusals

/-!
# The place for a proposal among concurrent calls

Whatever calls there are on the servers of an ensemble, and however their steps come between each
other and everything else (`Cluster.Happens`), a place that is taken is held by exactly one call
that has not ended, on the version of the roster that this call read, and a call that waits is
about to hear that a proposal has settled, or it waits for the one that holds the place
(`Cluster.place_disciplined`). So no call waits in vain: the holder of a place always goes on.

`Disciplined` is the invariant. What one call does is known from `Reconfiguration.Handles`, so the
invariant is kept by any step of any call, and by its being given up (`Disciplined.handled`).
Nothing is asked of the log, of the link or of what else happens, but that it leaves the places
alone; that is true of everything that a run can do beside the calls (`attainable_run`).
-/

namespace Quorate

namespace Ensemble

/-- The servers keep their places, and a server that appears has a free one. -/
structure Undisturbed (e e' : Ensemble) : Prop where
  same : ∀ id place, e.place? id = some place → e'.place? id = some place
  fresh : ∀ id slot settled, e.place? id = none → e'.place? id = some (slot, settled) → slot = none

variable {e e' : Ensemble}

theorem KeepsPlaces.undisturbed (h : e.KeepsPlaces e') : e.Undisturbed e' where
  same id _ hplace := (h id).trans hplace
  fresh id _ _ hnone hplace := nomatch hnone.symm.trans ((h id).symm.trans hplace)

theorem undisturbed_spawn (e : Ensemble) (id : ServerId) : e.Undisturbed (e.spawn id) := by
  unfold spawn
  cases hs : e.server id with
  | ok s => exact (keepsPlaces_refl e).undisturbed
  | error fault =>
      have hmissing := replica?_eq_none hs
      have hreplica (j : ServerId) : (e.install id).place? j =
          if id = j then some (none, 0) else e.place? j := by
        rw [place?, install, CommitLog.replica?_attach]
        split
        · exact congrArg some (CommitLog.feature_learnAll Server.place_learn e.log.entries
            (.ofSeed (e.template.forServer id) e.seed))
        · rfl
      constructor
      · intro j place hplace
        rw [hreplica, if_neg]
        · exact hplace
        · rintro rfl
          rw [place?, hmissing] at hplace
          cases hplace
      · intro j slot settled hnone hplace
        rw [hreplica] at hplace
        split at hplace
        · cases hplace
          rfl
        · cases hnone.symm.trans hplace

end Ensemble

namespace Reconfiguration

/-- A call stays informed as long as its server counts no proposal twice, and takes the place only
while it is free. -/
theorem Informed.later {c : Reconfiguration} {slot slot' : Option Version} {settled settled' : Nat}
    (h : c.Informed (some (slot, settled))) (hcount : settled ≤ settled')
    (hslot : slot = none ∨ settled < settled') : c.Informed (some (slot', settled')) := by
  unfold Informed at h ⊢
  split at h
  · obtain ⟨_, _, heq, hticket⟩ := h
    cases heq
    exact ⟨slot', settled', rfl, hticket.trans hcount⟩
  · obtain ⟨_, _, heq, hticket⟩ := h
    cases heq
    refine ⟨slot', settled', rfl, Or.inl ?_⟩
    rcases hticket with hlt | ⟨rfl, htaken, _⟩
    · exact hlt.trans_le hcount
    · rcases hslot with rfl | hlt
      · cases htaken
      · exact hlt
  · trivial

theorem Informed.same {c : Reconfiguration} {place place' : Option (Option Version × Nat)}
    (h : c.Informed place) (hsame : ∀ found, place = some found → place' = some found) :
    c.Informed place' := by
  unfold Informed at h ⊢
  split at h
  · obtain ⟨slot, settled, hplace, hticket⟩ := h
    exact ⟨slot, settled, hsame _ hplace, hticket⟩
  · obtain ⟨slot, settled, hplace, hticket⟩ := h
    exact ⟨slot, settled, hsame _ hplace, hticket⟩
  · trivial

/-- What a call does to the places leaves the other calls informed. -/
theorem Informed.handled {d : Reconfiguration} {e e' : Ensemble} {id : ServerId}
    {before after : Option Roster} (h : d.Informed (e.place? d.server))
    (hh : Handles id before after e e') : d.Informed (e'.place? d.server) := by
  cases hh with
  | keeps same _ => exact h.same fun place hplace => (same d.server).trans hplace
  | claims free taken others _ _ =>
      by_cases hserver : d.server = id
      · rw [hserver, free] at h
        rw [hserver, taken]
        exact h.later (Nat.le_refl _) (Or.inl rfl)
      · rw [others d.server hserver]
        exact h
  | releases was _ free others _ =>
      by_cases hserver : d.server = id
      · rw [hserver, was] at h
        rw [hserver, free]
        exact h.later (Nat.le_succ _) (Or.inr (Nat.lt_succ_self _))
      · rw [others d.server hserver]
        exact h

end Reconfiguration

namespace Cluster

open Reconfiguration (Handles heldBy heldBy_eq_some_iff)

/-- One thing happens: a server is called, a call takes a step or is given up, or something happens
beside the calls. What a call is said to have recorded does not matter. -/
inductive Happens : Cluster → Cluster → Prop
  | call (s : Cluster) (server : ServerId) (request : Request) :
      Happens s (s.perform (.call server request))
  | step (s : Cluster) (i now : Nat) {a : Attempt} {c : Reconfiguration}
      {p : Progress Reconfiguration (Except Fault Roster) × Ensemble}
      (live : s.call? i = some (a, c)) (steps : c.step now s.ensemble = some p)
      (recorded : List Nat) :
      Happens s ⟨p.2, s.calls.set i ⟨a.request, some p.1, recorded⟩⟩
  | abandon (s : Cluster) (i : Nat) : Happens s (s.abandon i)
  | outside (s : Cluster) {e : Ensemble} (undisturbed : s.ensemble.Undisturbed e) :
      Happens s { s with ensemble := e }

def Attainable (template : Settings) (seed : Roster) (s : Cluster) : Prop :=
  Relation.ReflTransGen Happens (initial template seed) s

/-- The call at place `i` of the list holds the place of a server, on the roster `r`. -/
def Holds (s : Cluster) (id : ServerId) (i : Nat) (r : Roster) : Prop :=
  ∃ c, s.progress? i = some (.going c) ∧ c.server = id ∧ c.held = some r

def Proposes (s : Cluster) (id : ServerId) (i : Nat) : Prop :=
  ∃ c current submission, s.progress? i = some (.going c) ∧ c.server = id ∧
    c.stage = .submitting current submission

/-- A place is held by one call on the version that is noted there, and by none if it is free. -/
def Owned (s : Cluster) (id : ServerId) : Option Version → Prop
  | none => ∀ i r, ¬ s.Holds id i r
  | some base => ∃ i r, r.version = base ∧ ∀ j r', s.Holds id j r' ↔ j = i ∧ r' = r

structure Disciplined (s : Cluster) : Prop where
  owned : ∀ id, s.Owned id ((s.ensemble.place? id).bind (·.1))
  informed : ∀ i c, s.progress? i = some (.going c) → c.Informed (s.ensemble.place? c.server)

variable {template : Settings} {seed : Roster} {s s' : Cluster} {id : ServerId} {i : Nat}
  {c : Reconfiguration} {e : Ensemble}

theorem holds_iff (hc : s.progress? i = some (.going c)) {r : Roster} :
    s.Holds id i r ↔ id = c.server ∧ c.held = some r := by
  constructor
  · rintro ⟨d, hd, rfl, hheld⟩
    cases hc.symm.trans hd
    exact ⟨rfl, hheld⟩
  · rintro ⟨rfl, hheld⟩
    exact ⟨c, hc, rfl, hheld⟩

theorem Owned.congr {base : Option Version} (h : s.Owned id base)
    (hsame : ∀ j r, s'.Holds id j r ↔ s.Holds id j r) : s'.Owned id base := by
  unfold Owned at h ⊢
  split at h
  · exact fun j r hholds => h j r ((hsame j r).1 hholds)
  · obtain ⟨j, r, hversion, hunique⟩ := h
    exact ⟨j, r, hversion, fun k r' => (hsame k r').trans (hunique k r')⟩

theorem Owned.unique {base : Option Version} (h : s.Owned id base) {j k : Nat} {r r' : Roster}
    (hj : s.Holds id j r) (hk : s.Holds id k r') : j = k := by
  unfold Owned at h
  split at h
  · exact absurd hj (h j r)
  · obtain ⟨m, _, _, hunique⟩ := h
    rw [((hunique j r).1 hj).1, ((hunique k r').1 hk).1]

theorem Owned.eq_version {base : Option Version} (h : s.Owned id base) {j : Nat} {r : Roster}
    (hj : s.Holds id j r) : base = some r.version := by
  unfold Owned at h
  split at h
  · exact absurd hj (h j r)
  · obtain ⟨_, _, rfl, hunique⟩ := h
    rw [((hunique j r).1 hj).2]

theorem disciplined_initial (template : Settings) (seed : Roster) :
    (initial template seed).Disciplined where
  owned id := by
    rintro j r ⟨c, hc, _⟩
    simp [progress?, initial] at hc
  informed j c hc := by simp [progress?, initial] at hc

theorem Disciplined.undisturbed (h : s.Disciplined) (he : s.ensemble.Undisturbed e) :
    ({ s with ensemble := e } : Cluster).Disciplined where
  owned id := by
    have howned := h.owned id
    cases hplace : s.ensemble.place? id with
    | some place =>
        rw [hplace] at howned
        exact (he.same id place hplace).symm ▸ howned
    | none =>
        rw [hplace] at howned
        change Owned _ id ((e.place? id).bind (·.1))
        cases hplace' : e.place? id with
        | none => exact howned
        | some place =>
            have hfree : place.1 = none := he.fresh id place.1 place.2 hplace hplace'
            exact show Owned _ id place.1 from hfree.symm ▸ howned
  informed j c hc := (h.informed j c hc).same (he.same c.server)

theorem progress?_call {server : ServerId} {request : Request} {j : Nat}
    {progress : Progress Reconfiguration (Except Fault Roster)}
    (h : (s.perform (.call server request)).progress? j = some progress) :
    s.progress? j = some progress ∨ progress = .going (.start server request) := by
  rw [progress?, perform, List.getElem?_append] at h
  split at h
  · exact Or.inl h
  · obtain ⟨a, ha, hprogress⟩ := Option.bind_eq_some_iff.1 h
    cases List.mem_singleton.1 (List.mem_of_getElem? ha)
    cases hprogress
    exact Or.inr rfl

theorem progress?_call_of_some {server : ServerId} {request : Request} {j : Nat}
    {progress : Progress Reconfiguration (Except Fault Roster)}
    (h : s.progress? j = some progress) :
    (s.perform (.call server request)).progress? j = some progress := by
  obtain ⟨a, ha, hprogress⟩ := Option.bind_eq_some_iff.1 h
  have hlt := (List.getElem?_eq_some_iff.1 ha).1
  rw [progress?, perform, List.getElem?_append_left hlt]
  exact h

theorem Disciplined.call (h : s.Disciplined) (server : ServerId) (request : Request) :
    (s.perform (.call server request)).Disciplined where
  owned id := by
    refine (h.owned id).congr fun j r => ⟨?_, ?_⟩
    · rintro ⟨c, hc, hserver, hheld⟩
      rcases progress?_call hc with hold | hnew
      · exact ⟨c, hold, hserver, hheld⟩
      · cases hnew
        cases hheld
    · rintro ⟨c, hc, hserver, hheld⟩
      exact ⟨c, progress?_call_of_some hc, hserver, hheld⟩
  informed j c hc := by
    rcases progress?_call hc with hold | hnew
    · exact h.informed j c hold
    · cases hnew
      trivial

section Handled

variable {progress : Option (Progress Reconfiguration (Except Fault Roster))}
  (hc : s.progress? i = some (.going c))
  (hcalls : ∀ j, s'.progress? j = if j = i then progress else s.progress? j)
  (hgoing : ∀ d, progress = some (.going d) → d.server = c.server)

include hcalls hgoing

/-- Which calls hold which places, after one call has gone on. -/
theorem holds_handled_iff {j : Nat} {r : Roster} :
    s'.Holds id j r ↔
      if j = i then id = c.server ∧ heldBy progress = some r else s.Holds id j r := by
  rw [Holds, hcalls]
  split
  · rw [heldBy_eq_some_iff]
    constructor
    · rintro ⟨d, hd, rfl, hheld⟩
      exact ⟨hgoing d hd, d, hd, hheld⟩
    · rintro ⟨rfl, d, hd, hheld⟩
      exact ⟨d, hd, hgoing d hd, hheld⟩
  · exact Iff.rfl

include hc

/-- A call that holds what it held before, or is on another server, leaves a place as it was. -/
theorem holds_handled_congr (h : id = c.server → heldBy progress = c.held) (j : Nat) (r : Roster) :
    s'.Holds id j r ↔ s.Holds id j r := by
  rw [holds_handled_iff hcalls hgoing]
  split
  · rename_i hj
    rw [hj, holds_iff hc]
    exact and_congr_right fun hid => by rw [h hid]
  · exact Iff.rfl

theorem Owned.handled (h : ∀ id, s.Owned id ((s.ensemble.place? id).bind (·.1)))
    (hh : Handles c.server c.held (heldBy progress) s.ensemble s'.ensemble) (id : ServerId) :
    s'.Owned id ((s'.ensemble.place? id).bind (·.1)) := by
  have hothers (hne : id ≠ c.server)
      (hplaces : ∀ j ≠ c.server, s'.ensemble.place? j = s.ensemble.place? j) :
      s'.Owned id ((s'.ensemble.place? id).bind (·.1)) := by
    rw [hplaces id hne]
    exact (h id).congr (holds_handled_congr hc hcalls hgoing fun heq => absurd heq hne)
  by_cases hid : id = c.server
  swap
  · cases hh with
    | keeps same _ => exact hothers hid fun j _ => same j
    | claims _ _ others _ _ => exact hothers hid others
    | releases _ _ _ others _ => exact hothers hid others
  subst hid
  have howned := h c.server
  cases hh with
  | keeps same held =>
      rw [show s'.ensemble.place? c.server = s.ensemble.place? c.server from same c.server]
      exact howned.congr (holds_handled_congr hc hcalls hgoing fun _ => held)
  | @claims settled current free taken others idle held =>
      rw [free] at howned
      rw [taken]
      refine ⟨i, current, rfl, fun j r => ?_⟩
      rw [holds_handled_iff hcalls hgoing, held]
      split
      · rename_i hj
        simp [hj, eq_comm]
      · rename_i hj
        exact iff_of_false (howned j r) fun h => hj h.1
  | @releases slot settled was own free others gone =>
      rw [was] at howned
      rw [free]
      intro j r hholds
      rw [holds_handled_iff hcalls hgoing, gone] at hholds
      split at hholds
      · cases hholds.2
      · rename_i hj
        rcases own with hsome | rfl
        · obtain ⟨current, hheld⟩ := Option.isSome_iff_exists.1 hsome
          exact hj (howned.unique hholds ((holds_iff hc).2 ⟨rfl, hheld⟩))
        · exact howned j r hholds

end Handled

/-- A call that goes on, ends or is given up keeps the discipline. -/
theorem Disciplined.handled (h : s.Disciplined) (hc : s.progress? i = some (.going c))
    {progress : Option (Progress Reconfiguration (Except Fault Roster))}
    (hcalls : ∀ j, s'.progress? j = if j = i then progress else s.progress? j)
    (hh : Handles c.server c.held (heldBy progress) s.ensemble s'.ensemble)
    (hgoing : ∀ d, progress = some (.going d) →
      d.server = c.server ∧ d.Informed (s'.ensemble.place? c.server)) : s'.Disciplined where
  owned := Owned.handled hc hcalls (fun d hd => (hgoing d hd).1) h.owned hh
  informed j d hd := by
    rw [hcalls] at hd
    split at hd
    · obtain ⟨hserver, hinformed⟩ := hgoing d hd
      exact hserver ▸ hinformed
    · exact (h.informed j d hd).handled hh

/-- Nobody holds a place of a server that is not there. -/
theorem Disciplined.held_of_missing (h : s.Disciplined) (hc : s.progress? i = some (.going c))
    {fault : Fault} (hs : s.ensemble.server c.server = .error fault) : c.held = none := by
  have hmissing : s.ensemble.place? c.server = none := by
    rw [Option.eq_none_iff_forall_not_mem]
    rintro ⟨slot, settled⟩ hplace
    obtain ⟨t, ht, _⟩ := Ensemble.exists_server_of_place? hplace
    cases hs.symm.trans ht
  have howned := h.owned c.server
  rw [hmissing] at howned
  rw [Option.eq_none_iff_forall_not_mem]
  exact fun r hheld => howned i r ((holds_iff hc).2 ⟨rfl, hheld⟩)

theorem Disciplined.step (h : s.Disciplined) (hc : s.progress? i = some (.going c)) {now : Nat}
    {p : Progress Reconfiguration (Except Fault Roster) × Ensemble}
    (hp : c.step now s.ensemble = some p)
    (hcalls : ∀ j, s'.progress? j = if j = i then some p.1 else s.progress? j)
    (hensemble : s'.ensemble = p.2) : s'.Disciplined := by
  obtain ⟨progress, e⟩ := p
  cases hensemble
  cases hs : s.ensemble.server c.server with
  | error fault =>
      have hidle := h.held_of_missing hc hs
      simp only [Reconfiguration.step, hs, Option.some.injEq, Prod.mk.injEq] at hp
      obtain ⟨rfl, heq⟩ := hp
      refine h.handled hc hcalls (.keeps ?_ hidle.symm) fun d hd => by cases hd
      exact heq ▸ Ensemble.keepsPlaces_refl s.ensemble
  | ok t =>
      refine h.handled hc hcalls (Reconfiguration.handles_step hs hp) fun d hd => ?_
      cases hd
      obtain ⟨stage, rfl, hinformed⟩ := Reconfiguration.stage_step hp
      exact ⟨rfl, hinformed (h.informed i c hc)⟩

theorem Disciplined.abandon (h : s.Disciplined) (i : Nat) : (s.abandon i).Disciplined := by
  cases hcall : s.call? i with
  | none =>
      rw [Cluster.abandon, hcall]
      exact h
  | some pair =>
      obtain ⟨a, c⟩ := pair
      have hc := exists_call?_iff.1 ⟨a, hcall⟩
      rw [Cluster.abandon, hcall]
      refine h.handled hc (fun j => progress?_record (call?_eq_some_iff.1 hcall).1 none _) ?_
        fun d hd => by cases hd
      change Handles c.server c.held none s.ensemble (c.abandon s.ensemble)
      cases hs : s.ensemble.server c.server with
      | ok t => exact Reconfiguration.handles_abandon hs
      | error fault =>
          have hidle := h.held_of_missing hc hs
          have hnot : c.holds = false := by rw [← c.isSome_held, hidle]; rfl
          rw [Reconfiguration.abandon, hnot]
          exact .keeps (Ensemble.keepsPlaces_refl s.ensemble) hidle.symm

theorem progress?_set {a b : Attempt} (ha : s.calls[i]? = some a) (e : Ensemble) (j : Nat) :
    (⟨e, s.calls.set i b⟩ : Cluster).progress? j =
      if j = i then b.progress else s.progress? j := by
  have hlt := (List.getElem?_eq_some_iff.1 ha).1
  rw [progress?, List.getElem?_set]
  by_cases hj : j = i
  · simp [hj, hlt]
  · rw [if_neg (Ne.symm hj), if_neg hj]
    rfl

theorem Happens.disciplined (h : Happens s s') (hs : s.Disciplined) : s'.Disciplined := by
  cases h with
  | call server request => exact hs.call server request
  | step i now live steps recorded =>
      exact hs.step (exists_call?_iff.1 ⟨_, live⟩) steps
        (progress?_set (call?_eq_some_iff.1 live).1 _) rfl
  | abandon i => exact hs.abandon i
  | outside undisturbed => exact hs.undisturbed undisturbed

theorem Attainable.disciplined (h : s.Attainable template seed) : s.Disciplined := by
  induction h with
  | refl => exact disciplined_initial template seed
  | tail _ hlast ih => exact hlast.disciplined ih

section Runs

theorem happens_advance (s : Cluster) (i now : Nat) :
    Relation.ReflTransGen Happens s (s.advance i now) := by
  cases hcall : s.call? i with
  | none =>
      rw [advance, hcall]
  | some pair =>
      obtain ⟨a, c⟩ := pair
      cases hstep : c.step now s.ensemble with
      | none => rw [advance_of_none hcall hstep]
      | some p =>
          rw [advance_of_step hcall hstep]
          exact .single (Happens.step s i now hcall hstep _)

theorem happens_perform (s : Cluster) (action : Action) :
    Relation.ReflTransGen Happens s (s.perform action) := by
  have houtside {e : Ensemble} (h : s.ensemble.Undisturbed e) :
      Relation.ReflTransGen Happens s { s with ensemble := e } := .single (.outside s h)
  cases action with
  | spawn id => exact houtside (Ensemble.undisturbed_spawn s.ensemble id)
  | stop id =>
      refine houtside (Ensemble.KeepsPlaces.undisturbed ?_)
      unfold Ensemble.stop
      split
      · exact Ensemble.keepsPlaces_refl s.ensemble
      · exact CommitLog.keeps_stop Server.place_hear s.ensemble.log id
  | start id =>
      exact houtside (e := { s.ensemble with log := _ }) (Ensemble.KeepsPlaces.undisturbed
        (CommitLog.keeps_start Server.place_learn s.ensemble.log id))
  | elect =>
      exact houtside (Ensemble.KeepsPlaces.undisturbed
        (CommitLog.keeps_elect Server.place_hear s.ensemble.log))
  | resign leader =>
      exact houtside (e := { s.ensemble with log := _ }) (Ensemble.KeepsPlaces.undisturbed
        (CommitLog.keeps_resign Server.place_hear s.ensemble.log leader))
  | establish leader =>
      exact houtside (e := { s.ensemble with log := _ }) (Ensemble.KeepsPlaces.undisturbed
        (CommitLog.keeps_establish Server.place_hear s.ensemble.log leader))
  | write sender record _ =>
      exact houtside (e := { s.ensemble with log := _ }) (Ensemble.KeepsPlaces.undisturbed
        (CommitLog.keeps_propose Server.place_learn Server.place_hear s.ensemble.log sender record))
  | relink link _ =>
      exact houtside (Ensemble.KeepsPlaces.undisturbed (CommitLog.keeps_refl _ _))
  | clients sessions serial =>
      exact houtside (Ensemble.KeepsPlaces.undisturbed (CommitLog.keeps_refl _ _))
  | call server request => exact .single (.call s server request)
  | advance place now => exact happens_advance s place now
  | abandon place => exact .single (.abandon s place)

theorem attainable_run (template : Settings) (seed : Roster) (actions : List Action) :
    (run template seed actions).Attainable template seed := by
  induction actions using List.reverseRecOn with
  | nil => exact .refl
  | append_singleton actions action ih =>
      rw [run_concat]
      exact ih.trans (happens_perform _ action)

end Runs

theorem Proposes.holds (h : s.Proposes id i) : ∃ r, s.Holds id i r := by
  obtain ⟨c, current, submission, hc, hserver, hstage⟩ := h
  exact ⟨current, c, hc, hserver, by rw [Reconfiguration.held, hstage]⟩

theorem Owned.eq_some_iff {slot : Option Version} (h : s.Owned id slot) (base : Version) :
    slot = some base ↔ ∃! i, ∃ r, s.Holds id i r ∧ r.version = base := by
  constructor
  · rintro rfl
    obtain ⟨i, r, hversion, hunique⟩ := h
    refine ⟨i, ⟨r, (hunique i r).2 ⟨rfl, rfl⟩, hversion⟩, ?_⟩
    rintro j ⟨r', hholds, _⟩
    exact ((hunique j r').1 hholds).1
  · rintro ⟨i, ⟨r, hholds, rfl⟩, _⟩
    exact h.eq_version hholds

/-- A call that waits is about to go on, or it waits for the call that holds the place. -/
theorem Disciplined.of_parked (h : s.Disciplined) (hc : s.progress? i = some (.going c))
    {ticket : Nat} (hstage : c.stage = .parked ticket) {t : Server}
    (ht : s.ensemble.server c.server = .ok t) :
    ticket < t.settled ∨ ∃ j r, s.Holds c.server j r ∧ c.request.expected = some r.version ∧
      t.inFlight = some r.version := by
  have hinformed := h.informed i c hc
  have howned := h.owned c.server
  rw [Ensemble.place?_of_server ht] at hinformed howned
  change s.Owned c.server t.inFlight at howned
  rw [Reconfiguration.Informed, hstage] at hinformed
  obtain ⟨_, _, heq, hticket⟩ := hinformed
  cases heq
  refine hticket.imp_right fun ⟨_, htaken, hexpected⟩ => ?_
  obtain ⟨base, hbase⟩ := Option.isSome_iff_exists.1 htaken
  obtain ⟨j, ⟨r, hholds, rfl⟩, _⟩ := (howned.eq_some_iff base).1 hbase
  exact ⟨j, r, hholds, hexpected.trans hbase, hbase⟩

/-- The place of a server is taken on a version exactly if one call that has not ended holds it, on
a roster of that version, and never does more than one call hold it or wait for the answer to a
proposal. A call that is parked while the place is free is about to go on, as it is whenever a
proposal has settled since it looked. Otherwise it waits for another call, which holds the place on
the version that it expects, and that one goes on in time. -/
theorem place_disciplined (h : s.Attainable template seed) {t : Server}
    (ht : s.ensemble.server id = .ok t) :
    (∀ base, t.inFlight = some base ↔ ∃! i, ∃ r, s.Holds id i r ∧ r.version = base) ∧
    (∀ i j r r', s.Holds id i r → s.Holds id j r' → i = j) ∧
    (∀ i j, s.Proposes id i → s.Proposes id j → i = j) ∧
    ∀ i c ticket, s.progress? i = some (.going c) → c.server = id → c.stage = .parked ticket →
      (t.inFlight = none → ticket < t.settled) ∧
      (ticket < t.settled → ∀ now, c.step now s.ensemble =
        some (.going { c with stage := .asking t.settled }, s.ensemble)) ∧
      (¬ ticket < t.settled → ∃ j d r, j ≠ i ∧ s.progress? j = some (.going d) ∧
        d.server = id ∧ d.held = some r ∧ c.request.expected = some r.version ∧
        ∃ due, ∀ now ≥ due, (d.step now s.ensemble).isSome) := by
  have hs := h.disciplined
  have howned := hs.owned id
  rw [Ensemble.place?_of_server ht] at howned
  change s.Owned id t.inFlight at howned
  refine ⟨howned.eq_some_iff, fun i j r r' => howned.unique, ?_, ?_⟩
  · intro i j hi hj
    obtain ⟨r, hholds⟩ := hi.holds
    obtain ⟨r', hholds'⟩ := hj.holds
    exact howned.unique hholds hholds'
  · rintro i c ticket hc rfl hstage
    have hparked := hs.of_parked hc hstage ht
    refine ⟨fun hfree => ?_, Reconfiguration.step_of_settled hstage ht, fun hnot => ?_⟩
    · rcases hparked with hlt | ⟨_, _, _, _, htaken⟩
      · exact hlt
      · cases hfree.symm.trans htaken
    · obtain ⟨j, r, ⟨d, hd, hserver, hheld⟩, hexpected, _⟩ := hparked.resolve_left hnot
      refine ⟨j, d, r, ?_, hd, hserver, hheld, hexpected, d.alarm.getD 0, fun now hnow => ?_⟩
      · rintro rfl
        cases hc.symm.trans hd
        rw [Reconfiguration.held, hstage] at hheld
        cases hheld
      · refine Reconfiguration.isSome_step_of_held hheld (fun alarm halarm => ?_) s.ensemble
        rw [halarm] at hnow
        exact hnow

/-- Two requests that expect the first version. The first one holds the place of server 3 while its
proposal is on its way, and the second one waits for it. -/
def pendingRun : List Action :=
  settledRun.take 12

/-- In the pending run the first call holds the place, and the second one waits for that call. -/
theorem place_disciplined_pendingRun :
    ∃ t, (run {} .trio pendingRun).ensemble.server 3 = .ok t ∧
      (∃! i, ∃ r, (run {} .trio pendingRun).Holds 3 i r ∧ r.version = .zero) ∧
      ∃ j d r, j ≠ 1 ∧ (run {} .trio pendingRun).progress? j = some (.going d) ∧
        d.server = 3 ∧ d.held = some r ∧ some .zero = some r.version ∧
        ∃ due, ∀ now ≥ due, (d.step now (run {} .trio pendingRun).ensemble).isSome := by
  have hserver : ((run {} .trio pendingRun).ensemble.server 3).map (fun t => t.place) =
      .ok (some .zero, 0) := by decide +kernel
  have hparked : (run {} .trio pendingRun).progress? 1 =
      some (.going ⟨3, ⟨.incremental [] [2], some .zero⟩, .parked 0⟩) := by decide +kernel
  obtain ⟨t, ht, hplace⟩ := map_eq_ok_iff.1 hserver
  have hslot : t.inFlight = some .zero := congrArg Prod.fst hplace
  have hsettled : t.settled = 0 := congrArg Prod.snd hplace
  obtain ⟨htaken, _, _, hwaits⟩ := place_disciplined (attainable_run {} .trio pendingRun) ht
  refine ⟨t, ht, (htaken .zero).1 hslot, ?_⟩
  exact (hwaits 1 _ 0 hparked rfl rfl).2.2 (by rw [hsettled]; exact Nat.lt_irrefl 0)

end Cluster

end Quorate
