import Quorate.Proofs.Call.Ends

/-!
# What a reconfiguration leaves behind

A request that fails leaves the committed log, the roster in effect and the view of every
server as they were (`Ends.unmoved`); at most the leader is lost. However it ends, the
ensemble is at rest again, with the place for a proposal given back (`Ends.calm`), as long
as the epoch has not been counted to its end.
-/

namespace Quorate

namespace Ensemble

/-- What is committed, and what every server made of it, is as it was. -/
structure Unmoved (e e' : Ensemble) : Prop where
  entries : e'.log.entries = e.log.entries
  roster : e'.log.roster = e.log.roster
  views : CommitLog.Keeps Server.view e.log e'.log

variable {seed : Roster} {e e' e'' : Ensemble} {id : ServerId} {s : Server}

theorem unmoved_refl (e : Ensemble) : e.Unmoved e :=
  ⟨rfl, rfl, CommitLog.keeps_refl _ _⟩

theorem Unmoved.trans (h : e.Unmoved e') (h' : e'.Unmoved e'') : e.Unmoved e'' :=
  ⟨h'.entries.trans h.entries, h'.roster.trans h.roster, h.views.trans h'.views⟩

theorem unmoved_adjust (e : Ensemble) (id : ServerId) {f : Server → Server}
    (hview : ∀ s, (f s).view = s.view) : e.Unmoved (e.adjust id f) :=
  ⟨rfl, rfl, CommitLog.keeps_adjust e.log id hview⟩

theorem unmoved_claimed (e : Ensemble) (id : ServerId) (s : Server) :
    e.Unmoved (e.claimed id s) :=
  unmoved_adjust e id fun _ => rfl

theorem unmoved_released (e : Ensemble) (id : ServerId) : e.Unmoved (e.released id) :=
  unmoved_adjust e id fun _ => rfl

theorem unmoved_deposed (e : Ensemble) : e.Unmoved e.deposed :=
  ⟨rfl, rfl, CommitLog.keeps_unled Server.view_hear e.log⟩

/-- Once the place is given back, no server is busy, whatever the log did meanwhile. -/
theorem Calm.idle_released (h : e.Calm seed) {log : CommitLog Server}
    (hk : CommitLog.Keeps Server.marks (e.claimed id s).log log) :
    ∀ j t, (log.adjust id .release).replica? j = some t →
      t.settings = e.template.forServer j ∧ t.inFlight = none := by
  have hbusy : ∀ j t, (e.claimed id s).log.replica? j = some t →
      t.settings = e.template.forServer j ∧ (j ≠ id → t.inFlight = none) := by
    intro j t ht
    rw [claimed, Ensemble.adjust, CommitLog.replica?_adjust] at ht
    split at ht
    · rename_i hj
      obtain ⟨u, hu, rfl⟩ := Option.map_eq_some_iff.1 ht
      exact ⟨(h.idle j u hu).1, fun hne => absurd hj hne⟩
    · exact ⟨(h.idle j t ht).1, fun _ => (h.idle j t ht).2⟩
  have hkept := hk.all
    (P := fun j m => m.1 = e.template.forServer j ∧ (j ≠ id → m.2.1 = none)) hbusy
  intro j t ht
  rw [CommitLog.replica?_adjust] at ht
  split at ht
  · obtain ⟨u, hu, rfl⟩ := Option.map_eq_some_iff.1 ht
    exact ⟨(hkept j u hu).1, rfl⟩
  · rename_i hj
    exact ⟨(hkept j t ht).1, (hkept j t ht).2 hj⟩

/-- An ensemble that was calm is so again once a call has given the place back. -/
theorem Calm.released (h : e.Calm seed) {log : CommitLog Server} (ht : log.Tracked seed)
    (hord : log.Ordered)
    (hstays : ∀ id, e.log.attached.contains id = true → log.attached.contains id = true)
    (hk : CommitLog.Keeps Server.marks (e.claimed id s).log log) :
    (Ensemble.released { e with log } id).Calm seed := by
  have hstill := still_release seed { e with log } id
  refine h.log (hstill.log.tracked ht) (hord.still rfl rfl rfl) (fun j hj => ?_)
    (h.idle_released hk)
  exact hstill.log.stays j (hstays j hj)

theorem Calm.marked (h : e.Calm seed) (id : ServerId) (version : Version) :
    (e.adjust id fun s => { s with followed := version }).Calm seed := by
  have hstill := still_adjust seed e id (f := fun s => { s with followed := version })
    (fun _ => rfl) fun _ => rfl
  refine h.log (hstill.log.tracked h.tracked) (h.ordered.still rfl rfl rfl) hstill.log.stays ?_
  intro j t ht
  rw [CommitLog.replica?_adjust] at ht
  split at ht
  · obtain ⟨u, hu, rfl⟩ := Option.map_eq_some_iff.1 ht
    exact h.idle j u hu
  · exact h.idle j t ht

theorem Calm.resign (h : e.Calm seed) (leader : ServerId) :
    { e with log := e.log.resign leader }.Calm seed :=
  h.onward (CommitLog.onward_resign seed e.log leader) (h.ordered.resign leader)
    (CommitLog.keeps_resign Server.marks_hear e.log leader)

theorem Calm.establish (h : e.Calm seed) {leader : ServerId}
    (hepoch : (e.log.establish leader).2.epoch ≠ 0xFFFFFFFF) :
    { e with log := (e.log.establish leader).2 }.Calm seed :=
  h.onward (CommitLog.onward_establish seed e.log leader) (h.ordered.establish hepoch)
    (CommitLog.keeps_establish Server.marks_hear e.log leader)

theorem Calm.elect (h : e.Calm seed) (hepoch : e.log.elect.2.epoch ≠ 0xFFFFFFFF) :
    e.elect.2.Calm seed :=
  h.onward (CommitLog.onward_elect seed e.log) (h.ordered.elect hepoch)
    (CommitLog.keeps_elect Server.marks_hear e.log)

theorem Calm.complete (h : e.Calm seed) (hs : e.server id = .ok s) (prev next : Roster)
    (hepoch : (FollowUp.complete id prev next e).log.epoch ≠ 0xFFFFFFFF) :
    (FollowUp.complete id prev next e).Calm seed := by
  have hmarked := h.marked id next.version
  unfold FollowUp.complete at hepoch ⊢
  rw [hs] at hepoch ⊢
  dsimp only at hepoch ⊢
  split
  · exact h
  rename_i hnew
  rw [if_neg hnew] at hepoch
  split
  · rename_i hgone
    rw [if_pos hgone] at hepoch
    exact ((hmarked.resign id).elect hepoch).push next
  rename_i hstays
  rw [if_neg hstays] at hepoch
  split
  · rename_i hchanged
    rw [if_pos hchanged] at hepoch
    exact (hmarked.establish hepoch).push next
  · exact hmarked.push next

end Ensemble

namespace Reconfiguration

variable {seed : Roster} {e e' : Ensemble} {id : ServerId} {s : Server} {request : Request}

theorem Ends.unmoved {fault : Fault} (h : Ends e id s request (.error fault) e') :
    e.Unmoved e' := by
  have hclaimed := Ensemble.unmoved_claimed e id s
  cases h with
  | disabled _ => exact Ensemble.unmoved_refl e
  | following _ _ => exact Ensemble.unmoved_refl e
  | refused _ _ _ _ => exact hclaimed.trans (Ensemble.unmoved_released _ id)
  | unsynced _ _ _ _ _ _ _ => exact hclaimed.trans (Ensemble.unmoved_released _ id)
  | unacknowledged _ _ _ _ _ _ _ _ =>
      exact (hclaimed.trans (Ensemble.unmoved_deposed _)).trans (Ensemble.unmoved_released _ id)

theorem sessions_complete (id : ServerId) (prev next : Roster) (e : Ensemble) :
    (FollowUp.complete id prev next e).sessions = e.sessions ∨
      (FollowUp.complete id prev next e).sessions = e.sessions.push next := by
  unfold FollowUp.complete
  split
  · exact Or.inl rfl
  · dsimp only
    split
    · exact Or.inl rfl
    · refine Or.inr ?_
      split
      · rfl
      · split <;> rfl

/-- Following a roster up commits nothing. -/
theorem committed_complete (id : ServerId) (prev next : Roster) (e : Ensemble) :
    (FollowUp.complete id prev next e).log.entries = e.log.entries ∧
      (FollowUp.complete id prev next e).log.roster = e.log.roster := by
  unfold FollowUp.complete
  split
  · exact ⟨rfl, rfl⟩
  · dsimp only
    generalize hmarked : e.adjust id (fun s => { s with followed := next.version }) = marked
    have hlog : marked.log.entries = e.log.entries ∧ marked.log.roster = e.log.roster :=
      hmarked ▸ ⟨rfl, rfl⟩
    split
    · exact ⟨rfl, rfl⟩
    split
    · have hresign := CommitLog.entries_resign marked.log id
      have helect := CommitLog.entries_elect (marked.log.resign id)
      exact ⟨(helect.trans hresign).trans hlog.1,
        (((CommitLog.turn_elect _).roster_eq helect).trans
          ((CommitLog.turn_resign marked.log id).roster_eq hresign)).trans hlog.2⟩
    split
    · have hestablish := CommitLog.entries_establish marked.log id
      exact ⟨hestablish.trans hlog.1,
        ((CommitLog.turn_establish marked.log id).roster_eq hestablish).trans hlog.2⟩
    · exact hlog

theorem roster_committed {p : RosterProposal} {next : Roster}
    (hnext : (Record.reconfigure p).successor? e.log.roster e.log.nextStamp = some next) :
    (((e.claimed id s).committed id p).released id).log.roster = next := by
  change (Record.successor? _ e.log.roster e.log.nextStamp).getD e.log.roster = next
  rw [hnext]
  rfl

/-- A request that is granted commits the roster of its change, which is then in effect, and
has it pushed at most. -/
theorem Ends.commits {next : Roster} (h : Ends e id s request (.ok next) e') :
    ∃ change candidate, examine request e.log.roster = .ok (change, candidate) ∧
      next.members = change.members ∧
      (Record.reconfigure (proposalOf e.log.roster change)).successor? e.log.roster
        e.log.nextStamp = some next ∧
      e'.log.entries = e.log.entries ++
        [⟨e.log.nextStamp, .reconfigure (proposalOf e.log.roster change), id⟩] ∧
      e'.log.roster = next ∧
      (e'.sessions = e.sessions ∨ e'.sessions = e.sessions.push next) := by
  cases h with
  | committed _ _ change candidate examined _ _ _ installed =>
      obtain ⟨hentries, hroster⟩ := committed_complete id e.log.roster next
        (((e.claimed id s).committed id (proposalOf e.log.roster change)).released id)
      have hmembers : next.members = change.members :=
        (members_of_installed examined installed).trans (examine_eq_ok examined).2.2.1
      exact ⟨change, candidate, examined, hmembers, installed, hentries,
        hroster.trans (roster_committed installed), sessions_complete id e.log.roster next _⟩

theorem Ends.leads {next : Roster} (h : Ends e id s request (.ok next) e') :
    e.log.leader = some id := by
  cases h with
  | committed _ leads _ _ _ _ _ _ _ => exact leads

/-- A session stays registered, whatever a request comes to. -/
theorem Ends.exists_session {result : Except Fault Roster} (h : Ends e id s request result e')
    {session : SessionId} {connected : Session}
    (hsession : e.sessions.get session = .ok connected) :
    ∃ found, e'.sessions.get session = .ok found := by
  cases h with
  | disabled _ => exact ⟨connected, hsession⟩
  | following _ _ => exact ⟨connected, hsession⟩
  | refused _ _ _ _ => exact ⟨connected, hsession⟩
  | unsynced _ _ _ _ _ _ _ => exact ⟨connected, hsession⟩
  | unacknowledged _ _ _ _ _ _ _ _ => exact ⟨connected, hsession⟩
  | committed _ _ change _ _ _ _ next _ =>
      rcases sessions_complete id e.log.roster next (((e.claimed id s).committed id
        (proposalOf e.log.roster change)).released id) with heq | heq
      · rw [heq]
        exact ⟨connected, hsession⟩
      · rw [heq]
        exact Sessions.exists_get_push hsession next

theorem Ends.calm {result : Except Fault Roster} (h : Ends e id s request result e')
    (he : e.Calm seed) (hs : e.server id = .ok s) (hcounter : e.log.counter ≠ 0xFFFFFFFF)
    (hepoch : e'.log.epoch ≠ 0xFFFFFFFF) : e'.Calm seed := by
  have hclaimed := (Ensemble.still_claim seed e id s.current.version).log
  have hordered : (e.claimed id s).log.Ordered := he.ordered.still rfl rfl rfl
  have hquiet : ((e.claimed id s).released id).Calm seed :=
    he.released (hclaimed.tracked he.tracked) hordered hclaimed.stays (CommitLog.keeps_refl _ _)
  cases h with
  | disabled _ => exact he
  | following _ _ => exact he
  | refused _ _ _ _ => exact hquiet
  | unsynced _ _ _ _ _ _ _ => exact hquiet
  | unacknowledged _ _ _ _ _ _ _ _ =>
      refine he.released (hclaimed.tracked he.tracked).unled hordered.unled (fun j hj => ?_)
        (CommitLog.keeps_unled Server.marks_hear _)
      exact (CommitLog.onward_unled seed _).stays j (hclaimed.stays j hj)
  | committed _ leads change candidate examined synced acked next installed =>
      have hmusters := synced.of_members_eq (members_of_installed examined installed).symm
      have hack := (acknowledged_claimed_iff id s hmusters).2 acked
      have htracked := tracked_committed (s := s) he.tracked leads
        ((congrArg _ installed).trans hack)
      have hkeeps := CommitLog.keeps_commit Server.marks_learn (e.claimed id s).log
        e.log.nextStamp (.reconfigure (proposalOf e.log.roster change)) id
      have hcalm : (((e.claimed id s).committed id
          (proposalOf e.log.roster change)).released id).Calm seed := by
        refine he.released htracked (ordered_committed he.ordered hcounter s _) (fun j hj => ?_) hkeeps
        exact (CommitLog.contains_deliver _ j).trans (hclaimed.stays j hj)
      have hin : ((e.claimed id s).committed id
          (proposalOf e.log.roster change)).log.attached.contains id = true :=
        (CommitLog.contains_deliver _ id).trans
          (hclaimed.stays id (Ensemble.contains_of_server hs))
      obtain ⟨t, ht⟩ := Ensemble.exists_server hcalm.tracked
        ((CommitLog.contains_adjust _ id id _).trans hin)
      exact hcalm.complete ht _ _ hepoch

end Reconfiguration

end Quorate
