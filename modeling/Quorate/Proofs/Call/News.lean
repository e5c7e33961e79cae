import Quorate.Proofs.Call.Moves
import Quorate.Proofs.CommitLog.Governed

/-!
# What the sessions hear of a call

Until the record of a call has been looked up, its steps are `Hushed`: the sessions are told
nothing and no server follows a version up (`hushed_of_early`). From then on the call has a
roster to follow up. Beginning with that, it finds that its server has followed up as much
already, or it marks the version; and it pushes the roster once nothing is left to do
(`FollowUp.start_news`, `FollowUp.step_news`).
-/

namespace Quorate

variable {e e' e'' : Ensemble}

/-- The sessions are told nothing, and no server follows a version up. -/
structure Ensemble.Hushed (e e' : Ensemble) : Prop where
  sessions : e'.sessions = e.sessions
  followed : CommitLog.Keeps Server.followed e.log e'.log

namespace Ensemble

theorem hushed_refl (e : Ensemble) : e.Hushed e :=
  ⟨rfl, CommitLog.keeps_refl _ _⟩

theorem Hushed.trans (h : e.Hushed e') (h' : e'.Hushed e'') : e.Hushed e'' :=
  ⟨h'.sessions.trans h.sessions, h.followed.trans h'.followed⟩

theorem hushed_adjust (e : Ensemble) (id : ServerId) {f : Server → Server}
    (hf : ∀ s, (f s).followed = s.followed) : e.Hushed (e.adjust id f) :=
  ⟨rfl, CommitLog.keeps_adjust e.log id hf⟩

theorem hushed_release (e : Ensemble) (id : ServerId) : e.Hushed (e.adjust id .release) :=
  e.hushed_adjust id fun _ => rfl

theorem hushed_takeTransit (e : Ensemble) : e.Hushed e.takeTransit.2 := by
  unfold takeTransit
  split
  · exact e.hushed_refl
  · exact ⟨rfl, CommitLog.keeps_refl _ _⟩

theorem hushed_arrive (e : Ensemble) (sender : ServerId) (record : Record) (passage : Passage) :
    e.Hushed (e.arrive sender record passage).2 := by
  cases passage with
  | forwarded =>
      exact ⟨rfl, CommitLog.keeps_propose Server.followed_learn Server.followed_hear e.log sender
        record⟩
  | timedOut => exact e.hushed_refl
  | pending => exact e.hushed_refl
  | answered stamp => exact e.hushed_refl
  | refused fault => exact e.hushed_refl

end Ensemble

namespace FollowUp

/-- A server that is to follow a roster up has followed up as much, or marks its version. -/
theorem start_news {server : ServerId} {s : Server} (hs : e.server server = .ok s)
    (prev next : Roster) :
    next.version ≤ s.followed ∧ start server prev next e = (.done (.ok ()), e) ∨
    s.followed < next.version ∧
      ((∃ stage, start server prev next e =
        (.going ⟨server, next, stage⟩, e.marked server next.version)) ∨
      start server prev next e =
        (.done (.ok ()), (e.marked server next.version).push next)) := by
  unfold start
  rw [hs]
  dsimp only
  split
  · rename_i hold
    exact Or.inl ⟨hold, rfl⟩
  rename_i hnew
  refine Or.inr ⟨not_le.1 hnew, ?_⟩
  split
  · exact Or.inl ⟨.resigning, rfl⟩
  split
  · exact Or.inl ⟨.renewing, rfl⟩
  · exact Or.inr rfl

/-- A follow-up is a matter of the log until it ends by pushing its roster. -/
theorem step_news (seed : Roster) (f : FollowUp) (e : Ensemble) :
    ∃ log, CommitLog.Onward seed e.log log ∧ log.entries = e.log.entries ∧
      CommitLog.Keeps Server.followed e.log log ∧
      ((∃ stage, f.step e = (.going { f with stage }, { e with log })) ∨
        f.step e = (.done (.ok ()), ({ e with log } : Ensemble).push f.next)) := by
  unfold step
  split
  · exact ⟨_, CommitLog.onward_resign seed e.log f.server, e.log.entries_resign f.server,
      CommitLog.keeps_resign Server.followed_hear e.log f.server, Or.inl ⟨.electing, rfl⟩⟩
  · exact ⟨_, CommitLog.onward_elect seed e.log, e.log.entries_elect,
      CommitLog.keeps_elect Server.followed_hear e.log, Or.inr rfl⟩
  · exact ⟨_, CommitLog.onward_establish seed e.log f.server, e.log.entries_establish f.server,
      CommitLog.keeps_establish Server.followed_hear e.log f.server, Or.inr rfl⟩

end FollowUp

namespace Reconfiguration

/-- A follow-up by itself: what is left of a call of no matter which request once its record
has been applied. -/
def echo (server : ServerId) (prev next : Roster) (e : Ensemble) :
    Progress Reconfiguration (Except Fault Roster) × Ensemble :=
  (start server ⟨.incremental [] [], none⟩).follow next (FollowUp.start server prev next e)

/-- The record of the call is not committed yet. -/
def Early (c : Reconfiguration) : Prop :=
  match c.stage with
  | .submitting _ submission =>
    ∃ passage arrival deadline, submission.stage = .sending passage arrival deadline
  | .following _ => False
  | _ => True

/-- The call follows this roster up. -/
def Follows (c : Reconfiguration) (r : Roster) : Prop :=
  ∃ f : FollowUp, c.stage = .following f ∧ f.next = r

/-- A call that does not go on to follow a roster up has nothing to answer with either. -/
def Withholds : Progress Reconfiguration (Except Fault Roster) → Prop
  | .going c => ∀ r, ¬ c.Follows r
  | .done result => ∀ r, result ≠ .ok r

variable {c : Reconfiguration} {now : Nat}

theorem Early.not_follows (h : c.Early) (r : Roster) : ¬ c.Follows r := by
  rintro ⟨f, hf, _⟩
  rw [Early, hf] at h
  exact h

theorem withholds_error (fault : Fault) : Withholds (.done (.error fault)) :=
  nofun

theorem withholds_of_stage {stage : Stage} (h : ∀ f, stage ≠ .following f) :
    Withholds (.going { c with stage }) := by
  rintro r ⟨f, hf, _⟩
  exact h f hf

theorem hushed_giveUp (h : e.Hushed e') (server : ServerId) (fault : Fault) :
    e.Hushed (giveUp (σ := Reconfiguration) (α := Roster) e' server fault).2 :=
  h.trans (e'.hushed_release server)

theorem hushed_ask (c : Reconfiguration) (ticket : Nat) (s : Server) (e : Ensemble) :
    e.Hushed (c.ask ticket s e).2 ∧ Withholds (c.ask ticket s e).1 := by
  have hclaimed := e.hushed_adjust c.server (f := (·.claim s.current.version)) fun _ => rfl
  unfold ask
  split
  · exact ⟨e.hushed_refl, withholds_error _⟩
  cases s.inFlight with
  | some base =>
      dsimp only
      split
      · exact ⟨e.hushed_refl, withholds_of_stage nofun⟩
      · exact ⟨e.hushed_refl, withholds_error _⟩
  | none =>
      dsimp only
      cases examine c.request s.current with
      | error fault => exact ⟨hushed_giveUp hclaimed c.server fault, withholds_error fault⟩
      | ok pair => exact ⟨hclaimed, withholds_of_stage nofun⟩

theorem hushed_weigh (c : Reconfiguration) (current : Roster) (change : Change)
    (candidate : Roster) (s : Server) (e : Ensemble) :
    e.Hushed (c.weigh now current change candidate s e).2 ∧
      Withholds (c.weigh now current change candidate s e).1 := by
  unfold weigh
  dsimp only
  split
  · exact ⟨e.hushed_takeTransit, withholds_of_stage nofun⟩
  · exact ⟨hushed_giveUp e.hushed_refl c.server _, withholds_error _⟩

/-- A submission whose record is on its way does not answer with a roster. -/
theorem hushed_sending {submission : Submission} {passage : Passage} {arrival deadline : Nat}
    (hstage : submission.stage = .sending passage arrival deadline)
    {q : Progress Submission (Except Fault Roster) × Ensemble}
    (h : submission.step now e = some q) :
    e.Hushed q.2 ∧ ∀ next, q.1 ≠ .done (.ok next) := by
  unfold Submission.step at h
  rw [hstage] at h
  split at h
  · cases h
    exact ⟨e.hushed_refl, nofun⟩
  dsimp only at h
  split at h
  · cases h
    have hushed := e.hushed_arrive submission.server (.reconfigure submission.proposal) passage
    unfold Submission.arrive
    dsimp only
    split
    · exact ⟨hushed, nofun⟩
    · exact ⟨hushed, nofun⟩
  · split at h <;> cases h
    exact ⟨e.hushed_refl, nofun⟩

/-- A call whose record is not committed yet tells the sessions nothing. -/
theorem hushed_of_early (hc : c.Early)
    {p : Progress Reconfiguration (Except Fault Roster) × Ensemble}
    (h : c.step now e = some p) : e.Hushed p.2 ∧ Withholds p.1 := by
  unfold step at h
  split at h
  · cases h
    exact ⟨e.hushed_refl, withholds_error _⟩
  split at h
  · split at h <;> cases h
    · exact ⟨e.hushed_refl, withholds_of_stage nofun⟩
    · exact ⟨e.hushed_refl, withholds_error _⟩
  · cases h
    exact hushed_ask c _ _ e
  · split at h <;> cases h
    exact ⟨e.hushed_refl, withholds_of_stage nofun⟩
  · cases h
    exact hushed_weigh c _ _ _ _ e
  · rename_i current submission hstage
    rw [Early, hstage] at hc
    obtain ⟨passage, arrival, deadline, hsending⟩ := hc
    obtain ⟨⟨progress, e'⟩, hq, rfl⟩ := Option.map_eq_some_iff.1 h
    obtain ⟨hushed, hnot⟩ := hushed_sending hsending hq
    match progress, hnot with
    | .going submission, _ => exact ⟨hushed, withholds_of_stage nofun⟩
    | .done (.error fault), _ =>
        exact ⟨hushed_giveUp hushed c.server fault, withholds_error fault⟩
    | .done (.ok next), hnot => exact absurd rfl (hnot next)
  · rename_i f hstage
    rw [Early, hstage] at hc
    exact hc.elim

/-- The call has recorded what its stage tells, and what it follows up was put in effect. -/
def Minds (seed : Roster) (l : CommitLog Server) (c : Reconfiguration) : Prop :=
  match c.stage with
  | .following f => l.attached.contains c.server = true ∧ f.next ∈ (rosters seed l.entries).tail
  | _ => ∃ recorded, c.Sound seed l recorded

/-- The call has still to see to it that the sessions are told of a roster: it is about to look
up what its record made, or follows that up. -/
def Owes (seed : Roster) (l : CommitLog Server) (c : Reconfiguration) (r : Roster) : Prop :=
  match c.stage with
  | .submitting _ submission => ∃ stamp deadline,
    submission.stage = .landing stamp deadline ∧ (stamp, r) ∈ rosterChanges seed l.entries
  | .following f => f.next = r
  | _ => False

variable {seed : Roster} {l l' : CommitLog Server} {r : Roster}

theorem mem_tail_of_grown {xs ys : List Entry} (h : xs <+: ys)
    (hr : r ∈ (rosters seed xs).tail) : r ∈ (rosters seed ys).tail := by
  obtain ⟨stamp, hchange⟩ := mem_tail_rosters.1 hr
  exact mem_tail_rosters.2 ⟨stamp, (rosterChanges_mono h).subset hchange⟩

theorem minds_start (seed : Roster) (l : CommitLog Server) (server : ServerId)
    (request : Request) : (start server request).Minds seed l :=
  ⟨[], rfl⟩

theorem minds_of_sound {recorded : List Nat} (h : c.Sound seed l recorded) : c.Minds seed l := by
  unfold Minds
  split
  · rename_i f hstage
    rw [Sound, hstage] at h
    obtain ⟨hin, n, _, prev, p, hinstalls, _⟩ := h
    exact ⟨hin, hinstalls.mem_tail⟩
  · exact ⟨recorded, h⟩

theorem Minds.lasting (h : c.Minds seed l) (hl : CommitLog.Lasting l l') : c.Minds seed l' := by
  unfold Minds at h ⊢
  split at h
  · exact ⟨hl.stays c.server h.1, mem_tail_of_grown hl.grows h.2⟩
  · exact h.imp fun _ hsound => hsound.lasting hl

theorem Owes.grown (h : c.Owes seed l r) (hl : l.entries <+: l'.entries) :
    c.Owes seed l' r := by
  unfold Owes at h ⊢
  split at h
  · obtain ⟨stamp, deadline, hstage, hchange⟩ := h
    exact ⟨stamp, deadline, hstage, (rosterChanges_mono hl).subset hchange⟩
  · exact h
  · exact h

theorem Minds.mem_tail (h : c.Minds seed l) (hf : c.Follows r) :
    r ∈ (rosters seed l.entries).tail := by
  obtain ⟨f, hstage, rfl⟩ := hf
  rw [Minds, hstage] at h
  exact h.2

theorem Follows.owes (h : c.Follows r) : c.Owes seed l r := by
  obtain ⟨f, hstage, rfl⟩ := h
  rw [Owes, hstage]

/-- A call that has recorded the entry which put a roster in effect owes that one. -/
theorem Sound.owes {n : Nat} {prev : Roster} (h : c.Sound seed l [n])
    (hinstalls : Installs seed l.entries n prev r) : c.Owes seed l r := by
  unfold Sound at h
  unfold Owes
  split at h
  · cases h
  · cases h
  · cases h
  · cases h.1
  · rename_i current submission hstage
    have hshows := h.2.2.2
    unfold Submission.Shows at hshows
    rw [hstage]
    dsimp only
    split at hshows
    · cases hshows.1
    · rename_i stamp deadline hlanding
      obtain ⟨_, m, sender, hrecorded, hget⟩ := hshows
      cases hrecorded
      exact ⟨stamp, deadline, hlanding, mem_rosterChanges_iff.2 ⟨n, _, prev, hget, rfl, hinstalls⟩⟩
  · rename_i f hstage
    obtain ⟨_, m, hrecorded, _, _, hgranted, _⟩ := h
    cases hrecorded
    rw [hstage]
    exact hgranted.unique hinstalls

theorem Follows.unique {r' : Roster} (h : c.Follows r) (h' : c.Follows r') : r' = r := by
  obtain ⟨f, hstage, rfl⟩ := h
  obtain ⟨g, hstage', rfl⟩ := h'
  cases hstage.symm.trans hstage'
  rfl

theorem Follows.eq_of_owes {r' : Roster} (h : c.Follows r) (h' : c.Owes seed l r') : r' = r := by
  obtain ⟨f, hstage, rfl⟩ := h
  rw [Owes, hstage] at h'
  exact h'.symm

theorem Early.exists_sound (h : c.Early) (hminds : c.Minds seed l) :
    ∃ recorded, c.Sound seed l recorded := by
  unfold Minds at hminds
  split at hminds
  · rename_i hstage
    rw [Early, hstage] at h
    exact h.elim
  · exact hminds

theorem Moves.minds {recorded : List Nat}
    {p : Progress Reconfiguration (Except Fault Roster) × Ensemble}
    (h : Moves seed e c recorded p) {c' : Reconfiguration} (hp : p.1 = .going c') :
    c'.Minds seed p.2.log := by
  cases h with
  | quiet _ _ _ settles =>
      rw [hp] at settles
      exact minds_of_sound settles.2
  | committed _ _ _ _ _ _ _ _ _ settles =>
      rw [hp] at settles
      exact minds_of_sound settles.2
  | failed _ _ fails _ =>
      obtain ⟨fault, hfault⟩ := fails
      cases hp.symm.trans hfault

theorem Early.not_owes (h : c.Early) : ¬ c.Owes seed l r := by
  intro howes
  unfold Early at h
  unfold Owes at howes
  split at h
  · rename_i hstage
    rw [hstage] at howes
    obtain ⟨_, _, _, hsending⟩ := h
    obtain ⟨_, _, hlanding, _⟩ := howes
    cases hsending.symm.trans hlanding
  · exact h
  · rename_i hsubmitting hfollowing
    split at howes
    · rename_i hstage
      exact hsubmitting _ _ hstage
    · rename_i hstage
      exact hfollowing _ hstage
    · exact howes

theorem early_cases (c : Reconfiguration) : c.Early ∨
    (∃ current submission stamp deadline, c.stage = .submitting current submission ∧
      submission.stage = .landing stamp deadline) ∨ ∃ f, c.stage = .following f := by
  unfold Early
  split
  · rename_i current submission hstage
    cases hsub : submission.stage with
    | sending passage arrival deadline => exact Or.inl ⟨passage, arrival, deadline, rfl⟩
    | landing stamp deadline =>
        exact Or.inr (Or.inl ⟨current, submission, stamp, deadline, hstage, hsub⟩)
  · rename_i f hstage
    exact Or.inr (Or.inr ⟨f, hstage⟩)
  · exact Or.inl trivial

end Reconfiguration

end Quorate
