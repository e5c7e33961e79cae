import Quorate.Ensemble
import Quorate.Proofs.CommitLog.Onward
import Quorate.Proofs.Roster.Succession

/-!
# Ensembles that go on

An ensemble is `Sound` if its servers follow its log, the stamps of the log are in order,
every roster that took effect succeeds the one before it, and no record of its link is
answered without having been committed. What goes `Onward` keeps all of that but for the
succession of the rosters, which is a matter of what was committed (`Sound.onward`).

What opening and closing a session can do is said once (`connect_cases`, `close_cases`).
-/

namespace Quorate

/-- A record that is lost on its way is not answered as if it were committed. -/
def Passage.Honest : Passage → Prop
  | .answered _ => False
  | _ => True

namespace Ensemble

structure Sound (seed : Roster) (e : Ensemble) : Prop where
  seeded : e.seed = seed
  tracked : e.log.Tracked seed
  ordered : e.log.Ordered
  chain : (rosters seed e.log.entries).IsChain Roster.Succeeds
  honest : ∀ t ∈ e.link, t.passage.Honest

/-- An operation leads from one ensemble to the next. -/
structure Onward (seed : Roster) (e e' : Ensemble) : Prop where
  log : CommitLog.Onward seed e.log e'.log
  link : ∀ t ∈ e'.link, t ∈ e.link
  seeded : e'.seed = e.seed

/-- Nothing changes but the servers where they stand, and the sessions. -/
structure Still (seed : Roster) (e e' : Ensemble) : Prop where
  log : CommitLog.Still seed e.log e'.log
  link : ∀ t ∈ e'.link, t ∈ e.link
  seeded : e'.seed = e.seed

/-- A server has begun to follow a version up. -/
def marked (e : Ensemble) (id : ServerId) (version : Version) : Ensemble :=
  e.adjust id fun s => { s with followed := version }

theorem server_eq_ok_iff {e : Ensemble} {id : ServerId} {s : Server} :
    e.server id = .ok s ↔ e.log.replica? id = some s := by
  rw [server]
  cases e.log.replica? id <;> simp

theorem server_adjust {e : Ensemble} {id : ServerId} {s : Server} (hs : e.server id = .ok s)
    (f : Server → Server) : (e.adjust id f).server id = .ok (f s) := by
  rw [server_eq_ok_iff, adjust, CommitLog.replica?_adjust, if_pos rfl, server_eq_ok_iff.1 hs]
  rfl

theorem eq_noSuchServer_of_server {e : Ensemble} {id : ServerId} {fault : Fault}
    (h : e.server id = .error fault) : fault = .noSuchServer id := by
  unfold server at h
  split at h <;> cases h
  rfl

theorem replica?_eq_none {e : Ensemble} {id : ServerId} {fault : Fault}
    (h : e.server id = .error fault) : e.log.replica? id = none := by
  unfold server at h
  split at h
  · cases h
  · assumption

variable {seed : Roster} {e e' e'' : Ensemble}

theorem exists_server (h : e.log.Tracked seed) {id : ServerId}
    (hin : e.log.attached.contains id = true) : ∃ s, e.server id = .ok s := by
  obtain ⟨s, hs⟩ := h.exists_replica hin
  exact ⟨s, server_eq_ok_iff.2 hs⟩

theorem contains_of_server {id : ServerId} {s : Server} (h : e.server id = .ok s) :
    e.log.attached.contains id = true :=
  CommitLog.contains_of_replica (server_eq_ok_iff.1 h)

/-- Opening a session counts its number and commits its record. If that succeeds, the session
is registered. -/
theorem connect_cases (e : Ensemble) (server : ServerId) (watch : Bool) :
    (∃ fault, e.connect server watch = (.error fault, e)) ∨
    ∃ target, e.server server = .ok target ∧
      ((∃ fault e',
        { e with serial := e.serial + 1 }.write (.openSession (sessionId server e.serial) server) =
          (.error fault, e') ∧
        e.connect server watch = (.error fault, e')) ∨
      ∃ stamp e',
        { e with serial := e.serial + 1 }.write (.openSession (sessionId server e.serial) server) =
          (.ok stamp, e') ∧
        e.connect server watch = (.ok (sessionId server e.serial),
          { e' with
            sessions := e'.sessions.register (sessionId server e.serial) server
              ((e'.log.replica? server).getD target).current.version watch })) := by
  unfold connect
  cases e.server server with
  | error fault => exact Or.inl ⟨fault, rfl⟩
  | ok target =>
      dsimp only
      split
      · exact Or.inl ⟨_, rfl⟩
      · refine Or.inr ⟨target, rfl, ?_⟩
        cases hwrite : { e with serial := e.serial + 1 }.write
            (.openSession (sessionId server e.serial) server) with
        | mk result e' =>
            cases result with
            | error fault => exact Or.inl ⟨fault, e', rfl, rfl⟩
            | ok stamp => exact Or.inr ⟨stamp, e', rfl, rfl⟩

/-- Closing a session forgets it, whatever becomes of its record. -/
theorem close_cases (e : Ensemble) (session : SessionId) :
    (∃ fault, e.sessions.close session = .error fault ∧ e.close session = (.error fault, e)) ∨
    ∃ sessions result e', e.sessions.close session = .ok sessions ∧
      { e with sessions }.write (.closeSession session) = (result, e') ∧
      e.close session = (result.map fun _ => (), e') := by
  unfold close
  cases e.sessions.close session with
  | error fault => exact Or.inl ⟨fault, rfl, rfl⟩
  | ok sessions =>
      dsimp only
      cases hwrite : { e with sessions }.write (.closeSession session) with
      | mk result e' =>
          refine Or.inr ⟨sessions, result, e', rfl, hwrite, ?_⟩
          cases result <;> rfl

theorem log_connect_cases (e : Ensemble) (server : ServerId) (watch : Bool) :
    (e.connect server watch).2.log = e.log ∨ (e.connect server watch).2.log =
      ({ e with serial := e.serial + 1 }.write
        (.openSession (sessionId server e.serial) server)).2.log := by
  rcases e.connect_cases server watch with ⟨_, heq⟩ |
    ⟨_, _, ⟨_, _, hwrite, heq⟩ | ⟨_, _, hwrite, heq⟩⟩
  · exact Or.inl (by rw [heq])
  · exact Or.inr (by rw [heq, hwrite])
  · exact Or.inr (by rw [heq, hwrite])

theorem log_close_cases (e : Ensemble) (session : SessionId) :
    (e.close session).2.log = e.log ∨ ∃ sessions,
      (e.close session).2.log = ({ e with sessions }.write (.closeSession session)).2.log := by
  rcases e.close_cases session with ⟨_, _, heq⟩ | ⟨sessions, _, _, _, hwrite, heq⟩
  · exact Or.inl (by rw [heq])
  · exact Or.inr ⟨sessions, by rw [heq, hwrite]⟩

theorem still_refl (seed : Roster) (e : Ensemble) : Still seed e e :=
  ⟨CommitLog.still_refl seed e.log, fun _ => id, rfl⟩

theorem Still.trans (h : Still seed e e') (h' : Still seed e' e'') : Still seed e e'' where
  log := h.log.trans h'.log
  link t ht := h.link t (h'.link t ht)
  seeded := h'.seeded.trans h.seeded

theorem Still.onward (h : Still seed e e') : Onward seed e e' :=
  ⟨h.log.onward, h.link, h.seeded⟩

theorem Onward.still (h : Onward seed e e') (h' : Still seed e' e'') : Onward seed e e'' where
  log := h.log.still h'.log
  link t ht := h.link t (h'.link t ht)
  seeded := h'.seeded.trans h.seeded

theorem onward_of_log {log : CommitLog Server} (h : CommitLog.Onward seed e.log log) :
    Onward seed e { e with log } :=
  ⟨h, fun _ => id, rfl⟩

theorem still_adjust (seed : Roster) (e : Ensemble) (id : ServerId) {f : Server → Server}
    (hview : ∀ s, (f s).view = s.view) (hsettings : ∀ s, (f s).settings = s.settings) :
    Still seed e (e.adjust id f) :=
  ⟨CommitLog.still_adjust seed e.log id hview hsettings, fun _ ht => ht, rfl⟩

theorem still_claim (seed : Roster) (e : Ensemble) (id : ServerId) (base : Version) :
    Still seed e (e.adjust id (·.claim base)) :=
  still_adjust seed e id (fun _ => rfl) fun _ => rfl

theorem still_release (seed : Roster) (e : Ensemble) (id : ServerId) :
    Still seed e (e.adjust id .release) :=
  still_adjust seed e id (fun _ => rfl) fun _ => rfl

theorem still_push (seed : Roster) (e : Ensemble) (r : Roster) : Still seed e (e.push r) :=
  ⟨CommitLog.still_refl seed e.log, fun _ => id, rfl⟩

/-- Of the records on the link the next one is taken, if there is one. -/
theorem still_takeTransit (seed : Roster) (e : Ensemble) :
    Still seed e e.takeTransit.2 ∧
      (e.takeTransit.1 = {} ∨ e.takeTransit.1 ∈ e.link) := by
  unfold takeTransit
  cases hlink : e.link with
  | nil => exact ⟨still_refl seed e, Or.inl rfl⟩
  | cons transit link =>
      refine ⟨⟨CommitLog.still_refl seed e.log, ?_, rfl⟩, Or.inr List.mem_cons_self⟩
      intro t ht
      rw [hlink]
      exact List.mem_cons_of_mem _ ht

theorem Sound.still (h : e.Sound seed) (hs : Still seed e e') : e'.Sound seed where
  seeded := hs.seeded.trans h.seeded
  tracked := hs.log.tracked h.tracked
  ordered := h.ordered.still hs.log.epoch hs.log.counter hs.log.entries
  chain := hs.log.entries ▸ h.chain
  honest t ht := h.honest t (hs.link t ht)

theorem Sound.onward (h : e.Sound seed) (hr : e.log.InRange) (ho : Onward seed e e')
    (hchain : (rosters seed e'.log.entries).IsChain Roster.Succeeds) : e'.Sound seed where
  seeded := ho.seeded.trans h.seeded
  tracked := ho.log.tracked h.tracked
  ordered := h.ordered.turn hr ho.log.turn
  chain := hchain
  honest t ht := h.honest t (ho.link t ht)

theorem bootstrap_eq_ok_iff {template : Settings} :
    bootstrap template seed = .ok e ↔ seed.participants ≠ [] ∧
      ((vacant template seed []).spawnAll seed.ids).elect.2 = e := by
  rw [bootstrap]
  split
  · rename_i hnone
    simp [hnone]
  · rename_i hpeopled
    simp [hpeopled]

theorem sound_vacant (template : Settings) (seed : Roster) :
    (vacant template seed []).Sound seed where
  seeded := rfl
  tracked := .empty seed
  ordered := CommitLog.ordered_empty seed
  chain := List.isChain_singleton seed
  honest _ ht := absurd ht List.not_mem_nil

end Ensemble

end Quorate
