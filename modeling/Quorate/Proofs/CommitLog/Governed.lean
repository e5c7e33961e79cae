import Quorate.Proofs.CommitLog.Muster
import Quorate.Proofs.CommitLog.Onward

/-!
# Governed logs

A log is `Governed` if the roster in effect has participants, whoever leads is one of them,
and neither the version of the roster nor any version that a server has followed up is ahead
of the log. An operation that commits no roster is `Steady`: it leaves the rosters, the log does
not go back, and no server comes to follow a version up that no server followed up before. So
it leaves the log governed.
-/

namespace Quorate

theorem Server.followed_hear (s : Server) (outcome : Outcome) :
    (s.hear outcome).followed = s.followed := rfl

theorem Server.followed_learn (s : Server) (stamp : Stamp) (record : Record) :
    (s.learn stamp record).followed = s.followed :=
  congrArg (·.2.2) (s.marks_learn stamp record)

namespace CommitLog

/-- Every version that a server has followed up last is as `P` says. -/
def FollowsUp (P : Version → Prop) (l : CommitLog Server) : Prop :=
  ∀ id s, l.replica? id = some s → P s.followed

/-- Whoever leads the log is a participant of the roster in effect. -/
def Presided (l : CommitLog Server) : Prop :=
  ∀ id, l.leader = some id → id ∈ l.roster.participants

structure Governed (l : CommitLog Server) : Prop where
  peopled : l.roster.participants ≠ []
  version_le : l.roster.version ≤ l.lastCommitted
  presided : l.Presided
  followed_le : l.FollowsUp (· ≤ l.roster.version)

/-- No roster is committed, and nothing new is followed up. -/
structure Steady (l l' : CommitLog Server) : Prop extends Lasting l l' where
  roster : l'.roster = l.roster
  rosters : ∀ seed, rosters seed l'.entries = rosters seed l.entries
  last_le : l.lastCommitted ≤ l'.lastCommitted
  leader : ∀ id, l'.leader = some id → l.leader = some id ∨ id ∈ l.roster.participants
  followed : ∀ P : Version → Prop, P .zero → l.FollowsUp P → l'.FollowsUp P

variable {l l' l'' : CommitLog Server} {P : Version → Prop}

theorem FollowsUp.keeps (h : l.FollowsUp P) (hk : Keeps Server.followed l l') :
    l'.FollowsUp P :=
  hk.all (P := fun _ version => P version) h

theorem FollowsUp.marked (h : l.FollowsUp P) (id : ServerId) {version : Version}
    (hversion : P version) :
    (l.adjust id fun s => { s with followed := version }).FollowsUp P := by
  intro j s hs
  rw [replica?_adjust] at hs
  split at hs
  · obtain ⟨t, _, rfl⟩ := Option.map_eq_some_iff.1 hs
    exact hversion
  · exact h j s hs

theorem followsUp_empty (P : Version → Prop) (seed : Roster) :
    (empty seed : CommitLog Server).FollowsUp P := by
  intro id s hs
  rw [replica?, empty, Keyed.get?_empty] at hs
  cases hs

theorem Governed.steady (h : l.Governed) (hs : Steady l l') : l'.Governed := by
  refine ⟨?_, ?_, fun leader hlead => ?_, ?_⟩
  · rw [hs.roster]
    exact h.peopled
  · rw [hs.roster]
    exact h.version_le.trans hs.last_le
  · rw [hs.roster]
    exact (hs.leader leader hlead).elim (h.presided leader) id
  · rw [hs.roster]
    exact hs.followed _ (Stamp.zero_le _) h.followed_le

theorem governed_empty {seed : Roster} (h : seed.participants ≠ []) :
    (empty seed : CommitLog Server).Governed where
  peopled := h
  version_le := le_of_eq (Stamp.make_epoch_counter seed.version).symm
  presided id hid := by cases hid
  followed_le := followsUp_empty _ seed

theorem steady_refl (l : CommitLog Server) : Steady l l where
  toLasting := lasting_refl l
  roster := rfl
  rosters _ := rfl
  last_le := le_refl _
  leader _ := Or.inl
  followed _ _ := id

theorem Steady.trans (h : Steady l l') (h' : Steady l' l'') : Steady l l'' where
  toLasting := h.toLasting.trans h'.toLasting
  roster := h'.roster.trans h.roster
  rosters seed := (h'.rosters seed).trans (h.rosters seed)
  last_le := h.last_le.trans h'.last_le
  leader id hid := (h'.leader id hid).elim (h.leader id) fun hin => Or.inr (h.roster ▸ hin)
  followed P hzero hP := h'.followed P hzero (h.followed P hzero hP)

/-- Nothing but the servers changes, and not what they have followed up. -/
theorem Lasting.steady (h : Lasting l l') (hroster : l'.roster = l.roster)
    (hentries : l'.entries = l.entries) (hlast : l'.lastCommitted = l.lastCommitted)
    (hleader : l'.leader = l.leader) (hk : Keeps Server.followed l l') : Steady l l' where
  toLasting := h
  roster := hroster
  rosters _ := by rw [hentries]
  last_le := hlast.ge
  leader _ hid := Or.inl (hleader ▸ hid)
  followed _ _ hP := hP.keeps hk

theorem steady_adjust (l : CommitLog Server) (id : ServerId) {f : Server → Server}
    (hview : ∀ s, (f s).view = s.view) (hf : ∀ s, (f s).followed = s.followed) :
    Steady l (l.adjust id f) := by
  have hlasting : Lasting l (l.adjust id f) :=
    ⟨List.prefix_refl _, fun j hj => (contains_adjust l j id f).trans hj,
      (keeps_adjust l id hview).retains⟩
  exact hlasting.steady rfl rfl rfl rfl (keeps_adjust l id hf)

theorem steady_claim (l : CommitLog Server) (id : ServerId) (base : Version) :
    Steady l (l.adjust id (·.claim base)) :=
  steady_adjust l id (fun _ => rfl) fun _ => rfl

theorem steady_release (l : CommitLog Server) (id : ServerId) :
    Steady l (l.adjust id .release) :=
  steady_adjust l id (fun _ => rfl) fun _ => rfl

/-- A server that is attached anew has followed nothing up. -/
theorem steady_attach {id : ServerId} (hid : l.replica? id = none) (settings : Settings)
    (seed : Roster) : Steady l (l.attach id (.ofSeed settings seed)) where
  toLasting := (onward_attach seed l hid settings).lasting
  roster := rfl
  rosters _ := rfl
  last_le := le_refl _
  leader _ := Or.inl
  followed P hzero hP j t ht := by
    rw [replica?_attach] at ht
    split at ht
    · cases ht
      have hfollowed := feature_learnAll Server.followed_learn l.entries (.ofSeed settings seed)
      exact hfollowed ▸ hzero
    · exact hP j t ht

theorem steady_unled (l : CommitLog Server) : Steady l l.unled where
  toLasting := (onward_unled l.roster l).lasting
  roster := rfl
  rosters _ := rfl
  last_le := le_refl _
  leader id hid := by cases hid
  followed _ _ hP := hP.keeps (keeps_unled Server.followed_hear l)

theorem steady_renewed (hr : l.epoch ≠ 0xFFFFFFFF) {leader : ServerId}
    (hleader : l.leader = some leader ∨ leader ∈ l.roster.participants) :
    Steady l (l.renewed leader) where
  grows := List.prefix_refl _
  stays id hid := (contains_announce _ id _).trans hid
  retains := (keeps_renewed Server.view_hear l leader).retains
  roster := rfl
  rosters _ := rfl
  last_le := (lastCommitted_lt_of_renewed hr rfl).le
  leader id hid := by
    cases hid
    exact hleader
  followed _ _ hP := hP.keeps (keeps_renewed Server.followed_hear l leader)

theorem steady_stop (l : CommitLog Server) (id : ServerId) : Steady l (l.stop id) := by
  have hlasting : Lasting l (l.halted id) :=
    ⟨List.prefix_refl _, fun j hj => (contains_halted l j id).trans hj,
      (keeps_halted Server.view l id).retains⟩
  have hhalted := hlasting.steady rfl rfl rfl rfl (keeps_halted Server.followed l id)
  rw [stop_eq]
  split
  · exact hhalted.trans (steady_unled _)
  · exact hhalted

theorem steady_reattach (l : CommitLog Server) (id : ServerId) : Steady l (l.reattach id) :=
  (onward_reattach l.roster l id).lasting.steady rfl rfl rfl rfl
    (keeps_reattach Server.followed_learn l id)

theorem steady_start (l : CommitLog Server) (id : ServerId) : Steady l (l.start id).2 := by
  have hlasting := (onward_start l.roster l id).lasting
  have hkeeps := keeps_start Server.followed_learn l id
  rcases start_cases l id with heq | heq
  · rw [heq]
    exact steady_refl l
  · rw [heq] at hlasting hkeeps ⊢
    exact hlasting.steady rfl rfl rfl rfl hkeeps

theorem steady_resign (l : CommitLog Server) (leader : ServerId) : Steady l (l.resign leader) := by
  rcases resign_cases l leader with heq | heq
  · rw [heq]
    exact steady_refl l
  · rw [heq]
    exact steady_unled l

theorem steady_establish {leader : ServerId} (hepoch : (l.establish leader).2.epoch ≠ 0xFFFFFFFF) :
    Steady l (l.establish leader).2 := by
  rcases establish_cases l leader with heq | ⟨hlead, heq⟩ | heq
  · rw [heq]
    exact steady_refl l
  · rw [heq] at hepoch ⊢
    exact steady_renewed (ne_greatest_of_bump_ne hepoch) (Or.inl hlead)
  · rw [heq]
    exact steady_unled l

theorem steady_elect (hepoch : l.elect.2.epoch ≠ 0xFFFFFFFF) : Steady l l.elect.2 := by
  rcases elect_cases_musters l with ⟨_, winner, heq, hin, _⟩ | ⟨_, heq⟩
  · rw [heq] at hepoch ⊢
    exact steady_renewed (ne_greatest_of_bump_ne hepoch) (Or.inr hin)
  · rw [heq]
    exact steady_unled l

theorem steady_leaderOrElect (hr : l.epoch ≠ 0xFFFFFFFF) : Steady l l.leaderOrElect.2 := by
  rcases l.leaderOrElect_cases with ⟨_, _, heq⟩ | ⟨_, ⟨_, winner, heq, hin, _⟩ | ⟨_, heq⟩⟩
  · rw [heq]
    exact steady_refl l
  · rw [heq]
    exact steady_renewed hr (Or.inr hin)
  · rw [heq]
    exact steady_unled l

theorem steady_propose (l : CommitLog Server) (sender : ServerId) {record : Record}
    (hplain : record.isReconfigure = false) : Steady l (l.propose sender record).2 := by
  rcases propose_cases l sender record with ⟨_, heq⟩ | ⟨_, _, heq⟩ | ⟨_, heq⟩
  · rw [heq]
    exact steady_refl l
  · rw [heq]
    refine ⟨heq ▸ (onward_propose l.roster l sender record).lasting, ?_, fun seed => ?_, ?_,
      fun _ => Or.inl, fun _ _ hP => hP.keeps (keeps_commit Server.followed_learn l _ record sender)⟩
    · change (record.successor? l.roster l.nextStamp).getD l.roster = l.roster
      rw [Record.successor?_eq_none hplain]
      rfl
    · change rosters seed (l.entries ++ [⟨l.nextStamp, record, sender⟩]) = _
      rw [rosters_concat, Record.successor?_eq_none hplain]
      exact List.append_nil _
    · exact (lastCommitted_le_nextStamp l).trans (le_of_eq (make_nextStamp_counter l).symm)
  · rw [heq]
    exact steady_unled l

end CommitLog

end Quorate
