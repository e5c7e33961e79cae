import Quorate.Proofs.Call.News
import Quorate.Proofs.Ensemble.Abreast
import Quorate.Proofs.Ensemble.Aside

/-!
# Ensembles that keep their sessions informed

A roster takes effect when its record is committed. The sessions are told of it later, by the
call that follows it up, or of a roster that took effect after it. Whatever comes in between, an
ensemble is `Informed` as to the calls that are under way on it: the sessions have been told of
the roster in effect, and are settled in it, unless one of the calls owes them that roster; and
no server has followed up more than the sessions were told of or one of the calls follows up.

Anything aside from reconfigurations keeps that (`Informed.aside`), and so does each step of a
call (`Informed.step`). A call whose record is committed cannot miss the roster in effect, since
its server keeps at least one roster (`landed_of_latest`).
-/

namespace Quorate

/-- A call is the one at a progress, or one of some others. -/
def Reconfiguration.Beside (p : Progress Reconfiguration (Except Fault Roster))
    (others : Reconfiguration → Prop) (c : Reconfiguration) : Prop :=
  p = .going c ∨ others c

theorem Reconfiguration.beside_done (result : Except Fault Roster)
    (others : Reconfiguration → Prop) : Beside (.done result) others = others := by
  funext c
  simp [Beside]

namespace Ensemble

/-- The latest version that the sessions were told of; they know of the seed. -/
def told (seed : Roster) (e : Ensemble) : Version :=
  max seed.version e.sessions.notified

/-- A version is one that the sessions were told of, or that a call follows up. -/
def Heard (seed : Roster) (calls : Reconfiguration → Prop) (e : Ensemble) (v : Version) : Prop :=
  v ≤ e.told seed ∨ ∃ c r, calls c ∧ c.Follows r ∧ r.version = v

/-- The sessions have been told of the roster in effect, or one of the calls owes them that. -/
structure Informed (seed : Roster) (calls : Reconfiguration → Prop) (e : Ensemble) : Prop where
  sound : e.Sound seed
  link : e.link = []
  minds : ∀ c, calls c → c.Minds seed e.log
  told_le : e.told seed ≤ e.log.roster.version
  followed : e.log.FollowsUp (e.Heard seed calls)
  settled : e.log.roster.version ≤ e.told seed → e.sessions.Settled e.log.roster
  owed : e.log.roster.version ≤ e.told seed ∨ ∃ c, calls c ∧ c.Owes seed e.log e.log.roster

variable {seed : Roster} {e e' : Ensemble} {calls calls' others : Reconfiguration → Prop}
  {c : Reconfiguration} {next r : Roster}

theorem heard_zero (seed : Roster) (calls : Reconfiguration → Prop) (e : Ensemble) :
    e.Heard seed calls .zero :=
  Or.inl (Stamp.zero_le _)

theorem Informed.version_le (h : e.Informed seed calls)
    (hr : r ∈ (rosters seed e.log.entries).tail) : r.version ≤ e.log.roster.version := by
  rw [h.sound.tracked.derived]
  exact version_le_rosterAfter h.sound.chain (List.mem_of_mem_tail hr)

theorem Informed.eq_roster (h : e.Informed seed calls)
    (hr : r ∈ (rosters seed e.log.entries).tail) (hle : e.log.roster.version ≤ r.version) :
    r = e.log.roster := by
  have hin : e.log.roster ∈ rosters seed e.log.entries := by
    rw [h.sound.tracked.derived]
    exact rosterAfter_mem_rosters seed _
  exact eq_of_version_eq h.sound.chain (List.mem_of_mem_tail hr) hin
    (le_antisymm (h.version_le hr) hle)

theorem Informed.followed_le (h : e.Informed seed calls) :
    e.log.FollowsUp (· ≤ e.log.roster.version) := by
  intro id s hs
  rcases h.followed id s hs with htold | ⟨c, r, hc, hfollows, hversion⟩
  · exact htold.trans h.told_le
  · exact hversion ▸ h.version_le ((h.minds c hc).mem_tail hfollows)

theorem Informed.stay (h : e.Informed seed calls) (hsound : e'.Sound seed) (hlink : e'.link = [])
    (hlasting : CommitLog.Lasting e.log e'.log) (hroster : e'.log.roster = e.log.roster)
    (hfollowed : ∀ P : Version → Prop, P .zero → e.log.FollowsUp P → e'.log.FollowsUp P)
    (hnotified : e'.sessions.notified = e.sessions.notified)
    (hsettled : e.sessions.Settled e.log.roster → e'.sessions.Settled e.log.roster) :
    e'.Informed seed calls := by
  have htold : e'.told seed = e.told seed := congrArg (max seed.version) hnotified
  have hheard : e'.Heard seed calls = e.Heard seed calls := by
    funext v
    rw [Heard, htold, Heard]
  refine ⟨hsound, hlink, fun c hc => (h.minds c hc).lasting hlasting, ?_, ?_, ?_, ?_⟩
  · rw [htold, hroster]
    exact h.told_le
  · rw [hheard]
    exact hfollowed _ (heard_zero seed calls e) h.followed
  · rw [htold, hroster]
    exact fun hle => hsettled (h.settled hle)
  · rw [htold, hroster]
    exact h.owed.imp_right fun ⟨c, hc, howes⟩ => ⟨c, hc, howes.grown hlasting.grows⟩

theorem Informed.aside (h : e.Informed seed calls) {v : Version} (ha : e'.Abreast seed v)
    {gone : Option SessionId} (haside : e.Aside gone e') : e'.Informed seed calls := by
  refine h.stay ?_ (haside.link.trans h.link) haside.steady.toLasting haside.steady.roster
    haside.steady.followed haside.shift.notified_eq haside.shift.settled
  refine ⟨ha.seeded, ha.tracked, ha.ordered, ?_, ?_⟩
  · rw [haside.steady.rosters]
    exact h.sound.chain
  · rw [haside.link]
    exact h.sound.honest

theorem Informed.drained (h : e.Informed seed calls) :
    { e with sessions := e.sessions.drained }.Informed seed calls :=
  h.stay { h.sound with } h.link (CommitLog.lasting_refl e.log) rfl (fun _ _ hP => hP) rfl id

theorem informed_vacant (template : Settings) (seed : Roster) :
    (vacant template seed []).Informed seed fun _ => False where
  sound := sound_vacant template seed
  link := rfl
  minds _ := False.elim
  told_le := max_le (le_refl _) (Stamp.zero_le _)
  followed := CommitLog.followsUp_empty _ seed
  settled _ := Sessions.settled_empty seed
  owed := Or.inl (le_max_left _ _)

theorem informed_bootstrap {template : Settings} (h : bootstrap template seed = .ok e)
    (hepoch : e.log.epoch ≠ 0xFFFFFFFF) : e.Informed seed fun _ => False := by
  have ha := abreast_bootstrap h hepoch
  obtain ⟨_, rfl⟩ := bootstrap_eq_ok_iff.1 h
  let vacant : Ensemble := vacant template seed []
  obtain ⟨hspawned, hsessions, hlink⟩ := steady_spawnAll vacant seed.ids
  have haside : vacant.Aside none (vacant.spawnAll seed.ids).elect.2 :=
    ⟨hspawned.trans (CommitLog.steady_elect hepoch), hsessions ▸ .stay none, hlink⟩
  exact (informed_vacant template seed).aside ha haside

/-- Other calls are under way, which owe and follow up as much. -/
theorem Informed.recall (h : e.Informed seed calls) (hminds : ∀ c, calls' c → c.Minds seed e.log)
    (hfollows : ∀ c r, calls c → c.Follows r → e.Heard seed calls' r.version)
    (howes : ∀ c, calls c → c.Owes seed e.log e.log.roster →
      e.log.roster.version ≤ e.told seed ∨ ∃ c', calls' c' ∧ c'.Owes seed e.log e.log.roster) :
    e.Informed seed calls' := by
  refine ⟨h.sound, h.link, hminds, h.told_le, fun id s hs => ?_, h.settled, ?_⟩
  · rcases h.followed id s hs with htold | ⟨c, r, hc, hr, hversion⟩
    · exact Or.inl htold
    · exact hversion ▸ hfollows c r hc hr
  · rcases h.owed with htold | ⟨c, hc, hr⟩
    · exact Or.inl htold
    · exact howes c hc hr

theorem Informed.congr (h : e.Informed seed calls) (heq : ∀ c, calls' c ↔ calls c) :
    e.Informed seed calls' :=
  h.recall (fun c hc => h.minds c ((heq c).1 hc))
    (fun c r hc hr => Or.inr ⟨c, r, (heq c).2 hc, hr, rfl⟩)
    fun c hc hr => Or.inr ⟨c, (heq c).2 hc, hr⟩

theorem Informed.more (h : e.Informed seed calls) (hmore : ∀ c, calls c → calls' c)
    (hminds : ∀ c, calls' c → c.Minds seed e.log) : e.Informed seed calls' :=
  h.recall hminds (fun c r hc hr => Or.inr ⟨c, r, hmore c hc, hr, rfl⟩)
    fun c hc hr => Or.inr ⟨c, hmore c hc, hr⟩

theorem Informed.start (h : e.Informed seed calls) (server : ServerId) (request : Request) :
    e.Informed seed (Reconfiguration.Beside (.going (.start server request)) calls) := by
  refine h.more (fun _ => Or.inr) fun c hc => ?_
  rcases hc with hstart | hc
  · cases hstart
    exact Reconfiguration.minds_start seed e.log server request
  · exact h.minds c hc

theorem Informed.marked (h : e.Informed seed calls) (id : ServerId) (hc : calls c)
    (hr : c.Follows r) : (e.marked id r.version).Informed seed calls := by
  have hstill : Still seed e (e.marked id r.version) :=
    still_adjust seed e id (fun _ => rfl) fun _ => rfl
  refine ⟨h.sound.still hstill, h.link,
    fun c hc => (h.minds c hc).lasting hstill.onward.log.lasting, h.told_le, ?_, h.settled, ?_⟩
  · exact h.followed.marked id (Or.inr ⟨c, r, hc, hr, rfl⟩)
  · exact h.owed.imp_right fun ⟨c, hc, howes⟩ => ⟨c, hc, howes.grown (List.prefix_refl _)⟩

theorem told_push (seed : Roster) (e : Ensemble) (next : Roster) :
    (e.push next).told seed = max (e.told seed) next.version := by
  change max seed.version (e.sessions.push next).notified = _
  rcases le_or_gt next.version e.sessions.notified with hold | hnew
  · rw [Sessions.push_eq_self hold]
    exact (max_eq_left (hold.trans (le_max_right _ _))).symm
  · rw [Sessions.notified_push hnew, told, max_assoc, max_eq_right hnew.le]

theorem Informed.push (h : e.Informed seed calls)
    (hnext : next ∈ (rosters seed e.log.entries).tail) : (e.push next).Informed seed calls := by
  have htold := told_push seed e next
  have hgrown : e.told seed ≤ (e.push next).told seed := htold ▸ le_max_left _ _
  refine ⟨h.sound.still (still_push seed e next), h.link, h.minds, ?_, fun id s hs => ?_,
    fun hle => ?_, ?_⟩
  · rw [htold]
    exact max_le h.told_le (h.version_le hnext)
  · exact (h.followed id s hs).imp_left fun hle => hle.trans hgrown
  · change (e.sessions.push next).Settled e.log.roster
    by_cases hnew : e.sessions.notified < next.version
    · -- A push that is no replay is one of the roster in effect.
      have hseed : seed.version < next.version := seed_version_lt h.sound.chain hnext
      have hbefore : e.told seed ≤ next.version := max_le hseed.le hnew.le
      have hlatest : e.log.roster.version ≤ next.version := by
        rwa [htold, max_eq_right hbefore] at hle
      exact h.eq_roster hnext hlatest ▸ Sessions.settled_push hnew
    · rw [Sessions.push_eq_self (not_lt.1 hnew)]
      have hreplay : (e.push next).told seed = e.told seed :=
        congrArg (max seed.version)
          (congrArg Sessions.notified (Sessions.push_eq_self (not_lt.1 hnew)))
      exact h.settled (hreplay ▸ hle)
  · exact h.owed.imp_left fun hle => hle.trans hgrown

theorem Informed.goOn (h : e.Informed seed (Reconfiguration.Beside (.going c) others))
    {p : Progress Reconfiguration (Except Fault Roster)}
    (hminds : ∀ x, p = .going x → x.Minds seed e.log)
    (hfollows : ∀ r, c.Follows r → e.Heard seed (Reconfiguration.Beside p others) r.version)
    (howes : c.Owes seed e.log e.log.roster → e.log.roster.version ≤ e.told seed ∨
      ∃ x, Reconfiguration.Beside p others x ∧ x.Owes seed e.log e.log.roster) :
    e.Informed seed (Reconfiguration.Beside p others) := by
  refine h.recall (fun x hx => ?_) (fun x r hx hr => ?_) fun x hx hr => ?_
  · rcases hx with heq | hx
    · exact hminds x heq
    · exact h.minds x (Or.inr hx)
  · rcases hx with heq | hx
    · cases heq
      exact hfollows r hr
    · exact Or.inr ⟨x, r, Or.inr hx, hr, rfl⟩
  · rcases hx with heq | hx
    · cases heq
      exact howes hr
    · exact Or.inr ⟨x, Or.inr hx, hr⟩

/-- A call is replaced by what it goes on as. Of the roster that it owed the sessions have been told
by then, or whoever has heard of that one or a later one owes it. -/
theorem Informed.replaced {p : Progress Reconfiguration (Except Fault Roster)}
    (h : e.Informed seed (Reconfiguration.Beside p (Reconfiguration.Beside (.going c) others)))
    (hnot : ∀ r, ¬ c.Follows r)
    (hlatest : c.Owes seed e.log e.log.roster → next = e.log.roster) {v : Version}
    (hversion : next.version ≤ v)
    (hheard : e.Heard seed (Reconfiguration.Beside p (Reconfiguration.Beside (.going c) others)) v) :
    e.Informed seed (Reconfiguration.Beside p others) := by
  have hswapped : e.Informed seed
      (Reconfiguration.Beside (.going c) (Reconfiguration.Beside p others)) :=
    h.congr fun x => or_left_comm
  rw [← Reconfiguration.beside_done (.ok next) (Reconfiguration.Beside p others)]
  refine hswapped.goOn (fun x hx => by cases hx) (fun r hr => absurd hr (hnot r)) fun howes => ?_
  rw [Reconfiguration.beside_done]
  rw [hlatest howes] at hversion
  rcases hheard with htold | ⟨y, r, hy, hfollows, rfl⟩
  · exact Or.inl (hversion.trans htold)
  · have hr := h.eq_roster ((h.minds y hy).mem_tail hfollows) hversion
    refine Or.inr ⟨y, hy.imp_right fun hy => hy.resolve_left fun heq => ?_, hr ▸ hfollows.owes⟩
    cases heq
    exact hnot r hfollows

/-- A call that follows a roster up is done with that once the roster is pushed. -/
theorem Informed.pushed (h : e.Informed seed (Reconfiguration.Beside (.going c) others))
    (hnext : c.Follows next) (result : Except Fault Roster) :
    (e.push next).Informed seed (Reconfiguration.Beside (.done result) others) := by
  have hmem := (h.minds c (Or.inl rfl)).mem_tail hnext
  have htold : next.version ≤ (e.push next).told seed := told_push seed e next ▸ le_max_right _ _
  refine (h.push hmem).goOn nofun (fun r hr => ?_) fun howes => ?_
  · exact Or.inl (hr.unique hnext ▸ htold)
  · exact Or.inl (hnext.eq_of_owes howes ▸ htold)

section Step

variable {s : Server} {prev : Roster} {now : Nat}
  {p : Progress Reconfiguration (Except Fault Roster) × Ensemble}

/-- The log grows by one roster at most, or it stays as it is and the sessions are told of a
roster that has taken effect. -/
structure Tells (seed : Roster) (e e' : Ensemble) : Prop where
  gains : Gains seed e.log.entries e'.log.entries
  sessions : e'.sessions = e.sessions ∨ e'.log.entries = e.log.entries ∧
    ∃ next ∈ (rosters seed e.log.entries).tail, e'.sessions = e.sessions.push next

theorem tells_refl (seed : Roster) (e : Ensemble) : Tells seed e e :=
  ⟨gains_refl seed _, Or.inl rfl⟩

theorem tells_of_quiet {log : CommitLog Server} (h : log.entries = e.log.entries) :
    Tells seed e { e with log } :=
  ⟨gains_of_eq seed h, Or.inl rfl⟩

theorem tells_push {log : CommitLog Server} (h : log.entries = e.log.entries)
    (hnext : next ∈ (rosters seed e.log.entries).tail) :
    Tells seed e (({ e with log } : Ensemble).push next) :=
  ⟨gains_of_eq seed h, Or.inr ⟨h, next, hnext, rfl⟩⟩

/-- A server begins to follow up a roster that took effect. Either somebody else is further, or
the call itself goes on with that, or the sessions have been told. -/
theorem Informed.follow (h : e.Informed seed calls) (hs : e.server c.server = .ok s)
    (hnext : next ∈ (rosters seed e.log.entries).tail)
    (hp : c.follow next (FollowUp.start c.server prev next e) = p) :
    p.2.Informed seed (Reconfiguration.Beside p.1 calls) ∧ Tells seed e p.2 ∧
      p.2.log.entries = e.log.entries ∧
      ∃ v, next.version ≤ v ∧ p.2.Heard seed (Reconfiguration.Beside p.1 calls) v := by
  -- The call as it follows the roster up, at whatever stage of that.
  have hgoing (stage : FollowUp.Stage) : (e.marked c.server next.version).Informed seed
      (Reconfiguration.Beside
        (.going { c with stage := .following ⟨c.server, next, stage⟩ }) calls) := by
    have hmore : e.Informed seed (Reconfiguration.Beside
        (.going { c with stage := .following ⟨c.server, next, stage⟩ }) calls) := by
      refine h.more (fun _ => Or.inr) fun x hx => ?_
      rcases hx with heq | hx
      · cases heq
        exact ⟨contains_of_server hs, hnext⟩
      · exact h.minds x hx
    exact hmore.marked c.server (Or.inl rfl) ⟨_, rfl, rfl⟩
  rcases FollowUp.start_news hs prev next with ⟨hold, heq⟩ | ⟨_, ⟨stage, heq⟩ | heq⟩
  · rw [heq] at hp
    subst hp
    refine ⟨?_, tells_refl seed e, rfl, s.followed, hold, ?_⟩
    · exact (Reconfiguration.beside_done (.ok next) calls).symm ▸ h
    · exact (Reconfiguration.beside_done (.ok next) calls).symm ▸
        h.followed c.server s (server_eq_ok_iff.1 hs)
  · rw [heq] at hp
    subst hp
    exact ⟨hgoing stage, tells_of_quiet rfl, rfl, next.version, le_refl _,
      Or.inr ⟨_, next, Or.inl rfl, ⟨_, rfl, rfl⟩, rfl⟩⟩
  · rw [heq] at hp
    subst hp
    exact ⟨(hgoing .renewing).pushed ⟨_, rfl, rfl⟩ (.ok next),
      tells_push rfl hnext, rfl, next.version, le_refl _,
      Or.inl (told_push seed (e.marked c.server next.version) next ▸ le_max_right _ _)⟩

theorem Informed.withLog (h : e.Informed seed calls) (hr : e.log.InRange) {log : CommitLog Server}
    (ho : CommitLog.Onward seed e.log log) (hentries : log.entries = e.log.entries)
    (hk : CommitLog.Keeps Server.followed e.log log) :
    ({ e with log } : Ensemble).Informed seed calls :=
  h.stay (h.sound.onward hr (onward_of_log ho) (hentries ▸ h.sound.chain)) h.link ho.lasting
    (ho.turn.roster_eq hentries) (fun _ _ hP => hP.keeps hk) rfl id

theorem Informed.following (h : e.Informed seed (Reconfiguration.Beside (.going c) others))
    (hr : e.log.InRange) {f : FollowUp} (hstage : c.stage = .following f)
    (hstep : c.step now e = some p) :
    p.2.Informed seed (Reconfiguration.Beside p.1 others) ∧ Tells seed e p.2 := by
  have hminds := h.minds c (Or.inl rfl)
  have hfollows : c.Follows f.next := ⟨f, hstage, rfl⟩
  have hmem := hminds.mem_tail hfollows
  rw [Reconfiguration.Minds, hstage] at hminds
  obtain ⟨s, hs⟩ := exists_server h.sound.tracked hminds.1
  obtain ⟨log, ho, hentries, hk, hcases⟩ := FollowUp.step_news seed f e
  have hlog := h.withLog hr ho hentries hk
  rw [Reconfiguration.step, hs, hstage] at hstep
  dsimp only at hstep
  cases hstep
  rcases hcases with ⟨stage, heq⟩ | heq
  · rw [heq]
    refine ⟨?_, tells_of_quiet hentries⟩
    -- The call stands at another stage of the same follow-up.
    have hgoes : ({ c with stage := .following { f with stage } } : Reconfiguration).Follows
        f.next := ⟨_, rfl, rfl⟩
    refine hlog.goOn (fun x hx => ?_) (fun r hr' => ?_) fun howes => ?_
    · cases hx
      exact ⟨ho.stays c.server hminds.1, hentries ▸ hmem⟩
    · rw [hfollows.unique hr']
      exact Or.inr ⟨_, f.next, Or.inl rfl, hgoes, rfl⟩
    · rw [hfollows.eq_of_owes howes]
      exact Or.inr ⟨_, Or.inl rfl, hgoes.owes⟩
  · rw [heq]
    exact ⟨hlog.pushed hfollows (.ok f.next), tells_push hentries hmem⟩

/-- A server that has applied the record of the roster in effect finds that roster. -/
theorem landed_of_latest (h : e.Sound seed) {n : Nat} {entry : Entry} {t : Server} {id : ServerId}
    (hget : e.log.entries[n]? = some entry) (ht : e.log.replica? id = some t)
    (happlied : entry.stamp ≤ t.view.applied)
    (hinstalls : Installs seed e.log.entries n prev e.log.roster) :
    t.view.committedBy? entry.stamp = some e.log.roster := by
  have hasc := h.ordered.ascending
  have hderived : e.log.roster = rosterAfter seed e.log.entries := h.tracked.derived
  cases hfound : t.view.committedBy? entry.stamp with
  | some r =>
      obtain ⟨prev', hinstalls'⟩ := hasc.installs_of_mem hget
        (h.tracked.mem_rosterHistory_of_committedBy? hasc ht hfound)
      exact congrArg some (hinstalls'.unique hinstalls)
  | none =>
      -- Nothing took effect since, and every server keeps a roster.
      obtain ⟨a, ha, hreplica⟩ := Option.bind_eq_some_iff.1 ht
      obtain ⟨hlt, hview⟩ := h.tracked.handed_of_applied hasc ha hreplica hget happlied
      rw [hview, View.committedBy?_after_take_eq_none_iff hasc hget hinstalls hlt,
        rosters_take_of_latest h.chain (hderived ▸ hinstalls)] at hfound
      have hprefix : (rosters seed (e.log.entries.take a.next)).length ≤
          (rosters seed e.log.entries).length := by
        have hmono : rosterHistory seed (e.log.entries.take a.next) <+:
            rosterHistory seed e.log.entries := rosterHistory_mono (List.take_prefix _ _)
        rw [rosters, rosters, List.length_map, List.length_map]
        exact hmono.length_le
      have hkept := t.settings.one_le_kept
      omega

/-- A step that puts a roster in effect leads to a call that owes the sessions that one. -/
theorem exists_owes_of_moves {recorded : List Nat}
    (hm : Reconfiguration.Moves seed e c recorded p) (hbefore : e.Sound seed)
    (hafter : p.2.Sound seed) (hwithholds : Reconfiguration.Withholds p.1)
    (hnew : p.2.log.roster ≠ e.log.roster) :
    ∃ x, p.1 = .going x ∧ x.Owes seed p.2.log p.2.log.roster := by
  cases hm with
  | quiet onward entries _ _ => exact absurd (onward.log.turn.roster_eq entries) hnew
  | failed onward entries _ _ => exact absurd (onward.log.turn.roster_eq entries) hnew
  | committed proposal current sender _ _ _ _ entries goes settles =>
      have hinstalls : Installs seed p.2.log.entries e.log.entries.length e.log.roster
          p.2.log.roster := by
        rw [hafter.tracked.derived, hbefore.tracked.derived, entries] at hnew ⊢
        exact installs_of_ne hnew
      obtain ⟨progress, e'⟩ := p
      match progress, settles, hwithholds, goes with
      | .going x, settles, _, _ => exact ⟨x, rfl, settles.2.owes hinstalls⟩
      | .done (.ok r), _, hwithholds, _ => exact absurd rfl (hwithholds r)
      | .done (.error fault), _, _, goes => exact absurd ⟨fault, rfl⟩ goes

/-- A call whose record is not committed yet tells the sessions nothing. If it commits one that
puts a roster in effect, it owes them that. -/
theorem Informed.early (h : e.Informed seed (Reconfiguration.Beside (.going c) others))
    (hr : e.log.InRange) (hepoch : e.log.roster.version.epoch ≠ 0xFFFFFFFF)
    (hcounter : e.log.roster.version.counter ≠ 0xFFFFFFFF) (hc : c.Early)
    (hstep : c.step now e = some p) :
    p.2.Informed seed (Reconfiguration.Beside p.1 others) ∧ Tells seed e p.2 := by
  obtain ⟨recorded, hrecorded⟩ := hc.exists_sound (h.minds c (Or.inl rfl))
  have hm := Reconfiguration.moves_of_step h.sound hrecorded hstep
  obtain ⟨hhushed, hwithholds⟩ := Reconfiguration.hushed_of_early hc hstep
  have hsound := h.sound.onward hr hm.onward (hm.chain h.sound hepoch hcounter)
  have hlasting := hm.onward.log.lasting
  have hbefore : e.log.roster = rosterAfter seed e.log.entries := h.sound.tracked.derived
  have hafter : p.2.log.roster = rosterAfter seed p.2.log.entries := hsound.tracked.derived
  have hmem : e.log.roster ∈ rosters seed p.2.log.entries :=
    hbefore ▸ mem_rosters_of_grown hlasting.grows (rosterAfter_mem_rosters seed _)
  have hle : e.log.roster.version ≤ p.2.log.roster.version := by
    rw [hafter]
    exact version_le_rosterAfter hsound.chain hmem
  have htold : p.2.told seed = e.told seed :=
    congrArg (fun s => max seed.version (Sessions.notified s)) hhushed.sessions
  refine ⟨⟨hsound, ?_, fun x hx => ?_, ?_, ?_, fun hreached => ?_, ?_⟩,
    hm.gains, Or.inl hhushed.sessions⟩
  · exact List.eq_nil_iff_forall_not_mem.2 fun t ht =>
      List.not_mem_nil (h.link ▸ hm.onward.link t ht)
  · rcases hx with heq | hx
    · exact hm.minds heq
    · exact (h.minds x (Or.inr hx)).lasting hlasting
  · exact htold ▸ h.told_le.trans hle
  · refine CommitLog.FollowsUp.keeps (fun id s hs => ?_) hhushed.followed
    rcases h.followed id s hs with hold | ⟨x, r, heq | hx, hfollows, hversion⟩
    · exact Or.inl (htold ▸ hold)
    · cases heq
      exact absurd hfollows (hc.not_follows r)
    · exact Or.inr ⟨x, r, Or.inr hx, hfollows, hversion⟩
  · -- The roster in effect has not changed, or the sessions would know of a later one.
    have htoldle : p.2.log.roster.version ≤ e.log.roster.version :=
      (htold ▸ hreached).trans h.told_le
    have hsame : p.2.log.roster = e.log.roster :=
      eq_of_version_eq hsound.chain (hafter ▸ rosterAfter_mem_rosters seed _) hmem
        (le_antisymm htoldle hle)
    rw [hsame, hhushed.sessions]
    exact h.settled (hle.trans (htold ▸ hreached))
  · by_cases hsame : p.2.log.roster = e.log.roster
    · rw [hsame, htold]
      refine h.owed.imp_right fun ⟨x, hx, howes⟩ => ?_
      rcases hx with heq | hx
      · cases heq
        exact absurd howes hc.not_owes
      · exact ⟨x, Or.inr hx, howes.grown hlasting.grows⟩
    · obtain ⟨x, hx, howes⟩ := exists_owes_of_moves hm h.sound hsound hwithholds hsame
      exact Or.inr ⟨x, Or.inl hx, howes⟩

/-- A call that owes the roster in effect finds it when it looks up what its record made. -/
theorem found_of_owes (h : e.Sound seed) {current : Roster} {submission : Submission}
    {stamp : Stamp} {deadline n : Nat} {entry : Entry} {t : Server} {id : ServerId}
    (hstage : c.stage = .submitting current submission)
    (hlanding : submission.stage = .landing stamp deadline)
    (hget : e.log.entries[n]? = some entry) (hstamp : entry.stamp = stamp)
    (ht : e.log.replica? id = some t) (happlied : stamp ≤ t.view.applied)
    (howes : c.Owes seed e.log e.log.roster) :
    t.view.committedBy? stamp = some e.log.roster := by
  rw [Reconfiguration.Owes, hstage] at howes
  obtain ⟨stamp', _, hlanding', hchange⟩ := howes
  cases hlanding.symm.trans hlanding'
  subst hstamp
  obtain ⟨prev, hinstalls⟩ :=
    h.ordered.ascending.installs_of_mem hget (List.mem_cons_of_mem _ hchange)
  exact landed_of_latest h hget ht happlied hinstalls

theorem Informed.landing (h : e.Informed seed (Reconfiguration.Beside (.going c) others))
    {current : Roster} {submission : Submission} {stamp : Stamp} {deadline : Nat}
    (hstage : c.stage = .submitting current submission)
    (hlanding : submission.stage = .landing stamp deadline) (hstep : c.step now e = some p) :
    p.2.Informed seed (Reconfiguration.Beside p.1 others) ∧ Tells seed e p.2 := by
  have hminds := h.minds c (Or.inl rfl)
  rw [Reconfiguration.Minds, hstage] at hminds
  obtain ⟨recorded, hsound⟩ := hminds
  rw [Reconfiguration.Sound, hstage] at hsound
  obtain ⟨hin, hmem, hvetted, hshows⟩ := hsound
  rw [Submission.Shows, hlanding] at hshows
  obtain ⟨⟨t, ht, hle⟩, n, sender, _, hget⟩ := hshows
  obtain ⟨s, hs⟩ := exists_server h.sound.tracked hin
  rw [Reconfiguration.step_of_landing hstage hlanding hs (server_eq_ok_iff.2 ht) hle] at hstep
  have hnot (r : Roster) : ¬ c.Follows r := by
    rintro ⟨f, hf, _⟩
    cases hstage.symm.trans hf
  have hfinds (howes : c.Owes seed e.log e.log.roster) :
      t.view.committedBy? stamp = some e.log.roster :=
    found_of_owes h.sound hstage hlanding hget rfl ht hle howes
  have hreleased : (e.adjust c.server .release).Informed seed
      (Reconfiguration.Beside (.going c) others) := by
    have hstill := still_release seed e c.server
    exact h.stay (h.sound.still hstill) h.link hstill.onward.log.lasting rfl
      (fun _ _ hP => hP.keeps (CommitLog.keeps_adjust e.log c.server fun _ => rfl)) rfl id
  cases hnext : t.view.committedBy? stamp with
  | none =>
      rw [Reconfiguration.landed_of_none hnext] at hstep
      cases hstep
      refine ⟨hreleased.goOn (fun x hx => by cases hx) (fun r hr => absurd hr (hnot r))
        fun howes => ?_, tells_of_quiet rfl⟩
      cases hnext.symm.trans (hfinds howes)
  | some next =>
      have hlanded : submission.landed t stamp = .ok next := by
        rw [Submission.landed, hnext]
      obtain ⟨prev, _, hinstalls, _⟩ :=
        Reconfiguration.grants_of_landed h.sound hmem hvetted hget ht hnext
      have hreplica : (e.adjust c.server .release).server c.server = .ok s.release :=
        server_adjust hs Server.release
      rw [hlanded] at hstep
      obtain ⟨hinformed, htells, hentries, v, hversion, hheard⟩ :=
        hreleased.follow hreplica hinstalls.mem_tail (Option.some.inj hstep)
      refine ⟨hinformed.replaced hnot (fun howes => ?_) hversion hheard, htells.gains,
        htells.sessions⟩
      have hroster : p.2.log.roster = e.log.roster := by
        rw [hinformed.sound.tracked.derived, h.sound.tracked.derived, hentries]
        rfl
      rw [hroster] at howes ⊢
      exact Option.some.inj
        (hnext.symm.trans (hfinds (howes.grown (hentries ▸ List.prefix_refl _))))

theorem Informed.step (h : e.Informed seed (Reconfiguration.Beside (.going c) others))
    (hr : e.log.InRange) (hepoch : e.log.roster.version.epoch ≠ 0xFFFFFFFF)
    (hcounter : e.log.roster.version.counter ≠ 0xFFFFFFFF) (hstep : c.step now e = some p) :
    p.2.Informed seed (Reconfiguration.Beside p.1 others) ∧ Tells seed e p.2 := by
  rcases c.early_cases with hearly | ⟨_, _, _, _, hstage, hlanding⟩ | ⟨f, hstage⟩
  · exact h.early hr hepoch hcounter hearly hstep
  · exact h.landing hstage hlanding hstep
  · exact h.following hr hstage hstep

/-- A server follows up a roster that took effect, no matter whether that was done before. -/
theorem Informed.echo (h : e.Informed seed calls) (server : ServerId) (prev : Roster)
    (hnext : next ∈ (rosters seed e.log.entries).tail) :
    (Reconfiguration.echo server prev next e).2.Informed seed
        (Reconfiguration.Beside (Reconfiguration.echo server prev next e).1 calls) ∧
      Tells seed e (Reconfiguration.echo server prev next e).2 := by
  cases hs : e.server server with
  | error fault =>
      have heq : Reconfiguration.echo server prev next e = (.done (.error fault), e) := by
        rw [Reconfiguration.echo, FollowUp.start, hs]
        rfl
      rw [heq, Reconfiguration.beside_done]
      exact ⟨h, tells_refl seed e⟩
  | ok s =>
      obtain ⟨hinformed, htells, _⟩ :=
        h.follow (c := .start server ⟨.incremental [] [], none⟩) hs hnext rfl
      exact ⟨hinformed, htells⟩

end Step

end Ensemble

end Quorate
