import Quorate.Proofs.Cluster.Consistent

/-!
# Reconfigurations as atomic exchanges

However calls and everything else are interleaved, the rosters that take effect form a chain
of successions (`rosters_succeed`). A call that answers with a roster appended the one entry
that put it in effect, after the very roster that the request was computed on, and no two calls
share an entry, or the roster that they replaced.

A call that fails has put nothing in effect, but for one case: between the commit of its record
and the look-up of what that made, its server has applied as many other rosters as it keeps, so
that the look-up finds nothing (`Outrun`). Such a call denies the roster that it made, and no
other call does (`denies_run`). `atomic_iff_not_outrun` puts this together, and
`staleVersion_outrunRun` is a run in which it happens.
-/

namespace Quorate.Cluster

variable {template : Settings} {seed : Roster} {s : Cluster}

/-- Two delayed proposals, which are committed after the leadership moved to and fro, the
second one in vain; then a third one, which takes a participant out. -/
def contendedRun : List Action :=
  [.spawn 1, .spawn 2, .spawn 3, .elect,
    .relink [⟨5, .forwarded⟩, ⟨9, .forwarded⟩] (by
      intro t ht
      rcases List.mem_pair.1 ht with rfl | rfl <;> exact trivial),
    .call 3 ⟨.incremental [.onPorts 4 40 .observer] [], none⟩,
    .advance 0 0, .advance 0 0, .advance 0 0, .stop 3, .elect, .start 3,
    .call 2 ⟨.replacement [.onPorts 2 20, .onPorts 3 30], some .zero⟩,
    .advance 1 0, .advance 1 0, .advance 1 0, .stop 2, .elect, .start 2,
    .advance 0 5, .stop 3, .elect, .start 3, .advance 1 9, .advance 0 9, .advance 1 9,
    .call 2 ⟨.incremental [] [1], none⟩,
    .advance 2 9, .advance 2 9, .advance 2 9, .advance 2 9, .advance 2 9, .advance 2 9]

theorem reachable_contendedRun : (run {} .trio contendedRun).Reachable {} .trio :=
  reachable_run contendedRun (by decide +kernel)

/-- From the seed to the roster of the log, every roster succeeds the one before it. -/
theorem rosters_succeed (h : s.Reachable template seed) :
    (rosters seed s.ensemble.log.entries).head? = some seed ∧
      (rosters seed s.ensemble.log.entries).getLast? = some s.ensemble.log.roster ∧
      (rosters seed s.ensemble.log.entries).IsChain Roster.Succeeds := by
  have hsound := h.consistent.sound
  refine ⟨rfl, ?_, hsound.chain⟩
  rw [getLast?_rosters, hsound.tracked.derived]

theorem rosters_succeed_contendedRun :
    (rosters .trio (run {} .trio contendedRun).ensemble.log.entries).IsChain Roster.Succeeds ∧
      (rosters .trio (run {} .trio contendedRun).ensemble.log.entries).map (·.ids) =
        [[1, 2, 3], [1, 2, 3, 4], [2, 3, 4]] :=
  ⟨(rosters_succeed reachable_contendedRun).2.2, by decide +kernel⟩

/-- What a successful call has to show, in terms of the change that it computed. -/
theorem Consistent.grants (h : s.Consistent seed) {i : Nat} {a : Attempt} {next : Roster}
    (ha : s.calls[i]? = some a) (hok : a.progress = some (.done (.ok next))) :
    ∃ n prev change, a.recorded = [n] ∧ Installs seed s.ensemble.log.entries n prev next ∧
      Change.compute prev a.request.change = .ok change ∧ next.members = change.members ∧
      ∀ expected, a.request.expected = some expected → expected = prev.version := by
  obtain ⟨n, hrecorded, prev, p, hinstalls, ⟨change, candidate, hexamine, rfl⟩, hmembers⟩ :=
    h.settles i a ha _ hok
  obtain ⟨hexpected, hcompute, _⟩ := examine_eq_ok hexamine
  exact ⟨n, prev, change, hrecorded, hinstalls, hcompute, hmembers, hexpected⟩

theorem Consistent.exclusive (h : s.Consistent seed) {i j m n : Nat} {a b : Attempt}
    {prev prev' next next' : Roster} (ha : s.calls[i]? = some a) (hb : s.calls[j]? = some b)
    (hne : i ≠ j) (hm : m ∈ a.recorded) (hn : n ∈ b.recorded)
    (hinstalls : Installs seed s.ensemble.log.entries m prev next)
    (hinstalls' : Installs seed s.ensemble.log.entries n prev' next') : m ≠ n ∧ prev ≠ prev' := by
  have hmn : m ≠ n := by
    rintro rfl
    exact hne (h.apart i j a b ha hb m hm hn)
  refine ⟨hmn, ?_⟩
  rintro rfl
  rcases Nat.lt_or_gt_of_ne hmn with hlt | hgt
  · exact (hinstalls.version_lt h.sound.chain hinstalls' hlt).ne rfl
  · exact (hinstalls'.version_lt h.sound.chain hinstalls hgt).ne rfl

/-- A server never holds a roster under the stamp of an entry that put none in effect. -/
theorem Consistent.not_mem_history (h : s.Consistent seed) {n : Nat} {e : Entry}
    (hget : s.ensemble.log.entries[n]? = some e)
    (hnot : ∀ prev next, ¬ Installs seed s.ensemble.log.entries n prev next)
    {id : ServerId} {t : Server} (ht : s.ensemble.server id = .ok t) (r : Roster) :
    (e.stamp, r) ∉ t.view.history := by
  intro hmem
  obtain ⟨k, hview⟩ := h.sound.tracked.exists_view_eq h.sound.ordered.ascending
    (Ensemble.server_eq_ok_iff.1 ht)
  rw [hview] at hmem
  have hhistory := (rosterHistory_mono (List.take_prefix k s.ensemble.log.entries)).subset
    (View.mem_rosterHistory_of_mem_history hmem)
  obtain ⟨prev, hinstalls⟩ := h.sound.ordered.ascending.installs_of_mem hget hhistory
  exact hnot prev r hinstalls

/-- The call at a place has failed, but an entry that it recorded put a roster in effect. -/
def Denies (seed : Roster) (s : Cluster) (place : Nat) : Prop :=
  ∃ a fault n prev next, s.calls[place]? = some a ∧
    a.progress = some (.done (.error fault)) ∧ n ∈ a.recorded ∧
    Installs seed s.ensemble.log.entries n prev next

/-- The call at a place has put a roster in effect and is about to look it up, but of the
entries handed to its server, as many as it keeps rosters for put another one in effect since. -/
def Outrun (seed : Roster) (s : Cluster) (place : Nat) : Prop :=
  ∃ a c current submission n prev next attachment t, s.call? place = some (a, c) ∧
    c.stage = .submitting current submission ∧ n ∈ a.recorded ∧
    Installs seed s.ensemble.log.entries n prev next ∧
    s.ensemble.log.attached.get? submission.server = some attachment ∧
    attachment.replica = some t ∧
    (rosters seed (s.ensemble.log.entries.take (n + 1))).length + t.settings.kept ≤
      (rosters seed (s.ensemble.log.entries.take attachment.next)).length

section Outrun

variable {place : Nat} {a : Attempt} {c : Reconfiguration}

/-- A call that has recorded an entry and still submits it is about to look it up, on a server
that was handed the entry. -/
theorem Consistent.landing (h : s.Consistent seed) (hcall : s.call? place = some (a, c))
    {current : Roster} {submission : Submission} (hstage : c.stage = .submitting current submission)
    {n : Nat} (hn : n ∈ a.recorded) :
    ∃ e deadline attachment t, s.ensemble.log.entries[n]? = some e ∧
      submission.stage = .landing e.stamp deadline ∧
      s.ensemble.log.attached.get? submission.server = some attachment ∧
      attachment.replica = some t ∧ e.stamp ≤ t.view.applied ∧ n < attachment.next ∧
      t.view = View.after t.settings.kept seed
        (s.ensemble.log.entries.take attachment.next) := by
  obtain ⟨ha, hc⟩ := call?_eq_some_iff.1 hcall
  have hsound := (h.settles place a ha _ hc).2
  rw [Reconfiguration.Sound, hstage] at hsound
  have hshows := hsound.2.2.2
  unfold Submission.Shows at hshows
  split at hshows
  · rw [hshows.1] at hn
    cases hn
  · rename_i stamp deadline hlanding
    obtain ⟨⟨t, ht, hle⟩, m, sender, hrecorded, hget⟩ := hshows
    rw [hrecorded, List.mem_singleton] at hn
    subst hn
    obtain ⟨attachment, hattachment, hreplica⟩ := Option.bind_eq_some_iff.1 ht
    obtain ⟨hlt, hview⟩ := h.sound.tracked.handed_of_applied h.sound.ordered.ascending hattachment
      hreplica hget hle
    exact ⟨_, deadline, attachment, t, hget, hlanding, hattachment, hreplica, hle, hlt, hview⟩

/-- Such a call misses what its record made exactly if it was outrun. -/
theorem Consistent.outrun_iff (h : s.Consistent seed) (hcall : s.call? place = some (a, c)) :
    s.Outrun seed place ↔ c.Missed s.ensemble ∧ ∃ n ∈ a.recorded, ∃ prev next,
      Installs seed s.ensemble.log.entries n prev next := by
  have hasc := h.sound.ordered.ascending
  constructor
  · rintro ⟨b, d, current, submission, n, prev, next, attachment, t, hcall', hstage, hn,
      hinstalls, hattachment, hreplica, hmany⟩
    cases hcall.symm.trans hcall'
    obtain ⟨e, deadline, b, u, hget, hlanding, hb, hu, _, hlt, hview⟩ :=
      h.landing hcall hstage hn
    cases hattachment.symm.trans hb
    cases hreplica.symm.trans hu
    refine ⟨⟨current, submission, e.stamp, deadline, t, hstage, hlanding, ?_, ?_⟩,
      n, hn, prev, next, hinstalls⟩
    · rw [CommitLog.replica?, hattachment, Option.bind_some, hreplica]
    · rw [hview]
      exact (View.committedBy?_after_take_eq_none_iff hasc hget hinstalls hlt).2 hmany
  · rintro ⟨⟨current, submission, stamp, deadline, t, hstage, hlanding, ht, hnone⟩, n, hn, prev,
      next, hinstalls⟩
    obtain ⟨e, _, attachment, u, hget, hlanding', hattachment, hu, _, hlt, hview⟩ :=
      h.landing hcall hstage hn
    cases hlanding.symm.trans hlanding'
    rw [CommitLog.replica?, hattachment, Option.bind_some] at ht
    cases hu.symm.trans ht
    rw [hview] at hnone
    exact ⟨a, c, current, submission, n, prev, next, attachment, t, hcall, hstage, hn, hinstalls,
      hattachment, hu, (View.committedBy?_after_take_eq_none_iff hasc hget hinstalls hlt).1 hnone⟩

theorem Consistent.fails_of_missed (h : s.Consistent seed) (hcall : s.call? place = some (a, c))
    (hmissed : c.Missed s.ensemble) {n : Nat} (hn : n ∈ a.recorded) (now : Nat) :
    ∃ p, c.step now s.ensemble = some p ∧ p.1.Fails := by
  obtain ⟨current, submission, stamp, deadline, t, hstage, hlanding, ht, hnone⟩ := hmissed
  obtain ⟨e, _, attachment, u, _, hlanding', hattachment, hu, hle, _⟩ := h.landing hcall hstage hn
  cases hlanding.symm.trans hlanding'
  rw [CommitLog.replica?, hattachment, Option.bind_some] at ht
  cases hu.symm.trans ht
  obtain ⟨ha, hc⟩ := call?_eq_some_iff.1 hcall
  have hsound := (h.settles place a ha _ hc).2
  rw [Reconfiguration.Sound, hstage] at hsound
  obtain ⟨s', hs'⟩ := Ensemble.exists_server h.sound.tracked hsound.1
  have hserver : s.ensemble.server submission.server = .ok t := by
    rw [Ensemble.server_eq_ok_iff, CommitLog.replica?, hattachment, Option.bind_some, hu]
  refine ⟨_, Reconfiguration.step_of_landing hstage hlanding hs' hserver hle now, ?_⟩
  rw [Reconfiguration.landed_of_none hnone]
  exact ⟨_, rfl⟩

end Outrun

theorem Consistent.grown (h : s.Consistent seed) (action : Action) :
    s.ensemble.log.entries <+: (s.perform action).ensemble.log.entries := by
  cases action with
  | spawn id =>
      rw [Cluster.perform, Ensemble.spawn]
      split <;> exact List.prefix_refl _
  | stop id =>
      rw [Cluster.perform, Ensemble.stop]
      split
      · exact List.prefix_refl _
      · exact (CommitLog.turn_stop s.ensemble.log id).entries_grow
  | start id => exact (CommitLog.turn_start s.ensemble.log id).entries_grow
  | elect => exact (CommitLog.turn_elect s.ensemble.log).entries_grow
  | resign leader => exact (CommitLog.turn_resign s.ensemble.log leader).entries_grow
  | establish leader => exact (CommitLog.turn_establish s.ensemble.log leader).entries_grow
  | write sender record _ => exact (CommitLog.turn_propose s.ensemble.log sender record).entries_grow
  | relink link _ => exact List.prefix_refl _
  | clients sessions serial => exact List.prefix_refl _
  | call server request => exact List.prefix_refl _
  | advance i now =>
      cases hcall : s.call? i with
      | none =>
          rw [Cluster.perform, Cluster.advance, hcall]
      | some pair =>
          obtain ⟨a, c⟩ := pair
          rw [Cluster.perform]
          cases hstep : c.step now s.ensemble with
          | none => rw [advance_of_none hcall hstep]
          | some p =>
              rw [advance_of_step hcall hstep]
              exact (h.moves hcall hstep).onward.log.turn.entries_grow
  | abandon i =>
      rw [Cluster.perform, Cluster.abandon]
      split
      · exact List.prefix_refl _
      · rename_i a c _
        change s.ensemble.log.entries <+: (c.abandon s.ensemble).log.entries
        unfold Reconfiguration.abandon
        split <;> exact List.prefix_refl _

section Denies

variable {s' : Cluster} {place : Nat}

/-- A call that has failed denies a roster as long as it does, whatever happens. -/
theorem Consistent.denies_iff (h : s.Consistent seed)
    (hgrown : s.ensemble.log.entries <+: s'.ensemble.log.entries)
    (hcalls : ∀ a fault, a.progress = some (.done (.error fault)) →
      (s'.calls[place]? = some a ↔ s.calls[place]? = some a)) :
    s'.Denies seed place ↔ s.Denies seed place := by
  obtain ⟨more, hmore⟩ := hgrown
  constructor
  · rintro ⟨a, fault, n, prev, next, ha, hfault, hn, hinstalls⟩
    have hold := (hcalls a fault hfault).1 ha
    rw [← hmore] at hinstalls
    exact ⟨a, fault, n, prev, next, hold, hfault, hn,
      hinstalls.of_append (h.past place a hold n hn)⟩
  · rintro ⟨a, fault, n, prev, next, ha, hfault, hn, hinstalls⟩
    refine ⟨a, fault, n, prev, next, (hcalls a fault hfault).2 ha, hfault, hn, ?_⟩
    rw [← hmore]
    exact hinstalls.append more

/-- A step of a call makes it deny a roster exactly if it was outrun. -/
theorem Consistent.denies_record (h : s.Consistent seed) {a : Attempt} {c : Reconfiguration}
    (hcall : s.call? place = some (a, c)) {now : Nat}
    {p : Progress Reconfiguration (Except Fault Roster) × Ensemble}
    (hstep : c.step now s.ensemble = some p) :
    (s.record place a (some p.1) p.2).Denies seed place ↔ s.Outrun seed place := by
  obtain ⟨ha, hc⟩ := call?_eq_some_iff.1 hcall
  have hafter := calls_record ha (some p.1) p.2 place
  rw [if_pos rfl] at hafter
  have hgoes (hgoes : ¬ p.1.Fails) :
      (s.record place a (some p.1) p.2).Denies seed place ↔ s.Outrun seed place := by
    refine iff_of_false ?_ fun houtrun => ?_
    · rintro ⟨b, fault, _, _, _, hb, hfault, _⟩
      cases hafter.symm.trans hb
      exact hgoes ⟨fault, Option.some.inj hfault⟩
    · obtain ⟨hmissed, n, hn, _⟩ := (h.outrun_iff hcall).1 houtrun
      obtain ⟨q, hq, hfails⟩ := h.fails_of_missed hcall hmissed hn now
      cases hstep.symm.trans hq
      exact hgoes hfails
  cases h.moves hcall hstep with
  | quiet _ _ goes _ => exact hgoes goes
  | committed _ _ _ _ _ _ _ _ goes _ => exact hgoes goes
  | failed _ entries fails lost =>
      obtain ⟨fault, hfault⟩ := fails
      rw [entries, newPlaces_self, List.append_nil] at hafter
      rw [h.outrun_iff hcall]
      constructor
      · rintro ⟨b, _, n, prev, next, hb, _, hn, hinstalls⟩
        cases hafter.symm.trans hb
        have hmissed := lost.resolve_left fun hnil => List.ne_nil_of_mem hn hnil
        exact ⟨hmissed, n, hn, prev, next, entries ▸ hinstalls⟩
      · rintro ⟨_, n, hn, prev, next, hinstalls⟩
        exact ⟨_, fault, n, prev, next, hafter, congrArg some hfault, hn,
          entries.symm ▸ hinstalls⟩

theorem Consistent.denies_advance (h : s.Consistent seed) (i now : Nat) :
    (s.advance i now).Denies seed place ↔
      s.Denies seed place ∨ i = place ∧ s.Outrun seed place := by
  have hnone (hcall : ∀ a c, s.call? i = some (a, c) → c.step now s.ensemble = none) :
      ¬ (i = place ∧ s.Outrun seed place) := by
    rintro ⟨rfl, houtrun⟩
    obtain ⟨a, c, _, _, n, _, _, _, _, hc, _, hn, _⟩ := id houtrun
    obtain ⟨p, hp, _⟩ := h.fails_of_missed hc ((h.outrun_iff hc).1 houtrun).1 hn now
    cases (hcall a c hc).symm.trans hp
  cases hcall : s.call? i with
  | none =>
      rw [Cluster.advance, hcall, or_iff_left (hnone fun a c hc => by cases hcall.symm.trans hc)]
  | some pair =>
      obtain ⟨a, c⟩ := pair
      cases hstep : c.step now s.ensemble with
      | none =>
          rw [advance_of_none hcall hstep, or_iff_left (hnone fun a c hc => by
            cases hcall.symm.trans hc
            exact hstep)]
      | some p =>
          obtain ⟨ha, hc⟩ := call?_eq_some_iff.1 hcall
          rw [advance_of_step hcall hstep]
          by_cases hi : i = place
          · subst hi
            rw [h.denies_record hcall hstep, or_iff_right, and_iff_right rfl]
            rintro ⟨b, fault, _, _, _, hb, hfault, _⟩
            cases ha.symm.trans hb
            cases hc.symm.trans hfault
          · rw [or_iff_left fun hboth => hi hboth.1]
            refine h.denies_iff (h.moves hcall hstep).onward.log.turn.entries_grow
              fun b fault _ => ?_
            rw [calls_record ha, if_neg (Ne.symm hi)]

theorem Consistent.denies_perform (h : s.Consistent seed) (action : Action) (place : Nat) :
    (s.perform action).Denies seed place ↔
      s.Denies seed place ∨ ∃ now, action = .advance place now ∧ s.Outrun seed place := by
  have helse (hother : ∀ now, action ≠ .advance place now)
      (hcalls : ∀ a fault, a.progress = some (.done (.error fault)) →
        ((s.perform action).calls[place]? = some a ↔ s.calls[place]? = some a)) :
      (s.perform action).Denies seed place ↔
        s.Denies seed place ∨ ∃ now, action = .advance place now ∧ s.Outrun seed place := by
    rw [or_iff_left fun ⟨now, heq, _⟩ => hother now heq]
    exact h.denies_iff (h.grown action) hcalls
  cases action with
  | advance i now =>
      refine (h.denies_advance i now).trans (or_congr_right ?_)
      constructor
      · rintro ⟨rfl, houtrun⟩
        exact ⟨now, rfl, houtrun⟩
      · rintro ⟨_, heq, houtrun⟩
        cases heq
        exact ⟨rfl, houtrun⟩
  | call server request =>
      refine helse (by simp) fun a fault hfault => ?_
      rw [Cluster.perform, List.getElem?_append]
      split
      · exact Iff.rfl
      · rename_i hbeyond
        rw [List.getElem?_eq_none (Nat.le_of_not_lt hbeyond)]
        refine iff_of_false (fun hget => ?_) (by simp)
        cases List.mem_singleton.1 (List.mem_of_getElem? hget)
        cases hfault
  | abandon i =>
      refine helse (by simp) fun a fault hfault => ?_
      rw [Cluster.perform, Cluster.abandon]
      split
      · exact Iff.rfl
      · rename_i b c hcall
        obtain ⟨hb, hc⟩ := call?_eq_some_iff.1 hcall
        rw [calls_record hb]
        split
        · rename_i hi
          subst hi
          refine iff_of_false (fun hget => ?_) fun hget => ?_
          · cases hget
            cases hfault
          · cases hb.symm.trans hget
            cases hc.symm.trans hfault
        · exact Iff.rfl
  | spawn id => exact helse (by simp) fun _ _ _ => Iff.rfl
  | stop id => exact helse (by simp) fun _ _ _ => Iff.rfl
  | start id => exact helse (by simp) fun _ _ _ => Iff.rfl
  | elect => exact helse (by simp) fun _ _ _ => Iff.rfl
  | resign leader => exact helse (by simp) fun _ _ _ => Iff.rfl
  | establish leader => exact helse (by simp) fun _ _ _ => Iff.rfl
  | write sender record plain => exact helse (by simp) fun _ _ _ => Iff.rfl
  | relink link honest => exact helse (by simp) fun _ _ _ => Iff.rfl
  | clients sessions serial => exact helse (by simp) fun _ _ _ => Iff.rfl

/-- The calls of a run that deny a roster are those that went on after they were outrun. -/
theorem denies_run (template : Settings) (seed : Roster) {actions : List Action}
    (h : ∀ k ≤ actions.length, (run template seed (actions.take k)).Bounded) (place : Nat) :
    (run template seed actions).Denies seed place ↔ ∃ k now,
      actions[k]? = some (.advance place now) ∧
        (run template seed (actions.take k)).Outrun seed place := by
  have hconsistent {k : Nat} (hk : k ≤ actions.length) :
      (run template seed (actions.take k)).Consistent seed := by
    refine (reachable_run (actions.take k) fun j hj => ?_).consistent
    rw [List.take_take]
    exact h _ ((Nat.min_le_right j k).trans hk)
  have hrun := foldl_iff_exists (Denies seed · place)
    (fun s action => ∃ now, action = .advance place now ∧ s.Outrun seed place)
    (show ¬ (initial template seed).Denies seed place by simp [Denies, initial])
    actions fun k a hk =>
      (hconsistent (List.getElem?_eq_some_iff.1 hk).1.le).denies_perform a place
  refine hrun.trans ⟨?_, ?_⟩
  · rintro ⟨k, _, hk, now, rfl, houtrun⟩
    exact ⟨k, now, hk, houtrun⟩
  · rintro ⟨k, now, hk, houtrun⟩
    exact ⟨k, _, hk, now, rfl, houtrun⟩

end Denies

/-- Every call exchanges one roster for the next or leaves them alone, and every roster that
took effect is due to a call. A call that fails has left them alone unless it was outrun before
it looked its roster up, and then it did not; an entry that left them alone is in no view. -/
theorem atomic_iff_not_outrun (template : Settings) (seed : Roster) (actions : List Action)
    (h : ∀ k ≤ actions.length, (run template seed (actions.take k)).Bounded) :
    let s := run template seed actions
    (∀ (i : Nat) (a : Attempt) (next : Roster), s.calls[i]? = some a →
      a.progress = some (.done (.ok next)) →
      ∃ n prev change, a.recorded = [n] ∧ Installs seed s.ensemble.log.entries n prev next ∧
        Change.compute prev a.request.change = .ok change ∧ next.members = change.members ∧
        ∀ expected, a.request.expected = some expected → expected = prev.version) ∧
    (∀ (i j : Nat) (a b : Attempt), s.calls[i]? = some a → s.calls[j]? = some b → i ≠ j →
      ∀ m n prev prev' next next', m ∈ a.recorded → n ∈ b.recorded →
        Installs seed s.ensemble.log.entries m prev next →
        Installs seed s.ensemble.log.entries n prev' next' → m ≠ n ∧ prev ≠ prev') ∧
    (∀ (i : Nat) (a : Attempt) (fault : Fault), s.calls[i]? = some a →
      a.progress = some (.done (.error fault)) →
      ((∃ n ∈ a.recorded, ∃ prev next, Installs seed s.ensemble.log.entries n prev next) ↔
        ∃ k now, actions[k]? = some (.advance i now) ∧
          (run template seed (actions.take k)).Outrun seed i) ∧
      ∀ n e, n ∈ a.recorded → s.ensemble.log.entries[n]? = some e →
        (∀ prev next, ¬ Installs seed s.ensemble.log.entries n prev next) →
        ∀ id t, s.ensemble.server id = .ok t → ∀ r, (e.stamp, r) ∉ t.view.history) ∧
    (∀ n prev next, Installs seed s.ensemble.log.entries n prev next →
      ∃ (i : Nat) (a : Attempt), s.calls[i]? = some a ∧ n ∈ a.recorded) := by
  intro s
  have hs : s.Consistent seed := (reachable_run actions h).consistent
  refine ⟨?_, ?_, ?_, ?_⟩
  · intro i a next ha hok
    exact hs.grants ha hok
  · intro i j a b ha hb hne m n prev prev' next next' hm hn hinstalls hinstalls'
    exact hs.exclusive ha hb hne hm hn hinstalls hinstalls'
  · intro i a fault ha herror
    refine ⟨?_, fun n e _ hget hnot id t ht r => hs.not_mem_history hget hnot ht r⟩
    rw [← denies_run template seed h i]
    constructor
    · rintro ⟨n, hn, prev, next, hinstalls⟩
      exact ⟨a, fault, n, prev, next, ha, herror, hn, hinstalls⟩
    · rintro ⟨b, _, n, prev, next, hb, _, hn, hinstalls⟩
      cases ha.symm.trans hb
      exact ⟨n, hn, prev, next, hinstalls⟩
  · rintro n prev next ⟨_, e, hget, hnext⟩
    apply hs.complete n e hget
    obtain ⟨p, hp, _⟩ := Record.successor?_eq_some_iff.1 hnext
    rw [hp]
    rfl

/-- The first call is committed. Before it looks its roster up, the lead changes and two further
rosters take effect, and a server keeps two. -/
def outrunRun : List Action :=
  [.spawn 1, .spawn 2, .spawn 3, .elect,
    .call 3 ⟨.incremental [.onPorts 4 40 .observer] [], none⟩,
    .advance 0 0, .advance 0 0, .advance 0 0, .advance 0 0, .stop 3, .elect, .start 3,
    .call 2 ⟨.incremental [.onPorts 5 50 .observer] [], none⟩,
    .advance 1 0, .advance 1 0, .advance 1 0, .advance 1 0, .advance 1 0,
    .call 2 ⟨.incremental [.onPorts 6 60 .observer] [], none⟩,
    .advance 2 0, .advance 2 0, .advance 2 0, .advance 2 0, .advance 2 0,
    .advance 0 0]

/-- In that run the first call fails as stale. Its entry put a roster in effect, so the call was
outrun. -/
theorem atomic_iff_not_outrun_outrunRun :
    (∃ prev next, Installs .trio
      (run { historyLimit := 2 } .trio outrunRun).ensemble.log.entries 0 prev next) ∧
    ∃ k now, outrunRun[k]? = some (.advance 0 now) ∧
      (run { historyLimit := 2 } .trio (outrunRun.take k)).Outrun .trio 0 := by
  have hbounded : ∀ k ≤ outrunRun.length,
      (run { historyLimit := 2 } .trio (outrunRun.take k)).Bounded := by decide +kernel
  have hfirst : (run { historyLimit := 2 } .trio outrunRun).calls[0]? =
      some ⟨⟨.incremental [.onPorts 4 40 .observer] [], none⟩,
        some (.done (.error (.staleVersion .zero (.make 2 2)))), [0]⟩ := by
    decide +kernel
  have hinstalls : ∃ prev next, Installs .trio
      (run { historyLimit := 2 } .trio outrunRun).ensemble.log.entries 0 prev next :=
    exists_installs_iff.2 (by decide +kernel)
  obtain ⟨_, _, hfailed, _⟩ := atomic_iff_not_outrun { historyLimit := 2 } .trio outrunRun hbounded
  exact ⟨hinstalls, (hfailed 0 _ _ hfirst rfl).1.1 ⟨0, List.mem_singleton_self 0, hinstalls⟩⟩

/-- The call answers that it was stale though the roster that it asked for took effect. -/
theorem staleVersion_outrunRun :
    (∀ k ≤ outrunRun.length,
      (run { historyLimit := 2 } .trio (outrunRun.take k)).Bounded) ∧
    (run { historyLimit := 2 } .trio outrunRun).calls[0]? =
        some ⟨⟨.incremental [.onPorts 4 40 .observer] [], none⟩,
          some (.done (.error (.staleVersion .zero (.make 2 2)))), [0]⟩ ∧
      ∃ prev next, Installs .trio
        (run { historyLimit := 2 } .trio outrunRun).ensemble.log.entries 0 prev next :=
  ⟨by decide +kernel, by decide +kernel, exists_installs_iff.2 (by decide +kernel)⟩

end Quorate.Cluster
