import Mathlib.Data.List.Sort
import Quorate.Proofs.Service.Told

/-!
# Notifications of a session that watches

A session that watches is sent every roster that the sessions are told of while it is open. What
it receives is the rosters that are committed, in their order and each of them once, but for
those that are overtaken (`Site.received_exact`). A run adds up what its events add to the inbox
(`Arises.receives`). It makes no difference which server committed or followed up what, how often
that was done, or what became of other sessions and their inboxes.

The push of a later roster does come first in `Site.received_overtaking`, where the leader commits
a second roster before it has followed up the first one.
-/

namespace Quorate

theorem Sessions.Watches.inbox_push {s : Sessions} {id : SessionId} {inbox : List Notification}
    (h : s.Watches id inbox) (r : Roster) :
    (s.push r).inboxes.get? id =
      some (if r.version ≤ s.notified then inbox else inbox ++ [r.notification]) := by
  by_cases hold : r.version ≤ s.notified
  · rw [push_eq_self hold, if_pos hold]
    exact h.inbox_eq
  · rw [if_neg hold]
    exact (h.push (not_le.1 hold)).inbox_eq

theorem Sessions.Shift.inbox_push {s s' : Sessions} {r : Roster} {id other : SessionId}
    {inbox : List Notification} (h : s.Shift r (some other) s') (hw : s.Watches id inbox)
    (hother : other ≠ id) (next : Roster) :
    (s'.push next).inboxes.get? id = (s.push next).inboxes.get? id := by
  have hw' := h.watches hw fun heq => hother (Option.some.inj heq)
  rw [hw'.inbox_push, hw.inbox_push, h.notified_eq]

namespace Site

variable {template : Settings} {seed : Roster} {s : Site} {session : SessionId}
  {inbox : List Notification}

/-- What the client of a session receives while some events happen: what it takes out of its
inbox meanwhile, and what it finds there in the end. -/
def received (session : SessionId) : Site → List Event → List Notification
  | s, [] => s.ensemble.unread session
  | s, event :: events => event.takes s session ++ received session (s.happen event) events

/-- What is told in one event and what is told later make up what is told altogether. -/
theorem told_iff {s' last : Site} (h : last.Informed seed)
    (hgrown : s.ensemble.log.entries <+: last.ensemble.log.entries) {new : List Roster}
    (hbrings : Ensemble.Brings seed s.ensemble s'.ensemble new) (hle : s'.notified ≤ last.notified)
    {r : Roster} {later : Prop} (hlater : later → s'.notified < r.version) :
    (r ∈ new ∨ r ∈ (rosters seed last.ensemble.log.entries).tail ∧ s'.notified < r.version ∧
        r.version ≤ last.notified ∧ ¬ later) ↔
      r ∈ (rosters seed last.ensemble.log.entries).tail ∧ s.notified < r.version ∧
        r.version ≤ last.notified ∧
        ¬ (s.notified < r.version ∧ r.version < s'.notified ∨ later) := by
  have hfirst := hbrings.notified_le
  constructor
  · rintro (hnew | ⟨hin, hlt, hreached, hnot⟩)
    · rcases hbrings with ⟨rfl, _⟩ | ⟨_, next, hnext, rfl, hlt, heq⟩
      · cases hnew
      · cases List.mem_singleton.1 hnew
        refine ⟨Reconfiguration.mem_tail_of_grown hgrown hnext, hlt, heq ▸ hle, ?_⟩
        rintro (⟨_, hover⟩ | hover)
        · exact absurd heq hover.ne'
        · exact absurd heq (hlater hover).ne
    · refine ⟨hin, hfirst.trans_lt hlt, hreached, ?_⟩
      rintro (⟨_, hover⟩ | hover)
      · exact lt_asymm hlt hover
      · exact hnot hover
  · rintro ⟨hin, hlt, hreached, hnot⟩
    rw [not_or, not_and, not_lt] at hnot
    rcases (hnot.1 hlt).lt_or_eq with hbehind | heq
    · exact Or.inr ⟨hin, hbehind, hreached, hnot.2⟩
    · -- Of the version that was told in the event there is one roster.
      rcases hbrings with ⟨_, hsame⟩ | ⟨_, next, hnext, rfl, _, hversion⟩
      · exact absurd (hsame.symm.trans heq) hlt.ne
      · refine Or.inl (List.mem_singleton.2 ?_)
        exact eq_of_version_eq h.sound.chain (List.mem_of_mem_tail hin)
          (List.mem_of_mem_tail (Reconfiguration.mem_tail_of_grown hgrown hnext))
          (heq.symm.trans hversion)

/-- What a session that watches receives is what is in its inbox already, and then every roster
that the sessions are told of while it is not ended. Those are the ones that have taken effect
by the end, are later than what the sessions were told of before, and are not overtaken. -/
theorem Arises.receives (h : s.Arises template seed)
    (hw : s.ensemble.sessions.Watches session inbox) (events : List Event)
    (hb : s.Lasts events) (hkept : ∀ k (hk : k < events.length),
      events[k].ends (s.after (events.take k)) ≠ some session) :
    (∃ left, (s.after events).ensemble.sessions.Watches session left) ∧
    ∃ pushed : List Roster, s.received session events = inbox ++ pushed.map Roster.notification ∧
      pushed.Pairwise (fun a b => a.version < b.version) ∧
      ∀ r, r ∈ pushed ↔ r ∈ (rosters seed (s.after events).ensemble.log.entries).tail ∧
        s.notified < r.version ∧ r.version ≤ (s.after events).notified ∧
        ¬ s.Overtaken events r := by
  induction events generalizing s inbox with
  | nil =>
      refine ⟨⟨inbox, hw⟩, [], ?_, .nil, fun r => ?_⟩
      · rw [received, Ensemble.unread_of_watches hw]
        simp
      · exact iff_of_false List.not_mem_nil fun ⟨_, hlt, hle, _⟩ => absurd hlt (not_lt.2 hle)
  | cons event events ih =>
      have hnext := h.happen event hb.next
      obtain ⟨hlast, hgrown, hle⟩ := hnext.after hb.rest
      obtain ⟨hgains, new, hbrings, hsent⟩ := h.brings hb.next
      obtain ⟨inbox', hw', hinbox⟩ := hsent session inbox hw (hkept 0 (Nat.succ_pos _))
      obtain ⟨hleft, pushed, hreceived, hpairwise, hmem⟩ :=
        ih hnext hw' hb.rest fun k hk => hkept (k + 1) (Nat.succ_lt_succ hk)
      rw [show s.after (event :: events) = (s.happen event).after events from rfl]
      refine ⟨hleft, new ++ pushed, ?_, ?_, fun r => ?_⟩
      · rw [received, hreceived, ← List.append_assoc, hinbox, List.map_append, List.append_assoc]
      · refine List.pairwise_append.2 ⟨?_, hpairwise, fun a ha b hb => ?_⟩
        · rcases hbrings with ⟨rfl, _⟩ | ⟨_, next, _, rfl, _⟩
          · exact .nil
          · exact List.pairwise_singleton _ next
        · rcases hbrings with ⟨rfl, _⟩ | ⟨_, next, _, rfl, _, heq⟩
          · cases ha
          · cases List.mem_singleton.1 ha
            exact heq ▸ ((hmem b).1 hb).2.1
      · rw [List.mem_append, hmem, overtaken_cons]
        exact told_iff hlast.informed (hgains.grows.trans hgrown) hbrings hle
          (hnext.notified_lt hb.rest)

theorem Arises.received_eq (h : s.Arises template seed)
    (hw : s.ensemble.sessions.Watches session []) {events : List Event}
    (hb : s.Lasts events) (hkept : ∀ k (hk : k < events.length),
      events[k].ends (s.after (events.take k)) ≠ some session) :
    (∃ left, (s.after events).ensemble.sessions.Watches session left) ∧
    s.received session events =
      ((rosters seed (s.after events).ensemble.log.entries).tail.filter fun r =>
        s.notified < r.version ∧ r.version ≤ (s.after events).notified ∧
          ¬ s.Overtaken events r).map Roster.notification := by
  obtain ⟨hleft, pushed, hreceived, hpairwise, hmem⟩ := h.receives hw events hb hkept
  have hinformed := (h.after hb).1.informed
  have hrising := pairwise_version_lt (Ensemble.Informed.sound hinformed).chain
  have : Std.Irrefl fun a b : Roster => a.version < b.version := ⟨fun _ => lt_irrefl _⟩
  have : Std.Antisymm fun a b : Roster => a.version < b.version :=
    ⟨fun _ _ hab hba => absurd hba hab.asymm⟩
  refine ⟨hleft, ?_⟩
  rw [hreceived, List.nil_append]
  refine congrArg _ (hpairwise.eq_of_mem_iff
    ((hrising.sublist (List.tail_sublist _)).filter _) fun r => ?_)
  rw [hmem, List.mem_filter, decide_eq_true_iff]

/-- Between two quiet moments the sessions are told of what is committed in between. -/
theorem Informed.exists_committed (h : s.Informed seed) {last : Site} (hlast : last.Informed seed)
    (hquiet : s.Quiet seed) (hquiet' : last.Quiet seed)
    (hgrown : s.ensemble.log.entries <+: last.ensemble.log.entries) :
    ∃ committed, rosters seed last.ensemble.log.entries =
        rosters seed s.ensemble.log.entries ++ committed ∧
      ∀ (P : Roster → Prop) [DecidablePred P],
        ((rosters seed last.ensemble.log.entries).tail.filter fun r =>
          s.notified < r.version ∧ r.version ≤ last.notified ∧ P r) =
        committed.filter fun r => P r := by
  obtain ⟨more, heq⟩ := hgrown
  have hsplit := rosters_append seed s.ensemble.log.entries more
  rw [heq] at hsplit
  refine ⟨_, hsplit, fun P _ => ?_⟩
  have hpairwise := pairwise_version_lt (Ensemble.Informed.sound hlast).chain
  rw [hsplit, List.pairwise_append] at hpairwise
  have htail := congrArg List.tail hsplit
  rw [List.tail_append_of_ne_nil (List.ne_nil_of_mem h.roster_mem)] at htail
  have hold : ((rosters seed s.ensemble.log.entries).tail.filter fun r =>
      s.notified < r.version ∧ r.version ≤ last.notified ∧ P r) = [] := by
    refine List.filter_eq_nil_iff.2 fun r hr hnew => ?_
    exact absurd (h.reached hquiet hr) (not_le.2 (of_decide_eq_true hnew).1)
  rw [htail, List.filter_append, hold, List.nil_append]
  refine List.filter_congr fun r hr => decide_eq_decide.2 ?_
  have hafter : s.notified < r.version :=
    h.notified_le.trans_lt (hpairwise.2.2 _ h.roster_mem r hr)
  have hreached := hlast.reached hquiet' (htail ▸ List.mem_append_right _ hr)
  exact ⟨fun hr => hr.2.2, fun hP => ⟨hafter, hreached, hP⟩⟩

/-- What a session that watches receives from the moment it is opened, as long as it is not
closed and its inbox is kept: every roster that has taken effect, that the sessions are told of
while it is open, and that is not overtaken. If nothing is owed at either end, that is each of
those that are committed in between, in their order and once, but for the overtaken ones; and if
they take effect in turn, none of them is overtaken. It makes no difference to what a push sends
to the session that another one is closed, or its inbox dropped. -/
theorem received_exact (h : s.Arises template seed) {server : ServerId} {opened last : Site}
    {events : List Event} (hopens : (s.ensemble.connect server true).1 = .ok session)
    (hopened : s.happen (.operate (.connect server true)) = opened) (hb : opened.Lasts events)
    (hkept : ∀ k (hk : k < events.length),
      events[k].ends (opened.after (events.take k)) ≠ some session)
    (hlast : opened.after events = last) :
    opened.received session events =
        ((rosters seed last.ensemble.log.entries).tail.filter fun r =>
          opened.notified < r.version ∧ r.version ≤ last.notified ∧
            ¬ opened.Overtaken events r).map Roster.notification ∧
      (rosters seed last.ensemble.log.entries).Pairwise (fun a b => a.version < b.version) ∧
      (opened.Quiet seed → last.Quiet seed →
        ∃ committed, rosters seed last.ensemble.log.entries =
            rosters seed opened.ensemble.log.entries ++ committed ∧
          opened.received session events =
            (committed.filter fun r => ¬ opened.Overtaken events r).map Roster.notification ∧
          (opened.InTurn seed events →
            opened.received session events = committed.map Roster.notification)) ∧
      ∀ other sessions, other ≠ session →
        sessions = last.ensemble.sessions.dropInbox other ∨
          last.ensemble.sessions.close other = .ok sessions →
        ∀ next, (sessions.push next).inboxes.get? session =
          (last.ensemble.sessions.push next).inboxes.get? session := by
  have harises : opened.Arises template seed := by
    subst hopened
    exact h.happen _ (hb 0 (Nat.zero_le _))
  have hw : opened.ensemble.sessions.Watches session [] :=
    hopened ▸ Ensemble.watches_connect hopens
  obtain ⟨⟨left, hleft⟩, hreceived⟩ := harises.received_eq hw hb hkept
  obtain ⟨hend, hgrown, _⟩ := harises.after hb
  rw [hlast] at hleft hreceived hend hgrown
  refine ⟨hreceived, pairwise_version_lt (Ensemble.Informed.sound hend.informed).chain,
    fun hquiet hquiet' => ?_, fun other sessions hother hgone => ?_⟩
  · obtain ⟨committed, hcommitted, hfilter⟩ :=
      harises.informed.exists_committed hend.informed hquiet hquiet' hgrown
    rw [hfilter] at hreceived
    refine ⟨committed, hcommitted, hreceived, fun hturn => ?_⟩
    have happrised : opened.Apprised seed := fun r hr =>
      Or.inr (harises.informed.reached hquiet hr)
    rw [hreceived, List.filter_eq_self.2 fun r hr => decide_eq_true ?_]
    refine harises.not_overtaken happrised hb hturn ?_
    rw [hlast, hcommitted,
      List.tail_append_of_ne_nil (List.ne_nil_of_mem harises.informed.roster_mem)]
    exact List.mem_append_right _ hr
  · rcases hgone with rfl | hclosed
    · exact Sessions.Shift.inbox_push (r := seed) (.dropInbox other) hleft hother
    · exact Sessions.Shift.inbox_push (r := seed) (.close other hclosed) hleft hother

/-- The leader has removed a server, and before it has told the sessions of that, it brings in an
observer and tells them of that. -/
def passing : List Event :=
  [.reform 3 ⟨.incremental [] [1], none⟩] ++ List.replicate 5 (.further 0 0) ++
  [.reform 3 ⟨.incremental [.onPorts 4 40 .observer] [], none⟩] ++
  List.replicate 5 (.further 1 0) ++ [.further 0 0]

def watchful : Site :=
  run Ensemble.trio [.operate (.connect 1 true)]

theorem arises_watchful : watchful.Arises {} .trio :=
  arises_run (by decide +kernel) [.operate (.connect 1 true)] (by decide +kernel)

theorem lasts_passing : watchful.Lasts passing := by
  decide +kernel

/-- The log and the rosters count on, the session is neither closed nor is its inbox dropped, and
nothing is under way when it is opened or when it has read its inbox. Of the two rosters that are
committed in between it is sent the second one only. -/
theorem received_overtaking :
    watchful.Arises {} .trio ∧ (watchful.after passing).Arises {} .trio ∧
    watchful.ensemble.sessions.Watches (sessionId 1 1) [] ∧
    (∀ k (hk : k < passing.length),
      passing[k].ends (watchful.after (passing.take k)) ≠ some (sessionId 1 1)) ∧
    (∀ c, ¬ watchful.UnderWay c) ∧ (∀ c, ¬ (watchful.after passing).UnderWay c) ∧
    ∃ first second, rosters .trio (watchful.after passing).ensemble.log.entries =
        rosters .trio watchful.ensemble.log.entries ++ [first, second] ∧
      watchful.received (sessionId 1 1) passing = [second.notification] ∧
      first.version < second.version :=
  ⟨arises_watchful, (arises_watchful.after lasts_passing).1,
    ⟨by decide +kernel, by decide +kernel⟩, by decide +kernel,
    not_underWay (by decide +kernel) (by decide +kernel),
    not_underWay (by decide +kernel) (by decide +kernel),
    (watchful.after (passing.take 6)).ensemble.log.roster,
    (watchful.after passing).ensemble.log.roster, by decide +kernel, by decide +kernel,
    by decide +kernel⟩

theorem received_exact_passing :
    (run Ensemble.trio []).Arises {} .trio ∧
    (Ensemble.trio.connect 1 true).1 = .ok (sessionId 1 1) ∧
    ∃ committed, rosters .trio (watchful.after passing).ensemble.log.entries =
        rosters .trio watchful.ensemble.log.entries ++ committed ∧
      watchful.received (sessionId 1 1) passing =
        (committed.filter fun r => ¬ watchful.Overtaken passing r).map Roster.notification ∧
      committed.map (·.version) = [.make 1 2, .make 1 3] := by
  have harises : (run Ensemble.trio []).Arises {} .trio :=
    arises_run (by decide +kernel) [] (by decide +kernel)
  have hopens : (Ensemble.trio.connect 1 true).1 = .ok (sessionId 1 1) := by decide +kernel
  have hopened : (run Ensemble.trio []).happen (.operate (.connect 1 true)) = watchful := rfl
  obtain ⟨_, _, hquiet, _⟩ := received_exact harises hopens hopened lasts_passing
    (by decide +kernel) rfl
  obtain ⟨committed, hcommitted, hreceived, _⟩ := hquiet
    (quiet_of_idle (by decide +kernel) (by decide +kernel))
    (quiet_of_idle (by decide +kernel) (by decide +kernel))
  have hversions : (rosters .trio (watchful.after passing).ensemble.log.entries).map (·.version) =
      (rosters .trio watchful.ensemble.log.entries).map (·.version) ++
        [.make 1 2, .make 1 3] := by decide +kernel
  rw [hcommitted, List.map_append] at hversions
  exact ⟨harises, hopens, committed, hcommitted, hreceived, List.append_cancel_left hversions⟩

end Site

end Quorate
