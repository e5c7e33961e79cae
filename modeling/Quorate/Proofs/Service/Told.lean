import Quorate.Proofs.Service.Informed

/-!
# What the sessions of a site are told

In one event the sessions are told of nothing or of one roster, and then no other one takes
effect (`Arises.brings`). So of two rosters that both have taken effect the later one may be told
of first, and the notifier takes the earlier one for a replay when its turn comes: it is
`Overtaken`. That takes a roster that takes effect while an earlier one is still owed. If rosters
take effect in turn, none is overtaken (`Arises.not_overtaken`).
-/

namespace Quorate

namespace Ensemble

variable {seed : Roster} {e e' : Ensemble} {session : SessionId} {inbox : List Notification}

def unread (e : Ensemble) (session : SessionId) : List Notification :=
  (e.sessions.inboxes.get? session).getD []

theorem unread_of_watches (h : e.sessions.Watches session inbox) : e.unread session = inbox := by
  rw [unread, h.inbox_eq]
  rfl

theorem watches_connect {server : ServerId} (h : (e.connect server true).1 = .ok session) :
    (e.connect server true).2.sessions.Watches session [] := by
  rcases e.connect_cases server true with ⟨_, heq⟩ | ⟨_, _, ⟨_, _, _, heq⟩ | ⟨_, _, _, heq⟩⟩
  · rw [heq] at h
    cases h
  · rw [heq] at h
    cases h
  · rw [heq] at h ⊢
    cases h
    exact Sessions.watches_register _ _ _ _

/-- The sessions are told of nothing, or of one roster that has taken effect and is later than
what they were told of before. In the latter case no other one takes effect. -/
def Brings (seed : Roster) (e e' : Ensemble) (pushed : List Roster) : Prop :=
  pushed = [] ∧ e'.sessions.notified = e.sessions.notified ∨
    e'.log.entries = e.log.entries ∧ ∃ next ∈ (rosters seed e.log.entries).tail,
      pushed = [next] ∧ e.sessions.notified < next.version ∧
        e'.sessions.notified = next.version

theorem Brings.notified_le {pushed : List Roster} (h : Brings seed e e' pushed) :
    e.sessions.notified ≤ e'.sessions.notified := by
  rcases h with ⟨_, heq⟩ | ⟨_, next, _, _, hlt, heq⟩
  · exact heq.ge
  · exact heq ▸ hlt.le

theorem Conveys.brings {gone : Option SessionId} (h : e.Conveys seed gone e') :
    ∃ pushed, Brings seed e e' pushed ∧ ∀ session inbox,
      e.sessions.Watches session inbox → gone ≠ some session →
      e'.sessions.Watches session (inbox ++ pushed.map Roster.notification) := by
  have hquiet {r : Roster} (hshift : e.sessions.Shift r gone e'.sessions) :
      ∃ pushed, Brings seed e e' pushed ∧ ∀ session inbox,
        e.sessions.Watches session inbox → gone ≠ some session →
        e'.sessions.Watches session (inbox ++ pushed.map Roster.notification) := by
    refine ⟨[], Or.inl ⟨rfl, hshift.notified_eq⟩, fun session inbox hw hgone => ?_⟩
    rw [List.map_nil, List.append_nil]
    exact hshift.watches hw hgone
  cases h with
  | shift _ shift => exact hquiet shift
  | told entries next committed shift =>
      by_cases hold : next.version ≤ e.sessions.notified
      · rw [Sessions.push_eq_self hold] at shift
        exact hquiet shift
      · have hnew := not_le.1 hold
        refine ⟨[next], Or.inr ⟨entries, next, committed, rfl, hnew, ?_⟩,
          fun session inbox hw hgone => shift.watches (hw.push hnew) hgone⟩
        exact shift.notified_eq.trans (Sessions.notified_push hnew)

theorem Conveys.gains {gone : Option SessionId} (h : e.Conveys seed gone e') :
    Gains seed e.log.entries e'.log.entries := by
  cases h with
  | shift gains _ => exact gains
  | told entries _ _ _ => exact gains_of_eq seed entries

end Ensemble

namespace Site

variable {template : Settings} {seed : Roster} {s : Site} {session : SessionId}
  {inbox : List Notification}

def after (s : Site) (events : List Event) : Site :=
  events.foldl happen s

/-- What the client of a session takes out of its inbox in an event. -/
def Event.takes (s : Site) (session : SessionId) : Event → List Notification
  | .drain => s.ensemble.unread session
  | _ => []

def notified (s : Site) : Version :=
  s.ensemble.sessions.notified

/-- One of some events tells the sessions of a later roster before they were told of this one. -/
def Overtaken (s : Site) (events : List Event) (r : Roster) : Prop :=
  ∃ k < events.length, (s.after (events.take k)).notified < r.version ∧
    r.version < (s.after (events.take (k + 1))).notified

instance (s : Site) (events : List Event) (r : Roster) : Decidable (s.Overtaken events r) :=
  inferInstanceAs (Decidable (∃ k < events.length, _ ∧ _))

theorem not_overtaken_nil (s : Site) (r : Roster) : ¬ s.Overtaken [] r := by
  rintro ⟨k, hk, _⟩
  exact Nat.not_lt_zero k hk

theorem overtaken_cons {event : Event} {events : List Event} {r : Roster} :
    s.Overtaken (event :: events) r ↔
      s.notified < r.version ∧ r.version < (s.happen event).notified ∨
        (s.happen event).Overtaken events r := by
  constructor
  · rintro ⟨k, hk, hlt⟩
    cases k with
    | zero => exact Or.inl hlt
    | succ k => exact Or.inr ⟨k, Nat.lt_of_succ_lt_succ hk, hlt⟩
  · rintro (hlt | ⟨k, hk, hlt⟩)
    · exact ⟨0, Nat.succ_pos _, hlt⟩
    · exact ⟨k + 1, Nat.succ_lt_succ hk, hlt⟩

/-- A session that watches is sent what the sessions are told of in an event, if that does not
end the session. -/
theorem Arises.brings (h : s.Arises template seed) {event : Event}
    (hb : (s.happen event).Bounded) :
    Gains seed s.ensemble.log.entries (s.happen event).ensemble.log.entries ∧
      ∃ pushed, Ensemble.Brings seed s.ensemble (s.happen event).ensemble pushed ∧
        ∀ session inbox, s.ensemble.sessions.Watches session inbox →
          event.ends s ≠ some session →
          ∃ inbox', (s.happen event).ensemble.sessions.Watches session inbox' ∧
            event.takes s session ++ inbox' = inbox ++ pushed.map Roster.notification := by
  have hconveys := (h.informed.happen h.abreast h.bounded event hb.1.1).2
  cases event with
  | drain =>
      refine ⟨gains_refl seed _, [], Or.inl ⟨rfl, rfl⟩, fun session inbox hw _ =>
        ⟨[], hw.drained, ?_⟩⟩
      rw [Event.takes, Ensemble.unread_of_watches hw]
      rfl
  | _ =>
      have hconveyed := hconveys nofun
      obtain ⟨pushed, hbrings, hwatches⟩ := hconveyed.brings
      exact ⟨hconveyed.gains, pushed, hbrings, fun session inbox hw hkept =>
        ⟨_, hwatches session inbox hw hkept, rfl⟩⟩

def Lasts (s : Site) (events : List Event) : Prop :=
  ∀ k ≤ events.length, (s.after (events.take k)).Bounded

instance (s : Site) (events : List Event) : Decidable (s.Lasts events) :=
  inferInstanceAs (Decidable (∀ k ≤ events.length, _))

theorem Lasts.next {event : Event} {events : List Event} (h : s.Lasts (event :: events)) :
    (s.happen event).Bounded :=
  h 1 (Nat.succ_le_succ (Nat.zero_le _))

theorem Lasts.rest {event : Event} {events : List Event} (h : s.Lasts (event :: events)) :
    (s.happen event).Lasts events :=
  fun k hk => h (k + 1) (Nat.succ_le_succ hk)

/-- In a run neither the log nor what the sessions were told of falls behind. -/
theorem Arises.after (h : s.Arises template seed) {events : List Event} (hb : s.Lasts events) :
    (s.after events).Arises template seed ∧
      s.ensemble.log.entries <+: (s.after events).ensemble.log.entries ∧
      s.notified ≤ (s.after events).notified := by
  induction events generalizing s with
  | nil => exact ⟨h, List.prefix_refl _, le_refl _⟩
  | cons event events ih =>
      obtain ⟨hgains, _, hbrings, _⟩ := h.brings hb.next
      obtain ⟨harises, hgrown, hle⟩ := ih (h.happen event hb.next) hb.rest
      exact ⟨harises, hgains.grows.trans hgrown, hbrings.notified_le.trans hle⟩

theorem Arises.notified_lt (h : s.Arises template seed) {events : List Event}
    (hb : s.Lasts events) {r : Roster} (hover : s.Overtaken events r) :
    s.notified < r.version := by
  induction events generalizing s with
  | nil => exact absurd hover (s.not_overtaken_nil r)
  | cons event events ih =>
      obtain ⟨_, _, hbrings, _⟩ := h.brings hb.next
      rcases overtaken_cons.1 hover with ⟨hlt, _⟩ | hlater
      · exact hlt
      · exact hbrings.notified_le.trans_lt (ih (h.happen event hb.next) hb.rest hlater)

/-- No reconfiguration that is under way has still to tell the sessions of the roster in effect. -/
def Quiet (seed : Roster) (s : Site) : Prop :=
  ∀ c, s.UnderWay c → ¬ c.Owes seed s.ensemble.log s.ensemble.log.roster

theorem quiet_of_idle (herrands : s.errands.all Progress.isDone = true)
    (hreforms : s.reforms.all Progress.isDone = true) : s.Quiet seed :=
  fun c hc => absurd hc (not_underWay herrands hreforms c)

theorem Informed.roster_mem (h : s.Informed seed) :
    s.ensemble.log.roster ∈ rosters seed s.ensemble.log.entries := by
  rw [Ensemble.Informed.sound h |>.tracked.derived]
  exact rosterAfter_mem_rosters seed _

theorem Informed.notified_le (h : s.Informed seed) :
    s.notified ≤ s.ensemble.log.roster.version :=
  (le_max_right _ _).trans (Ensemble.Informed.told_le h)

theorem Informed.reached (h : s.Informed seed) (hquiet : s.Quiet seed) {r : Roster}
    (hr : r ∈ (rosters seed s.ensemble.log.entries).tail) : r.version ≤ s.notified := by
  have htold := (Ensemble.Informed.owed h).resolve_right fun ⟨c, hc, howes⟩ => hquiet c hc howes
  have hle := (Ensemble.Informed.version_le h hr).trans htold
  exact (le_max_iff.1 hle).resolve_left
    (not_le.2 (seed_version_lt (Ensemble.Informed.sound h).chain hr))

section Turns

/-- Only at a quiet site does a roster take effect. -/
def InTurn (seed : Roster) (s : Site) (events : List Event) : Prop :=
  ∀ k < events.length, (s.after (events.take k)).Quiet seed ∨
    rosters seed (s.after (events.take (k + 1))).ensemble.log.entries =
      rosters seed (s.after (events.take k)).ensemble.log.entries

/-- The sessions have been told of everything but the roster in effect. -/
def Apprised (seed : Roster) (s : Site) : Prop :=
  ∀ r ∈ (rosters seed s.ensemble.log.entries).tail,
    r = s.ensemble.log.roster ∨ r.version ≤ s.notified

theorem InTurn.rest {event : Event} {events : List Event} (h : s.InTurn seed (event :: events)) :
    (s.happen event).InTurn seed events :=
  fun k hk => h (k + 1) (Nat.succ_lt_succ hk)

theorem Informed.apprised_happen (h : s.Informed seed) (happrised : s.Apprised seed)
    {s' : Site} (h' : s'.Informed seed)
    (hgains : Gains seed s.ensemble.log.entries s'.ensemble.log.entries)
    (hle : s.notified ≤ s'.notified)
    (hturn : s.Quiet seed ∨ rosters seed s'.ensemble.log.entries =
      rosters seed s.ensemble.log.entries) : s'.Apprised seed := by
  intro r hr
  obtain ⟨new, hnew⟩ := hgains.rosters
  have hlast := getLast?_rosters seed s'.ensemble.log.entries
  rw [← (Ensemble.Informed.sound h').tracked.derived] at hlast
  by_cases hsame : rosters seed s'.ensemble.log.entries = rosters seed s.ensemble.log.entries
  · rw [hsame, getLast?_rosters, ← (Ensemble.Informed.sound h).tracked.derived,
      Option.some.injEq] at hlast
    rw [hsame] at hr
    rw [← hlast]
    exact (happrised r hr).imp_right hle.trans'
  · have hquiet := hturn.resolve_right hsame
    cases new with
    | none => exact absurd (hnew.trans (List.append_nil _)) hsame
    | some next =>
        rw [hnew, Option.toList_some, List.getLast?_concat, Option.some.injEq] at hlast
        rw [hnew, List.tail_append_of_ne_nil (List.ne_nil_of_mem h.roster_mem),
          List.mem_append] at hr
        rcases hr with hold | hnext
        · exact Or.inr ((h.reached hquiet hold).trans hle)
        · exact Or.inl ((List.mem_singleton.1 hnext).trans hlast)

/-- A roster cannot be passed over while it is the only one that the sessions do not know. -/
theorem Informed.not_passed (h : s.Informed seed) (happrised : s.Apprised seed)
    {s' last : Site} (hlast : last.Informed seed) {pushed : List Roster}
    (hbrings : Ensemble.Brings seed s.ensemble s'.ensemble pushed)
    (hgrown : s.ensemble.log.entries <+: last.ensemble.log.entries) {r : Roster}
    (hr : r ∈ (rosters seed last.ensemble.log.entries).tail) :
    ¬ (s.notified < r.version ∧ r.version < s'.notified) := by
  rintro ⟨hnew, hover⟩
  rcases hbrings with ⟨_, hsame⟩ | ⟨_, next, hnext, _, _, hversion⟩
  · exact lt_asymm hnew (hover.trans_eq hsame)
  have hbelow : r.version < next.version := hover.trans_eq hversion
  have hin : r ∈ (rosters seed s.ensemble.log.entries).tail := by
    obtain ⟨more, heq⟩ := hgrown
    have hsplit := rosters_append seed s.ensemble.log.entries more
    have hpairwise := pairwise_version_lt (Ensemble.Informed.sound hlast).chain
    rw [heq] at hsplit
    rw [hsplit, List.pairwise_append] at hpairwise
    rw [hsplit, List.tail_append_of_ne_nil (List.ne_nil_of_mem h.roster_mem),
      List.mem_append] at hr
    exact hr.resolve_right fun hlater => lt_asymm hbelow
      (hpairwise.2.2 next (List.mem_of_mem_tail hnext) r hlater)
  rcases happrised r hin with rfl | htold
  · exact absurd (Ensemble.Informed.version_le h hnext) (not_le.2 hbelow)
  · exact absurd htold (not_le.2 hnew)

/-- If rosters take effect in turn, none is overtaken. -/
theorem Arises.not_overtaken (h : s.Arises template seed) (happrised : s.Apprised seed)
    {events : List Event} (hb : s.Lasts events) (hturn : s.InTurn seed events) {r : Roster}
    (hr : r ∈ (rosters seed (s.after events).ensemble.log.entries).tail) :
    ¬ s.Overtaken events r := by
  induction events generalizing s with
  | nil => exact s.not_overtaken_nil r
  | cons event events ih =>
      have hnext := h.happen event hb.next
      obtain ⟨hlast, hgrown, _⟩ := hnext.after hb.rest
      obtain ⟨hgains, _, hbrings, _⟩ := h.brings hb.next
      have happrised' := h.informed.apprised_happen happrised hnext.informed hgains
        hbrings.notified_le (hturn 0 (Nat.succ_pos _))
      rw [overtaken_cons, not_or]
      exact ⟨h.informed.not_passed happrised hlast.informed hbrings
        (hgains.grows.trans hgrown) hr, ih hnext happrised' hb.rest hturn.rest hr⟩

end Turns

end Site

end Quorate
