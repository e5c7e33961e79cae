import Quorate.Proofs.History
import Quorate.Proofs.Stamp.Order
import Quorate.Settings
import Quorate.View

/-!
# Views and replays of a log

`View.replay kept seed entries` is the view of a replica that was handed some entries, one
after the other; it skips every entry whose stamp it has passed. Handing it entries that
it has seen before changes nothing, so that a replay from any earlier place gives the same
view (`learnAll_drop_replay_take`).

`View.after kept seed entries` is read off the entries themselves: the roster in effect
after them, the last rosters of their history, and the stamp of the last one. When the
stamps of the entries strictly ascend nothing is ever skipped, and the two agree
(`replay_eq_after`).
-/

namespace Quorate

/-- The stamps of the entries strictly ascend, from a first one that is not zero. -/
def Ascending (entries : List Entry) : Prop :=
  entries.Pairwise (fun a b => a.stamp < b.stamp) ∧ ∀ e ∈ entries, Stamp.zero < e.stamp

/-- The stamp of the last of some entries, zero if there is none. -/
def lastStampOf (entries : List Entry) : Stamp :=
  (entries.getLast?.map (·.stamp)).getD .zero

theorem Ascending.of_append {xs ys : List Entry} (h : Ascending (xs ++ ys)) : Ascending xs :=
  ⟨(List.pairwise_append.1 h.1).1, fun e he => h.2 e (List.mem_append_left _ he)⟩

theorem Ascending.take {entries : List Entry} (h : Ascending entries) (n : Nat) :
    Ascending (entries.take n) := by
  rw [← List.take_append_drop n entries] at h
  exact h.of_append

theorem ascending_concat_iff {entries : List Entry} {e : Entry} :
    Ascending (entries ++ [e]) ↔
      Ascending entries ∧ (∀ a ∈ entries, a.stamp < e.stamp) ∧ Stamp.zero < e.stamp := by
  unfold Ascending
  rw [List.pairwise_append]
  constructor
  · rintro ⟨⟨hp, _, hlt⟩, hpos⟩
    exact ⟨⟨hp, fun a ha => hpos a (by simp [ha])⟩, fun a ha => hlt a ha e (by simp),
      hpos e (by simp)⟩
  · rintro ⟨⟨hp, hpos⟩, hlt, he⟩
    refine ⟨⟨hp, List.pairwise_singleton _ _, fun a ha b hb => ?_⟩, fun a ha => ?_⟩
    · rw [List.mem_singleton.1 hb]
      exact hlt a ha
    · rcases List.mem_append.1 ha with hm | hm
      · exact hpos a hm
      · rw [List.mem_singleton.1 hm]
        exact he

/-- Entries at different places have different stamps. -/
theorem Ascending.place_eq {entries : List Entry} (h : Ascending entries) {m n : Nat}
    {a b : Entry} (hm : entries[m]? = some a) (hn : entries[n]? = some b)
    (hstamp : a.stamp = b.stamp) : m = n := by
  obtain ⟨hml, rfl⟩ := List.getElem?_eq_some_iff.1 hm
  obtain ⟨hnl, rfl⟩ := List.getElem?_eq_some_iff.1 hn
  rcases Nat.lt_trichotomy m n with hlt | heq | hgt
  · exact absurd hstamp (List.pairwise_iff_getElem.1 h.1 m n hml hnl hlt).ne
  · exact heq
  · exact absurd hstamp (List.pairwise_iff_getElem.1 h.1 n m hnl hml hgt).ne'

/-- Where the stamps ascend, a roster of the history that has the stamp of an entry was put
in effect by that entry. -/
theorem Ascending.installs_of_mem {seed : Roster} {entries : List Entry} (h : Ascending entries)
    {n : Nat} {e : Entry} {r : Roster} (hget : entries[n]? = some e)
    (hmem : (e.stamp, r) ∈ rosterHistory seed entries) : ∃ prev, Installs seed entries n prev r := by
  rcases List.mem_cons.1 hmem with hseed | hchange
  · exact absurd (congrArg Prod.fst hseed) (h.2 e (List.mem_of_getElem? hget)).ne'
  · obtain ⟨m, a, prev, hget', hstamp, hinstalls⟩ := mem_rosterChanges_iff.1 hchange
    rw [h.place_eq hget hget' hstamp.symm]
    exact ⟨prev, hinstalls⟩

theorem lastStampOf_concat (entries : List Entry) (e : Entry) :
    lastStampOf (entries ++ [e]) = e.stamp := by
  simp [lastStampOf]

theorem Ascending.lastStampOf_lt {entries : List Entry} {e : Entry}
    (h : Ascending (entries ++ [e])) : lastStampOf entries < e.stamp := by
  obtain ⟨_, hlt, hpos⟩ := ascending_concat_iff.1 h
  unfold lastStampOf
  cases hlast : entries.getLast? with
  | none => exact hpos
  | some a => exact hlt a (List.mem_of_getLast? hlast)

theorem Settings.one_le_kept (s : Settings) : 1 ≤ s.kept :=
  (by decide : 1 ≤ 2).trans (Nat.le_max_right s.historyLimit 2)

namespace View

/-- The view after some entries were handed to it in order. -/
def learnAll (kept : Nat) (v : View) (entries : List Entry) : View :=
  entries.foldl (fun v e => v.learn kept e.stamp e.record) v

/-- The view of a replica of a seed that was handed some entries in order. -/
def replay (kept : Nat) (seed : Roster) (entries : List Entry) : View :=
  learnAll kept (ofSeed seed) entries

/-- What some entries leave a replica with if each of them counts once, in order. -/
def after (kept : Nat) (seed : Roster) (entries : List Entry) : View where
  current := rosterAfter seed entries
  history := window kept (rosterHistory seed entries)
  applied := lastStampOf entries

@[simp] theorem learnAll_nil (kept : Nat) (v : View) : v.learnAll kept [] = v := rfl

theorem learnAll_cons (kept : Nat) (v : View) (e : Entry) (entries : List Entry) :
    v.learnAll kept (e :: entries) = (v.learn kept e.stamp e.record).learnAll kept entries :=
  rfl

theorem learnAll_append (kept : Nat) (v : View) (xs ys : List Entry) :
    v.learnAll kept (xs ++ ys) = (v.learnAll kept xs).learnAll kept ys :=
  List.foldl_append

theorem replay_append (kept : Nat) (seed : Roster) (xs ys : List Entry) :
    replay kept seed (xs ++ ys) = (replay kept seed xs).learnAll kept ys :=
  learnAll_append kept _ xs ys

theorem replay_concat (kept : Nat) (seed : Roster) (entries : List Entry) (e : Entry) :
    replay kept seed (entries ++ [e]) =
      (replay kept seed entries).learn kept e.stamp e.record :=
  replay_append kept seed entries [e]

theorem stamp_le_applied_learn (kept : Nat) (v : View) (stamp : Stamp) (record : Record) :
    stamp ≤ (v.learn kept stamp record).applied := by
  by_cases h : stamp ≤ v.applied
  · rw [learn_of_le h]
    exact h
  · rw [applied_learn h]

theorem applied_le_applied_learn (kept : Nat) (v : View) (stamp : Stamp) (record : Record) :
    v.applied ≤ (v.learn kept stamp record).applied := by
  by_cases h : stamp ≤ v.applied
  · rw [learn_of_le h]
  · rw [applied_learn h]
    exact (not_le.1 h).le

theorem applied_learn_lt_iff {kept : Nat} {v : View} {stamp bound : Stamp} {record : Record} :
    (v.learn kept stamp record).applied < bound ↔ v.applied < bound ∧ stamp < bound := by
  by_cases h : stamp ≤ v.applied
  · rw [learn_of_le h]
    exact ⟨fun hlt => ⟨hlt, h.trans_lt hlt⟩, And.left⟩
  · rw [applied_learn h]
    exact ⟨fun hlt => ⟨(not_le.1 h).trans hlt, hlt⟩, And.right⟩

/-- A stamp is new to a view exactly if it is past those of all entries handed to it. -/
theorem applied_learnAll_lt_iff {kept : Nat} {v : View} {entries : List Entry} {bound : Stamp} :
    (v.learnAll kept entries).applied < bound ↔
      v.applied < bound ∧ ∀ e ∈ entries, e.stamp < bound := by
  induction entries generalizing v with
  | nil => simp
  | cons e entries ih =>
      rw [learnAll_cons, ih, applied_learn_lt_iff, List.forall_mem_cons, and_assoc]

/-- A new record makes of the current roster what it makes of it in a log. -/
theorem current_learn {kept : Nat} {v : View} {stamp : Stamp} {record : Record}
    (h : ¬ stamp ≤ v.applied) :
    (v.learn kept stamp record).current =
      (record.successor? v.current stamp).getD v.current := by
  rw [learn, if_neg h]
  cases record.successor? v.current stamp <;> rfl

theorem current_learn_of_not_isReconfigure {kept : Nat} {v : View} {stamp : Stamp}
    {record : Record} (h : record.isReconfigure = false) :
    (v.learn kept stamp record).current = v.current := by
  rw [learn, Record.successor?_eq_none h]
  split <;> rfl

theorem applied_le_applied_learnAll (kept : Nat) (v : View) (entries : List Entry) :
    v.applied ≤ (v.learnAll kept entries).applied := by
  induction entries generalizing v with
  | nil => exact le_refl _
  | cons e entries ih =>
      exact (applied_le_applied_learn kept v e.stamp e.record).trans (ih _)

/-- After a replay no entry of it is new. -/
theorem stamp_le_applied_learnAll {kept : Nat} {v : View} {entries : List Entry} {e : Entry}
    (he : e ∈ entries) : e.stamp ≤ (v.learnAll kept entries).applied := by
  induction entries generalizing v with
  | nil => cases he
  | cons a entries ih =>
      rw [learnAll_cons]
      rcases List.mem_cons.1 he with rfl | hm
      · exact (stamp_le_applied_learn kept v e.stamp e.record).trans
          (applied_le_applied_learnAll kept _ entries)
      · exact ih hm

theorem learnAll_of_le {kept : Nat} {v : View} {entries : List Entry}
    (h : ∀ e ∈ entries, e.stamp ≤ v.applied) : v.learnAll kept entries = v := by
  induction entries with
  | nil => rfl
  | cons e entries ih =>
      rw [learnAll_cons, learn_of_le (h e (by simp))]
      exact ih fun a ha => h a (by simp [ha])

/-- A replica that has seen `n` entries may be handed the log again from any earlier
place: what it has seen is skipped, the rest is learnt. -/
theorem learnAll_drop_replay_take {kept : Nat} {seed : Roster} {entries : List Entry}
    {m n : Nat} (hmn : m ≤ n) (hn : n ≤ entries.length) :
    (replay kept seed (entries.take n)).learnAll kept (entries.drop m) =
      replay kept seed entries := by
  have hdrop : entries.drop m = (entries.take n).drop m ++ entries.drop n := by
    conv_lhs => rw [← List.take_append_drop n entries]
    rw [List.drop_append_of_le_length (by simpa using ⟨hmn, hmn.trans hn⟩)]
  have hseen : (replay kept seed (entries.take n)).learnAll kept ((entries.take n).drop m) =
      replay kept seed (entries.take n) :=
    learnAll_of_le fun e he => stamp_le_applied_learnAll (List.mem_of_mem_drop he)
  rw [hdrop, learnAll_append, hseen, ← replay_append, List.take_append_drop]

theorem length_window {α : Type} (kept : Nat) (xs : List α) :
    (window kept xs).length = min kept xs.length := by
  rw [window, List.length_drop]
  omega

theorem window_of_length_le {α : Type} {kept : Nat} {xs : List α} (h : xs.length ≤ kept) :
    window kept xs = xs := by
  rw [window, Nat.sub_eq_zero_of_le h]
  rfl

theorem window_singleton {α : Type} {kept : Nat} (hkept : 1 ≤ kept) (x : α) :
    window kept [x] = [x] :=
  window_of_length_le hkept

theorem window_append_of_le {α : Type} {kept : Nat} (xs : List α) {ys : List α}
    (h : kept ≤ ys.length) : window kept (xs ++ ys) = window kept ys := by
  have hlen : (xs ++ ys).length - kept = xs.length + (ys.length - kept) := by
    rw [List.length_append]
    omega
  rw [window, hlen, List.drop_length_add_append, window]

/-- Trimming before one more element is added does not change what is kept of them. -/
theorem window_window_concat {α : Type} (kept : Nat) (xs : List α) (x : α) :
    window kept (window kept xs ++ [x]) = window kept (xs ++ [x]) := by
  rcases Nat.le_total kept xs.length with hle | hge
  · have hlen : (window kept xs).length = kept := by
      rw [length_window, Nat.min_eq_left hle]
    have hsplit : xs ++ [x] = xs.take (xs.length - kept) ++ (window kept xs ++ [x]) := by
      rw [window, ← List.append_assoc, List.take_append_drop]
    rw [hsplit]
    refine (window_append_of_le _ ?_).symm
    rw [List.length_append, hlen]
    exact Nat.le_add_right _ _
  · rw [window_of_length_le hge]

/-- What was added last is kept. -/
theorem window_concat {α : Type} {kept : Nat} (hkept : 1 ≤ kept) (xs : List α) (x : α) :
    window kept (xs ++ [x]) = xs.drop (xs.length + 1 - kept) ++ [x] := by
  rw [window, List.length_append, List.length_singleton]
  exact List.drop_append_of_le_length (by omega)

theorem getLast?_window {α : Type} {kept : Nat} (hkept : 1 ≤ kept) (xs : List α) :
    (window kept xs).getLast? = xs.getLast? := by
  cases xs using List.reverseRecOn with
  | nil => simp [window]
  | append_singleton xs x => rw [window_concat hkept]; simp

theorem mem_of_mem_window {α : Type} {kept : Nat} {xs : List α} {x : α}
    (h : x ∈ window kept xs) : x ∈ xs :=
  List.mem_of_mem_drop h

/-- One entry with a new stamp counts once. -/
theorem learn_after (kept : Nat) {seed : Roster} {entries : List Entry}
    {e : Entry} (h : lastStampOf entries < e.stamp) :
    (after kept seed entries).learn kept e.stamp e.record = after kept seed (entries ++ [e]) := by
  have hnew : ¬ e.stamp ≤ (after kept seed entries).applied := not_le.2 h
  rw [learn, if_neg hnew]
  simp only [after, rosterAfter_concat, lastStampOf_concat, rosterHistory, rosterChanges_concat]
  cases e.record.successor? (rosterAfter seed entries) e.stamp with
  | none => simp
  | some next =>
      have hwindow := window_window_concat kept
        ((Stamp.zero, seed) :: rosterChanges seed entries) (e.stamp, next)
      simpa using hwindow

theorem replay_eq_after {kept : Nat} (hkept : 1 ≤ kept) {seed : Roster} {entries : List Entry}
    (h : Ascending entries) : replay kept seed entries = after kept seed entries := by
  induction entries using List.reverseRecOn with
  | nil =>
      rw [after, rosterHistory, rosterChanges_nil, window_singleton hkept]
      rfl
  | append_singleton entries e ih =>
      rw [replay_concat, ih h.of_append, learn_after kept h.lastStampOf_lt]

/-- The roster of a view is one that was in effect at some time. -/
theorem current_after_take_mem_rosters (kept : Nat) (seed : Roster) (entries : List Entry)
    (n : Nat) : (after kept seed (entries.take n)).current ∈ rosters seed entries :=
  rosterAfter_take_mem_rosters seed entries n

theorem committedBy?_eq_none_iff {v : View} {stamp : Stamp} :
    v.committedBy? stamp = none ↔ ∀ pair ∈ v.history, pair.1 ≠ stamp := by
  simp [committedBy?]

theorem mem_history_of_committedBy? {v : View} {stamp : Stamp} {r : Roster}
    (h : v.committedBy? stamp = some r) : (stamp, r) ∈ v.history := by
  obtain ⟨pair, hfind, rfl⟩ := Option.map_eq_some_iff.1 h
  have hstamp : pair.1 = stamp := by simpa using List.find?_some hfind
  rw [← hstamp]
  exact List.mem_reverse.1 (List.mem_of_find?_eq_some hfind)

theorem mem_rosterHistory_of_mem_history {kept : Nat} {seed : Roster} {entries : List Entry}
    {pair : Stamp × Roster} (h : pair ∈ (after kept seed entries).history) :
    pair ∈ rosterHistory seed entries :=
  mem_of_mem_window h

/-- The stamps of a history are those of its entries, but for the seed. -/
theorem rosterHistory_stamp_lt {seed : Roster} {entries : List Entry} {bound : Stamp}
    (hpos : Stamp.zero < bound) (hlt : ∀ e ∈ entries, e.stamp < bound) :
    ∀ pair ∈ rosterHistory seed entries, pair.1 < bound := by
  intro pair hpair
  rcases List.mem_cons.1 hpair with rfl | hchange
  · exact hpos
  · obtain ⟨n, a, _, hget, hstamp, _⟩ := mem_rosterChanges_iff.1 hchange
    exact hstamp ▸ hlt a (List.mem_of_getElem? hget)

/-- A replica that has just applied an entry finds the roster that it put in effect, and
nothing if it put none. -/
theorem committedBy?_after_concat {kept : Nat} (hkept : 1 ≤ kept) {seed : Roster}
    {entries : List Entry} {e : Entry} (h : Ascending (entries ++ [e])) :
    (after kept seed (entries ++ [e])).committedBy? e.stamp =
      e.record.successor? (rosterAfter seed entries) e.stamp := by
  obtain ⟨_, hlt, hpos⟩ := ascending_concat_iff.1 h
  cases hnext : e.record.successor? (rosterAfter seed entries) e.stamp with
  | none =>
      refine committedBy?_eq_none_iff.2 fun pair hpair => ?_
      have hmem := mem_rosterHistory_of_mem_history hpair
      rw [rosterHistory, rosterChanges_concat, hnext, Option.map_none, Option.toList_none,
        List.append_nil] at hmem
      exact (rosterHistory_stamp_lt hpos hlt pair hmem).ne
  | some next =>
      have hhistory : (after kept seed (entries ++ [e])).history =
          (rosterHistory seed entries).drop ((rosterHistory seed entries).length + 1 - kept) ++
            [(e.stamp, next)] := by
        rw [← window_concat hkept, after, rosterHistory, rosterChanges_concat, hnext]
        rfl
      rw [committedBy?, hhistory]
      simp

/-- Of a list in which a key occurs once, the last `kept` elements lack it if there are as
many behind it. -/
theorem forall_window_ne_iff {α β : Type} {kept : Nat} (key : α → β) {xs ys : List α} {x : α}
    (hys : ∀ y ∈ ys, key y ≠ key x) :
    (∀ y ∈ window kept (xs ++ x :: ys), key y ≠ key x) ↔ kept ≤ ys.length := by
  constructor
  · intro h
    by_contra hlt
    refine h x ?_ rfl
    rw [window, List.drop_append_of_le_length (by simp; omega)]
    exact List.mem_append_right _ List.mem_cons_self
  · intro hle y hy
    rw [List.append_cons, window_append_of_le _ hle] at hy
    exact hys y (mem_of_mem_window hy)

/-- A replica that was handed some entries does not find the roster that one of them put in
effect any more if as many rosters as it keeps took effect since. -/
theorem committedBy?_after_take_eq_none_iff {kept : Nat} {seed : Roster} {entries : List Entry}
    (h : Ascending entries) {n k : Nat} {e : Entry} {prev next : Roster}
    (hget : entries[n]? = some e) (hinstalls : Installs seed entries n prev next) (hnk : n < k) :
    (after kept seed (entries.take k)).committedBy? e.stamp = none ↔
      (rosters seed (entries.take (n + 1))).length + kept ≤
        (rosters seed (entries.take k)).length := by
  obtain ⟨rfl, a, ha, hnext⟩ := hinstalls
  cases hget.symm.trans ha
  have htake : entries.take (n + 1) = entries.take n ++ [e] := by
    rw [List.take_add_one, hget]
    rfl
  obtain ⟨later, hsplit⟩ : ∃ later, entries.take k = entries.take (n + 1) ++ later :=
    ⟨_, (List.take_append_drop (n + 1) (entries.take k)).symm.trans (by
      rw [List.take_take, Nat.min_eq_left hnk])⟩
  have hlater : ∀ b ∈ later, e.stamp < b.stamp := by
    have hasc := h.take k
    rw [hsplit, htake] at hasc
    exact fun b hb => (List.pairwise_append.1 hasc.1).2.2 e (by simp) b hb
  have hhistory (more : List Entry) : rosterHistory seed (entries.take (n + 1) ++ more) =
      rosterHistory seed (entries.take n) ++ (e.stamp, next) :: rosterChanges next more := by
    rw [htake, List.append_assoc, rosterHistory_append, List.singleton_append, rosterChanges, hnext]
  have hlength (more : List Entry) : (rosters seed (entries.take (n + 1) ++ more)).length =
      (rosterHistory seed (entries.take n)).length + 1 + (rosterChanges next more).length := by
    rw [rosters, List.length_map, hhistory, List.length_append, List.length_cons,
      Nat.add_right_comm, Nat.add_assoc]
  have hfirst := hlength []
  rw [List.append_nil, rosterChanges_nil, List.length_nil] at hfirst
  have hunique : ∀ pair ∈ rosterChanges next later, pair.1 ≠ e.stamp := by
    rintro ⟨stamp, r⟩ hpair
    obtain ⟨_, b, _, hb, rfl, _⟩ := mem_rosterChanges_iff.1 hpair
    exact (hlater b (List.mem_of_getElem? hb)).ne'
  rw [committedBy?_eq_none_iff, hsplit, hfirst, hlength, after, hhistory]
  refine (forall_window_ne_iff Prod.fst hunique).trans ?_
  omega

end View

end Quorate
