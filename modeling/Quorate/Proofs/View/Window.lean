import Quorate.Proofs.Roster.Valid
import Quorate.Proofs.View.Replay

/-!
# The window of the history

A replica keeps the last of the rosters that it has applied. `View.whole` is the view of one that
keeps all of them. Trimming may be put off until the end (`learn_trim`), so that a replica has the
trimmed view of one that keeps all, whatever it is handed (`replay_eq_trim`). The stamps of the
entries need not ascend for this: those of the history do, since a replica skips the others
(`Chronicled.learnWhole`).

The roster at a version is looked up from the end of the history, so that the last one that is
not above the version is found (`rosterAt?_eq_some_iff`), and none only if all those that are kept
are above it (`rosterAt?_eq_none_iff`). Where the versions ascend, the roster that is found is also
the latest one among those that are no longer kept (`latestUpTo_of_rosterAt?`).
-/

namespace Quorate.View

/-- Apply a committed record, keeping every roster. -/
def learnWhole (v : View) (stamp : Stamp) (record : Record) : View :=
  if stamp ≤ v.applied then v
  else
    match record.successor? v.current stamp with
    | none => { v with applied := stamp }
    | some next =>
      { current := next, history := v.history ++ [(stamp, next)], applied := stamp }

/-- The view of a replica of a seed that was handed some entries in order and keeps every roster. -/
def whole (seed : Roster) (entries : List Entry) : View :=
  entries.foldl (fun v e => v.learnWhole e.stamp e.record) (ofSeed seed)

/-- The view with the last `kept` rosters of its history. -/
def trim (kept : Nat) (v : View) : View :=
  { v with history := window kept v.history }

/-- The roster was the current one after some of the entries. -/
def Ruled (seed : Roster) (entries : List Entry) (r : Roster) : Prop :=
  ∃ n, (whole seed (entries.take n)).current = r

/-- Of the rosters that satisfy `p`, the one with the greatest version up to a given one. -/
structure LatestUpTo (p : Roster → Prop) (version : Version) (r : Roster) : Prop where
  holds : p r
  le : r.version ≤ version
  greatest : ∀ other, p other → other.version ≤ version → other.version ≤ r.version

/-- The history leads up to the current roster, by stamps that ascend to the last one. -/
structure Chronicled (v : View) : Prop where
  ascending : v.history.Pairwise fun a b => a.1 < b.1
  reached : ∀ e ∈ v.history, e.1 ≤ v.applied
  latest : v.history.getLast?.map Prod.snd = some v.current

variable {kept : Nat} {v : View} {seed : Roster} {entries : List Entry} {stamp : Stamp}
  {record : Record} {version : Version} {r : Roster}

theorem learnWhole_of_le (h : stamp ≤ v.applied) : v.learnWhole stamp record = v :=
  if_pos h

theorem learnWhole_of_none (h : ¬ stamp ≤ v.applied)
    (hnext : record.successor? v.current stamp = none) :
    v.learnWhole stamp record = { v with applied := stamp } := by
  rw [learnWhole, if_neg h, hnext]

theorem learnWhole_of_some (h : ¬ stamp ≤ v.applied)
    (hnext : record.successor? v.current stamp = some r) :
    v.learnWhole stamp record = ⟨r, v.history ++ [(stamp, r)], stamp⟩ := by
  rw [learnWhole, if_neg h, hnext]

theorem whole_concat (seed : Roster) (entries : List Entry) (e : Entry) :
    whole seed (entries ++ [e]) = (whole seed entries).learnWhole e.stamp e.record :=
  List.foldl_append

/-- A view that is trimmed before a record is learnt and one that is trimmed after it are the
same. -/
theorem learn_trim (kept : Nat) (v : View) (stamp : Stamp) (record : Record) :
    (v.trim kept).learn kept stamp record = (v.learnWhole stamp record).trim kept := by
  by_cases h : stamp ≤ v.applied
  · rw [learnWhole_of_le h]
    exact learn_of_le h
  · rw [learn, if_neg (show ¬ stamp ≤ (v.trim kept).applied from h)]
    cases hnext : record.successor? v.current stamp with
    | none =>
        rw [learnWhole_of_none h hnext, show (v.trim kept).current = v.current from rfl, hnext]
        rfl
    | some next =>
        rw [learnWhole_of_some h hnext, show (v.trim kept).current = v.current from rfl, hnext]
        simp only [trim, window_window_concat]

theorem replay_eq_trim (hkept : 1 ≤ kept) (seed : Roster) (entries : List Entry) :
    replay kept seed entries = (whole seed entries).trim kept := by
  induction entries using List.reverseRecOn with
  | nil =>
      exact congrArg (View.mk seed · .zero) (window_singleton hkept (Stamp.zero, seed)).symm
  | append_singleton entries e ih => rw [replay_concat, ih, learn_trim, whole_concat]

theorem Chronicled.learnWhole (h : v.Chronicled) (stamp : Stamp) (record : Record) :
    (v.learnWhole stamp record).Chronicled := by
  by_cases hseen : stamp ≤ v.applied
  · rwa [learnWhole_of_le hseen]
  have hpast : ∀ e ∈ v.history, e.1 < stamp := fun e he =>
    (h.reached e he).trans_lt (not_le.1 hseen)
  cases hnext : record.successor? v.current stamp with
  | none =>
      rw [learnWhole_of_none hseen hnext]
      exact ⟨h.ascending, fun e he => (hpast e he).le, h.latest⟩
  | some next =>
      rw [learnWhole_of_some hseen hnext]
      refine ⟨?_, fun e he => ?_, by simp⟩
      · refine List.pairwise_append.2 ⟨h.ascending, List.pairwise_singleton _ _, ?_⟩
        intro a ha b hb
        rw [List.mem_singleton.1 hb]
        exact hpast a ha
      · rcases List.mem_append.1 he with he | he
        · exact (hpast e he).le
        · rw [List.mem_singleton.1 he]

theorem chronicled_whole (seed : Roster) (entries : List Entry) :
    (whole seed entries).Chronicled := by
  induction entries using List.reverseRecOn with
  | nil =>
      refine ⟨List.pairwise_singleton _ _, fun e he => ?_, rfl⟩
      rw [List.mem_singleton.1 he]
      exact le_refl _
  | append_singleton entries e ih =>
      rw [whole_concat]
      exact ih.learnWhole e.stamp e.record

theorem Chronicled.current_mem (h : v.Chronicled) : v.current ∈ v.history.map Prod.snd := by
  obtain ⟨e, he, hcurrent⟩ := Option.map_eq_some_iff.1 h.latest
  exact hcurrent ▸ List.mem_map_of_mem (List.mem_of_getLast? he)

theorem Chronicled.one_le_length (h : v.Chronicled) : 1 ≤ v.history.length := by
  rw [← List.length_map Prod.snd]
  exact List.length_pos_of_mem h.current_mem

/-- The current roster is the only one that a record may add to the history. -/
theorem Chronicled.mem_history_learnWhole_iff (h : v.Chronicled) :
    r ∈ (v.learnWhole stamp record).history.map Prod.snd ↔
      r ∈ v.history.map Prod.snd ∨ (v.learnWhole stamp record).current = r := by
  have hcurrent : v.current = r → r ∈ v.history.map Prod.snd := fun heq => heq ▸ h.current_mem
  by_cases hseen : stamp ≤ v.applied
  · rw [learnWhole_of_le hseen, or_iff_left_of_imp hcurrent]
  cases hnext : record.successor? v.current stamp with
  | none =>
      rw [learnWhole_of_none hseen hnext]
      exact (or_iff_left_of_imp hcurrent).symm
  | some next =>
      rw [learnWhole_of_some hseen hnext, List.map_append, List.mem_append, List.map_singleton,
        List.mem_singleton, eq_comm]

theorem ruled_concat_iff {e : Entry} :
    Ruled seed (entries ++ [e]) r ↔
      Ruled seed entries r ∨ (whole seed (entries ++ [e])).current = r := by
  constructor
  · rintro ⟨n, hn⟩
    rcases Nat.lt_or_ge entries.length n with hlt | hle
    · rw [List.take_of_length_le (by simpa using Nat.succ_le_of_lt hlt)] at hn
      exact Or.inr hn
    · rw [List.take_append_of_le_length hle] at hn
      exact Or.inl ⟨n, hn⟩
  · rintro (⟨n, hn⟩ | hlast)
    · refine ⟨min n entries.length, ?_⟩
      rwa [List.take_append_of_le_length (Nat.min_le_right _ _), ← List.take_take,
        List.take_length]
    · exact ⟨entries.length + 1, by rwa [List.take_of_length_le (by simp)]⟩

/-- The rosters of a history that is never trimmed are those that have ruled. -/
theorem mem_history_whole_iff :
    r ∈ (whole seed entries).history.map Prod.snd ↔ Ruled seed entries r := by
  induction entries using List.reverseRecOn with
  | nil =>
      simp [Ruled, whole, ofSeed, eq_comm]
  | append_singleton entries e ih =>
      rw [ruled_concat_iff, ← ih, whole_concat]
      exact (chronicled_whole seed entries).mem_history_learnWhole_iff

theorem rosterAt?_eq_none_iff :
    v.rosterAt? version = none ↔ ∀ e ∈ v.history, version < e.2.version := by
  simp [rosterAt?]

/-- What is found is the last roster of the history that is not above the version. -/
theorem rosterAt?_eq_some_iff :
    v.rosterAt? version = some r ↔
      ∃ earlier stamp later, v.history = earlier ++ (stamp, r) :: later ∧ r.version ≤ version ∧
        ∀ e ∈ later, version < e.2.version := by
  rw [rosterAt?, Option.map_eq_some_iff]
  constructor
  · rintro ⟨⟨stamp, _⟩, hfound, rfl⟩
    obtain ⟨hlow, later, earlier, hsplit, hlater⟩ := List.find?_eq_some_iff_append.1 hfound
    refine ⟨earlier.reverse, stamp, later.reverse, ?_, of_decide_eq_true hlow, fun e he => ?_⟩
    · rw [← List.reverse_reverse v.history, hsplit]
      simp
    · simpa using hlater e (List.mem_reverse.1 he)
  · rintro ⟨earlier, stamp, later, hsplit, hlow, hlater⟩
    refine ⟨(stamp, r), List.find?_eq_some_iff_append.2 ⟨decide_eq_true hlow, ?_⟩, rfl⟩
    refine ⟨later.reverse, earlier.reverse, by rw [hsplit]; simp, fun e he => ?_⟩
    simpa using hlater e (List.mem_reverse.1 he)

/-- If the history is the end of one in which the versions ascend, what is found is the latest
roster of them all. -/
theorem latestUpTo_of_rosterAt? {history : List (Stamp × Roster)} (hsuffix : v.history <:+ history)
    (hrising : history.Pairwise fun a b => a.2.version < b.2.version)
    (h : v.rosterAt? version = some r) : LatestUpTo (· ∈ history.map Prod.snd) version r := by
  obtain ⟨earlier, stamp, later, hsplit, hlow, hlater⟩ := rosterAt?_eq_some_iff.1 h
  obtain ⟨dropped, rfl⟩ := hsuffix
  rw [hsplit, ← List.append_assoc] at hrising ⊢
  refine ⟨?_, hlow, fun other hother hup => ?_⟩
  · exact List.mem_map_of_mem (List.mem_append_right _ List.mem_cons_self)
  · obtain ⟨e, he, rfl⟩ := List.mem_map.1 hother
    obtain ⟨_, _, hbefore⟩ := List.pairwise_append.1 hrising
    rcases List.mem_append.1 he with he | he
    · exact (hbefore e he (stamp, r) List.mem_cons_self).le
    rcases List.mem_cons.1 he with rfl | he
    · exact le_refl _
    · exact absurd (hlater e he) (not_lt.2 hup)

/-- The oldest roster that is kept decides whether one is found. -/
theorem rosterAt?_of_suffix {history : List (Stamp × Roster)} (hsuffix : v.history <:+ history)
    (hne : v.history ≠ []) (hrising : history.Pairwise fun a b => a.2.version < b.2.version) :
    ∃ oldest, v.history.head? = some oldest ∧ ∀ version,
      (oldest.2.version ≤ version →
        ∃ r, v.rosterAt? version = some r ∧ LatestUpTo (· ∈ history.map Prod.snd) version r) ∧
      (version < oldest.2.version → v.rosterAt? version = none) := by
  obtain ⟨oldest, later, hkept⟩ := List.exists_cons_of_ne_nil hne
  have holdest : oldest ∈ v.history := by
    rw [hkept]
    exact List.mem_cons_self
  have hascending := hrising.sublist hsuffix.sublist
  rw [hkept] at hascending
  refine ⟨oldest, by rw [hkept]; rfl, fun version => ⟨fun hle => ?_, fun hlt => ?_⟩⟩
  · cases hfound : v.rosterAt? version with
    | none => exact absurd (rosterAt?_eq_none_iff.1 hfound oldest holdest) (not_lt.2 hle)
    | some r => exact ⟨r, rfl, latestUpTo_of_rosterAt? hsuffix hrising hfound⟩
  · refine rosterAt?_eq_none_iff.2 fun e he => ?_
    rw [hkept] at he
    rcases List.mem_cons.1 he with rfl | he
    · exact hlt
    · exact hlt.trans ((List.pairwise_cons.1 hascending).1 e he)

/-- Whatever entries a replica is handed, it differs from one that keeps every roster, which is a
replica with room for all of them, in nothing but the length of its history, of which it keeps the
end. Where the versions of the rosters ascend, the roster at a version is the latest one that has
ruled up to it, and is found unless it may have been dropped. -/
theorem history_faithful (settings : Settings) (seed : Roster) (entries : List Entry) :
    let v := replay settings.kept seed entries
    let u := whole seed entries
    (∀ room, u.history.length ≤ room → replay room seed entries = u) ∧
      (v.current = u.current ∧ v.applied = u.applied) ∧
      (v.history <:+ u.history ∧
        v.history.length = min (max settings.historyLimit 2) u.history.length) ∧
      (v.history.Pairwise fun a b => a.1 < b.1) ∧
      v.history.getLast?.map Prod.snd = some v.current ∧
      ((u.history.Pairwise fun a b => a.2.version < b.2.version) →
        ∃ oldest, v.history.head? = some oldest ∧ ∀ version,
          (oldest.2.version ≤ version →
            ∃ r, v.rosterAt? version = some r ∧ LatestUpTo (Ruled seed entries) version r) ∧
          (version < oldest.2.version → v.rosterAt? version = none)) := by
  intro v u
  have hv : v = u.trim settings.kept := replay_eq_trim settings.one_le_kept seed entries
  have hu : u.Chronicled := chronicled_whole seed entries
  have hsuffix : v.history <:+ u.history := hv ▸ List.drop_suffix _ _
  have hlast : v.history.getLast?.map Prod.snd = some v.current := by
    rw [hv]
    exact (congrArg _ (getLast?_window settings.one_le_kept u.history)).trans hu.latest
  have hruled : Ruled seed entries = (· ∈ u.history.map Prod.snd) :=
    funext fun _ => propext mem_history_whole_iff.symm
  refine ⟨fun room hroom => ?_, ⟨by rw [hv]; rfl, by rw [hv]; rfl⟩,
    ⟨hsuffix, by rw [hv]; exact length_window _ _⟩, hu.ascending.sublist hsuffix.sublist, hlast,
    fun hrising => ?_⟩
  · rw [replay_eq_trim (hu.one_le_length.trans hroom), trim, window_of_length_le hroom]
  · rw [hruled]
    refine rosterAt?_of_suffix hsuffix (fun hnil => ?_) hrising
    rw [hnil] at hlast
    cases hlast

/-- Of three servers the third one leaves, and then the second one. In between comes a record with
a stamp that was seen before, and a proposal on a roster that is no longer current. -/
def departures : List Entry :=
  [⟨.make 1 1, .reconfigure ⟨.zero, .make 1 0, [.onPorts 1 10, .onPorts 2 20]⟩, 1⟩,
    ⟨.make 1 1, .data "a", 1⟩,
    ⟨.make 1 3, .reconfigure ⟨.zero, .make 1 0, [.onPorts 3 30]⟩, 1⟩,
    ⟨.make 1 4, .reconfigure ⟨.make 1 1, .make 2 0, [.onPorts 1 10]⟩, 1⟩]

/-- A replica that is to keep one roster keeps two, and finds the older one for a version between
them. The seed, which has ruled up to then, is no longer found. -/
theorem history_faithful_departures :
    let v := replay (Settings.kept { historyLimit := 1 }) .trio departures
    (whole .trio departures).history.length = 3 ∧ v.history.length = 2 ∧
      (∃ r, v.rosterAt? (.make 1 9) = some r ∧
        LatestUpTo (Ruled .trio departures) (.make 1 9) r) ∧
      v.rosterAt? (.make 0 7) = none := by
  intro v
  have hlength : (whole .trio departures).history.length = 3 := by decide +kernel
  have hrising : (whole .trio departures).history.Pairwise fun a b =>
      a.2.version < b.2.version := by decide +kernel
  obtain ⟨_, _, ⟨_, hkept⟩, _, _, hlookup⟩ := history_faithful { historyLimit := 1 } .trio departures
  obtain ⟨oldest, hhead, hat⟩ := hlookup hrising
  have hversion : oldest.2.version = .make 1 1 := by
    have hfirst : v.history.head?.map (·.2.version) = some (.make 1 1) := by decide +kernel
    rw [hhead] at hfirst
    exact Option.some.inj hfirst
  refine ⟨hlength, ?_, (hat _).1 ?_, (hat _).2 ?_⟩
  · rw [hkept, hlength]
    rfl
  · rw [hversion]
    decide
  · rw [hversion]
    decide

end Quorate.View
