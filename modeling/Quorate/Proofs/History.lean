import Mathlib.Data.List.Chain
import Quorate.CommitLog

/-!
# The rosters that take effect

The entries of a log decide which rosters take effect, one after the other, from a seed
on: `rosterChanges` lists them with the stamps of their records, and `rosterAfter` is the
last one. Both are read off the log alone; no replica and no leader occurs in them.

`Installs seed entries n prev next` says that the entry at place `n` is the one that put
`next` in effect after `prev`. What an entry installs does not depend on the entries
behind it (`Installs.append`), and every roster of the history but the seed is installed
by an entry of its stamp (`mem_rosterChanges_iff`).
-/

namespace Quorate

theorem RosterProposal.applyTo_eq_ok_iff {p : RosterProposal} {current next : Roster}
    {stamp : Stamp} :
    p.applyTo current stamp = .ok next ↔
      p.base = current.version ∧ next.version = max p.floor stamp ∧
        next.members = p.members := by
  unfold RosterProposal.applyTo
  split
  · rename_i h
    simp [h]
  · rename_i h
    rw [Roster.make_eq_ok_iff]
    simp [not_not.1 h]

namespace Record

theorem successor?_eq_some_iff {record : Record} {current next : Roster} {stamp : Stamp} :
    record.successor? current stamp = some next ↔
      ∃ p, record = .reconfigure p ∧ p.base = current.version ∧
        next.version = max p.floor stamp ∧ next.members = p.members := by
  cases record with
  | reconfigure p =>
      have hopt : (p.applyTo current stamp).toOption = some next ↔
          p.applyTo current stamp = .ok next := by
        cases p.applyTo current stamp <;> simp [Except.toOption]
      simp only [successor?, hopt, RosterProposal.applyTo_eq_ok_iff, reconfigure.injEq]
      exact ⟨fun h => ⟨p, rfl, h⟩, fun ⟨_, hp, h⟩ => hp ▸ h⟩
  | openSession session server => simp [successor?]
  | closeSession session => simp [successor?]
  | data payload => simp [successor?]

theorem successor?_eq_none {record : Record} (h : record.isReconfigure = false)
    (current : Roster) (stamp : Stamp) : record.successor? current stamp = none := by
  cases record with
  | reconfigure p => cases h
  | openSession session server => rfl
  | closeSession session => rfl
  | data payload => rfl

end Record

/-- The roster in effect after some entries, if `r` was in effect before them. -/
def rosterAfter (r : Roster) (entries : List Entry) : Roster :=
  entries.foldl (fun r e => (e.record.successor? r e.stamp).getD r) r

/-- The rosters that some entries put in effect, in order and with the stamps of their
records, if `r` was in effect before them. -/
def rosterChanges : Roster → List Entry → List (Stamp × Roster)
  | _, [] => []
  | r, e :: entries =>
    match e.record.successor? r e.stamp with
    | some next => (e.stamp, next) :: rosterChanges next entries
    | none => rosterChanges r entries

/-- The seed, with the stamp zero, and the rosters that took effect after it. -/
def rosterHistory (seed : Roster) (entries : List Entry) : List (Stamp × Roster) :=
  (.zero, seed) :: rosterChanges seed entries

/-- The rosters that were ever in effect, the seed first. -/
def rosters (seed : Roster) (entries : List Entry) : List Roster :=
  (rosterHistory seed entries).map Prod.snd

/-- The entry at place `n` put `next` in effect, and `prev` was in effect before it. -/
def Installs (seed : Roster) (entries : List Entry) (n : Nat) (prev next : Roster) : Prop :=
  prev = rosterAfter seed (entries.take n) ∧
    ∃ e, entries[n]? = some e ∧ e.record.successor? prev e.stamp = some next

theorem rosterAfter_append (r : Roster) (xs ys : List Entry) :
    rosterAfter r (xs ++ ys) = rosterAfter (rosterAfter r xs) ys :=
  List.foldl_append

theorem rosterAfter_concat (r : Roster) (entries : List Entry) (e : Entry) :
    rosterAfter r (entries ++ [e]) =
      (e.record.successor? (rosterAfter r entries) e.stamp).getD (rosterAfter r entries) := by
  rw [rosterAfter_append]
  rfl

@[simp] theorem rosterChanges_nil (r : Roster) : rosterChanges r [] = [] := rfl

theorem rosterChanges_append (r : Roster) (xs ys : List Entry) :
    rosterChanges r (xs ++ ys) = rosterChanges r xs ++ rosterChanges (rosterAfter r xs) ys := by
  induction xs generalizing r with
  | nil => rfl
  | cons e xs ih =>
      have hafter : rosterAfter r (e :: xs) =
          rosterAfter ((e.record.successor? r e.stamp).getD r) xs := rfl
      cases h : e.record.successor? r e.stamp with
      | none => simp [rosterChanges, hafter, h, ih]
      | some next => simp [rosterChanges, hafter, h, ih]

/-- An entry that leaves the roster alone adds nothing, any other adds its successor. -/
theorem rosterChanges_concat (r : Roster) (entries : List Entry) (e : Entry) :
    rosterChanges r (entries ++ [e]) = rosterChanges r entries ++
      ((e.record.successor? (rosterAfter r entries) e.stamp).map (e.stamp, ·)).toList := by
  rw [rosterChanges_append]
  cases h : e.record.successor? (rosterAfter r entries) e.stamp with
  | none => simp [rosterChanges, h]
  | some next => simp [rosterChanges, h]

theorem rosterHistory_append (seed : Roster) (xs ys : List Entry) :
    rosterHistory seed (xs ++ ys) =
      rosterHistory seed xs ++ rosterChanges (rosterAfter seed xs) ys := by
  rw [rosterHistory, rosterChanges_append]
  rfl

theorem rosterHistory_mono {seed : Roster} {xs ys : List Entry} (h : xs <+: ys) :
    rosterHistory seed xs <+: rosterHistory seed ys := by
  obtain ⟨rest, rfl⟩ := h
  rw [rosterHistory_append]
  exact List.prefix_append _ _

theorem rosters_append (seed : Roster) (xs ys : List Entry) :
    rosters seed (xs ++ ys) =
      rosters seed xs ++ (rosterChanges (rosterAfter seed xs) ys).map Prod.snd := by
  rw [rosters, rosterHistory_append, List.map_append]
  rfl

theorem rosters_concat (seed : Roster) (entries : List Entry) (e : Entry) :
    rosters seed (entries ++ [e]) = rosters seed entries ++
      (e.record.successor? (rosterAfter seed entries) e.stamp).toList := by
  rw [rosters, rosterHistory, rosterChanges_concat, rosters, rosterHistory, ← List.cons_append,
    List.map_append]
  cases e.record.successor? (rosterAfter seed entries) e.stamp <;> rfl

theorem getLast?_rosters (seed : Roster) (entries : List Entry) :
    (rosters seed entries).getLast? = some (rosterAfter seed entries) := by
  induction entries using List.reverseRecOn with
  | nil => rfl
  | append_singleton entries e ih =>
      rw [rosters_concat, rosterAfter_concat]
      cases e.record.successor? (rosterAfter seed entries) e.stamp with
      | none => simpa using ih
      | some next => simp

theorem rosterAfter_mem_rosters (seed : Roster) (entries : List Entry) :
    rosterAfter seed entries ∈ rosters seed entries :=
  List.mem_of_getLast? (getLast?_rosters seed entries)

theorem rosterAfter_take_mem_rosters (seed : Roster) (entries : List Entry) (n : Nat) :
    rosterAfter seed (entries.take n) ∈ rosters seed entries := by
  have hsplit := rosters_append seed (entries.take n) (entries.drop n)
  rw [List.take_append_drop] at hsplit
  rw [hsplit]
  exact List.mem_append_left _ (rosterAfter_mem_rosters seed _)

theorem exists_installs_iff {seed : Roster} {entries : List Entry} {n : Nat} :
    (∃ prev next, Installs seed entries n prev next) ↔
      (entries[n]?.bind fun e =>
        e.record.successor? (rosterAfter seed (entries.take n)) e.stamp).isSome := by
  simp only [Installs, Option.isSome_iff_exists, Option.bind_eq_some_iff]
  constructor
  · rintro ⟨_, next, rfl, h⟩
    exact ⟨next, h⟩
  · rintro ⟨next, h⟩
    exact ⟨_, next, rfl, h⟩

/-- What an entry installs is decided by the entries in front of it. -/
theorem Installs.append {seed : Roster} {entries : List Entry} {n : Nat} {prev next : Roster}
    (h : Installs seed entries n prev next) (more : List Entry) :
    Installs seed (entries ++ more) n prev next := by
  obtain ⟨hprev, e, hget, hnext⟩ := h
  have hlt : n < entries.length := (List.getElem?_eq_some_iff.1 hget).1
  refine ⟨?_, e, ?_, hnext⟩
  · rw [hprev, List.take_append_of_le_length hlt.le]
  · rw [List.getElem?_append_left hlt, hget]

theorem Installs.of_append {seed : Roster} {entries more : List Entry} {n : Nat}
    {prev next : Roster} (h : Installs seed (entries ++ more) n prev next)
    (hn : n < entries.length) : Installs seed entries n prev next := by
  obtain ⟨hprev, e, hget, hnext⟩ := h
  rw [List.take_append_of_le_length hn.le] at hprev
  rw [List.getElem?_append_left hn] at hget
  exact ⟨hprev, e, hget, hnext⟩

theorem installs_length_iff {seed : Roster} {entries : List Entry} {e : Entry}
    {prev next : Roster} :
    Installs seed (entries ++ [e]) entries.length prev next ↔
      prev = rosterAfter seed entries ∧ e.record.successor? prev e.stamp = some next := by
  simp [Installs]

theorem Installs.unique {seed : Roster} {entries : List Entry} {n : Nat}
    {prev prev' next next' : Roster} (h : Installs seed entries n prev next)
    (h' : Installs seed entries n prev' next') : next = next' := by
  obtain ⟨rfl, e, hget, hnext⟩ := h
  obtain ⟨rfl, a, hget', hnext'⟩ := h'
  cases hget.symm.trans hget'
  exact Option.some.inj (hnext.symm.trans hnext')

/-- The entry that changes the roster in effect puts the new one there. -/
theorem installs_of_ne {seed : Roster} {entries : List Entry} {e : Entry}
    (h : rosterAfter seed (entries ++ [e]) ≠ rosterAfter seed entries) :
    Installs seed (entries ++ [e]) entries.length (rosterAfter seed entries)
      (rosterAfter seed (entries ++ [e])) := by
  rw [rosterAfter_concat] at h ⊢
  refine installs_length_iff.2 ⟨rfl, ?_⟩
  cases hnext : e.record.successor? (rosterAfter seed entries) e.stamp with
  | none =>
      rw [hnext] at h
      exact absurd rfl h
  | some next => rfl

theorem Installs.lt_length {seed : Roster} {entries : List Entry} {n : Nat}
    {prev next : Roster} (h : Installs seed entries n prev next) : n < entries.length := by
  obtain ⟨_, _, hget, _⟩ := h
  exact (List.getElem?_eq_some_iff.1 hget).1

/-- Entries come behind the others, and no more than one of them puts a roster in effect. -/
structure Gains (seed : Roster) (xs ys : List Entry) : Prop where
  grows : xs <+: ys
  rosters : ∃ new : Option Roster, rosters seed ys = rosters seed xs ++ new.toList

theorem gains_of_rosters {seed : Roster} {xs ys : List Entry} (h : xs <+: ys)
    (heq : rosters seed ys = rosters seed xs) : Gains seed xs ys :=
  ⟨h, none, heq.trans (List.append_nil _).symm⟩

theorem gains_refl (seed : Roster) (entries : List Entry) : Gains seed entries entries :=
  gains_of_rosters (List.prefix_refl _) rfl

theorem gains_of_eq (seed : Roster) {xs ys : List Entry} (h : ys = xs) : Gains seed xs ys :=
  h ▸ gains_refl seed ys

theorem gains_concat (seed : Roster) (entries : List Entry) (e : Entry) :
    Gains seed entries (entries ++ [e]) :=
  ⟨List.prefix_append _ _, _, rosters_concat seed entries e⟩

/-- The rosters of the history behind the seed are those that an entry installs. -/
theorem mem_rosterChanges_iff {seed : Roster} {entries : List Entry} {stamp : Stamp}
    {next : Roster} :
    (stamp, next) ∈ rosterChanges seed entries ↔
      ∃ n e prev, entries[n]? = some e ∧ e.stamp = stamp ∧
        Installs seed entries n prev next := by
  induction entries using List.reverseRecOn with
  | nil => simp [rosterChanges]
  | append_singleton entries e ih =>
      rw [rosterChanges_concat, List.mem_append, ih]
      constructor
      · rintro (⟨n, a, prev, hget, hstamp, hinst⟩ | hlast)
        · have hlt : n < entries.length := hinst.lt_length
          exact ⟨n, a, prev, by rw [List.getElem?_append_left hlt, hget], hstamp,
            hinst.append [e]⟩
        · obtain ⟨r, hr, hpair⟩ := Option.map_eq_some_iff.1 (Option.mem_toList.1 hlast)
          cases hpair
          exact ⟨entries.length, e, rosterAfter seed entries, by simp, rfl,
            installs_length_iff.2 ⟨rfl, hr⟩⟩
      · rintro ⟨n, a, prev, hget, hstamp, hinst⟩
        have hle : n < entries.length + 1 := by simpa using hinst.lt_length
        rcases Nat.lt_succ_iff_lt_or_eq.1 hle with hlt | rfl
        · rw [List.getElem?_append_left hlt] at hget
          exact Or.inl ⟨n, a, prev, hget, hstamp, hinst.of_append hlt⟩
        · obtain ⟨hprev, hnext⟩ := installs_length_iff.1 hinst
          have hae : e = a := by simpa using hget
          refine Or.inr (Option.mem_toList.2 (Option.map_eq_some_iff.2 ⟨next, ?_, ?_⟩))
          · rw [← hprev, hnext]
          · rw [hae, hstamp]

theorem mem_tail_rosters {seed : Roster} {entries : List Entry} {next : Roster} :
    next ∈ (rosters seed entries).tail ↔ ∃ stamp, (stamp, next) ∈ rosterChanges seed entries := by
  rw [rosters, rosterHistory, List.map_cons, List.tail_cons]
  simp

theorem Installs.mem_tail {seed : Roster} {entries : List Entry} {n : Nat} {prev next : Roster}
    (h : Installs seed entries n prev next) : next ∈ (rosters seed entries).tail := by
  have ⟨_, e, hget, _⟩ := h
  exact mem_tail_rosters.2 ⟨e.stamp, mem_rosterChanges_iff.2 ⟨n, e, prev, hget, rfl, h⟩⟩

theorem rosterChanges_mono {seed : Roster} {xs ys : List Entry} (h : xs <+: ys) :
    rosterChanges seed xs <+: rosterChanges seed ys := by
  obtain ⟨rest, rfl⟩ := h
  rw [rosterChanges_append]
  exact List.prefix_append _ _

end Quorate
