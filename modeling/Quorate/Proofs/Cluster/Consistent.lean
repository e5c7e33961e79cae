import Quorate.Proofs.Call.Moves
import Quorate.Proofs.Cluster.Run

/-!
# Calls and the log that they share

`Cluster.Consistent` ties every call to the log: each has to show for itself what it
recorded, no two have recorded the same entry, and every config record of the log was
recorded by one of them. It is kept by whatever happens outside of the calls
(`Consistent.outside`) and by what one call does (`Consistent.record`), so that it holds of
every cluster that comes about (`Reachable.consistent`).
-/

namespace Quorate

theorem mem_newPlaces {before after : List Entry} {n : Nat} :
    n ∈ newPlaces before after ↔ before.length ≤ n ∧ n < after.length := by
  rw [newPlaces, List.mem_range'_1]
  omega

theorem newPlaces_self (entries : List Entry) : newPlaces entries entries = [] := by
  rw [newPlaces, Nat.sub_self]
  rfl

theorem newPlaces_concat (entries : List Entry) (e : Entry) :
    newPlaces entries (entries ++ [e]) = [entries.length] := by
  simp [newPlaces]

/-- Entries without config records leave the rosters as they are. -/
theorem rosters_append_of_plain {seed : Roster} {entries more : List Entry}
    (h : ∀ e ∈ more, e.record.isReconfigure = false) :
    rosters seed (entries ++ more) = rosters seed entries := by
  induction more using List.reverseRecOn with
  | nil => rw [List.append_nil]
  | append_singleton more e ih =>
      have hlast : e.record.isReconfigure = false := h e (by simp)
      rw [← List.append_assoc, rosters_concat, ih fun a ha => h a (by simp [ha]),
        Record.successor?_eq_none hlast, Option.toList_none, List.append_nil]

/-- An attempt that was not given up has to show for itself what it recorded. -/
def Attempt.Settles (seed : Roster) (l : CommitLog Server) (a : Attempt) : Prop :=
  ∀ progress, a.progress = some progress →
    Reconfiguration.Settles seed l a.request a.recorded progress

namespace Cluster

structure Consistent (seed : Roster) (s : Cluster) : Prop where
  sound : s.ensemble.Sound seed
  settles : ∀ (i : Nat) (a : Attempt), s.calls[i]? = some a → a.Settles seed s.ensemble.log
  past : ∀ (i : Nat) (a : Attempt), s.calls[i]? = some a →
    ∀ n ∈ a.recorded, n < s.ensemble.log.entries.length
  apart : ∀ (i j : Nat) (a b : Attempt), s.calls[i]? = some a → s.calls[j]? = some b →
    ∀ n, n ∈ a.recorded → n ∈ b.recorded → i = j
  complete : ∀ (n : Nat) (e : Entry), s.ensemble.log.entries[n]? = some e →
    e.record.isReconfigure = true → ∃ (i : Nat) (a : Attempt), s.calls[i]? = some a ∧
      n ∈ a.recorded

variable {template : Settings} {seed : Roster} {s : Cluster}

theorem consistent_initial (template : Settings) (seed : Roster) :
    (initial template seed).Consistent seed where
  sound := Ensemble.sound_vacant template seed
  settles i a h := by simp [initial] at h
  past i a h := by simp [initial] at h
  apart i j a b h := by simp [initial] at h
  complete n e h := by
    have hnil : (initial template seed).ensemble.log.entries = [] := rfl
    rw [hnil] at h
    cases h

/-- What happens outside of the calls commits no config record. -/
theorem Consistent.outside (h : s.Consistent seed) (hr : s.ensemble.log.InRange)
    {e : Ensemble} (ho : s.ensemble.Onward seed e) (more : List Entry)
    (hentries : e.log.entries = s.ensemble.log.entries ++ more)
    (hplain : ∀ a ∈ more, a.record.isReconfigure = false) :
    ({ s with ensemble := e } : Cluster).Consistent seed where
  sound := by
    apply h.sound.onward hr ho
    rw [hentries, rosters_append_of_plain hplain]
    exact h.sound.chain
  settles i a ha progress hprogress :=
    (h.settles i a ha progress hprogress).lasting ho.log.lasting
  past i a ha n hn := by
    change n < e.log.entries.length
    rw [hentries, List.length_append]
    exact (h.past i a ha n hn).trans_le (Nat.le_add_right _ _)
  apart := h.apart
  complete n a hget hrecord := by
    change e.log.entries[n]? = some a at hget
    rw [hentries] at hget
    rcases Nat.lt_or_ge n s.ensemble.log.entries.length with hlt | hge
    · rw [List.getElem?_append_left hlt] at hget
      exact h.complete n a hget hrecord
    · rw [List.getElem?_append_right hge] at hget
      rw [hplain a (List.mem_of_getElem? hget)] at hrecord
      cases hrecord

theorem call?_eq_some_iff {place : Nat} {a : Attempt} {c : Reconfiguration} :
    s.call? place = some (a, c) ↔ s.calls[place]? = some a ∧ a.progress = some (.going c) := by
  unfold call?
  split
  · rename_i b hb
    split
    · rename_i d hd
      rw [hb]
      simp only [Option.some.injEq, Prod.mk.injEq]
      constructor
      · rintro ⟨rfl, rfl⟩
        exact ⟨rfl, hd⟩
      · rintro ⟨rfl, hc⟩
        rw [hd] at hc
        cases hc
        exact ⟨rfl, rfl⟩
    · rename_i hnot
      rw [hb]
      simp only [reduceCtorEq, Option.some.injEq, false_iff, not_and]
      rintro rfl
      exact hnot c
  · rename_i hnone
    simp [hnone]

/-- What one call does changes its own attempt alone. -/
theorem calls_record {place : Nat} {a : Attempt} (ha : s.calls[place]? = some a)
    (progress : Option (Progress Reconfiguration (Except Fault Roster))) (e : Ensemble)
    (i : Nat) :
    (s.record place a progress e).calls[i]? =
      if i = place then
        some ⟨a.request, progress,
          a.recorded ++ newPlaces s.ensemble.log.entries e.log.entries⟩
      else s.calls[i]? := by
  have hlt : place < s.calls.length := (List.getElem?_eq_some_iff.1 ha).1
  rw [Cluster.record, List.getElem?_set]
  by_cases h : i = place
  · simp [h, hlt]
  · rw [if_neg (Ne.symm h), if_neg h]

/-- One call does something, and has to show for itself what it appended. -/
theorem Consistent.record (h : s.Consistent seed) (hr : s.ensemble.log.InRange) {place : Nat}
    {a : Attempt} (ha : s.calls[place]? = some a) {e : Ensemble}
    {progress : Option (Progress Reconfiguration (Except Fault Roster))}
    (ho : s.ensemble.Onward seed e)
    (hchain : (rosters seed e.log.entries).IsChain Roster.Succeeds)
    (hsettles : ∀ p, progress = some p → Reconfiguration.Settles seed e.log a.request
      (a.recorded ++ newPlaces s.ensemble.log.entries e.log.entries) p) :
    (s.record place a progress e).Consistent seed := by
  have hgrown := ho.log.turn.entries_grow
  have hlength := hgrown.length_le
  have hmine (n : Nat) (hn : n ∈ a.recorded ++ newPlaces s.ensemble.log.entries e.log.entries) :
      n ∈ a.recorded ∨ s.ensemble.log.entries.length ≤ n ∧ n < e.log.entries.length :=
    (List.mem_append.1 hn).imp_right mem_newPlaces.1
  have hothers (i : Nat) (b : Attempt) (hb : s.calls[i]? = some b) (n : Nat)
      (hn : n ∈ b.recorded)
      (hn' : n ∈ a.recorded ++ newPlaces s.ensemble.log.entries e.log.entries) : i = place := by
    rcases hmine n hn' with hold | ⟨hge, _⟩
    · exact h.apart i place b a hb ha n hn hold
    · exact absurd (h.past i b hb n hn) (Nat.not_lt.2 hge)
  constructor
  · exact h.sound.onward hr ho hchain
  · intro i b hb
    rw [calls_record ha] at hb
    split at hb
    · cases hb
      exact hsettles
    · intro p hp
      exact (h.settles i b hb p hp).lasting ho.log.lasting
  · intro i b hb n hn
    rw [calls_record ha] at hb
    split at hb
    · cases hb
      rcases hmine n hn with hold | ⟨_, hnew⟩
      · exact (h.past place a ha n hold).trans_le hlength
      · exact hnew
    · exact (h.past i b hb n hn).trans_le hlength
  · intro i j b b' hb hb' n hn hn'
    rw [calls_record ha] at hb hb'
    split at hb
    · rename_i hi
      cases hb
      split at hb'
      · rename_i hj
        exact hi.trans hj.symm
      · rename_i hj
        exact absurd (hothers j b' hb' n hn' hn) hj
    · rename_i hi
      split at hb'
      · cases hb'
        exact absurd (hothers i b hb n hn hn') hi
      · exact h.apart i j b b' hb hb' n hn hn'
  · intro n x hx hrecord
    rcases Nat.lt_or_ge n s.ensemble.log.entries.length with hlt | hge
    · have hold : s.ensemble.log.entries[n]? = some x := by
        obtain ⟨more, hmore⟩ := hgrown
        rw [← List.getElem?_append_left hlt, hmore]
        exact hx
      obtain ⟨i, b, hb, hn⟩ := h.complete n x hold hrecord
      by_cases hi : i = place
      · subst hi
        cases ha.symm.trans hb
        exact ⟨i, _, by rw [calls_record ha, if_pos rfl], List.mem_append_left _ hn⟩
      · exact ⟨i, b, by rw [calls_record ha, if_neg hi, hb], hn⟩
    · have hnew : n ∈ newPlaces s.ensemble.log.entries e.log.entries :=
        mem_newPlaces.2 ⟨hge, (List.getElem?_eq_some_iff.1 hx).1⟩
      exact ⟨place, _, by rw [calls_record ha, if_pos rfl], List.mem_append_right _ hnew⟩

/-- A call begins with nothing to show. -/
theorem Consistent.call (h : s.Consistent seed) (server : ServerId) (request : Request) :
    (s.perform (.call server request)).Consistent seed := by
  have hcases (i : Nat) (a : Attempt)
      (ha : (s.perform (.call server request)).calls[i]? = some a) :
      s.calls[i]? = some a ∨ a = ⟨request, some (.going (.start server request)), []⟩ := by
    change (s.calls ++ [_])[i]? = some a at ha
    rcases Nat.lt_or_ge i s.calls.length with hlt | hge
    · rw [List.getElem?_append_left hlt] at ha
      exact Or.inl ha
    · rw [List.getElem?_append_right hge] at ha
      exact Or.inr (List.mem_singleton.1 (List.mem_of_getElem? ha))
  constructor
  · exact h.sound
  · intro i a ha
    rcases hcases i a ha with hold | rfl
    · exact h.settles i a hold
    · intro p hp
      cases hp
      exact ⟨rfl, rfl⟩
  · intro i a ha n hn
    rcases hcases i a ha with hold | rfl
    · exact h.past i a hold n hn
    · cases hn
  · intro i j a b ha hb n hn hn'
    rcases hcases i a ha with hold | rfl
    · rcases hcases j b hb with hold' | rfl
      · exact h.apart i j a b hold hold' n hn hn'
      · cases hn'
    · cases hn
  · intro n x hx hrecord
    obtain ⟨i, a, ha, hn⟩ := h.complete n x hx hrecord
    have hlt : i < s.calls.length := (List.getElem?_eq_some_iff.1 ha).1
    exact ⟨i, a, (List.getElem?_append_left hlt).trans ha, hn⟩

theorem settles_of_moves {c : Reconfiguration} {recorded : List Nat} {e : Ensemble}
    {p : Progress Reconfiguration (Except Fault Roster) × Ensemble}
    (hm : Reconfiguration.Moves seed e c recorded p) :
    Reconfiguration.Settles seed p.2.log c.request
      (recorded ++ newPlaces e.log.entries p.2.log.entries) p.1 := by
  cases hm with
  | quiet _ entries _ settles =>
      rw [entries, newPlaces_self, List.append_nil]
      exact settles
  | committed _ _ _ fresh _ _ _ entries _ settles =>
      rw [entries, newPlaces_concat, fresh]
      exact settles
  | failed _ _ fails _ =>
      obtain ⟨fault, hfault⟩ := fails
      rw [hfault]
      trivial

/-- What a call that goes on is about to do, and what it has to show by then. -/
theorem Consistent.moves (h : s.Consistent seed) {place : Nat} {a : Attempt}
    {c : Reconfiguration} (hcall : s.call? place = some (a, c)) {now : Nat}
    {p : Progress Reconfiguration (Except Fault Roster) × Ensemble}
    (hstep : c.step now s.ensemble = some p) :
    Reconfiguration.Moves seed s.ensemble c a.recorded p := by
  obtain ⟨ha, hc⟩ := call?_eq_some_iff.1 hcall
  exact Reconfiguration.moves_of_step h.sound (h.settles place a ha _ hc).2 hstep

theorem advance_of_step {place now : Nat} {a : Attempt} {c : Reconfiguration}
    (hcall : s.call? place = some (a, c))
    {p : Progress Reconfiguration (Except Fault Roster) × Ensemble}
    (hstep : c.step now s.ensemble = some p) :
    s.advance place now = s.record place a (some p.1) p.2 := by
  rw [advance, hcall]
  dsimp only
  rw [hstep]

theorem advance_of_none {place now : Nat} {a : Attempt} {c : Reconfiguration}
    (hcall : s.call? place = some (a, c)) (hstep : c.step now s.ensemble = none) :
    s.advance place now = s := by
  rw [advance, hcall]
  dsimp only
  rw [hstep]

theorem Consistent.advance (h : s.Consistent seed) (hb : s.Bounded) (place now : Nat) :
    (s.advance place now).Consistent seed := by
  cases hcall : s.call? place with
  | none =>
      rw [Cluster.advance, hcall]
      exact h
  | some pair =>
      obtain ⟨a, c⟩ := pair
      cases hstep : c.step now s.ensemble with
      | none =>
          rw [advance_of_none hcall hstep]
          exact h
      | some p =>
          obtain ⟨ha, hc⟩ := call?_eq_some_iff.1 hcall
          have hm := h.moves hcall hstep
          rw [advance_of_step hcall hstep]
          apply h.record hb.1 ha hm.onward (hm.chain h.sound hb.2.1 hb.2.2)
          intro q hq
          cases hq
          exact (h.settles place a ha _ hc).1 ▸ settles_of_moves hm

theorem Consistent.abandon (h : s.Consistent seed) (hb : s.Bounded) (place : Nat) :
    (s.abandon place).Consistent seed := by
  unfold Cluster.abandon
  cases hcall : s.call? place with
  | none => exact h
  | some pair =>
      obtain ⟨a, c⟩ := pair
      obtain ⟨ha, _⟩ := call?_eq_some_iff.1 hcall
      have hstill : s.ensemble.Still seed (c.abandon s.ensemble) := by
        unfold Reconfiguration.abandon
        split
        · exact Ensemble.still_release seed s.ensemble c.server
        · exact Ensemble.still_refl seed s.ensemble
      apply h.record hb.1 ha hstill.onward (hstill.log.entries ▸ h.sound.chain)
      intro q hq
      cases hq

theorem Consistent.withLog (h : s.Consistent seed) (hb : s.Bounded) {log : CommitLog Server}
    (ho : CommitLog.Onward seed s.ensemble.log log)
    (hentries : log.entries = s.ensemble.log.entries) : (s.withLog log).Consistent seed :=
  h.outside hb.1 (Ensemble.onward_of_log ho) [] (hentries.trans (List.append_nil _).symm)
    fun _ ha => absurd ha List.not_mem_nil

theorem Consistent.write (h : s.Consistent seed) (hb : s.Bounded) (sender : ServerId)
    {record : Record} (plain : record.isReconfigure = false) :
    (s.perform (.write sender record plain)).Consistent seed := by
  have ho := CommitLog.onward_propose seed s.ensemble.log sender record
  rcases CommitLog.propose_cases s.ensemble.log sender record with
    ⟨_, heq⟩ | ⟨_, _, heq⟩ | ⟨_, heq⟩
  · apply h.withLog hb ho
    rw [heq]
  · apply h.outside hb.1 (Ensemble.onward_of_log ho) [⟨_, record, sender⟩]
    · rw [heq]
      rfl
    · intro a ha
      rw [List.mem_singleton.1 ha]
      exact plain
  · apply h.withLog hb ho
    rw [heq]
    rfl

theorem Consistent.perform (h : s.Consistent seed) (hb : s.Bounded) (action : Action) :
    (s.perform action).Consistent seed := by
  cases action with
  | spawn id =>
      cases hs : s.ensemble.server id with
      | ok t =>
          rw [Cluster.perform, Ensemble.spawn, hs]
          exact h
      | error fault =>
          have heq : s.perform (.spawn id) = s.withLog (s.ensemble.log.attach id
              (.ofSeed (s.ensemble.template.forServer id) s.ensemble.seed)) := by
            rw [Cluster.perform, Ensemble.spawn, hs]
            rfl
          rw [heq, h.sound.seeded]
          exact h.withLog hb (CommitLog.onward_attach seed _ (Ensemble.replica?_eq_none hs) _) rfl
  | stop id =>
      cases hs : s.ensemble.server id with
      | ok t =>
          rw [Cluster.perform, Ensemble.stop, hs]
          exact h.withLog hb (CommitLog.onward_stop seed _ id) (CommitLog.entries_stop _ id)
      | error fault =>
          rw [Cluster.perform, Ensemble.stop, hs]
          exact h
  | start id =>
      exact h.withLog hb (CommitLog.onward_start seed _ id) (CommitLog.entries_start _ id)
  | elect => exact h.withLog hb (CommitLog.onward_elect seed _) (CommitLog.entries_elect _)
  | resign leader =>
      exact h.withLog hb (CommitLog.onward_resign seed _ leader)
        (CommitLog.entries_resign _ leader)
  | establish leader =>
      exact h.withLog hb (CommitLog.onward_establish seed _ leader)
        (CommitLog.entries_establish _ leader)
  | write sender record plain => exact h.write hb sender plain
  | relink link honest =>
      exact ⟨{ h.sound with honest }, h.settles, h.past, h.apart, h.complete⟩
  | clients sessions serial =>
      exact ⟨{ h.sound with }, h.settles, h.past, h.apart, h.complete⟩
  | call server request => exact h.call server request
  | advance place now => exact h.advance hb place now
  | abandon place => exact h.abandon hb place

theorem Reachable.consistent (h : s.Reachable template seed) : s.Consistent seed :=
  h.invariant (Consistent seed) (consistent_initial template seed)
    fun _ action hb hs => hs.perform hb action

end Cluster

end Quorate
