import Quorate.Proofs.CommitLog.Order
import Quorate.Proofs.Reaches
import Quorate.Proofs.Roster.Valid
import Quorate.Server

/-!
# One leader in each epoch

Leadership is lost in many ways and won in one: whoever becomes leader begins an epoch in
which nothing has been committed yet (`Turn.renewed`). So as long as epochs can be counted
up, an epoch has one leader at most, from its first moment to its last
(`Turn.leader_of_epoch_eq`, `leader_eq_of_epoch_eq`), and all that is committed in it was
proposed by that leader (`Tenured`). This holds of a log with replicas of any kind and for
operations in any order (`proposer_eq_of_epoch_eq`).
-/

namespace Quorate.CommitLog

variable {ρ : Type}

/-- What can be done to a log. -/
inductive Operation (ρ : Type) where
  | attach (id : ServerId) (replica : ρ)
  | reattach (id : ServerId)
  /-- The replica of an id is gone. -/
  | drop (id : ServerId)
  | stop (id : ServerId)
  | start (id : ServerId)
  | elect
  | resign (leader : ServerId)
  | establish (leader : ServerId)
  | propose (sender : ServerId) (record : Record)

/-- Entries come in the order of their epochs, those of one epoch have one proposer, and
those of the present epoch are the work of the present leader, if there is one. -/
structure Tenured (l : CommitLog ρ) : Prop where
  epoch_le : ∀ e ∈ l.entries, e.stamp.epoch ≤ l.epoch
  present : ∀ e ∈ l.entries, e.stamp.epoch = l.epoch →
    ∀ leader, l.leader = some leader → e.proposer = leader
  sole : ∀ x ∈ l.entries, ∀ y ∈ l.entries, x.stamp.epoch = y.stamp.epoch →
    x.proposer = y.proposer
  ascending : l.entries.Pairwise fun x y => x.stamp.epoch ≤ y.stamp.epoch

theorem tenured_empty (seed : Roster) : (empty seed : CommitLog ρ).Tenured where
  epoch_le _ h := absurd h List.not_mem_nil
  present _ h := absurd h List.not_mem_nil
  sole _ h := absurd h List.not_mem_nil
  ascending := List.Pairwise.nil

theorem epoch_nextStamp (l : CommitLog ρ) : l.nextStamp.epoch = l.epoch := by
  rw [nextStamp, Stamp.epoch_make]

theorem Turn.epoch_le {l l' : CommitLog ρ} (ht : Turn l l') : l.epoch ≤ l'.epoch := by
  cases ht with
  | still epoch _ _ _ _ => exact epoch ▸ UInt32.le_refl _
  | renewed epoch _ _ _ _ _ => exact epoch ▸ le_bump _
  | committed _ _ _ epoch _ _ _ _ => exact epoch ▸ UInt32.le_refl _

/-- Within an epoch the leader stays or is lost. -/
theorem Turn.leader_of_epoch_eq {l l' : CommitLog ρ} (ht : Turn l l')
    (hr : l.epoch ≠ 0xFFFFFFFF) (heq : l'.epoch = l.epoch) :
    l'.leader = l.leader ∨ l'.leader = none := by
  cases ht with
  | still _ _ _ _ leader => exact leader
  | renewed epoch _ _ _ _ _ =>
      have hlt := lt_bump hr
      rw [← epoch, heq] at hlt
      exact absurd hlt (UInt32.lt_irrefl _)
  | committed _ _ _ _ _ _ _ leader => exact Or.inl leader

/-- An entry of the present epoch that is added at the end, by the leader. -/
theorem Tenured.concat {l l' : CommitLog ρ} (h : l.Tenured) {e : Entry}
    (hlead : l.leader = some e.proposer) (hepoch : e.stamp.epoch = l.epoch)
    (hsame : l'.epoch = l.epoch) (hentries : l'.entries = l.entries ++ [e])
    (hleader : l'.leader = l.leader) : l'.Tenured := by
  have hmem : ∀ x ∈ l'.entries, x ∈ l.entries ∨ x = e := by
    intro x hx
    rw [hentries] at hx
    exact (List.mem_append.1 hx).imp_right List.mem_singleton.1
  have hbefore : ∀ x ∈ l.entries, x.stamp.epoch = e.stamp.epoch → x.proposer = e.proposer :=
    fun x hx heq => h.present x hx (heq.trans hepoch) e.proposer hlead
  refine ⟨fun x hx => ?_, fun x hx heq leader hleads => ?_, fun x hx y hy heq => ?_, ?_⟩
  · rw [hsame]
    rcases hmem x hx with hin | rfl
    · exact h.epoch_le x hin
    · exact hepoch ▸ UInt32.le_refl _
  · rw [hleader] at hleads
    rw [hsame] at heq
    rcases hmem x hx with hin | rfl
    · exact h.present x hin heq leader hleads
    · exact Option.some.inj (hlead.symm.trans hleads)
  · rcases hmem x hx with hxin | rfl
    · rcases hmem y hy with hyin | rfl
      · exact h.sole x hxin y hyin heq
      · exact hbefore x hxin heq
    · rcases hmem y hy with hyin | rfl
      · exact (hbefore y hyin heq.symm).symm
      · rfl
  · rw [hentries, List.pairwise_append]
    refine ⟨h.ascending, List.pairwise_singleton _ _, fun x hx y hy => ?_⟩
    rw [List.mem_singleton.1 hy, hepoch]
    exact h.epoch_le x hx

theorem Tenured.turn {l l' : CommitLog ρ} (h : l.Tenured) (hr : l.epoch ≠ 0xFFFFFFFF)
    (ht : Turn l l') : l'.Tenured := by
  cases ht with
  | still epoch _ _ entries leader =>
      refine ⟨by rw [epoch, entries]; exact h.epoch_le, ?_, by rw [entries]; exact h.sole,
        by rw [entries]; exact h.ascending⟩
      rw [epoch, entries]
      intro e he heq id hid
      rcases leader with hsame | hnone
      · exact h.present e he heq id (hsame ▸ hid)
      · rw [hnone] at hid
        cases hid
  | renewed epoch _ _ entries _ _ =>
      have hlt : ∀ e ∈ l.entries, e.stamp.epoch < l'.epoch := fun e he =>
        UInt32.lt_of_le_of_lt (h.epoch_le e he) (epoch ▸ lt_bump hr)
      rw [← entries] at hlt
      refine ⟨fun e he => UInt32.le_of_lt (hlt e he), fun e he heq => ?_,
        by rw [entries]; exact h.sole, by rw [entries]; exact h.ascending⟩
      -- Nothing has been committed in the new epoch.
      have hnew := hlt e he
      rw [heq] at hnew
      exact absurd hnew (UInt32.lt_irrefl _)
  | committed record sender led epoch _ _ entries leader =>
      exact h.concat (e := ⟨l.nextStamp, record, sender⟩) led (epoch_nextStamp l) epoch entries
        leader

theorem turn_drop (l : CommitLog ρ) (id : ServerId) : Turn l (l.drop id) :=
  .still rfl rfl rfl rfl (Or.inl rfl)

theorem Led.drop {l : CommitLog ρ} (h : l.Led) (id : ServerId) : (l.drop id).Led := by
  intro j hj
  obtain ⟨a, ha, hon⟩ := isOnline_iff.1 (h j hj)
  rw [isOnline, CommitLog.drop, Keyed.get?_modify, ha]
  split <;> simpa using hon

variable [Replica ρ]

def perform (l : CommitLog ρ) : Operation ρ → CommitLog ρ
  | .attach id replica => l.attach id replica
  | .reattach id => l.reattach id
  | .drop id => l.drop id
  | .stop id => l.stop id
  | .start id => (l.start id).2
  | .elect => l.elect.2
  | .resign leader => l.resign leader
  | .establish leader => (l.establish leader).2
  | .propose sender record => (l.propose sender record).2

/-- The logs that come about over a seed before an epoch is counted too far. -/
def Reachable (seed : Roster) (l : CommitLog ρ) : Prop :=
  Reaches perform (fun l => l.epoch ≠ 0xFFFFFFFF) (empty seed) l

theorem turn_perform (l : CommitLog ρ) (operation : Operation ρ) :
    Turn l (l.perform operation) := by
  cases operation with
  | attach id replica => exact turn_attach l id replica
  | reattach id => exact turn_reattach l id
  | drop id => exact turn_drop l id
  | stop id => exact turn_stop l id
  | start id => exact turn_start l id
  | elect => exact turn_elect l
  | resign leader => exact turn_resign l leader
  | establish leader => exact turn_establish l leader
  | propose sender record => exact turn_propose l sender record

theorem Led.perform {l : CommitLog ρ} (h : l.Led) (operation : Operation ρ) :
    (l.perform operation).Led := by
  cases operation with
  | attach id replica => exact h.attach id replica
  | reattach id => exact h.reattach id
  | drop id => exact h.drop id
  | stop id => exact h.stop id
  | start id => exact h.start id
  | elect =>
      rcases elect_cases l with ⟨winner, heq, hwin⟩ | heq
      · rw [CommitLog.perform, heq]
        exact led_renewed (isOnline_of_elected hwin)
      · rw [CommitLog.perform, heq]
        exact led_unled l
  | resign leader =>
      rcases resign_cases l leader with heq | heq
      · rw [CommitLog.perform, heq]
        exact h
      · rw [CommitLog.perform, heq]
        exact led_unled l
  | establish leader =>
      rcases establish_cases l leader with heq | ⟨hlead, heq⟩ | heq
      · rw [CommitLog.perform, heq]
        exact h
      · rw [CommitLog.perform, heq]
        exact led_renewed (h leader hlead)
      · rw [CommitLog.perform, heq]
        exact led_unled l
  | propose sender record => exact h.propose sender record

theorem Reachable.tenured {seed : Roster} {l : CommitLog ρ} (h : l.Reachable seed) :
    l.Tenured :=
  h.invariant Tenured (tenured_empty seed) fun l operation hr ht =>
    ht.turn hr (turn_perform l operation)

theorem Reachable.led {seed : Roster} {l : CommitLog ρ} (h : l.Reachable seed) : l.Led :=
  h.invariant Led (led_empty seed) fun _ operation _ hl => hl.perform operation

/-- If a run comes back to a leader within the epoch that it began in, then to the same one. -/
theorem leader_eq_of_epoch_eq {first l : CommitLog ρ}
    (h : Reaches perform (fun l => l.epoch ≠ 0xFFFFFFFF) first l)
    (heq : l.epoch = first.epoch) : l.leader = first.leader ∨ l.leader = none := by
  have hle : ∀ {l}, Reaches perform (fun l => l.epoch ≠ 0xFFFFFFFF) first l →
      first.epoch ≤ l.epoch := fun h =>
    h.invariant (fun l => first.epoch ≤ l.epoch) (UInt32.le_refl _) fun l operation _ hle =>
      UInt32.le_trans hle (turn_perform l operation).epoch_le
  induction h with
  | first _ => exact Or.inl rfl
  | @step l operation hl hr ih =>
      have hturn := turn_perform l operation
      have hsame : l.epoch = first.epoch :=
        UInt32.le_antisymm (heq ▸ hturn.epoch_le) (hle hl)
      rcases hturn.leader_of_epoch_eq hl.within (heq.trans hsame.symm) with hstays | hlost
      · rw [hstays]
        exact ih hsame
      · exact Or.inr hlost

/-- Whatever is done to a log, in any order and by anyone: two entries of one epoch have the
same proposer, the epochs of the entries do not descend, and the leader, if there is one, is
attached and runs. -/
theorem proposer_eq_of_epoch_eq {seed : Roster} {l : CommitLog ρ} (h : l.Reachable seed) :
    (∀ x ∈ l.entries, ∀ y ∈ l.entries, x.stamp.epoch = y.stamp.epoch →
      x.proposer = y.proposer) ∧
    l.entries.Pairwise (fun x y => x.stamp.epoch ≤ y.stamp.epoch) ∧
    ∀ id, l.leader = some id → ∃ a, l.attached.get? id = some a ∧ a.online = true :=
  ⟨h.tenured.sole, h.tenured.ascending, fun id hid => isOnline_iff.1 (h.led id hid)⟩

/-- The last of three servers leads through two epochs and is stopped; another one wins. -/
def twoReigns : List (Operation Server) :=
  [.attach 1 (.ofSeed {} .trio), .attach 2 (.ofSeed {} .trio), .attach 3 (.ofSeed {} .trio),
    .elect, .propose 3 (.data "a"), .propose 1 (.data "b"), .propose 3 (.data "c"), .establish 3,
    .propose 3 (.data "d"), .stop 3, .elect, .propose 2 (.data "e"), .start 3,
    .propose 3 (.data "f")]

/-- After that run records are committed in three epochs, by two servers. -/
theorem proposer_eq_of_epoch_eq_twoReigns :
    ∃ l : CommitLog Server, l.Reachable .trio ∧ l.leader = some 2 ∧
      l.entries.map (fun e => (e.stamp.epoch, e.proposer)) =
        [(1, 3), (1, 3), (2, 3), (3, 2)] ∧
      (∀ x ∈ l.entries, ∀ y ∈ l.entries, x.stamp.epoch = y.stamp.epoch →
        x.proposer = y.proposer) ∧
      ∃ a, l.attached.get? 2 = some a ∧ a.online = true := by
  have hreach : (twoReigns.foldl perform (empty .trio)).Reachable .trio :=
    reaches_foldl twoReigns (by decide +kernel)
  have hleader : (twoReigns.foldl perform (empty .trio)).leader = some 2 := by
    decide +kernel
  obtain ⟨hsole, _, hled⟩ := proposer_eq_of_epoch_eq hreach
  exact ⟨_, hreach, hleader, by decide +kernel, hsole, hled 2 hleader⟩

end Quorate.CommitLog
