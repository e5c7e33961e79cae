import Quorate.Proofs.CommitLog.Frame
import Quorate.Proofs.Election
import Quorate.Proofs.View.Replay

/-!
# The order of commits

As long as neither the epoch nor the counter of a log stands at its greatest value, the
stamps of its entries strictly ascend and none is past the stamp of the latest commit:
`Ordered` is kept by every turn. The roster of a log is always the one that its entries
lead to (`Derived`), and its leader is always a server that runs (`Led`).
-/

namespace Quorate.CommitLog

variable {ρ : Type}

/-- Epoch and counter can still be counted up. -/
def InRange (l : CommitLog ρ) : Prop :=
  l.epoch ≠ 0xFFFFFFFF ∧ l.counter ≠ 0xFFFFFFFF

instance (l : CommitLog ρ) : Decidable l.InRange :=
  inferInstanceAs (Decidable (_ ∧ _))

/-- The stamps of the entries ascend up to that of the latest commit. -/
structure Ordered (l : CommitLog ρ) : Prop where
  ascending : Ascending l.entries
  le_last : ∀ e ∈ l.entries, e.stamp ≤ l.lastCommitted

/-- The roster is the one that the entries put in effect. -/
def Derived (seed : Roster) (l : CommitLog ρ) : Prop :=
  l.roster = rosterAfter seed l.entries

theorem ordered_empty (seed : Roster) : (empty seed : CommitLog ρ).Ordered where
  ascending := ⟨List.Pairwise.nil, fun _ h => absurd h List.not_mem_nil⟩
  le_last _ h := absurd h List.not_mem_nil

theorem lastCommitted_lt_nextStamp {l : CommitLog ρ} (h : l.counter ≠ 0xFFFFFFFF) :
    l.lastCommitted < l.nextStamp := by
  refine Stamp.lt_iff.2 (Or.inr ?_)
  rw [lastCommitted, nextStamp]
  simpa using lt_bump h

theorem lastCommitted_le_nextStamp (l : CommitLog ρ) : l.lastCommitted ≤ l.nextStamp := by
  refine Stamp.le_iff.2 (Or.inr ?_)
  rw [lastCommitted, nextStamp]
  simpa using le_bump l.counter

theorem make_nextStamp_counter (l : CommitLog ρ) :
    Stamp.make l.epoch l.nextStamp.counter = l.nextStamp := by
  rw [nextStamp, Stamp.counter_make]

theorem Ordered.still {l l' : CommitLog ρ} (h : l.Ordered) (hepoch : l'.epoch = l.epoch)
    (hcounter : l'.counter = l.counter) (hentries : l'.entries = l.entries) : l'.Ordered := by
  have hlast : l'.lastCommitted = l.lastCommitted := by
    rw [lastCommitted, hepoch, hcounter, lastCommitted]
  refine ⟨by rw [hentries]; exact h.ascending, fun e he => ?_⟩
  rw [hentries] at he
  rw [hlast]
  exact h.le_last e he

theorem lastCommitted_lt_of_renewed {l l' : CommitLog ρ} (hr : l.epoch ≠ 0xFFFFFFFF)
    (hepoch : l'.epoch = bump l.epoch) : l.lastCommitted < l'.lastCommitted := by
  refine Stamp.lt_iff.2 (Or.inl ?_)
  rw [lastCommitted, lastCommitted, hepoch]
  simpa using lt_bump hr

/-- The stamps stay in order where a new epoch begins. -/
theorem Ordered.renewed {l l' : CommitLog ρ} (h : l.Ordered) (hr : l.epoch ≠ 0xFFFFFFFF)
    (hepoch : l'.epoch = bump l.epoch) (hentries : l'.entries = l.entries) : l'.Ordered := by
  refine ⟨by rw [hentries]; exact h.ascending, fun e he => ?_⟩
  rw [hentries] at he
  exact ((h.le_last e he).trans_lt (lastCommitted_lt_of_renewed hr hepoch)).le

/-- The stamps stay in order where a record is committed. -/
theorem Ordered.committed {l l' : CommitLog ρ} (h : l.Ordered) (hr : l.counter ≠ 0xFFFFFFFF)
    {record : Record} {sender : ServerId} (hepoch : l'.epoch = l.epoch)
    (hcounter : l'.counter = l.nextStamp.counter)
    (hentries : l'.entries = l.entries ++ [⟨l.nextStamp, record, sender⟩]) : l'.Ordered := by
  have hlt : ∀ e ∈ l.entries, e.stamp < l.nextStamp := fun e he =>
    (h.le_last e he).trans_lt (lastCommitted_lt_nextStamp hr)
  have hlast : l'.lastCommitted = l.nextStamp := by
    rw [lastCommitted, hepoch, hcounter, make_nextStamp_counter]
  refine ⟨?_, fun e he => ?_⟩
  · rw [hentries]
    exact ascending_concat_iff.2 ⟨h.ascending, hlt, Stamp.zero_lt_make_bump _ _⟩
  · rw [hlast]
    rw [hentries] at he
    rcases List.mem_append.1 he with hm | hm
    · exact (hlt e hm).le
    · exact le_of_eq (congrArg Entry.stamp (List.mem_singleton.1 hm))

theorem Ordered.turn {l l' : CommitLog ρ} (h : l.Ordered) (hr : l.InRange)
    (ht : Turn l l') : l'.Ordered := by
  cases ht with
  | still epoch counter _ entries _ => exact h.still epoch counter entries
  | renewed epoch _ _ entries _ _ => exact h.renewed hr.1 epoch entries
  | committed _ _ _ epoch counter _ entries _ => exact h.committed hr.2 epoch counter entries

theorem Derived.turn {seed : Roster} {l l' : CommitLog ρ} (h : l.Derived seed)
    (ht : Turn l l') : l'.Derived seed := by
  unfold Derived at h ⊢
  cases ht with
  | still _ _ roster entries _ => rw [roster, entries, h]
  | renewed _ _ roster entries _ _ => rw [roster, entries, h]
  | committed record sender _ _ _ roster entries _ =>
      rw [roster, entries, rosterAfter_concat, ← h]

/-- Entries are only ever added at the end. -/
theorem Turn.entries_grow {l l' : CommitLog ρ} (ht : Turn l l') : l.entries <+: l'.entries := by
  cases ht with
  | still _ _ _ entries _ => exact entries ▸ List.prefix_refl _
  | renewed _ _ _ entries _ _ => exact entries ▸ List.prefix_refl _
  | committed _ _ _ _ _ _ entries _ =>
      rw [entries]
      exact List.prefix_append _ _

theorem isOnline_of_elected {l : CommitLog ρ} {winner : ServerId}
    (h : Quorate.elect l.roster l.online (fun id => some (l.lastStamp id)) = .elected winner) :
    l.isOnline winner = true :=
  mem_online_iff.1 (mem_of_elect_eq_elected h).2

theorem led_empty (seed : Roster) : (empty seed : CommitLog ρ).Led := by
  intro id h
  cases h

theorem Led.adjust {l : CommitLog ρ} (h : l.Led) (id : ServerId) (f : ρ → ρ) :
    (l.adjust id f).Led := by
  intro j hj
  rw [isOnline_adjust]
  exact h j hj

variable [Replica ρ]

theorem led_unled (l : CommitLog ρ) : l.unled.Led := by
  intro id h
  cases h

theorem led_renewed {l : CommitLog ρ} {leader : ServerId} (h : l.isOnline leader = true) :
    (l.renewed leader).Led := by
  intro id hid
  have heq : leader = id := Option.some.inj hid
  rw [← heq, renewed, isOnline_announce]
  exact h

theorem Led.attach {l : CommitLog ρ} (h : l.Led) (id : ServerId) (r : ρ) :
    (l.attach id r).Led :=
  fun j hj => isOnline_attach l id r (h j hj)

theorem Led.reattach {l : CommitLog ρ} (h : l.Led) (id : ServerId) : (l.reattach id).Led :=
  fun j hj => isOnline_reattach l id (h j hj)

theorem Led.stop {l : CommitLog ρ} (h : l.Led) (id : ServerId) : (l.stop id).Led := by
  rw [stop_eq]
  split
  · exact led_unled _
  · rename_i hne
    intro j hj
    have hji : j ≠ id := fun heq => hne (heq ▸ hj)
    rw [isOnline, attached_halted, if_neg hji]
    exact h j hj

theorem Led.start {l : CommitLog ρ} (h : l.Led) (id : ServerId) : (l.start id).2.Led := by
  rcases start_cases l id with heq | heq
  · rw [heq]
    exact h
  · rw [heq]
    exact fun j hj => isOnline_resumed l id (h j hj)

theorem Led.propose {l : CommitLog ρ} (h : l.Led) (sender : ServerId) (record : Record) :
    (l.propose sender record).2.Led := by
  rcases propose_cases l sender record with ⟨_, heq⟩ | ⟨_, _, heq⟩ | ⟨_, heq⟩
  · rw [heq]
    exact h
  · rw [heq]
    intro j hj
    rw [isOnline_deliver]
    exact h j hj
  · rw [heq]
    exact led_unled l

theorem ne_greatest_of_bump_ne {n : UInt32} (h : bump n ≠ 0xFFFFFFFF) : n ≠ 0xFFFFFFFF := by
  rintro rfl
  exact h bump_greatest

theorem Ordered.unled {l : CommitLog ρ} (h : l.Ordered) : l.unled.Ordered :=
  h.still rfl rfl rfl

theorem Ordered.resign {l : CommitLog ρ} (h : l.Ordered) (leader : ServerId) :
    (l.resign leader).Ordered := by
  rcases resign_cases l leader with heq | heq
  · rw [heq]
    exact h
  · rw [heq]
    exact h.unled

theorem Ordered.elect {l : CommitLog ρ} (h : l.Ordered) (hepoch : l.elect.2.epoch ≠ 0xFFFFFFFF) :
    l.elect.2.Ordered := by
  rcases elect_cases l with ⟨winner, heq, _⟩ | heq
  · rw [heq] at hepoch ⊢
    exact h.renewed (ne_greatest_of_bump_ne hepoch) rfl rfl
  · rw [heq]
    exact h.unled

theorem Ordered.establish {l : CommitLog ρ} (h : l.Ordered) {leader : ServerId}
    (hepoch : (l.establish leader).2.epoch ≠ 0xFFFFFFFF) : (l.establish leader).2.Ordered := by
  rcases establish_cases l leader with heq | ⟨_, heq⟩ | heq
  · rw [heq]
    exact h
  · rw [heq] at hepoch ⊢
    exact h.renewed (ne_greatest_of_bump_ne hepoch) rfl rfl
  · rw [heq]
    exact h.unled

theorem Ordered.propose {l : CommitLog ρ} (h : l.Ordered) (hcounter : l.counter ≠ 0xFFFFFFFF)
    (sender : ServerId) (record : Record) : (l.propose sender record).2.Ordered := by
  rcases propose_cases l sender record with ⟨_, heq⟩ | ⟨_, _, heq⟩ | ⟨_, heq⟩
  · rw [heq]
    exact h
  · rw [heq]
    exact h.committed hcounter rfl rfl rfl
  · rw [heq]
    exact h.unled

end Quorate.CommitLog
