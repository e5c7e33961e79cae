import Mathlib.Algebra.Group.Nat.Defs
import Mathlib.Order.Lattice
import Quorate.Stamp

/-!
# The order of stamps

A stamp is the pair of its epoch and its counter, in the sense of `make_epoch_counter`
and `epoch_make`, `counter_make`; the order of the words is the lexicographic order of
these pairs (`lt_iff`). Counting up moves a stamp forward unless the part that is counted
stands at its greatest value (`lt_nextCounter_iff`, `lt_nextEpoch_iff`).
-/

namespace Quorate

theorem toNat_bump (n : UInt32) :
    (bump n).toNat = if n = 0xFFFFFFFF then n.toNat else n.toNat + 1 := by
  unfold bump
  split
  · rfl
  · rename_i h
    have hne : n.toNat ≠ 0xFFFFFFFF := fun heq => h (UInt32.toNat_inj.1 heq)
    have hlt := n.toNat_lt
    rw [UInt32.toNat_add]
    exact Nat.mod_eq_of_lt (by change n.toNat + 1 < 2 ^ 32; omega)

theorem toNat_bump_of_ne {n : UInt32} (h : n ≠ 0xFFFFFFFF) :
    (bump n).toNat = n.toNat + 1 := by
  rw [toNat_bump, if_neg h]

theorem bump_greatest : bump 0xFFFFFFFF = 0xFFFFFFFF := rfl

theorem le_bump (n : UInt32) : n ≤ bump n := by
  rw [UInt32.le_iff_toNat_le, toNat_bump]
  split <;> omega

theorem lt_bump {n : UInt32} (h : n ≠ 0xFFFFFFFF) : n < bump n := by
  rw [UInt32.lt_iff_toNat_lt, toNat_bump_of_ne h]
  exact Nat.lt_succ_self _

theorem bump_le_of_lt {m n : UInt32} (h : m < n) : bump m ≤ n := by
  have hlt := UInt32.lt_iff_toNat_lt.1 h
  rw [UInt32.le_iff_toNat_le, toNat_bump]
  split <;> omega

theorem bump_mono {m n : UInt32} (h : m ≤ n) : bump m ≤ bump n := by
  rcases UInt32.lt_or_eq_of_le h with hlt | rfl
  · exact UInt32.le_trans (bump_le_of_lt hlt) (le_bump n)
  · exact UInt32.le_refl _

theorem le_of_bump_le_bump {m n : UInt32} (h : m ≠ 0xFFFFFFFF) (hle : bump m ≤ bump n) :
    m ≤ n := by
  by_contra hnot
  have hlt := UInt32.lt_of_le_of_lt (bump_le_of_lt (UInt32.not_le.1 hnot)) (lt_bump h)
  exact absurd hle (UInt32.not_le.2 hlt)

theorem lt_greatest {n : UInt32} (h : n ≠ 0xFFFFFFFF) : n < 0xFFFFFFFF := by
  have hle := n.toNat_lt
  have hne : n.toNat ≠ 0xFFFFFFFF := fun heq => h (UInt32.toNat_inj.1 heq)
  rw [UInt32.lt_iff_toNat_lt]
  change n.toNat < 0xFFFFFFFF
  omega

theorem bump_ne_zero (n : UInt32) : bump n ≠ 0 := by
  intro h
  have hz : (bump n).toNat = 0 := by rw [h]; rfl
  rw [toNat_bump] at hz
  split at hz
  · rename_i hn
    rw [hn] at hz
    exact absurd hz (by decide)
  · omega

namespace Stamp

theorem toNat_make (epoch counter : UInt32) :
    (make epoch counter).word.toNat = epoch.toNat * 2 ^ 32 + counter.toNat := by
  have he := epoch.toNat_lt
  have hc := counter.toNat_lt
  have hshift : (epoch.toUInt64 <<< 32).toNat = epoch.toNat <<< 32 := by
    rw [UInt64.toNat_shiftLeft, UInt32.toNat_toUInt64]
    refine Nat.mod_eq_of_lt ?_
    rw [Nat.shiftLeft_eq]
    change epoch.toNat * 2 ^ 32 < 2 ^ 64
    omega
  rw [make, UInt64.toNat_or, hshift, UInt32.toNat_toUInt64,
    ← Nat.shiftLeft_add_eq_or_of_lt hc, Nat.shiftLeft_eq]

theorem toNat_epoch (s : Stamp) : s.epoch.toNat = s.word.toNat / 2 ^ 32 := by
  have hw := s.word.toNat_lt
  rw [epoch, UInt64.toNat_toUInt32, UInt64.toNat_shiftRight]
  change s.word.toNat >>> 32 % 2 ^ 32 = s.word.toNat / 2 ^ 32
  rw [Nat.shiftRight_eq_div_pow]
  exact Nat.mod_eq_of_lt (by omega)

theorem toNat_counter (s : Stamp) : s.counter.toNat = s.word.toNat % 2 ^ 32 := by
  rw [counter, UInt64.toNat_toUInt32]

@[simp] theorem epoch_make (epoch counter : UInt32) : (make epoch counter).epoch = epoch := by
  have hc := counter.toNat_lt
  apply UInt32.toNat_inj.1
  rw [toNat_epoch, toNat_make]
  omega

@[simp] theorem counter_make (epoch counter : UInt32) :
    (make epoch counter).counter = counter := by
  have hc := counter.toNat_lt
  apply UInt32.toNat_inj.1
  rw [toNat_counter, toNat_make]
  omega

theorem toNat_word (s : Stamp) :
    s.word.toNat = s.epoch.toNat * 2 ^ 32 + s.counter.toNat := by
  rw [toNat_epoch, toNat_counter]
  omega

theorem ext_iff_word {a b : Stamp} : a = b ↔ a.word = b.word := by
  cases a
  cases b
  simp

@[simp] theorem make_epoch_counter (s : Stamp) : make s.epoch s.counter = s := by
  rw [ext_iff_word, ← UInt64.toNat_inj, toNat_make, ← toNat_word]

theorem lt_iff_toNat {a b : Stamp} : a < b ↔ a.word.toNat < b.word.toNat :=
  UInt64.lt_iff_toNat_lt

theorem le_iff_toNat {a b : Stamp} : a ≤ b ↔ a.word.toNat ≤ b.word.toNat :=
  UInt64.le_iff_toNat_le

instance : LinearOrder Stamp where
  le_refl a := le_iff_toNat.2 (Nat.le_refl _)
  le_trans a b c hab hbc :=
    le_iff_toNat.2 (Nat.le_trans (le_iff_toNat.1 hab) (le_iff_toNat.1 hbc))
  lt_iff_le_not_ge a b := by
    rw [lt_iff_toNat, le_iff_toNat, le_iff_toNat]
    omega
  le_antisymm a b hab hba :=
    ext_iff_word.2 (UInt64.toNat_inj.1 (Nat.le_antisymm (le_iff_toNat.1 hab) (le_iff_toNat.1 hba)))
  le_total a b := by
    rw [le_iff_toNat, le_iff_toNat]
    exact Nat.le_total _ _
  toDecidableLE := inferInstance
  toDecidableEq := inferInstance
  toDecidableLT := inferInstance
  compare_eq_compareOfLessAndEq a b := by
    change compareOfLessAndEq a.word b.word = compareOfLessAndEq a b
    simp only [compareOfLessAndEq, lt_def, ext_iff_word]

theorem lt_iff {a b : Stamp} :
    a < b ↔ a.epoch < b.epoch ∨ a.epoch = b.epoch ∧ a.counter < b.counter := by
  have ha := a.counter.toNat_lt
  have hb := b.counter.toNat_lt
  rw [lt_iff_toNat, toNat_word a, toNat_word b, UInt32.lt_iff_toNat_lt, UInt32.lt_iff_toNat_lt,
    ← UInt32.toNat_inj]
  omega

theorem le_iff {a b : Stamp} :
    a ≤ b ↔ a.epoch < b.epoch ∨ a.epoch = b.epoch ∧ a.counter ≤ b.counter := by
  have ha := a.counter.toNat_lt
  have hb := b.counter.toNat_lt
  rw [le_iff_toNat, toNat_word a, toNat_word b, UInt32.lt_iff_toNat_lt, UInt32.le_iff_toNat_le,
    ← UInt32.toNat_inj]
  omega

theorem epoch_le_of_le {a b : Stamp} (h : a ≤ b) : a.epoch ≤ b.epoch := by
  rcases le_iff.1 h with hlt | ⟨heq, _⟩
  · exact UInt32.le_of_lt hlt
  · exact heq ▸ UInt32.le_refl _

theorem zero_le (s : Stamp) : zero ≤ s :=
  le_iff_toNat.2 (Nat.zero_le _)

theorem lt_nextCounter {s : Stamp} (h : s.counter ≠ 0xFFFFFFFF) : s < s.nextCounter := by
  refine lt_iff.2 (Or.inr ?_)
  simpa [nextCounter] using lt_bump h

theorem le_nextCounter (s : Stamp) : s ≤ s.nextCounter := by
  refine le_iff.2 (Or.inr ?_)
  simpa [nextCounter] using le_bump s.counter

theorem lt_nextEpoch {s : Stamp} (h : s.epoch ≠ 0xFFFFFFFF) : s < s.nextEpoch := by
  refine lt_iff.2 (Or.inl ?_)
  simpa [nextEpoch] using lt_bump h

theorem lt_nextCounter_iff {s : Stamp} : s < s.nextCounter ↔ s.counter < 0xFFFFFFFF := by
  refine ⟨fun h => lt_greatest fun heq => ?_, fun h => lt_nextCounter (UInt32.ne_of_lt h)⟩
  have hself : s.nextCounter = s := by
    rw [nextCounter, heq, bump_greatest, ← heq, make_epoch_counter]
  rw [hself] at h
  exact lt_irrefl s h

theorem lt_nextEpoch_iff {s : Stamp} : s < s.nextEpoch ↔ s.epoch < 0xFFFFFFFF := by
  refine ⟨fun h => lt_greatest fun heq => ?_, fun h => lt_nextEpoch (UInt32.ne_of_lt h)⟩
  rw [lt_iff, nextEpoch, epoch_make, counter_make, heq, bump_greatest] at h
  rcases h with h | ⟨_, h⟩
  · exact UInt32.lt_irrefl _ h
  · exact UInt32.not_lt_zero h

theorem nextCounter_lt_nextEpoch {s : Stamp} (h : s.epoch ≠ 0xFFFFFFFF) :
    s.nextCounter < s.nextEpoch := by
  refine lt_iff.2 (Or.inl ?_)
  simpa [nextCounter, nextEpoch] using lt_bump h

/-- A stamp with a counter that was just counted up is not the one before all commits. -/
theorem zero_lt_make_bump (epoch counter : UInt32) : zero < make epoch (bump counter) := by
  refine lt_of_le_of_ne (zero_le _) fun h => bump_ne_zero counter ?_
  have hc := congrArg Stamp.counter h
  rw [counter_make] at hc
  exact hc.symm

end Stamp

end Quorate
