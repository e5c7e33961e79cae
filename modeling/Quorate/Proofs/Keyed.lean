import Mathlib.Data.List.Basic
import Quorate.Keyed

/-!
# Tables and their entries

A look-up finds exactly the entries of a table (`get?_eq_some_iff`), so a set of keys
that is filtered by a test on the entries is described by look-ups (`mem_keysWhere`).
-/

namespace Quorate.Keyed

variable {α β : Type}

theorem lookup_eq_some_iff {key : UInt64} {value : α} {es : List (UInt64 × α)}
    (h : es.Pairwise fun a b => a.1 < b.1) :
    lookup key es = some value ↔ (key, value) ∈ es := by
  induction es with
  | nil => simp [lookup]
  | cons e es ih =>
      obtain ⟨hlt, htail⟩ := List.pairwise_cons.1 h
      by_cases hk : e.1 = key
      · have hnot : (key, value) ∉ es := fun hm =>
          UInt64.lt_irrefl _ (hk ▸ hlt _ hm)
        simp only [lookup, hk, if_true, List.mem_cons, hnot, or_false, Option.some.injEq]
        constructor
        · rintro rfl
          exact Prod.ext hk.symm rfl
        · rintro rfl
          rfl
      · have hne : (key, value) ≠ e := fun heq => hk (heq ▸ rfl)
        simp [lookup, hk, ih htail, hne]

theorem get?_eq_some_iff {t : Keyed α} {key : UInt64} {value : α} :
    t.get? key = some value ↔ (key, value) ∈ t.entries :=
  lookup_eq_some_iff t.ascending

/-- The keys of a table, in their order. -/
def keys (t : Keyed α) : List UInt64 :=
  t.entries.map Prod.fst

theorem nodup_keys (t : Keyed α) : t.keys.Nodup := by
  have hlt : t.keys.Pairwise (· < ·) := List.pairwise_map.2 t.ascending
  exact hlt.imp UInt64.ne_of_lt

theorem mem_keys_of_get? {t : Keyed α} {key : UInt64} {value : α} (h : t.get? key = some value) :
    key ∈ t.keys :=
  List.mem_map.2 ⟨(key, value), get?_eq_some_iff.1 h, rfl⟩

theorem mem_keysWhere {t : Keyed α} {keep : UInt64 → α → Bool} {key : UInt64} :
    key ∈ t.keysWhere keep ↔ ∃ value, t.get? key = some value ∧ keep key value = true := by
  simp only [keysWhere, IdSet.mem_iff, List.mem_map, List.mem_filter, get?_eq_some_iff]
  constructor
  · rintro ⟨⟨k, value⟩, ⟨hm, hkeep⟩, rfl⟩
    exact ⟨value, hm, hkeep⟩
  · rintro ⟨value, hm, hkeep⟩
    exact ⟨(key, value), ⟨hm, hkeep⟩, rfl⟩

end Quorate.Keyed
