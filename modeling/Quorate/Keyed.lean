import Quorate.IdSet

/-!
# Tables keyed by identifiers

A finite table from ids to values, its entries in ascending order of their keys.
Tables with equal look-ups are equal (`Keyed.ext_get?`); `get?_insert` and
`get?_erase` say what the updates do to look-ups.
-/

namespace Quorate

/-- A finite table, entry with the smallest key first. -/
structure Keyed (α : Type) where
  entries : List (UInt64 × α)
  ascending : entries.Pairwise fun a b => a.1 < b.1
  deriving DecidableEq

namespace Keyed

variable {α β : Type}

/-- A list of entries with the entry of `key` put in its place or replaced. -/
def insertInto (key : UInt64) (value : α) : List (UInt64 × α) → List (UInt64 × α)
  | [] => [(key, value)]
  | e :: es =>
    if key < e.1 then (key, value) :: e :: es
    else if key = e.1 then (key, value) :: es
    else e :: insertInto key value es

theorem mem_insertInto {key : UInt64} {value : α} {e : UInt64 × α} {es : List (UInt64 × α)}
    (h : e ∈ insertInto key value es) : e = (key, value) ∨ e ∈ es := by
  induction es with
  | nil => simpa [insertInto] using h
  | cons x xs ih => grind [insertInto]

theorem pairwise_insertInto {key : UInt64} {value : α} {es : List (UInt64 × α)}
    (h : es.Pairwise fun a b => a.1 < b.1) :
    (insertInto key value es).Pairwise fun a b => a.1 < b.1 := by
  induction es with
  | nil => simp [insertInto]
  | cons x xs ih =>
    obtain ⟨hx, hxs⟩ := List.pairwise_cons.1 h
    unfold insertInto
    split
    · rename_i hlt
      exact List.pairwise_cons.2
        ⟨fun y hy => (List.mem_cons.1 hy).elim (fun e => e ▸ hlt)
          (fun hm => UInt64.lt_trans hlt (hx y hm)), h⟩
    · split
      · rename_i hlt heq
        exact List.pairwise_cons.2 ⟨fun y hy => heq ▸ hx y hy, hxs⟩
      · rename_i hlt hne
        refine List.pairwise_cons.2 ⟨fun y hy => ?_, ih hxs⟩
        rcases mem_insertInto hy with rfl | hm
        · exact UInt64.lt_of_le_of_ne (UInt64.not_lt.1 hlt) (Ne.symm hne)
        · exact hx y hm

def lookup (key : UInt64) : List (UInt64 × α) → Option α
  | [] => none
  | e :: es => if e.1 = key then some e.2 else lookup key es

def empty : Keyed α := ⟨[], List.Pairwise.nil⟩

def get? (t : Keyed α) (key : UInt64) : Option α :=
  lookup key t.entries

def contains (t : Keyed α) (key : UInt64) : Bool :=
  (t.get? key).isSome

def insert (t : Keyed α) (key : UInt64) (value : α) : Keyed α :=
  ⟨insertInto key value t.entries, pairwise_insertInto t.ascending⟩

def erase (t : Keyed α) (key : UInt64) : Keyed α :=
  ⟨t.entries.filter fun e => e.1 != key, t.ascending.filter _⟩

def map (f : UInt64 → α → β) (t : Keyed α) : Keyed β :=
  ⟨t.entries.map fun e => (e.1, f e.1 e.2), by
    simpa [List.pairwise_map] using t.ascending⟩

/-- The table with the value under `key`, if there is one, changed by `f`. -/
def modify (t : Keyed α) (key : UInt64) (f : α → α) : Keyed α :=
  t.map fun k value => if k = key then f value else value

def size (t : Keyed α) : Nat :=
  t.entries.length

def keysWhere (t : Keyed α) (keep : UInt64 → α → Bool) : IdSet :=
  ⟨(t.entries.filter fun e => keep e.1 e.2).map Prod.fst, by
    simpa [List.pairwise_map] using t.ascending.filter _⟩

theorem lookup_insertInto (key j : UInt64) (value : α) (es : List (UInt64 × α)) :
    lookup j (insertInto key value es) = if key = j then some value else lookup j es := by
  induction es with
  | nil => simp [insertInto, lookup]
  | cons e es ih =>
    unfold insertInto
    split
    · simp [lookup]
    · split
      · rename_i heq
        by_cases h : key = j <;> simp [lookup, ← heq, h]
      · rename_i hne
        by_cases h : e.1 = j
        · have hkj : key ≠ j := fun hk => hne (hk.trans h.symm)
          simp [lookup, h, hkj]
        · simp [lookup, h, ih]

theorem lookup_eq_none {key : UInt64} {es : List (UInt64 × α)} (h : ∀ e ∈ es, key < e.1) :
    lookup key es = none := by
  induction es with
  | nil => rfl
  | cons e es ih =>
    have hne : e.1 ≠ key := fun heq => UInt64.lt_irrefl _ (heq ▸ h e (by simp))
    simp [lookup, hne, ih fun x hx => h x (by simp [hx])]

theorem eq_of_lookup_eq {xs ys : List (UInt64 × α)} (hx : xs.Pairwise fun a b => a.1 < b.1)
    (hy : ys.Pairwise fun a b => a.1 < b.1) (h : ∀ key, lookup key xs = lookup key ys) :
    xs = ys := by
  induction xs generalizing ys with
  | nil =>
    cases ys with
    | nil => rfl
    | cons y ys => simpa [lookup] using h y.1
  | cons x xs ih =>
    cases ys with
    | nil => simpa [lookup] using h x.1
    | cons y ys =>
      obtain ⟨hxs, hxp⟩ := List.pairwise_cons.1 hx
      obtain ⟨hys, hyp⟩ := List.pairwise_cons.1 hy
      have hkey : x.1 = y.1 := by
        rcases Nat.lt_trichotomy x.1.toNat y.1.toNat with hlt | heq | hgt
        · have hn : lookup x.1 (y :: ys) = none := lookup_eq_none fun e he => by
            rcases List.mem_cons.1 he with rfl | hm
            · exact UInt64.lt_iff_toNat_lt.2 hlt
            · exact UInt64.lt_trans (UInt64.lt_iff_toNat_lt.2 hlt) (hys e hm)
          have := h x.1
          rw [hn] at this
          simp [lookup] at this
        · exact UInt64.toNat_inj.1 heq
        · have hn : lookup y.1 (x :: xs) = none := lookup_eq_none fun e he => by
            rcases List.mem_cons.1 he with rfl | hm
            · exact UInt64.lt_iff_toNat_lt.2 hgt
            · exact UInt64.lt_trans (UInt64.lt_iff_toNat_lt.2 hgt) (hxs e hm)
          have := h y.1
          rw [hn] at this
          simp [lookup] at this
      have hvalue : x.2 = y.2 := by simpa [lookup, hkey] using h x.1
      have htail : ∀ key, lookup key xs = lookup key ys := fun key => by
        by_cases hk : x.1 = key
        · rw [lookup_eq_none fun e he => hk ▸ hxs e he,
            lookup_eq_none fun e he => hk ▸ hkey ▸ hys e he]
        · simpa [lookup, hk, hkey ▸ hk] using h key
      rw [ih hxp hyp htail, Prod.ext hkey hvalue]

theorem ext_get? {s t : Keyed α} (h : ∀ key, s.get? key = t.get? key) : s = t := by
  obtain ⟨xs, hx⟩ := s
  obtain ⟨ys, hy⟩ := t
  cases eq_of_lookup_eq hx hy h
  rfl

@[simp] theorem get?_empty (key : UInt64) : (empty : Keyed α).get? key = none := rfl

theorem get?_insert (t : Keyed α) (key j : UInt64) (value : α) :
    (t.insert key value).get? j = if key = j then some value else t.get? j :=
  lookup_insertInto key j value t.entries

theorem get?_erase (t : Keyed α) (key j : UInt64) :
    (t.erase key).get? j = if key = j then none else t.get? j := by
  obtain ⟨es, h⟩ := t
  simp only [get?, erase]
  clear h
  induction es with
  | nil => simp [lookup]
  | cons e es ih =>
    by_cases hk : e.1 = key
    · simp only [List.filter_cons, hk, bne_self_eq_false, Bool.false_eq_true, if_false, lookup, ih]
      split <;> simp [*]
    · simp only [List.filter_cons, bne_iff_ne, ne_eq, hk, not_false_eq_true, if_true, lookup, ih]
      by_cases he : e.1 = j <;> by_cases hj : key = j <;> simp [he, hj]
      exact hk (he.trans hj.symm)

theorem get?_map (f : UInt64 → α → β) (t : Keyed α) (key : UInt64) :
    (t.map f).get? key = (t.get? key).map (f key) := by
  obtain ⟨es, h⟩ := t
  simp only [get?, map]
  clear h
  induction es with
  | nil => rfl
  | cons e es ih =>
    by_cases hk : e.1 = key
    · simp [lookup, hk]
    · simp [lookup, hk, ih]

theorem get?_modify (t : Keyed α) (key j : UInt64) (f : α → α) :
    (t.modify key f).get? j = if j = key then (t.get? j).map f else t.get? j := by
  by_cases h : j = key <;> simp [modify, get?_map, h]

end Keyed

end Quorate
