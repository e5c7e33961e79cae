import Quorate.Id

/-!
# Sets of identifiers

A set of server ids is kept as a strictly ascending list, so that two sets with the
same elements are equal and a set has one written form. `IdSet.mem_ofList`,
`IdSet.mem_insert` and `IdSet.mem_filter` say what the operations do to membership.
-/

namespace Quorate

/-- A finite set of ids, smallest first. -/
structure IdSet where
  ids : List UInt64
  ascending : ids.Pairwise (· < ·)
  deriving DecidableEq

namespace IdSet

/-- A list with `id` in front of the first greater element, unless it is there. -/
def insertInto (id : UInt64) : List UInt64 → List UInt64
  | [] => [id]
  | x :: xs =>
    if id < x then id :: x :: xs
    else if id = x then x :: xs
    else x :: insertInto id xs

theorem mem_insertInto {id a : UInt64} {xs : List UInt64} :
    a ∈ insertInto id xs ↔ a = id ∨ a ∈ xs := by
  induction xs with
  | nil => simp [insertInto]
  | cons x xs ih => grind [insertInto]

theorem pairwise_insertInto {id : UInt64} {xs : List UInt64} (h : xs.Pairwise (· < ·)) :
    (insertInto id xs).Pairwise (· < ·) := by
  induction xs with
  | nil => simp [insertInto]
  | cons x xs ih =>
    obtain ⟨hx, hxs⟩ := List.pairwise_cons.1 h
    unfold insertInto
    split
    · rename_i hlt
      exact List.pairwise_cons.2
        ⟨fun y hy => (List.mem_cons.1 hy).elim (fun e => e ▸ hlt)
          (fun hm => UInt64.lt_trans hlt (hx y hm)), h⟩
    · split
      · exact h
      · rename_i hlt hne
        refine List.pairwise_cons.2 ⟨fun y hy => ?_, ih hxs⟩
        rcases mem_insertInto.1 hy with rfl | hm
        · exact UInt64.lt_of_le_of_ne (UInt64.not_lt.1 hlt) (Ne.symm hne)
        · exact hx y hm

def empty : IdSet := ⟨[], List.Pairwise.nil⟩

def insert (id : UInt64) (s : IdSet) : IdSet :=
  ⟨insertInto id s.ids, pairwise_insertInto s.ascending⟩

/-- The set of the elements of a list, in which they may be repeated. -/
def ofList (ids : List UInt64) : IdSet :=
  ids.foldr insert empty

instance : Membership UInt64 IdSet := ⟨fun s id => id ∈ s.ids⟩

instance (id : UInt64) (s : IdSet) : Decidable (id ∈ s) :=
  inferInstanceAs (Decidable (id ∈ s.ids))

def contains (s : IdSet) (id : UInt64) : Bool :=
  decide (id ∈ s)

def size (s : IdSet) : Nat :=
  s.ids.length

def isEmpty (s : IdSet) : Bool :=
  s.ids.isEmpty

def filter (keep : UInt64 → Bool) (s : IdSet) : IdSet :=
  ⟨s.ids.filter keep, s.ascending.filter keep⟩

def union (s t : IdSet) : IdSet :=
  s.ids.foldr insert t

def inter (s t : IdSet) : IdSet :=
  s.filter t.contains

def diff (s t : IdSet) : IdSet :=
  s.filter fun id => !t.contains id

/-- The written form: ids in ascending order in braces. -/
def braced (s : IdSet) : String :=
  "\x7b" ++ ", ".intercalate (s.ids.map serverText) ++ "\x7d"

/-- The written form: ids in ascending order in parentheses. -/
def listed (s : IdSet) : String :=
  "(" ++ " ".intercalate (s.ids.map serverText) ++ ")"

theorem mem_iff {id : UInt64} {s : IdSet} : id ∈ s ↔ id ∈ s.ids := Iff.rfl

@[simp] theorem not_mem_empty (id : UInt64) : ¬ id ∈ empty := by
  simp [mem_iff, empty]

@[simp] theorem mem_insert {id a : UInt64} {s : IdSet} : a ∈ insert id s ↔ a = id ∨ a ∈ s :=
  mem_insertInto

@[simp] theorem mem_ofList {id : UInt64} {ids : List UInt64} : id ∈ ofList ids ↔ id ∈ ids := by
  induction ids with
  | nil => simp [ofList]
  | cons x xs ih =>
    have : ofList (x :: xs) = insert x (ofList xs) := rfl
    simp [this, ih]

@[simp] theorem mem_filter {id : UInt64} {keep : UInt64 → Bool} {s : IdSet} :
    id ∈ s.filter keep ↔ id ∈ s ∧ keep id = true :=
  List.mem_filter

@[simp] theorem contains_iff {id : UInt64} {s : IdSet} : s.contains id = true ↔ id ∈ s := by
  simp [contains]

end IdSet

end Quorate
