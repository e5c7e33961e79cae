import Quorate.Text.Numeral

/-!
# Stamps

A stamp packs a leader epoch into the high half of a word and a counter within that
epoch into the low half. Every committed record carries one, and the version of a
configuration is a stamp. Stamps are ordered as words, which is the order of the
pairs of epoch and counter.
-/

namespace Quorate

/-- A point in the order of commits. -/
structure Stamp where
  word : UInt64
  deriving DecidableEq

/-- A stamp that names a configuration. -/
abbrev Version := Stamp

/-- The next word of 32 bits; the greatest one stays where it is. -/
def bump (n : UInt32) : UInt32 :=
  if n = 0xFFFFFFFF then n else n + 1

namespace Stamp

def zero : Stamp := ⟨0⟩

def make (epoch counter : UInt32) : Stamp :=
  ⟨epoch.toUInt64 <<< 32 ||| counter.toUInt64⟩

def epoch (s : Stamp) : UInt32 :=
  (s.word >>> 32).toUInt32

def counter (s : Stamp) : UInt32 :=
  s.word.toUInt32

def nextEpoch (s : Stamp) : Stamp :=
  make (bump s.epoch) 0

def nextCounter (s : Stamp) : Stamp :=
  make s.epoch (bump s.counter)

instance : LT Stamp := ⟨fun a b => a.word < b.word⟩

instance : LE Stamp := ⟨fun a b => a.word ≤ b.word⟩

instance (a b : Stamp) : Decidable (a < b) :=
  inferInstanceAs (Decidable (a.word < b.word))

instance (a b : Stamp) : Decidable (a ≤ b) :=
  inferInstanceAs (Decidable (a.word ≤ b.word))

instance : Max Stamp := ⟨fun a b => if a ≤ b then b else a⟩

instance : Ord Stamp := ⟨fun a b => compare a.word b.word⟩

/-- The stamp as it is sent: its word in base sixteen. -/
def text (s : Stamp) : String :=
  Text.hexadecimal s.word.toNat

def detail (s : Stamp) : String :=
  s.text ++ "(" ++ Text.decimal s.epoch.toNat ++ "." ++ Text.decimal s.counter.toNat ++ ")"

theorem lt_def (a b : Stamp) : a < b ↔ a.word < b.word := Iff.rfl

end Stamp

end Quorate
