import Quorate.Record

/-!
# The view of a replica

What one replica has applied: the current roster, the last rosters with the stamps of
the records that made them, and the stamp of the last record. A record at or before the
last stamp was seen already and changes nothing.
-/

namespace Quorate

structure View where
  current : Roster
  /-- The rosters that are kept, the oldest first and the current one last, each with
  the stamp of its record. The seed has the stamp zero. -/
  history : List (Stamp × Roster)
  applied : Stamp
  deriving DecidableEq

namespace View

def ofSeed (seed : Roster) : View :=
  ⟨seed, [(.zero, seed)], .zero⟩

def window {α : Type} (kept : Nat) (entries : List α) : List α :=
  entries.drop (entries.length - kept)

def learn (kept : Nat) (v : View) (stamp : Stamp) (record : Record) : View :=
  if stamp ≤ v.applied then v
  else
    match record.successor? v.current stamp with
    | none => { v with applied := stamp }
    | some next =>
      { current := next, history := window kept (v.history ++ [(stamp, next)]), applied := stamp }

/-- The roster in effect at a version, nothing if it is older than those kept. -/
def rosterAt? (v : View) (version : Version) : Option Roster :=
  (v.history.reverse.find? fun e => e.2.version ≤ version).map (·.2)

/-- The roster that the record of a stamp made. -/
def committedBy? (v : View) (stamp : Stamp) : Option Roster :=
  (v.history.reverse.find? fun e => e.1 = stamp).map (·.2)

theorem learn_of_le {kept : Nat} {v : View} {stamp : Stamp} {record : Record}
    (h : stamp ≤ v.applied) : v.learn kept stamp record = v := by
  simp [learn, h]

theorem applied_learn {kept : Nat} {v : View} {stamp : Stamp} {record : Record}
    (h : ¬ stamp ≤ v.applied) : (v.learn kept stamp record).applied = stamp := by
  simp only [learn, h, if_false]
  split <;> rfl

end View

end Quorate
