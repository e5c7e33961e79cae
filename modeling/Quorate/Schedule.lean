import Quorate.Progress

/-!
# Schedules in virtual time

Several commands share one world. Each becomes an item that sleeps until its time, then
runs until it must wait. Items are polled in the order of their list, pass after pass; an
item woken by one before it goes on in the same pass, one woken by a later one in the
next. When no item can go on, time jumps to the next alarm of a waiting item.

What an item does in one step is given by its world and does not depend on the schedule.
-/

namespace Quorate

/-- A world in which commands become calls that may wait. -/
class World (ω : Type) (κ σ α : outParam Type) where
  /-- The first step of a command. -/
  start : Nat → κ → ω → Progress σ α × ω
  /-- A further step of a call; nothing while it has to wait. -/
  resume : Nat → σ → ω → Option (Progress σ α × ω)
  /-- The instant at which a waiting call goes on by itself. -/
  alarm : σ → Option Nat
  /-- The world after everything that it showed was read. -/
  read : ω → ω

inductive Item (κ σ α : Type) where
  | asleep (wake : Nat) (command : κ)
  | running (call : σ)
  | finished (answer : α)

namespace Item

variable {ω κ σ α : Type}

def ofProgress : Progress σ α → Item κ σ α
  | .going call => .running call
  | .done answer => .finished answer

def answer? : Item κ σ α → Option α
  | .finished answer => some answer
  | _ => none

variable [World ω κ σ α]

def alarm (ω : Type) {κ σ α : Type} [World ω κ σ α] : Item κ σ α → Option Nat
  | .asleep wake _ => some wake
  | .running call => World.alarm ω call
  | .finished _ => none

def step (now : Nat) (w : ω) : Item κ σ α → Option (Item κ σ α × ω)
  | .asleep wake command =>
    if wake ≤ now then
      let (progress, w) := World.start now command w
      some (ofProgress progress, w)
    else none
  | .running call =>
    (World.resume now call w).map fun (progress, w) => (ofProgress progress, w)
  | .finished _ => none

def burst (now : Nat) : Nat → ω → Item κ σ α → Item κ σ α × ω
  | 0, w, item => (item, w)
  | limit + 1, w, item =>
    match step now w item with
    | none => (item, w)
    | some (item, w) => burst now limit w item

end Item

namespace Schedule

variable {ω κ σ α : Type} [World ω κ σ α]

/-- More steps than any call takes without waiting. -/
def burstLimit : Nat := 64

def pass (now : Nat) : List (Item κ σ α) → ω → Bool × List (Item κ σ α) × ω
  | [], w => (false, [], w)
  | item :: items, w =>
    let moves := (Item.step now w item).isSome
    let (item, w) := Item.burst now burstLimit w item
    let (moved, items, w) := pass now items w
    (moves || moved, item :: items, w)

def nextAlarm (ω : Type) {κ σ α : Type} [World ω κ σ α] (items : List (Item κ σ α)) :
    Option Nat :=
  (items.filterMap (Item.alarm ω)).min?

/-- Poll items until no pass and no alarm moves any of them, at most `fuel` times. Returns
the time at the end. -/
def drive : Nat → Nat → List (Item κ σ α) → ω → Nat × List (Item κ σ α) × ω
  | 0, now, items, w => (now, items, w)
  | fuel + 1, now, items, w =>
    match pass now items w with
    | (true, items, w) => drive fuel now items w
    | (false, items, w) =>
      match nextAlarm ω items with
      | none => (now, items, w)
      | some next => drive fuel (max now next) items w

/-- Run commands together, each after a delay. A call waits for a bounded number of alarms
and for each other call to settle, so the passes are at most quadratic in their number.
Returns the time at the end and the answers. -/
def run (now : Nat) (commands : List (Nat × κ)) (w : ω) : Nat × List (Option α) × ω :=
  let fuel := 64 * (commands.length + 1) * (commands.length + 1)
  let items := commands.map fun (delay, command) => Item.asleep (now + delay) command
  let (now, items, w) := drive fuel now items w
  (now, items.map Item.answer?, w)

/-- Run groups of commands one after the other. Returns, for each group, its answers and
the world in which it ended; what that world shows is read before the next group. -/
def play (now : Nat) : List (List (Nat × κ)) → ω → List (List (Option α) × ω)
  | [], _ => []
  | group :: groups, w =>
    let (now, answers, w) := run now group w
    (answers, w) :: play now groups (World.read w)

end Schedule

end Quorate
