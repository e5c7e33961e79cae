import Quorate.Election
import Quorate.Record

/-!
# The commit log

One log puts the records of an ensemble in order and hands them to the replicas attached
to it. A record is committed once the replicas online are a majority of the participants
of the roster in effect, and of the next roster as well if the record makes one. Only the
leader may propose; a leader whose record or epoch is not acknowledged steps down.

A replica online has learnt the whole log; one that was stopped learns what it missed
when it starts again. The steps are functions from a log to a log, and those that answer
return the answer beside it.
-/

namespace Quorate

/-- What follows a log: it learns records in order and hears of elections. -/
class Replica (ρ : Type) where
  learn : ρ → Stamp → Record → ρ
  hear : ρ → Outcome → ρ

structure Entry where
  stamp : Stamp
  record : Record
  proposer : ServerId
  deriving DecidableEq

structure Attachment (ρ : Type) where
  /-- Nothing once the replica is gone. -/
  replica : Option ρ
  /-- How many entries of the log have been handed to it. -/
  next : Nat
  online : Bool
  deriving DecidableEq

structure CommitLog (ρ : Type) where
  epoch : UInt32
  counter : UInt32
  leader : Option ServerId
  /-- The roster under which the next record is committed. -/
  roster : Roster
  entries : List Entry
  attached : Keyed (Attachment ρ)
  deriving DecidableEq

namespace Attachment

variable {ρ : Type} [Replica ρ]

/-- Hand over every entry the replica has not seen; one that is gone stays behind. -/
def catchUp (entries : List Entry) (a : Attachment ρ) : Attachment ρ :=
  match a.replica with
  | none => a
  | some r =>
    { a with
      replica := some ((entries.drop a.next).foldl
        (fun r e => Replica.learn r e.stamp e.record) r)
      next := entries.length }

def hear (outcome : Outcome) (a : Attachment ρ) : Attachment ρ :=
  { a with replica := a.replica.map (Replica.hear · outcome) }

end Attachment

namespace CommitLog

variable {ρ : Type} [Replica ρ]

def empty (seed : Roster) : CommitLog ρ where
  epoch := seed.version.epoch
  counter := seed.version.counter
  leader := none
  roster := seed
  entries := []
  attached := .empty

def replica? (l : CommitLog ρ) (id : ServerId) : Option ρ :=
  (l.attached.get? id).bind (·.replica)

def isOnline (l : CommitLog ρ) (id : ServerId) : Bool :=
  (l.attached.get? id).any (·.online)

/-- The ids of the servers that are running; they acknowledge what the leader proposes. -/
def online (l : CommitLog ρ) : IdSet :=
  l.attached.keysWhere fun _ a => a.online

/-- The stamp of the latest commit, or of the epoch if nothing is committed in it. -/
def lastCommitted (l : CommitLog ρ) : Stamp :=
  .make l.epoch l.counter

/-- The ids of the running servers that have been handed the whole log; none without a
leader. -/
def synced (l : CommitLog ρ) : IdSet :=
  if l.leader.isNone then .empty
  else l.attached.keysWhere fun _ a => a.online && a.next == l.entries.length

def lastStamp (l : CommitLog ρ) (id : ServerId) : Stamp :=
  match l.attached.get? id with
  | none => .zero
  | some a => ((l.entries.take a.next).getLast?.map (·.stamp)).getD .zero

def announce (l : CommitLog ρ) (outcome : Outcome) : CommitLog ρ :=
  { l with attached := l.attached.map fun _ a => if a.online then a.hear outcome else a }

def deliver (l : CommitLog ρ) : CommitLog ρ :=
  { l with attached := l.attached.map fun _ a => if a.online then a.catchUp l.entries else a }

def unled (l : CommitLog ρ) : CommitLog ρ :=
  { l with leader := none }.announce .pending

def stepDown {α : Type} (l : CommitLog ρ) (cause : LossCause) : Except Fault α × CommitLog ρ :=
  (.error (.lostLeadership cause), l.unled)

def attach (l : CommitLog ρ) (id : ServerId) (r : ρ) : CommitLog ρ :=
  let a : Attachment ρ := { replica := some r, next := 0, online := true }
  { l with attached := l.attached.insert id (a.catchUp l.entries) }

/-- The replica attached under an id is gone; its server still counts as running. -/
def drop (l : CommitLog ρ) (id : ServerId) : CommitLog ρ :=
  { l with attached := l.attached.modify id fun a => { a with replica := none } }

def stop (l : CommitLog ρ) (id : ServerId) : CommitLog ρ :=
  let stopped := { l with attached := l.attached.modify id fun a => { a with online := false } }
  if l.leader = some id then stopped.unled else stopped

def start (l : CommitLog ρ) (id : ServerId) : Except Fault Unit × CommitLog ρ :=
  if l.attached.contains id then
    (.ok (), { l with
      attached := l.attached.modify id fun a =>
        { a with online := true }.catchUp l.entries })
  else (.error (.noSuchServer id), l)

def acknowledged (l : CommitLog ρ) (next : Option Roster) : Bool :=
  match next with
  | some next => Electorate.accepts (l.roster.handover next) l.online.ids
  | none => Electorate.accepts l.roster.majority l.online.ids

/-- The log after the commit of a record, before it is handed out. -/
def append (l : CommitLog ρ) (stamp : Stamp) (record : Record) (proposer : ServerId) :
    CommitLog ρ :=
  { l with
    counter := stamp.counter
    roster := (record.successor? l.roster stamp).getD l.roster
    entries := l.entries ++ [{ stamp, record, proposer }] }

def propose (l : CommitLog ρ) (sender : ServerId) (record : Record) :
    Except Fault Stamp × CommitLog ρ :=
  if l.leader ≠ some sender then (.error (.notLeader l.leader), l)
  else
    let stamp := Stamp.make l.epoch (bump l.counter)
    if l.acknowledged (record.successor? l.roster stamp) then
      (.ok stamp, (l.append stamp record sender).deliver)
    else l.stepDown (.recordUnacked stamp l.online)

def establish (l : CommitLog ρ) (leader : ServerId) : Except Fault Stamp × CommitLog ρ :=
  if l.leader ≠ some leader then (.error (.notLeader l.leader), l)
  else if l.acknowledged none then
    let epoch := bump l.epoch
    (.ok (.make epoch 0), { l with epoch, counter := 0 }.announce (.elected leader))
  else l.stepDown (.epochUnacked l.online)

def resign (l : CommitLog ρ) (leader : ServerId) : CommitLog ρ :=
  if l.leader = some leader then l.unled else l

def elect (l : CommitLog ρ) : Outcome × CommitLog ρ :=
  let outcome := Quorate.elect l.roster l.online fun id => some (l.lastStamp id)
  let decided :=
    match outcome with
    | .elected leader => { l with leader := some leader, epoch := bump l.epoch, counter := 0 }
    | .pending => { l with leader := none }
  (outcome, decided.announce outcome)

def leaderOrElect (l : CommitLog ρ) : Except Fault ServerId × CommitLog ρ :=
  match l.leader with
  | some leader => (.ok leader, l)
  | none =>
    let (outcome, l) := l.elect
    match outcome.leader? with
    | some leader => (.ok leader, l)
    | none => (.error (.notLeader none), l)

def reattach (l : CommitLog ρ) (id : ServerId) : CommitLog ρ :=
  { l with
    attached := l.attached.modify id fun a =>
      { a with next := 0, online := true }.catchUp l.entries }

/-- Change the replica of an id where it stands, outside of the log. -/
def adjust (l : CommitLog ρ) (id : ServerId) (f : ρ → ρ) : CommitLog ρ :=
  { l with attached := l.attached.modify id fun a => { a with replica := a.replica.map f } }

end CommitLog

end Quorate
