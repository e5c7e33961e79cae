import Quorate.CommitLog.Recorder
import Quorate.Scenario.Reply
import Quorate.Schedule

/-!
# A log with recorders

The world of a bare log whose replicas write down what reaches them.
-/

namespace Quorate

inductive RecordingCommand where
  | attach (server : ServerId) (deaf : Bool)
  /-- Attach the recorder of a server once more, or a new one if it is gone. -/
  | reattach (server : ServerId)
  | log (command : LogCommand)
  | propose (sender : ServerId) (record : Record)
  | sleep (milliseconds : Nat)
  /-- A command whose arguments could not be read. -/
  | unreadable (fault : Fault)

abbrev Recording := CommitLog Recorder

namespace Recording

/-- Carry a command out; a sleep goes on until the time it returns. -/
def start (now : Nat) (command : RecordingCommand) (l : Recording) :
    Progress Nat Reply × Recording :=
  match command with
  | .attach server deaf => (.done .done, l.attach server ⟨deaf, []⟩)
  | .reattach server =>
    match l.replica? server with
    | some _ => (.done .done, l.reattach server)
    | none => (.done .done, l.attach server ⟨false, []⟩)
  | .log command =>
    let (reply, l) := command.perform l
    (.done reply, l)
  | .propose sender record =>
    let (result, l) := l.propose sender record
    (.done (.ofResult (fun stamp => .text stamp.text) result), l)
  | .sleep milliseconds => (.going (now + milliseconds), l)
  | .unreadable fault => (.done (.fault fault), l)

def read (l : Recording) : Recording :=
  { l with
    attached := l.attached.map fun _ a =>
      { a with replica := a.replica.map fun r => { r with observations := [] } } }

instance : World Recording RecordingCommand Nat Reply where
  start := start
  resume now wake l := if wake ≤ now then some (.done .nothing, l) else none
  alarm := some
  read := read

end Recording

end Quorate
