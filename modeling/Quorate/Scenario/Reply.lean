import Quorate.CommitLog
import Quorate.Response
import Quorate.Role
import Quorate.Sessions

/-!
# Replies to commands

What a command answers, as a value of the domain.
-/

namespace Quorate

inductive Reply where
  | done
  | nothing
  | flag (value : Bool)
  | text (value : String)
  | texts (values : List String)
  | stamp (value : Stamp)
  | roster (value : Roster)
  | leader (value : Option ServerId)
  /-- The roster that a reconfiguration committed. -/
  | reconfigured (value : Roster)
  | spawned (server : ServerId) (settingsId : ServerId) (role : Role)
  | opened (session : SessionId)
  | watching (value : Bool)
  | session (value : Session)
  | movedTo (server : ServerId)
  | response (value : Response)
  | fault (value : Fault)
  /-- The command names a session that was never opened. -/
  | unknownSession
  deriving DecidableEq

namespace Reply

def ofResult {α : Type} (success : α → Reply) : Except Fault α → Reply
  | .ok value => success value
  | .error f => .fault f

def ofText? : Option String → Reply
  | some value => .text value
  | none => .nothing

end Reply

/-- The commands that every log understands, whatever its replicas are. -/
inductive LogCommand where
  | drop (server : ServerId)
  | halt (server : ServerId)
  | start (server : ServerId)
  | resign (server : ServerId)
  | elect
  | establish (server : ServerId)
  | inspect
  deriving DecidableEq

def LogCommand.perform {ρ : Type} [Replica ρ] (l : CommitLog ρ) :
    LogCommand → Reply × CommitLog ρ
  | .drop server => (.flag (l.replica? server).isSome, l.drop server)
  | .halt server => (.done, l.stop server)
  | .start server =>
    let (result, l) := l.start server
    (.ofResult (fun _ => .done) result, l)
  | .resign server => (.done, l.resign server)
  | .elect =>
    let (outcome, l) := l.elect
    (.leader outcome.leader?, l)
  | .establish server =>
    let (result, l) := l.establish server
    (.ofResult .stamp result, l)
  | .inspect => (.roster l.roster, l)

end Quorate
