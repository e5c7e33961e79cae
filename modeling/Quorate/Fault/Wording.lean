import Quorate.Fault
import Quorate.Text.Duration
import Quorate.Text.Quoted

/-!
# Wording and codes of faults

The text and the number by which a fault is reported to clients. Text from outside is
quoted, sets of ids are in ascending order. Every code lies in the range of failures
(`Fault.code_mem_range`).
-/

namespace Quorate

def ArgumentCause.message : ArgumentCause → String
  | .version text => "invalid version " ++ Text.quoted text
  | .hostMissing text => "missing host in " ++ Text.quoted text
  | .port text => "invalid port " ++ Text.quoted text
  | .standing text => "unknown server role " ++ Text.quoted text
  | .entry text => "expect <id>=<spec> but " ++ Text.quoted text
  | .serverId key => "invalid server id " ++ Text.quoted key
  | .clientMissing server text =>
    "missing client address of server " ++ serverText server ++ ": " ++ Text.quoted text
  | .peerShape text =>
    "require host:quorumPort:electionPort[:role] but " ++ Text.quoted text
  | .memberHostMissing server => "missing host of server " ++ serverText server
  | .leavingId text => "invalid leaving id " ++ Text.quoted text
  | .mixedForms => "incremental and non-incremental changes can't be mixed"
  | .nothingGiven => "no membership change given"
  | .stated reason => reason

def MembershipCause.message : MembershipCause → String
  | .idZero => "server id must be positive"
  | .idTaken server => "duplicated server id " ++ serverText server
  | .addressTaken address server =>
    "address " ++ address.text ++ " of server " ++ serverText server ++ " is already in use"
  | .noParticipant => "the new config would have no participant"
  | .seedWithoutParticipant => "seed has no participant"
  | .leavingStranger server => "leaving server " ++ serverText server ++ " is not a member"
  | .joiningAndLeaving server =>
    "server " ++ serverText server ++ " can't both join and leave"
  | .joiningMember server =>
    "joining server " ++ serverText server ++ " is already a member"
  | .stated reason => reason

def QuorumCause.message : QuorumCause → String
  | .disjoint before after =>
    "quorums of " ++ before.listed ++ " and " ++ after.listed ++ " may be disjoint"
  | .unsynced synced leader participants =>
    "only " ++ synced.braced ++ " are synced with leader " ++ serverText leader ++
      ", not a quorum of " ++ participants.listed
  | .stated reason => reason

def LossCause.message : LossCause → String
  | .recordUnacked stamp acks =>
    "record " ++ stamp.detail ++ " acked only by " ++ acks.braced
  | .epochUnacked acks => "new epoch acked only by " ++ acks.braced
  | .uncommitted milliseconds =>
    "config proposal not committed in " ++ Text.duration milliseconds
  | .stated reason => reason

def SystemKind.text : SystemKind → String
  | .timedOut => "TimedOut"
  | .notFound => "NotFound"
  | .other => "Other"

def leaderText : Option ServerId → String
  | some leader => "Some(" ++ serverText leader ++ ")"
  | none => "None"

namespace Fault

/-- The text by which a fault is reported. -/
def message : Fault → String
  | .system kind detail =>
    "Io(Custom \x7b kind: " ++ kind.text ++ ", error: " ++ Text.quoted detail ++ " \x7d)"
  | .badArguments cause => "bad arguments: " ++ cause.message
  | .staleVersion expected current =>
    "expected config version " ++ expected.text ++ " but current is " ++ current.text
  | .invalidMembership cause => "invalid membership: " ++ cause.message
  | .noQuorum cause => "new config has no quorum: " ++ cause.message
  | .inProgress => "another reconfiguration is in progress"
  | .disabled => "dynamic reconfiguration is disabled on this server"
  | .notLeader leader => "not leader, current leader is " ++ leaderText leader
  | .lostLeadership cause => "lost leadership during proposal: " ++ cause.message
  | .lagging required applied =>
    "replica applied config " ++ applied.text ++ " while session already observed " ++
      required.text
  | .noSuchSession session => "session " ++ sessionText session ++ " not found"
  | .noSuchServer server =>
    "server " ++ serverText server ++ " is not running in this ensemble"
  | .pending => "request still in pending"

/-- The number by which a fault is reported. -/
def code : Fault → UInt16
  | .badArguments _ | .invalidMembership _ => 40001
  | .staleVersion _ _ => 40002
  | .noQuorum _ => 40003
  | .inProgress => 40004
  | .disabled => 40005
  | .notLeader _ => 40006
  | .lostLeadership _ | .lagging _ _ | .noSuchServer _ | .pending => 40007
  | .noSuchSession _ => 40008
  | .system _ _ => 40009

def isCode (n : UInt16) : Bool :=
  40001 ≤ n && n ≤ 40009

theorem code_mem_range (f : Fault) : isCode f.code = true := by
  cases f <;> rfl

end Fault

end Quorate
