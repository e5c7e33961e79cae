import Quorate.IdSet
import Quorate.Address
import Quorate.Stamp

/-!
# Faults

Everything that can go wrong, by cause. A cause that came with a text of its own,
such as a reason that another program stated, is kept as that text.
`Fault.similar` compares faults by kind and by the stamps and ids they name.
-/

namespace Quorate

inductive ArgumentCause where
  /-- A text is not a stamp. -/
  | version (text : String)
  /-- An address has nothing before its colon. -/
  | hostMissing (text : String)
  /-- A text is not a port. -/
  | port (text : String)
  /-- A text names no standing. -/
  | standing (text : String)
  /-- An entry of a member list has no equals sign. -/
  | entry (text : String)
  /-- The key of an entry is not a server id. -/
  | serverId (key : String)
  /-- A member has no semicolon in front of a client address. -/
  | clientMissing (server : ServerId) (text : String)
  /-- A member has too few or too many parts. -/
  | peerShape (text : String)
  /-- A member has a blank host. -/
  | memberHostMissing (server : ServerId)
  /-- A leaving id is not a number. -/
  | leavingId (text : String)
  /-- Both forms of a change are given at once. -/
  | mixedForms
  /-- No form of a change is given. -/
  | nothingGiven
  /-- A reason in words. -/
  | stated (reason : String)
  deriving DecidableEq

inductive MembershipCause where
  | idZero
  | idTaken (server : ServerId)
  | addressTaken (address : Address) (server : ServerId)
  | noParticipant
  | seedWithoutParticipant
  | leavingStranger (server : ServerId)
  | joiningAndLeaving (server : ServerId)
  | joiningMember (server : ServerId)
  | stated (reason : String)
  deriving DecidableEq

inductive QuorumCause where
  /-- Two majorities of the participants before and after may be disjoint. -/
  | disjoint (before after : IdSet)
  /-- The replicas synced with the leader are no quorum of the participants. -/
  | unsynced (synced : IdSet) (leader : ServerId) (participants : IdSet)
  | stated (reason : String)
  deriving DecidableEq

/-- How a leader lost its leadership, or a proposal its leader. -/
inductive LossCause where
  | recordUnacked (stamp : Stamp) (acks : IdSet)
  | epochUnacked (acks : IdSet)
  /-- The proposal was not committed in so many milliseconds. -/
  | uncommitted (milliseconds : Nat)
  | stated (reason : String)
  deriving DecidableEq

inductive SystemKind where
  | timedOut
  | notFound
  | other
  deriving DecidableEq

inductive Fault where
  | system (kind : SystemKind) (detail : String)
  | badArguments (cause : ArgumentCause)
  | staleVersion (expected current : Version)
  | invalidMembership (cause : MembershipCause)
  | noQuorum (cause : QuorumCause)
  | inProgress
  | disabled
  | notLeader (leader : Option ServerId)
  | lostLeadership (cause : LossCause)
  | lagging (required applied : Version)
  | noSuchSession (session : SessionId)
  | noSuchServer (server : ServerId)
  | pending
  deriving DecidableEq

/-- Whether two faults are of one kind and name the same stamps and ids. Causes and
reasons in words do not count. -/
def Fault.similar : Fault → Fault → Bool
  | .system k _, .system l _ => k = l
  | .badArguments _, .badArguments _ => true
  | .staleVersion e c, .staleVersion e' c' => e = e' && c = c'
  | .invalidMembership _, .invalidMembership _ => true
  | .noQuorum _, .noQuorum _ => true
  | .inProgress, .inProgress => true
  | .disabled, .disabled => true
  | .notLeader l, .notLeader l' => l = l'
  | .lostLeadership _, .lostLeadership _ => true
  | .lagging r a, .lagging r' a' => r = r' && a = a'
  | .noSuchSession s, .noSuchSession s' => s = s'
  | .noSuchServer s, .noSuchServer s' => s = s'
  | .pending, .pending => true
  | _, _ => false

def Fault.proposalTimeout : Fault :=
  .system .timedOut "timeout for proposal"

end Quorate
