import Quorate.Keyed
import Quorate.Roster.Text

/-!
# Client sessions

Each session is connected to a server and has observed some version of the roster. A
watching session is sent every roster that is committed, as long as the client keeps its
inbox. A session whose server is not in a new roster must reconnect.
-/

namespace Quorate

structure Notification where
  version : Version
  payload : String
  deriving DecidableEq

def Roster.notification (r : Roster) : Notification :=
  ⟨r.version, r.text⟩

structure Session where
  server : ServerId
  /-- The greatest version the session has seen. -/
  observed : Version
  mustReconnect : Bool
  watching : Bool
  deriving DecidableEq

def Session.observe (s : Session) (version : Version) : Session :=
  { s with observed := max s.observed version }

structure Sessions where
  registered : Keyed Session
  /-- The notifications that reached a client, for each inbox a client still keeps. -/
  inboxes : Keyed (List Notification)
  /-- The greatest version that was pushed. -/
  notified : Version
  deriving DecidableEq

namespace Sessions

def empty : Sessions :=
  ⟨.empty, .empty, .zero⟩

def get (s : Sessions) (id : SessionId) : Except Fault Session :=
  match s.registered.get? id with
  | some session => .ok session
  | none => .error (.noSuchSession id)

/-- Register a session, in place of any other under its id. The inbox of that one is
gone; a watching session has an empty inbox. -/
def register (s : Sessions) (id : SessionId) (server : ServerId) (observed : Version)
    (watch : Bool) : Sessions :=
  { s with
    registered := s.registered.insert id
      { server, observed, mustReconnect := false, watching := watch }
    inboxes := if watch then s.inboxes.insert id [] else s.inboxes.erase id }

def reaches (s : Sessions) (id : SessionId) : Bool :=
  (s.registered.get? id).any (·.watching) && s.inboxes.contains id

/-- A session after a roster was pushed: one that it reached has seen it, one that watched
in vain no longer watches, and one whose server is not a member must reconnect. -/
def pushedTo (r : Roster) (reached : Bool) (session : Session) : Session :=
  let session :=
    if reached then session.observe r.version else { session with watching := false }
  if r.contains session.server then session
  else { session with mustReconnect := true }.observe r.version

/-- Push a committed roster to every watching session. A version that is not greater than
the last one pushed is a replay and does nothing. -/
def push (s : Sessions) (r : Roster) : Sessions :=
  if r.version ≤ s.notified then s
  else
    { registered := s.registered.map fun id session => pushedTo r (s.reaches id) session
      inboxes := s.inboxes.map fun id inbox =>
        if s.reaches id then inbox ++ [r.notification] else inbox
      notified := r.version }

def observe (s : Sessions) (id : SessionId) (version : Version) : Except Fault Sessions := do
  let session ← s.get id
  return { s with registered := s.registered.insert id (session.observe version) }

def reconnect (s : Sessions) (id : SessionId) (server : ServerId) (r : Roster) :
    Except Fault Sessions :=
  if r.contains server then do
    let session ← s.get id
    return { s with
      registered := s.registered.insert id { session with server, mustReconnect := false } }
  else .error (.noSuchServer server)

/-- Forget a session; what is in its inbox stays with the client. -/
def close (s : Sessions) (id : SessionId) : Except Fault Sessions := do
  let _ ← s.get id
  return { s with registered := s.registered.erase id }

def dropInbox (s : Sessions) (id : SessionId) : Sessions :=
  { s with inboxes := s.inboxes.erase id }

def drained (s : Sessions) : Sessions :=
  { s with inboxes := s.inboxes.map fun _ _ => [] }

end Sessions

end Quorate
