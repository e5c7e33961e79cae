import Quorate.Address.Reader
import Quorate.Member
import Quorate.Text.Lowercase

/-!
# Reading members

A member is read from an entry `server.<id>=<spec>` or `<id>=<spec>`, where the spec
is `<host>:<quorumPort>:<electionPort>[:<standing>];<client>`: the host and both
ports, then the address for clients. A list of members has entries between commas;
blank entries are skipped.
-/

namespace Quorate

namespace Standing

/-- The standing that a text names in letters of either case. -/
def read (cs : List Char) : Except Fault Standing :=
  let name := String.ofList (Text.lowercase (Text.trim cs))
  if name = Standing.participant.text then .ok .participant
  else if name = Standing.observer.text then .ok .observer
  else .error (.badArguments (.standing name))

def ofText (text : String) : Except Fault Standing :=
  read text.toList

end Standing

namespace Member

def splitPeer (cs : List Char) :
    Except Fault (List Char × List Char × List Char × Standing) :=
  match Text.splitOn ':' cs with
  | [host, quorum, election] => .ok (host, quorum, election, .participant)
  | [host, quorum, election, standing] => do
    let standing ← Standing.read standing
    return (host, quorum, election, standing)
  | _ => .error (.badArguments (.peerShape (String.ofList cs)))

def readSpec (id : ServerId) (cs : List Char) : Except Fault Member :=
  match Text.splitFirst? ';' (Text.trim cs) with
  | none => .error (.badArguments (.clientMissing id (String.ofList cs)))
  | some (peer, client) => do
    let (host, quorum, election, standing) ← splitPeer peer
    let host := Text.trim host
    if host = [] then .error (.badArguments (.memberHostMissing id))
    else
      let quorum ← readPort quorum
      let election ← readPort election
      let client ← Address.read client
      let host := String.ofList host
      return { id, quorum := ⟨host, quorum⟩, election := ⟨host, election⟩, client, standing }

def readEntry (cs : List Char) : Except Fault Member :=
  let trimmed := Text.trim cs
  match Text.splitFirst? '=' trimmed with
  | none => .error (.badArguments (.entry (String.ofList trimmed)))
  | some (key, spec) =>
    let key := Text.trim key
    match Text.readWord64? (Text.withoutLead idLead.toList key) with
    | none => .error (.badArguments (.serverId (String.ofList key)))
    | some id => readSpec id spec

def pieces (cs : List Char) : List (List Char) :=
  ((Text.splitOn ',' cs).map Text.trim).filter (· ≠ [])

/-- The members that a list describes, or the fault of the first bad entry. -/
def readList (cs : List Char) : Except Fault (List Member) :=
  (pieces cs).mapM readEntry

def listOfText (text : String) : Except Fault (List Member) :=
  readList text.toList

end Member

end Quorate
