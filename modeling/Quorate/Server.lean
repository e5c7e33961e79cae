import Quorate.CommitLog
import Quorate.Role
import Quorate.Settings
import Quorate.View

/-!
# Servers

A server is a replica with a role, and on the leader it runs reconfigurations, one
proposal at a time. It learns committed records into its view, and its role follows
each record that proposes a roster and each election.
-/

namespace Quorate

structure Server where
  settings : Settings
  view : View
  role : Role
  /-- The version of the roster on which the proposal in flight is based. -/
  inFlight : Option Version
  /-- How many proposals have settled, whatever became of them. -/
  settled : Nat
  /-- The greatest version whose follow-up has run. -/
  followed : Version
  deriving DecidableEq

namespace Server

/-- A server that has applied nothing but the seed. -/
def ofSeed (settings : Settings) (seed : Roster) : Server where
  settings := settings
  view := .ofSeed seed
  role := Role.next settings.id .follower seed none
  inFlight := none
  settled := 0
  followed := .zero

def current (s : Server) : Roster :=
  s.view.current

def reassess (s : Server) (outcome : Option Outcome) : Server :=
  { s with role := s.role.next s.settings.id s.current outcome }

def learn (s : Server) (stamp : Stamp) (record : Record) : Server :=
  let learnt := { s with view := s.view.learn s.settings.kept stamp record }
  if record.isReconfigure then learnt.reassess none else learnt

def hear (s : Server) (outcome : Outcome) : Server :=
  s.reassess (some outcome)

/-- The server while a proposal on a roster of this version is in flight. -/
def claim (s : Server) (base : Version) : Server :=
  { s with inFlight := some base }

def release (s : Server) : Server :=
  { s with inFlight := none, settled := s.settled + 1 }

instance : Replica Server where
  learn := learn
  hear := hear

end Server

end Quorate
