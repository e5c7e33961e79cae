import Quorate.CommitLog

/-!
# Recorders

A replica that keeps no state of its own but writes down what reaches it: every record
it learns and, unless it is deaf, every election it hears of.
-/

namespace Quorate

inductive Observation where
  | learnt (stamp : Stamp) (record : Record)
  | heard (outcome : Outcome)
  deriving DecidableEq

def Outcome.text : Outcome → String
  | .elected leader => "Elected(" ++ serverText leader ++ ")"
  | .pending => "Pending"

def Record.text : Record → String
  | .data payload => "data " ++ payload
  | .openSession session server => "create " ++ sessionText session ++ " " ++ serverText server
  | .closeSession session => "close " ++ sessionText session
  | .reconfigure p =>
    "reconfig " ++ p.base.text ++ " " ++ p.floor.text ++ " " ++ Text.decimal p.members.length

def Observation.text : Observation → String
  | .learnt stamp record => stamp.detail ++ " " ++ record.text
  | .heard outcome => outcome.text

/-- A replica that writes down what reaches it, the latest last. -/
structure Recorder where
  deaf : Bool
  observations : List Observation
  deriving DecidableEq

instance : Replica Recorder where
  learn r stamp record := { r with observations := r.observations ++ [.learnt stamp record] }
  hear r outcome :=
    if r.deaf then r else { r with observations := r.observations ++ [.heard outcome] }

end Quorate
