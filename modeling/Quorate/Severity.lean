/-!
# Severities of log lines

A line is kept if it is at least as severe as the level of its log.
-/

namespace Quorate

inductive Severity where
  | critical
  | error
  | warning
  | info
  | debug
  | trace
  deriving DecidableEq

namespace Severity

/-- The place of a severity, smaller for more severe lines. -/
def rank : Severity → Nat
  | .critical => 0
  | .error => 1
  | .warning => 2
  | .info => 3
  | .debug => 4
  | .trace => 5

def name : Severity → String
  | .critical => "Critical"
  | .error => "Error"
  | .warning => "Warning"
  | .info => "Info"
  | .debug => "Debug"
  | .trace => "Trace"

def tag : Severity → String
  | .critical => "CRIT"
  | .error => "ERRO"
  | .warning => "WARN"
  | .info => "INFO"
  | .debug => "DEBG"
  | .trace => "TRCE"

end Severity

/-- How a log is kept: the least severe level that is written, and how many lines may
wait to be written. -/
structure LogSettings where
  level : Severity := .info
  capacity : Nat := 4096

def LogSettings.lines (s : LogSettings) (given : List (Severity × String)) : List String :=
  (given.filter fun line => line.1.rank ≤ s.level.rank).map fun line =>
    line.1.tag ++ " " ++ line.2

end Quorate
