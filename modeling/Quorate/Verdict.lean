import Quorate.Fault

/-!
# Verdicts on proposals

What becomes of a record that was proposed: it is committed with a stamp, or no
decision was reached. A verdict and the result of a proposal carry the same
information (`Verdict.ofResult?_result`).
-/

namespace Quorate

inductive Verdict where
  | committed (stamp : Stamp)
  | pending
  | timedOut
  deriving DecidableEq

namespace Verdict

def stamp? : Verdict → Option Stamp
  | .committed stamp => some stamp
  | _ => none

/-- The verdict as a result: an undecided proposal is a fault. -/
def result : Verdict → Except Fault Stamp
  | .committed stamp => .ok stamp
  | .pending => .error .pending
  | .timedOut => .error .proposalTimeout

def ofResult? : Except Fault Stamp → Except Fault Verdict
  | .ok stamp => .ok (.committed stamp)
  | .error (.system .timedOut _) => .ok .timedOut
  | .error .pending => .ok .pending
  | .error fault => .error fault

theorem ofResult?_result (v : Verdict) : ofResult? v.result = .ok v := by
  cases v <;> rfl

end Verdict

end Quorate
