import Quorate.Fault.Wording

/-!
# Responses to clients

A response carries a code, a hint in words and, if the request succeeded, a content.
-/

namespace Quorate

structure Response where
  code : UInt16
  hint : String
  content : String
  deriving DecidableEq

namespace Response

def success : UInt16 := 20000

/-- The code of a failure of no known kind. -/
def unknown : UInt16 := 60000

def ok (content : String) : Response :=
  ⟨success, "ok", content⟩

/-- The response of a request that failed; a code that is no failure's becomes unknown. -/
def failure (code : UInt16) (hint : String) : Response :=
  ⟨if Fault.isCode code then code else unknown, hint, ""⟩

def isOk (r : Response) : Bool :=
  r.code = success

def ofFault (f : Fault) : Response :=
  failure f.code f.message

def ofResult : Except Fault String → Response
  | .ok content => ok content
  | .error f => ofFault f

theorem code_ofFault (f : Fault) : (ofFault f).code = f.code := by
  simp [ofFault, failure, Fault.code_mem_range]

end Response

end Quorate
