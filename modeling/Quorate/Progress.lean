/-!
# Progress of a call

A call that may have to wait is cut into steps. After a step it is either done with a
result or stands at a further stage.
-/

namespace Quorate

/-- Where a call stands after a step. -/
inductive Progress (σ α : Type) where
  | going (stage : σ)
  | done (result : α)
  deriving DecidableEq

def Progress.bimap {σ τ α β : Type} (f : σ → τ) (g : α → β) : Progress σ α → Progress τ β
  | .going stage => .going (f stage)
  | .done result => .done (g result)

end Quorate
