/-
Drafts: models with fields still open.

A draft becomes a model once every field without a default has a value; until then
the first open field, in the order of the fields, says why not.
-/

namespace Insolvency

/-- The name of a field that has no value and needs one. -/
structure MissingField where
  field : String
deriving DecidableEq

namespace MissingField

/-- The wording of a missing field. -/
def message (m : MissingField) : String := "`" ++ m.field ++ "` must be initialized"

/-- The value of a field that needs one. -/
def require {α : Type} (field : String) : Option α → Except MissingField α
  | some x => .ok x
  | none => .error ⟨field⟩

end MissingField

end Insolvency
