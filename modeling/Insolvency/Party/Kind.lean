/-
The kinds of institutions and of stored models.

Some policies apply to one kind of institution only, and a stored model is either an
institution or an intermediary; both distinctions come up in errors.
-/

namespace Insolvency

/-- What an institution is. -/
inductive InstitutionKind
  | bank
  | macroFirm
  | firm
deriving DecidableEq, Repr

namespace InstitutionKind

/-- All kinds. -/
def all : List InstitutionKind := [bank, macroFirm, firm]

/-- The word a kind is written as. -/
def name : InstitutionKind → String
  | bank => "bank"
  | macroFirm => "macro_firm"
  | firm => "firm"

/-- The kind that a word is for. -/
def ofName? (word : String) : Option InstitutionKind := all.find? (·.name == word)

/-- The title of a kind, as messages use it. -/
def title : InstitutionKind → String
  | bank => "Bank"
  | macroFirm => "MacroFirm"
  | firm => "Firm"

end InstitutionKind

/-- What a stored model is. -/
inductive ModelKind
  | institution
  | intermediary
deriving DecidableEq, Repr

namespace ModelKind

/-- Both kinds. -/
def all : List ModelKind := [institution, intermediary]

/-- The word for a kind of model. -/
def name : ModelKind → String
  | institution => "institution"
  | intermediary => "intermediary"

/-- The title of a kind of model. -/
def title : ModelKind → String
  | institution => "Institution"
  | intermediary => "Intermediary"

/-- The kind that a title is for. -/
def ofTitle? (word : String) : Option ModelKind := all.find? (·.title == word)

end ModelKind

end Insolvency
