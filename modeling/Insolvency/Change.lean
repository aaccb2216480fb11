/-
Changes to stored models.

Operations store nothing.  They answer with a list of changes, in the order in which
a caller should apply them.
-/
import Insolvency.Party.Intermediary

namespace Insolvency

/-- What a change does to its model. -/
inductive ChangeKind
  | create
  | update
  | delete
deriving DecidableEq, Repr

namespace ChangeKind

/-- All kinds of changes. -/
def all : List ChangeKind := [create, update, delete]

/-- The title a kind of change is written as. -/
def title : ChangeKind → String
  | create => "Create"
  | update => "Update"
  | delete => "Delete"

/-- The kind of change that a title is for. -/
def ofTitle? (word : String) : Option ChangeKind := all.find? (·.title == word)

end ChangeKind

/-- A stored model. -/
inductive Model
  | institution (i : Institution)
  | intermediary (m : Intermediary)
deriving DecidableEq

namespace Model

/-- What the model is. -/
def kind : Model → ModelKind
  | institution _ => .institution
  | intermediary _ => .intermediary

/-- The id of the model. -/
def id : Model → String
  | institution i => i.id
  | intermediary m => m.id

end Model

/-- One change to one model. -/
structure Change where
  kind : ChangeKind
  model : Model
deriving DecidableEq

/-- The model of a change that has to be of one kind and to a model of one kind; a change of
another kind counts first. -/
def Change.expect (c : Change) (kind : ChangeKind) (modelKind : ModelKind) :
    Except Error Model :=
  if c.kind ≠ kind then .error .operationMismatch
  else if c.model.kind ≠ modelKind then .error .wrongModelKind
  else .ok c.model

end Insolvency
