/-
The parties that own, owe and are owed.

Books name the other side of every position by its kind and its id, written
`fund:alpha`.  The text is split at the first colon, so ids may hold colons of their
own and every party has exactly one text.  Parties are ordered by kind first, in the
order of the kinds below, and by id within a kind.
-/

namespace Insolvency

/-- The id of an institution. -/
abbrev InstitutionId := String

/-- The id of an intermediary. -/
abbrev IntermediaryId := String

/-- What a party is. -/
inductive AgentKind
  | institution
  | intermediary
  | household
  | fund
  | centralBank
  | government
deriving DecidableEq, Repr

namespace AgentKind

/-- All kinds, in their order. -/
def all : List AgentKind :=
  [institution, intermediary, household, fund, centralBank, government]

/-- The place of a kind in the order. -/
def rank : AgentKind → Nat
  | institution => 0
  | intermediary => 1
  | household => 2
  | fund => 3
  | centralBank => 4
  | government => 5

theorem rank_injective {a b : AgentKind} (h : a.rank = b.rank) : a = b := by
  revert h
  cases a <;> cases b <;> decide

/-- The word for a kind. -/
def name : AgentKind → String
  | institution => "institution"
  | intermediary => "intermediary"
  | household => "household"
  | fund => "fund"
  | centralBank => "central_bank"
  | government => "government"

/-- The kind that a word is for. -/
def ofName? (word : String) : Option AgentKind := all.find? (·.name == word)

theorem ofName?_name (k : AgentKind) : ofName? k.name = some k := by
  cases k <;> decide

theorem colon_notMem_name (k : AgentKind) : ':' ∉ k.name.toList := by
  cases k <;> decide

/-- Households and central banks hold shares through others. -/
def canHoldEquity : AgentKind → Bool
  | household | centralBank => false
  | _ => true

end AgentKind

/-- A party: what it is, and which one. -/
structure AgentId where
  kind : AgentKind
  id : String
deriving DecidableEq, Repr

namespace AgentId

/-- The place of a party's kind in the order. -/
def rank (a : AgentId) : Nat := a.kind.rank

/-- By kind, then by id. -/
instance : Ord AgentId := ⟨compareLex (compareOn rank) (compareOn AgentId.id)⟩

instance : Std.TransOrd AgentId :=
  inferInstanceAs (Std.TransCmp (compareLex (compareOn rank) (compareOn AgentId.id)))

instance : Std.LawfulEqOrd AgentId where
  eq_of_compare {a b} h := by
    have h' : (compare a.kind.rank b.kind.rank).then (compare a.id b.id) = .eq := h
    obtain ⟨hk, hi⟩ := Ordering.then_eq_eq.mp h'
    have hkind := AgentKind.rank_injective (Std.LawfulEqCmp.eq_of_compare hk)
    have hid := Std.LawfulEqCmp.eq_of_compare hi
    cases a
    cases b
    cases hkind
    cases hid
    rfl

/-- An institution as a party. -/
def ofInstitution (id : InstitutionId) : AgentId := ⟨.institution, id⟩

/-- An intermediary as a party. -/
def ofIntermediary (id : IntermediaryId) : AgentId := ⟨.intermediary, id⟩

/-- The party may hold shares itself. -/
def canHoldEquity (a : AgentId) : Bool := a.kind.canHoldEquity

/-- The id, if the party is of that kind. -/
def idOf? (kind : AgentKind) (a : AgentId) : Option String :=
  if a.kind = kind then some a.id else none

/-- A party as text. -/
def toText (a : AgentId) : String := a.kind.name ++ ":" ++ a.id

/-- The party that a text names: the kind before the first colon, the id after it. -/
def ofText? (text : String) : Option AgentId :=
  let cs := text.toList
  match cs.dropWhile (· != ':') with
  | [] => none
  | _ :: id => do
    let kind ← AgentKind.ofName? (String.ofList (cs.takeWhile (· != ':')))
    return ⟨kind, String.ofList id⟩

/-- The text of a party names it, whatever its id holds. -/
theorem ofText?_toText (a : AgentId) : ofText? a.toText = some a := by
  have hname : ∀ x ∈ a.kind.name.toList, (x != ':') = true := fun x hx => by
    simpa using fun e : x = ':' => AgentKind.colon_notMem_name a.kind (e ▸ hx)
  have htext : a.toText.toList = a.kind.name.toList ++ ':' :: a.id.toList := by simp [toText]
  unfold ofText?
  simp only [htext, List.dropWhile_append_of_pos hname, List.takeWhile_append_of_pos hname]
  simp [AgentKind.ofName?_name]

end AgentId

end Insolvency
