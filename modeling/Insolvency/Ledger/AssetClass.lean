/-
The classes that assets are booked under.

There are eight, in a fixed order, which is the order of every asset book and of
every risk weight table.
-/

namespace Insolvency

/-- What an asset is. -/
inductive AssetClass
  | cash
  | governmentBond
  | mortgage
  | interbankLoan
  | repoLoan
  | commercialLoan
  | equity
  | other
deriving DecidableEq, Repr

namespace AssetClass

/-- All classes, in their order. -/
def all : List AssetClass :=
  [cash, governmentBond, mortgage, interbankLoan, repoLoan, commercialLoan, equity, other]

/-- The place of a class in the order. -/
def rank : AssetClass → Nat
  | cash => 0
  | governmentBond => 1
  | mortgage => 2
  | interbankLoan => 3
  | repoLoan => 4
  | commercialLoan => 5
  | equity => 6
  | other => 7

theorem rank_injective {a b : AssetClass} (h : a.rank = b.rank) : a = b := by
  revert h
  cases a <;> cases b <;> decide

instance : Ord AssetClass := ⟨compareOn rank⟩

instance : Std.TransOrd AssetClass := inferInstanceAs (Std.TransCmp (compareOn rank))

instance : Std.LawfulEqOrd AssetClass where
  eq_of_compare {a b} h :=
    have h' : compare a.rank b.rank = .eq := h
    rank_injective (Std.LawfulEqCmp.eq_of_compare h')

/-- The word a class is written as. -/
def name : AssetClass → String
  | cash => "cash"
  | governmentBond => "government_bond"
  | mortgage => "mortgage"
  | interbankLoan => "interbank_loan"
  | repoLoan => "repo_loan"
  | commercialLoan => "commercial_loan"
  | equity => "equity"
  | other => "other"

/-- The class that a word is for. -/
def ofName? (word : String) : Option AssetClass := all.find? (·.name == word)

theorem ofName?_name (c : AssetClass) : ofName? c.name = some c := by
  cases c <;> decide

/-- The title of a class, as messages use it. -/
def title : AssetClass → String
  | cash => "Cash"
  | governmentBond => "GovernmentBond"
  | mortgage => "Mortgage"
  | interbankLoan => "InterbankLoan"
  | repoLoan => "RepoLoan"
  | commercialLoan => "CommercialLoan"
  | equity => "Equity"
  | other => "Other"

end AssetClass

end Insolvency
