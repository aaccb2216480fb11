/-
A market that fills orders at the listed price.

The prices are a book of their own, because episodes publish new ones without
trading.  The market may be shallow, filling so many shares per order and no more,
and it may name a buyer; without one, shares sold leave circulation.  Every fill is
recorded in order; an order for a stock without a price is not filled and leaves no
record.
-/
import Insolvency.Ledger.Accounts
import Insolvency.Party.Intermediary

namespace Insolvency

/-- The price of one share of each listed stock. -/
structure PriceBook where
  prices : Accounts InstitutionId
deriving DecidableEq

namespace PriceBook

/-- A book that lists nothing. -/
def empty : PriceBook := ⟨∅⟩

/-- The price of a stock, if it is listed. -/
def price? (b : PriceBook) (stock : InstitutionId) : Option Decimal := b.prices.get? stock

/-- The price of a stock; one that is not listed is worth nothing. -/
def value (b : PriceBook) (stock : InstitutionId) : Decimal := (b.price? stock).getD 0

/-- The book with a price published. -/
def publish (b : PriceBook) (stock : InstitutionId) (price : Decimal) : PriceBook :=
  ⟨b.prices.insert stock price⟩

end PriceBook

/-- What came of an order. -/
structure Sale where
  quantity : Decimal
  proceeds : Decimal
deriving DecidableEq

/-- Nothing sold for nothing. -/
def Sale.none : Sale := ⟨0, 0⟩

/-- A sale with its parties. -/
structure Fill where
  seller : IntermediaryId
  stock : InstitutionId
  sale : Sale
deriving DecidableEq

/-- A market at fixed prices. -/
structure Market where
  book : PriceBook
  /-- The most shares filled per order; without a limit an order is filled whole. -/
  depth : Option Decimal
  /-- Who takes the shares sold; without a buyer they leave circulation. -/
  buyer : Option AgentId
  fills : List Fill
deriving DecidableEq

namespace Market

/-- A market without trades; its depth must not be below nothing. -/
def found (book : PriceBook) (depth : Option Decimal) (buyer : Option AgentId) :
    Except Error Market := do
  ConfigFault.refuse (depth.bind fun d => if d < 0 then some .negativeDepth else none)
  return ⟨book, depth, buyer, []⟩

/-- How much of an order the market fills. -/
def fillable (m : Market) (quantity : Decimal) : Decimal :=
  match m.depth with
  | some depth => min quantity depth
  | none => quantity

/-- An order to sell. -/
def sell (m : Market) (seller : IntermediaryId) (stock : InstitutionId) (quantity : Decimal) :
    Except Error (Market × Sale) := do
  if quantity < 0 then throw (.invalidAmount quantity)
  match m.book.price? stock with
  | none => return (m, .none)
  | some price =>
    let filled := m.fillable quantity
    let proceeds : Decimal ← filled.mul price
    let sale : Sale := ⟨filled, proceeds⟩
    return ({ m with fills := m.fills ++ [⟨seller, stock, sale⟩] }, sale)

end Market

end Insolvency
