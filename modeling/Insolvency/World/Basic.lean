/-
A small economy: the models it stores, and what they trade and borrow with.

Operations know of no storage.  They take models and answer with changes to store, so
the economy is what turns them into a run: it looks models up by id, and stores the
changes in the order in which they come.  Naming a model that is not stored is a
failure of its own, `StepError.noSuchModel`.

The economy carries a supply of ids for the intermediaries that it spawns.  What is
spawned takes its id from the head of the supply, whatever ids those are.
-/
import Insolvency.Authority
import Insolvency.SellOff

namespace Insolvency

/-- The state of the economy. -/
structure World where
  authority : Authority
  institutions : Table InstitutionId Institution
  intermediaries : Table IntermediaryId Intermediary
  market : Market
  /-- Institutions waiting to be liquidated, in order. -/
  queue : List (InstitutionId × Outcome)
  government : Option Government
  centralBank : CentralBank
  now : Timestamp
  /-- The ids of the intermediaries still to be spawned, in order. -/
  newId : Nat → IntermediaryId

/-- Why a step failed. -/
inductive StepError
  | refused (error : Error)
  /-- The step names a model that is not stored. -/
  | noSuchModel
deriving DecidableEq

/-- What an operation refuses makes a step fail. -/
instance : MonadLift (Except Error) (Except StepError) where
  monadLift
    | .ok x => .ok x
    | .error e => .error (.refused e)

namespace World

/-! ### Looking models up -/

/-- A stored institution. -/
def institution (w : World) (id : InstitutionId) : Except StepError Institution :=
  match w.institutions.get? id with
  | some i => .ok i
  | none => .error .noSuchModel

/-- A stored intermediary. -/
def intermediary (w : World) (id : IntermediaryId) : Except StepError Intermediary :=
  match w.intermediaries.get? id with
  | some m => .ok m
  | none => .error .noSuchModel

/-- A stored institution, or else a stored intermediary. -/
def model (w : World) (id : String) : Except StepError Model :=
  match w.institutions.get? id, w.intermediaries.get? id with
  | some i, _ => .ok (.institution i)
  | none, some m => .ok (.intermediary m)
  | none, none => .error .noSuchModel

/-- The government, if there is one. -/
def theGovernment (w : World) : Except StepError Government :=
  match w.government with
  | some g => .ok g
  | none => .error .noSuchModel

/-! ### Storing changes -/

/-- The world with a model stored under its id. -/
def store (w : World) : Model → World
  | .institution i => { w with institutions := w.institutions.insert i.id i }
  | .intermediary m => { w with intermediaries := w.intermediaries.insert m.id m }

/-- The world with all changed models stored, in order.  A deleted model is stored too: its
deletion is a date on it. -/
def storeAll (w : World) (changes : List Change) : World :=
  changes.foldl (fun w c => w.store c.model) w

/-- A supply of ids that counts: `new-001`, `new-002` and so on. -/
def countedId (k : Nat) : IntermediaryId := "new-" ++ Numeral.padded 3 (k + 1)

/-! ### Episodes -/

/-- What an episode finds. -/
def context (w : World) (terms : SellOffTerms) : Context where
  book := w.market.book
  queue := w.queue
  government := w.government
  terms := terms
  now := w.now
  newId := w.newId

/-- The world after an episode. -/
def afterEpisode (w : World) (e : Episode) (ctx : Context) : World :=
  { w.storeAll e.changes with
    market := { w.market with book := ctx.book }
    queue := ctx.queue
    government := ctx.government
    newId := fun k => w.newId (e.intermediaries.length + k) }

/-! ### Selling -/

/-- The world after a period of selling. -/
def afterSellOff (w : World) (s : SellOff) : World :=
  { w.storeAll s.changes with market := s.market }

/-- A period of an intermediary's selling, or the end of it; the issuer is that of its stock
if none is named. -/
def sellOff (w : World) (id : IntermediaryId) (issuer : Option InstitutionId)
    (run : Intermediary → Institution → Market → Timestamp → Except Error SellOff) :
    Except StepError (World × SellOff) := do
  let subject ← w.intermediary id
  let i ← w.institution (issuer.getD subject.stock)
  let s ← run subject i w.market w.now
  return (w.afterSellOff s, s)

/-- Periods of selling until the intermediary disbands, at most so many. -/
def windDown (w : World) (id : IntermediaryId) :
    (periods : Nat) → Except StepError (World × List Period)
  | 0 => .ok (w, [])
  | periods + 1 => do
    let (w, s) ← w.sellOff id none SellOff.review
    if s.period.disbanded then return (w, [s.period])
    let (w, rest) ← w.windDown id periods
    return (w, s.period :: rest)

end World

end Insolvency
