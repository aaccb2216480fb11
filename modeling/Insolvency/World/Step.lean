/-
Steps: the calls that move the economy on.

A step is one call, decoded.  `step` says what it answers and what world it leaves;
one that fails leaves none, so in `next` the world stays as it was.  `after` is a run
of steps, and the theorems about histories are about it.
-/
import Insolvency.World.Basic

namespace Insolvency

/-- An account of an institution's books. -/
inductive AccountName
  | asset (cls : AssetClass)
  | loan (creditor : AgentId)
  | deposit (creditor : AgentId)
  | shares (holder : AgentId)
deriving DecidableEq

/-- How an account is edited. -/
inductive EditKind
  | setTo
  | credit
deriving DecidableEq

/-- One call on the economy. -/
inductive Step
  /-- Measure an institution against the target. -/
  | assess (id : InstitutionId)
  /-- Resolve an institution by the rulebook. -/
  | resolve (id : InstitutionId) (terms : SellOffTerms)
  /-- Run a policy on an institution with a shortfall. -/
  | applyPolicy (id : InstitutionId) (policy : Policy) (shortfall : Decimal) (terms : SellOffTerms)
  /-- Ask the central bank for a loan. -/
  | inject (id : InstitutionId) (amount : Decimal)
  /-- Ask the central bank how risky an institution is. -/
  | assessLoan (id : InstitutionId)
  /-- Settle an institution's loan. -/
  | settle (id : InstitutionId)
  /-- Create an intermediary. -/
  | create (beneficiary : AgentId) (stock : InstitutionId) (shares : Decimal)
      (terms : SellOffTerms)
  /-- One period of an intermediary's selling; the issuer is that of its stock if not named. -/
  | review (id : IntermediaryId) (issuer : Option InstitutionId)
  /-- The end of an intermediary's selling. -/
  | disband (id : IntermediaryId) (issuer : Option InstitutionId)
  /-- Periods of selling until the intermediary disbands, at most so many. -/
  | windDown (id : IntermediaryId) (periods : Nat)
  /-- An order on the market, outside any intermediary's selling. -/
  | sell (seller : IntermediaryId) (stock : InstitutionId) (quantity : Decimal)
  /-- List a price. -/
  | setPrice (stock : InstitutionId) (price : Decimal)
  /-- Funding by the government. -/
  | fund (amount : Decimal)
  /-- Edit an account of an institution. -/
  | edit (id : InstitutionId) (account : AccountName) (kind : EditKind) (amount : Decimal)
  /-- Mark an institution, or else an intermediary, as deleted. -/
  | delete (id : String)
  /-- Set the clock. -/
  | setClock (time : Timestamp)
  /-- Empty the liquidation queue. -/
  | drain
  /-- Look at an institution, or else at an intermediary. -/
  | showModel (id : String)

/-- An episode, with what it left behind. -/
structure EpisodeReport where
  episode : Episode
  /-- The price of the institution's stock afterwards. -/
  price : Option Decimal
  /-- The length of the liquidation queue afterwards. -/
  queued : Nat
  /-- The terms that the context holds afterwards. -/
  terms : SellOffTerms

/-- What a step answers. -/
inductive Answer
  | done
  | assessment (a : Assessment)
  | episode (r : EpisodeReport)
  | loan (decision : Except Denial (List Change))
  | loanRisk (decision : Except Denial Decimal)
  | settlement (amount : Option Decimal)
  | changes (cs : List Change)
  | sellOff (s : SellOff)
  | periods (ps : List Period)
  | sale (s : Sale)
  | amount (d : Decimal)
  | pending (queue : List (InstitutionId × Outcome))
  | model (m : Model)

namespace BalanceSheet

/-- The books with an account edited. -/
def edit (s : BalanceSheet) (kind : EditKind) (amount : Decimal) :
    AccountName → Except Decimal.Fault BalanceSheet
  | .asset cls => do
    match kind with
    | .setTo => return { s with assets := s.assets.setHolding cls amount }
    | .credit => return { s with assets := ← s.assets.creditHolding cls amount }
  | .loan creditor => do
    match kind with
    | .setTo => return { s with liabilities := s.liabilities.setLoan creditor amount }
    | .credit => return { s with liabilities := ← s.liabilities.creditLoan creditor amount }
  | .deposit creditor => do
    match kind with
    | .setTo => return { s with liabilities := s.liabilities.setDeposit creditor amount }
    | .credit => return { s with liabilities := ← s.liabilities.creditDeposit creditor amount }
  | .shares holder => do
    match kind with
    | .setTo => return { s with shares := s.shares.setHeld holder amount }
    | .credit => return { s with shares := ← s.shares.issue holder amount }

end BalanceSheet

/-- A model marked as deleted. -/
def Model.markDeleted (now : Timestamp) : Model → Model
  | .institution i => .institution { i with deleted := some now }
  | .intermediary m => .intermediary { m with deleted := some now }

/-- The report of an episode and the context it left. -/
def EpisodeReport.of (e : Episode) (ctx : Context) : EpisodeReport where
  episode := e
  price := ctx.book.price? e.institution.id
  queued := ctx.queue.length
  terms := ctx.terms

namespace World

/-! ### Steps of their own -/

/-- An episode run on a stored institution. -/
def runEpisode (w : World) (id : InstitutionId) (terms : SellOffTerms)
    (run : Institution → Context → Except Error (Episode × Context)) :
    Except StepError (World × Answer) := do
  let i ← w.institution id
  let (e, ctx) ← run i (w.context terms)
  return (w.afterEpisode e ctx, .episode (.of e ctx))

/-- A loan asked for; only one that is granted changes anything. -/
def inject (w : World) (id : InstitutionId) (amount : Decimal) :
    Except StepError (World × Answer) := do
  let i ← w.institution id
  match ← w.centralBank.request i amount w.now with
  | (_, .error denial) => return (w, .loan (.error denial))
  | (centralBank, .ok borrower) =>
    let changes : List Change := [⟨.update, .institution borrower⟩]
    return ({ w.storeAll changes with centralBank }, .loan (.ok changes))

/-- An intermediary created under the next free id. -/
def create (w : World) (beneficiary : AgentId) (stock : InstitutionId) (shares : Decimal)
    (terms : SellOffTerms) : Except StepError (World × Answer) := do
  let m ← SellOff.create (w.newId 0) beneficiary stock shares terms w.now
  let changes : List Change := [⟨.create, .intermediary m⟩]
  return ({ w.storeAll changes with newId := fun k => w.newId (1 + k) }, .changes changes)

/-- Funding by the government, if there is one. -/
def fund (w : World) (amount : Decimal) : Except StepError (World × Answer) := do
  let government ← (← w.theGovernment).fund amount
  return ({ w with government := some government }, .amount amount)

/-! ### All steps -/

/-- One step: the world it leaves, and its answer. -/
def step (w : World) : Step → Except StepError (World × Answer)
  | .assess id => do
    let i ← w.institution id
    return (w, .assessment (← w.authority.assess i))
  | .resolve id terms => w.runEpisode id terms w.authority.resolve
  | .applyPolicy id policy shortfall terms =>
    w.runEpisode id terms fun i => policy.resolve i shortfall
  | .inject id amount => w.inject id amount
  | .assessLoan id => do
    let i ← w.institution id
    let decision ← (liftM (w.centralBank.assess i) : Except Error _)
    return (w, .loanRisk decision)
  | .settle id =>
    let (centralBank, amount) := w.centralBank.settle id
    return ({ w with centralBank }, .settlement amount)
  | .create beneficiary stock shares terms => w.create beneficiary stock shares terms
  | .review id issuer => do
    let (w, s) ← w.sellOff id issuer SellOff.review
    return (w, .sellOff s)
  | .disband id issuer => do
    let (w, s) ← w.sellOff id issuer SellOff.disband
    return (w, .sellOff s)
  | .windDown id periods => do
    let _ ← w.intermediary id
    let (w, ps) ← w.windDown id periods
    return (w, .periods ps)
  | .sell seller stock quantity => do
    let (market, sale) ← w.market.sell seller stock quantity
    return ({ w with market }, .sale sale)
  | .setPrice stock price =>
    return ({ w with market := { w.market with book := w.market.book.publish stock price } }, .done)
  | .fund amount => w.fund amount
  | .edit id account kind amount => do
    let i ← w.institution id
    let sheet ← (liftM (i.sheet.edit kind amount account) : Except Error BalanceSheet)
    return (w.store (.institution { i with sheet }), .done)
  | .delete id => do
    let m ← w.model id
    return (w.store (m.markDeleted w.now), .done)
  | .setClock now => return ({ w with now }, .done)
  | .drain => return ({ w with queue := [] }, .pending w.queue)
  | .showModel id => do return (w, .model (← w.model id))

/-- The world after a step; one that fails changes nothing. -/
def next (w : World) (s : Step) : World :=
  match w.step s with
  | .ok (w, _) => w
  | .error _ => w

/-- The world after some steps. -/
def after (w : World) (steps : List Step) : World := steps.foldl next w

end World

end Insolvency
