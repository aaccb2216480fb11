/-
How an episode ends.

Every ending goes through `conclude`, which sets the outcome, where the institution
stands, and the queue.  Flagging is the ending that must leave no trace in the books:
by the time an episode is given up its shares are cancelled and its liabilities scaled,
and `giveUp` puts none of that back.  It starts over from the institution as it was.
So what a flagged episode leaves behind can be said without going through the stages
that came before, and `Flagged` says it.
-/
import Insolvency.Episode.Policy
import Insolvency.Proofs.Ledger.BalanceSheet

namespace Insolvency

/-! ### Past the checks -/

/-- A policy that gives an episode has found nothing to object to, and has run. -/
theorem Policy.resolve_eq_ok {p : Policy} {i : Institution} {shortfall : Decimal} {ctx : Context}
    {r : Episode × Context} :
    p.resolve i shortfall ctx = .ok r ↔
      p.objection? i shortfall = none ∧ p.run i shortfall ctx = .ok r := by
  unfold resolve
  cases p.objection? i shortfall with
  | none => simp [liftM_eq_ok]
  | some _ => simp

/-- Where nothing speaks against a policy, the books and the shortfall are in order. -/
theorem Policy.inOrder_of_objection? {p : Policy} {i : Institution} {shortfall : Decimal}
    (h : p.objection? i shortfall = none) : i.sheet.Nonneg ∧ 0 ≤ shortfall.toRat := by
  unfold objection? at h
  split_ifs at h with hdeleted hnegative
  all_goals
    cases hfault : i.sheet.fault? with
    | some fault =>
        rw [hfault] at h
        cases h
    | none =>
        rw [Decimal.lt_iff_toRat, Decimal.toRat_zero, not_lt] at hnegative
        exact ⟨BalanceSheet.nonneg_iff.mpr hfault, hnegative⟩

/-- So are its own parameters. -/
theorem Policy.fault?_of_objection? {p : Policy} {i : Institution} {shortfall : Decimal}
    (h : p.objection? i shortfall = none) : p.fault? = none := by
  unfold objection? at h
  cases hfault : i.sheet.fault? with
  | some fault =>
      rw [hfault] at h
      split_ifs at h
  | none =>
      rw [hfault] at h
      split_ifs at h
      exact Option.map_eq_none_iff.mp h

/-- What can speak against a policy, in the order in which it is looked for. -/
inductive Policy.Objection (p : Policy) (i : Institution) (shortfall : Decimal) : Error → Prop
  | deleted : Objection p i shortfall (.objectIsDeleted .institution)
  | negative : Objection p i shortfall (.invalidAmount shortfall)
  | books (fault : LedgerFault) : Objection p i shortfall (.corruptLedger fault)
  | kind : Objection p i shortfall (.unsupportedDebtor i.kind)
  | parameter {fault : ConfigFault} (h : p.fault? = some fault) :
      Objection p i shortfall (.invalidConfiguration fault)

theorem Policy.objection_of_objection? {p : Policy} {i : Institution} {shortfall : Decimal}
    {err : Error} (h : p.objection? i shortfall = some err) : p.Objection i shortfall err := by
  unfold objection? at h
  split at h
  · cases h
    exact .deleted
  split at h
  · cases h
    exact .negative
  split at h
  next fault _ =>
    cases h
    exact .books fault
  split at h
  · cases h
    exact .kind
  · obtain ⟨fault, hfault, rfl⟩ := Option.map_eq_some_iff.mp h
    exact .parameter hfault

/-- A policy without an episode has been objected to, or the arithmetic has failed. -/
theorem Policy.resolve_eq_error {p : Policy} {i : Institution} {shortfall : Decimal} {ctx : Context}
    {err : Error} (h : p.resolve i shortfall ctx = .error err) :
    p.objection? i shortfall = some err ∨
      ∃ fault, p.run i shortfall ctx = .error fault ∧ err = .arithmetic fault := by
  unfold resolve at h
  cases hobjection : p.objection? i shortfall with
  | some objection =>
      rw [hobjection] at h
      exact Or.inl (congrArg some (Except.error.inj h))
  | none =>
      rw [hobjection] at h
      cases hrun : p.run i shortfall ctx with
      | ok r =>
          rw [hrun] at h
          cases h
      | error fault =>
          rw [hrun] at h
          exact Or.inr ⟨fault, rfl, (Except.error.inj h).symm⟩

/-- A stock that is not listed is worth nothing, so its value is never below that unless its
price is. -/
theorem PriceBook.value_nonneg {book : PriceBook} {stock : InstitutionId}
    (h : ∀ price ∈ book.price? stock, 0 ≤ price) : 0 ≤ (book.value stock).toRat := by
  unfold value
  cases hprice : book.price? stock with
  | none => exact Decimal.toRat_zero.ge
  | some price => simpa using Decimal.le_iff_toRat.mp (h price hprice)

/-- A liquidation finds nothing to do, or flags the institution once its claims are on file. -/
theorem Policy.flag_cases {i : Institution} {shortfall : Decimal} {ctx : Context}
    {r : Episode × Context} (h : Policy.flag i shortfall ctx = .ok r) :
    (shortfall ≤ .epsilon ∧ r = (.compliant i, ctx)) ∨
    (.epsilon < shortfall ∧ ∃ filed, (Episode.opening i shortfall).fileClaims = .ok filed ∧
      r = (filed.reach .start).conclude .flaggedForLiquidation ctx) := by
  unfold flag at h
  split_ifs at h with hdue
  · exact Or.inl ⟨hdue, (pure_eq_ok.mp h).symm⟩
  · simp only [bind_eq_ok, pure_eq_ok] at h
    obtain ⟨filed, hfiled, rfl⟩ := h
    exact Or.inr ⟨Decimal.not_le_iff.mp hdue, filed, hfiled, rfl⟩

namespace Episode

/-! ### Steps read backwards

Filing the claims and writing one down touch nothing but the claims.  Cancelling the shares
leaves the table of holders empty and adds to what has been cancelled.
-/

theorem fileClaims_eq_ok {e e' : Episode} :
    e.fileClaims = .ok e' ↔
      ∃ claims, claimsOf e.liabilities = .ok claims ∧ { e with claims } = e' := by
  simp only [fileClaims, bind_eq_ok, pure_eq_ok]

theorem writeDownClaim_eq_ok {e e' : Episode} {creditor : AgentId} {amount : Decimal} :
    e.writeDownClaim creditor amount = .ok e' ↔
      ∃ claims, writeDownIn creditor amount e.claims = .ok claims ∧ { e with claims } = e' := by
  simp only [writeDownClaim, bind_eq_ok, pure_eq_ok]

theorem cancelShares_eq_ok {e e' : Episode} {price : Decimal} :
    e.cancelShares price = .ok e' ↔
      ∃ lost, e.shares.holders.entries.mapM (fun x => cancelledAccount price x.1 x.2) = .ok lost ∧
        { e.withShares .empty with cancelled := e.cancelled ++ lost } = e' := by
  simp only [cancelShares, bind_eq_ok, pure_eq_ok]

/-! ### The outcome -/

theorem outcome_of_conclude {e e' : Episode} {o : Outcome} {ctx ctx' : Context}
    (h : e.conclude o ctx = (e', ctx')) : e'.outcome = o := by
  obtain ⟨rfl, -⟩ := Prod.mk.inj h
  rfl

theorem outcome_of_compliant {i : Institution} {e : Episode} {ctx ctx' : Context}
    (h : (compliant i, ctx) = (e, ctx')) : e.outcome = .compliant := by
  obtain ⟨rfl, -⟩ := Prod.mk.inj h
  rfl

theorem outcome_of_giveUp {e e' : Episode} {before : Institution} {ctx ctx' : Context}
    (h : e.giveUp before ctx = .ok (e', ctx')) : e'.outcome = .flaggedForLiquidation := by
  simp only [giveUp, bind_eq_ok, pure_eq_ok] at h
  obtain ⟨_, -, h⟩ := h
  exact outcome_of_conclude h

/-! ### Flagging -/

/-- Claims on liabilities with nothing written down: one for each creditor, over all it is
owed. -/
def FreshClaims (l : Liabilities) (claims : List Claim) : Prop :=
  List.Forall₂
    (fun owed c => c.creditor = owed.1 ∧ owed.2.total = .ok c.amount ∧ c.writtenDown = 0)
    l.byCreditor.entries claims

theorem freshClaims_of_claimsOf {l : Liabilities} {claims : List Claim}
    (h : claimsOf l = .ok claims) : FreshClaims l claims := by
  refine (mapM_eq_ok.mp h).imp fun owed c hc => ?_
  obtain ⟨amount, hamount, rfl⟩ := by simpa only [bind_eq_ok, pure_eq_ok] using hc
  exact ⟨rfl, hamount, rfl⟩

/-- An episode has flagged an institution and done nothing else. -/
structure Flagged (before : Institution) (ctx : Context) (e : Episode) (ctx' : Context) :
    Prop where
  institution :
    e.institution = { before with status := .flaggedForLiquidation, updated := ctx.now }
  claims : FreshClaims before.sheet.liabilities e.claims
  cancelled : e.cancelled = []
  allotments : e.allotments = []
  handovers : e.handovers = []
  payments : e.payments = []
  intermediaries : e.intermediaries = []
  /-- Of the figures only the two shortfalls are set. -/
  totals : e.totals = {
    shortfall := e.totals.shortfall, remainingShortfall := e.totals.remainingShortfall }
  /-- The queue has one entry more; prices and the government are as they were. -/
  context : ctx' = { ctx with queue := ctx.queue ++ [(before.id, .flaggedForLiquidation)] }

/-- An episode in which nothing has happened, flagged once its claims are on file. -/
theorem flagged_of_blank {blank filed : Episode} {before : Institution} (ctx : Context)
    (h : blank.fileClaims = .ok filed) (hbefore : blank.institution = before)
    (hnothing : blank.cancelled = [] ∧ blank.allotments = [] ∧ blank.handovers = [] ∧
      blank.payments = [] ∧ blank.intermediaries = [])
    (htotals : blank.totals = { shortfall := blank.totals.shortfall,
                                remainingShortfall := blank.totals.remainingShortfall })
    (stages : List Stage) :
    Flagged before ctx ({ filed with trace := stages }.conclude .flaggedForLiquidation ctx).1
      ({ filed with trace := stages }.conclude .flaggedForLiquidation ctx).2 := by
  obtain ⟨claims, hclaims, rfl⟩ := fileClaims_eq_ok.mp h
  obtain ⟨hcancelled, hallotments, hhandovers, hpayments, hintermediaries⟩ := hnothing
  subst hbefore
  exact {
    institution := rfl
    claims := freshClaims_of_claimsOf hclaims
    cancelled := hcancelled
    allotments := hallotments
    handovers := hhandovers
    payments := hpayments
    intermediaries := hintermediaries
    totals := htotals
    context := rfl }

/-- The two shortfalls are those that the episode had come to. -/
theorem totals_of_giveUp {e e' : Episode} {before : Institution} {ctx ctx' : Context}
    (h : e.giveUp before ctx = .ok (e', ctx')) : e'.totals = {
      shortfall := e.totals.shortfall, remainingShortfall := e.totals.remainingShortfall } := by
  simp only [giveUp, fileClaims, bind_eq_ok, pure_eq_ok] at h
  obtain ⟨_, ⟨claims, -, rfl⟩, h⟩ := h
  obtain ⟨rfl, -⟩ := Prod.mk.inj h
  rfl

/-- **Giving up leaves nothing of the episode but the flag**, whatever had been done in it. -/
theorem flagged_of_giveUp {e e' : Episode} {before : Institution} {ctx ctx' : Context}
    (h : e.giveUp before ctx = .ok (e', ctx')) : Flagged before ctx e' ctx' := by
  simp only [giveUp, bind_eq_ok, pure_eq_ok] at h
  obtain ⟨filed, hfiled, h⟩ := h
  have := flagged_of_blank ctx hfiled rfl ⟨rfl, rfl, rfl, rfl, rfl⟩ rfl filed.trace
  rwa [h] at this

end Episode

/-! ### A bank in trouble -/

/-- A bank that owes a fund and a household and holds some of its own shares. -/
def sampleBank : Institution where
  id := "north"
  name := "North"
  kind := .bank
  sheet := {
    assets := ⟨Table.ofList [(.cash, 1000.0), (.equity, 200.0)]⟩
    liabilities := ⟨Table.ofList [(⟨.fund, "alpha"⟩, 600.0)],
      Table.ofList [(⟨.household, "smith"⟩, 300.0)]⟩
    shares := ⟨Table.ofList [(⟨.institution, "north"⟩, 10.0), (⟨.fund, "beta"⟩, 90.0)]⟩ }
  status := .operating
  active := true
  created := ⟨2024, 1, 1, 0, 0, 0⟩
  updated := ⟨2024, 1, 1, 0, 0, 0⟩
  deleted := none

/-- Its shares are listed at two, and nobody waits to be liquidated. -/
def sampleContext : Context where
  book := ⟨Table.ofList [("north", 2.0)]⟩
  queue := []
  government := none
  terms := .standard
  now := ⟨2024, 2, 1, 0, 0, 0⟩
  newId := fun n => "holder-" ++ toString n

theorem sampleContext_price_nonneg :
    ∀ price ∈ sampleContext.book.price? sampleBank.id, 0 ≤ price := by
  intro price hprice
  obtain rfl := Option.some.inj hprice
  decide

end Insolvency
