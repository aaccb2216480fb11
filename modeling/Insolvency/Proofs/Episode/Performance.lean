/-
Episodes on a context that others hold too.

An episode answers with the context as it leaves it, and one that fails answers with none.
Here an episode works on the context itself: it looks a price up, the government pays, a
price is published and the queue hears of the outcome at the step where that happens, and
what is done by then stays done where a later step fails.  The checks come where they are
made, and so do the refusals of the government.

Both come to the same (`agrees_resolve`): the same answer, and where there is an episode
the same context after it.  So whatever is refused is refused before anything is done.
-/
import Insolvency.Authority
import Insolvency.Proofs.Episode.Ending
import Insolvency.Proofs.Episode.Overflow

namespace Insolvency

/-- A computation on a context, which keeps what was done to it where the computation fails. -/
abbrev OnContext := ExceptT Error (StateM Context)

/-- A check does nothing to the context. -/
instance : MonadLift (Except Error) OnContext := ⟨fun x ctx => (x, ctx)⟩

/-- Figures worked out without the context. -/
def OnContext.work {α : Type} (x : Except Decimal.Fault α) : OnContext α :=
  fun ctx => (liftM x, ctx)

open OnContext

/-! ### What an episode does to its context -/

namespace Episode

/-- The price of a stock, looked up. -/
def lookUp (stock : InstitutionId) : OnContext Decimal := return (← get).book.value stock

/-- An amount asked of the government, and who gave it.  That there is no government, or that it
cannot pay, is an answer; any other refusal is an error. -/
def askForFunds (amount : Decimal) : OnContext (Option AgentId) := do
  match (← get).government with
  | none => return none
  | some government =>
    match government.fund amount with
    | .ok paid =>
      modify fun ctx => { ctx with government := some paid }
      return some paid.agentId
    | .error .insufficientFunds => return none
    | .error err => throw err

/-- The institution's new share price, published and noted. -/
def announce (e : Episode) (price : Decimal) : OnContext Episode := do
  let (e, ctx) := e.publishPrice price (← get)
  set ctx
  return e

/-- The episode ended, and the queue told of it if it has to be. -/
def finish (e : Episode) (outcome : Outcome) : OnContext Episode := do
  let (e, ctx) := e.conclude outcome (← get)
  set ctx
  return e

/-- The episode given up. -/
def abandon (e : Episode) (before : Institution) : OnContext Episode := do
  let (e, ctx) ← work (e.giveUp before (← get))
  set ctx
  return e

end Episode

open Decimal Episode

/-! ### The policies -/

/-- The losers of a bail-in compensated on the context. -/
def Bailin.performCompensation (before : Institution) (base : Decimal)
    (lost : List (AgentId × Decimal)) (e : Episode) : OnContext Episode := do
  let (e, writeDowns) ← work (lost.foldlM recordWriteDown (e, ∅))
  let losses := e.cancelled.foldl (recordCancellation before) writeDowns
  let totalLoss ← work losses.total
  let e ← work (losses.entries.foldlM (compensate base totalLoss (← get)) e)
  let e := e.reach .sharesIssued
  let price ← work (e.sharePrice base)
  (← e.announce price).finish .resolved

/-- A bail-in performed on the context. -/
def Bailin.perform (bank : Institution) (shortfall : Decimal) : OnContext Episode := do
  if shortfall ≤ .epsilon then return .compliant bank
  let price ← lookUp bank.id
  let e := Episode.opening bank shortfall
  let base ← work e.shareCount
  let e := (← work e.fileClaims).reach .start
  let e ← work (cancelSharesAtCost e price)
  let (e, loansLost) ← work (writeDownLoans e)
  let (e, depositsLost) ← work (writeDownDeposits e)
  if 0 < e.totals.remainingShortfall then abandon e bank
  else performCompensation bank base (loansLost.entries ++ depositsLost.entries) e

/-- A bail-out performed on the context. -/
def Bailout.perform (bank : Institution) (shortfall : Decimal) : OnContext Episode := do
  if shortfall ≤ .epsilon then return .compliant bank
  let price ← lookUp bank.id
  let e := Episode.opening bank shortfall
  let base ← work e.shareCount
  let e := (← work e.fileClaims).reach .start
  let e := (← work (e.cancelShares price)).reach .stocksTerminated
  match ← askForFunds shortfall with
  | none => abandon e bank
  | some government =>
    let e ← work (inject e shortfall)
    let e := (← work (e.allot government base shortfall .funding (← get))).reach .sharesIssued
    let newPrice ← work (e.sharePrice base)
    (← e.announce newPrice).finish .resolved

/-- A firm handed to its lenders on the context. -/
def DebtEquitySwap.performExchange (e : Episode) (totalLoans : Decimal) : OnContext Episode := do
  let count ← work e.shareCount
  let price ← lookUp e.institution.id
  let loans := e.liabilities.loans.entries
  let totals := { e.totals with loansWrittenDown := totalLoans }
  let e := { e.withLiabilities e.liabilities.withoutLoans with totals }.reach .loansWrittenDown
  let e := (← work (e.cancelShares price)).reach .stocksTerminated
  let equity := max (← work e.institution.equity) 0
  let newPrice ← work (equity.div count)
  let e ← e.announce newPrice
  let e ← work (loans.foldlM (exchangeLoan count totalLoans newPrice (← get)) e)
  return e.reach .sharesIssued

/-- A debt-for-equity swap performed on the context. -/
def DebtEquitySwap.perform (firm : Institution) (shortfall : Decimal) : OnContext Episode := do
  let totalLoans ← work firm.sheet.liabilities.loans.total
  let equity ← work firm.equity
  if totalLoans ≤ .epsilon ∧ 0 ≤ equity then return .compliant firm
  let e := (← work (Episode.opening firm shortfall).fileClaims).reach .start
  if (← work (equity.add totalLoans)) < 0 then abandon e firm
  else if totalLoans ≤ e.assets.cash ∧ 0 ≤ equity then
    (covered (← work (repay e))).finish .resolved
  else (covered (← performExchange e totalLoans)).finish .resolved

/-- A firm handed to its creditors on the context. -/
def AssetThreshold.performHandOver (e : Episode) (debts : List (AgentId × Decimal))
    (remainingDebt : Decimal) : OnContext Episode := do
  let count ← work e.shareCount
  let price ← lookUp e.institution.id
  let e := withoutDebts (← work (e.cancelShares price))
  let equity ← work e.assets.total
  let newPrice ← work (equity.div count)
  let e ← e.announce newPrice
  work (debts.foldlM (handOverPart count equity remainingDebt (← get)) e)

/-- The debts that cash did not cover, settled on the context. -/
def AssetThreshold.performSettlement (e : Episode) (debts : List (AgentId × Decimal))
    (remainingDebt : Decimal) : OnContext Episode := do
  let price ← lookUp e.institution.id
  let holdings := outsiders e
  let value ← work ((← work (Decimal.sum (holdings.map Prod.snd))).mul price)
  if .epsilon < value ∧ remainingDebt ≤ value then
    (← work (handOutShares e debts holdings remainingDebt value price (← get))).finish .resolved
  else (← performHandOver e debts remainingDebt).finish .liquidated

/-- An asset-threshold episode performed on the context. -/
def AssetThreshold.perform (cash : CashRule) (firm : Institution) (shortfall : Decimal) :
    OnContext Episode := do
  let totalDebt ← work firm.sheet.totalLiabilities
  if totalDebt ≤ .epsilon then return .compliant firm
  let e := (← work (Episode.opening firm shortfall).fileClaims).reach .start
  let e ← work (compensateInCash e cash totalDebt)
  let debts ← work (debtsOf e.claims)
  let remainingDebt ← work (Decimal.sum (debts.map Prod.snd))
  if remainingDebt ≤ .epsilon then (withoutDebts e).finish .resolved
  else performSettlement e debts remainingDebt

namespace Policy

/-- An institution flagged straight away, on the context. -/
def performFlag (i : Institution) (shortfall : Decimal) : OnContext Episode := do
  if shortfall ≤ .epsilon then return .compliant i
  let e ← work (Episode.opening i shortfall).fileClaims
  (e.reach .start).finish .flaggedForLiquidation

/-- The episode of a policy performed on the context. -/
def perform : Policy → Institution → Decimal → OnContext Episode
  | bailin => Bailin.perform
  | assetThreshold cash => AssetThreshold.perform cash
  | bailout => Bailout.perform
  | debtEquitySwap => DebtEquitySwap.perform
  | liquidate => performFlag

/-- What is checked before a policy is run, in order. -/
def check (p : Policy) (i : Institution) (shortfall : Decimal) : Except Error Unit := do
  if i.isDeleted then .error (.objectIsDeleted .institution)
  else if shortfall < 0 then .error (.invalidAmount shortfall)
  else
    i.sheet.check
    if !p.appliesTo i.kind then .error (.unsupportedDebtor i.kind)
    else ConfigFault.refuse p.fault?

/-- The policy performed on an institution with a shortfall, after the checks. -/
def performChecked (p : Policy) (i : Institution) (shortfall : Decimal) : OnContext Episode := do
  p.check i shortfall
  p.perform i shortfall

end Policy

/-- The rulebook's policy performed on an institution that falls short. -/
def Authority.perform (a : Authority) (i : Institution) : OnContext Episode := do
  let assessment ← a.assess i
  if assessment.isCompliant then return .compliant i
  modify fun ctx => { ctx with terms := a.rulebook.terms }
  a.rulebook.policy.performChecked i assessment.shortfall

/-! ### Both come to the same -/

/-- On a context the computation comes to what another one says: the same result and the same
context after it, or the same fault. -/
def Performs {α : Type} (m : OnContext α) (ctx : Context)
    (x : Except Decimal.Fault (α × Context)) : Prop :=
  match x with
  | .ok (a, ctx') => m ctx = (.ok a, ctx')
  | .error fault => ∃ left, m ctx = (.error (.arithmetic fault), left)

section Performs

variable {α β : Type} {ctx ctx' : Context}

theorem performs_pure (a : α) (ctx : Context) : Performs (pure a) ctx (.ok (a, ctx)) := rfl

theorem performs_work {x : Except Decimal.Fault α} {f : α → OnContext β}
    {g : α → Except Decimal.Fault (β × Context)} (hf : ∀ a, x = .ok a → Performs (f a) ctx (g a)) :
    Performs (work x >>= f) ctx (x >>= g) := by
  cases x with
  | ok a => exact hf a rfl
  | error fault => exact ⟨ctx, rfl⟩

theorem performs_result (x : Except Decimal.Fault α) (ctx : Context) :
    Performs (work x) ctx (x >>= fun a => pure (a, ctx)) := by
  cases x with
  | ok a => rfl
  | error fault => exact ⟨ctx, rfl⟩

/-- A step after another finds the context as that one leaves it. -/
theorem OnContext.bind_apply (m : OnContext α) (f : α → OnContext β) (ctx : Context) :
    (m >>= f) ctx = match m ctx with
      | (.ok a, ctx') => f a ctx'
      | (.error err, ctx') => (.error err, ctx') := by
  show (ExceptT.bindCont f (m ctx).1) (m ctx).2 = _
  rcases m ctx with ⟨_ | _, _⟩
  · rfl
  · rfl

theorem performs_after {m : OnContext α} {a : α} {f : α → OnContext β}
    {x : Except Decimal.Fault (β × Context)} (hm : m ctx = (.ok a, ctx'))
    (hf : Performs (f a) ctx' x) : Performs (m >>= f) ctx x := by
  unfold Performs
  rw [bind_apply, hm]
  exact hf

theorem performs_failing {m : OnContext α} {fault : Decimal.Fault} {left : Context}
    (f : α → OnContext β) (hm : m ctx = (.error (.arithmetic fault), left)) :
    Performs (m >>= f) ctx (.error fault) :=
  ⟨left, by rw [bind_apply, hm]⟩

theorem performs_bind {m : OnContext α} {x : Except Decimal.Fault (α × Context)}
    {f : α → OnContext β} {g : α × Context → Except Decimal.Fault (β × Context)}
    (hm : Performs m ctx x) (hf : ∀ r, x = .ok r → Performs (f r.1) r.2 (g r)) :
    Performs (m >>= f) ctx (x >>= g) := by
  cases x with
  | ok r => exact performs_after hm (hf r rfl)
  | error fault =>
      obtain ⟨left, hleft⟩ := hm
      exact performs_failing f hleft

theorem performs_lookUp {stock : InstitutionId} {f : Decimal → OnContext β}
    {x : Except Decimal.Fault (β × Context)} (hf : Performs (f (ctx.book.value stock)) ctx x) :
    Performs (lookUp stock >>= f) ctx x := hf

theorem performs_get {f : Context → OnContext β} {x : Except Decimal.Fault (β × Context)}
    (hf : Performs (f ctx) ctx x) : Performs (get >>= f) ctx x := hf

theorem performs_announce {e : Episode} {price : Decimal} {f : Episode → OnContext β}
    {x : Except Decimal.Fault (β × Context)}
    (hf : Performs (f (e.publishPrice price ctx).1) (e.publishPrice price ctx).2 x) :
    Performs (e.announce price >>= f) ctx x := hf

theorem performs_finish (e : Episode) (outcome : Outcome) (ctx : Context) :
    Performs (e.finish outcome) ctx (.ok (e.conclude outcome ctx)) := rfl

theorem performs_abandon (e : Episode) (before : Institution) (ctx : Context) :
    Performs (e.abandon before) ctx (e.giveUp before ctx) := by
  unfold abandon
  refine performs_get ?_
  cases e.giveUp before ctx with
  | ok r => rfl
  | error fault => exact ⟨ctx, rfl⟩

/-- An amount not below nothing is refused by a government only if its budget is too small. -/
theorem Government.fund_eq {government : Government} {amount : Decimal} (hamount : ¬ amount < 0) :
    government.fund amount = if government.budget < amount then .error .insufficientFunds
      else liftM (government.disburse amount) := by
  unfold fund
  rw [if_neg hamount]
  split_ifs
  · rfl
  · rfl

/-- Who can pay pays, and nobody else is asked for anything. -/
theorem askForFunds_apply {amount : Decimal} (hamount : ¬ amount < 0) (ctx : Context) :
    askForFunds amount ctx = match Bailout.funder? ctx amount with
      | none => (.ok none, ctx)
      | some government => match government.disburse amount with
        | .ok paid => (.ok (some paid.agentId), { ctx with government := some paid })
        | .error fault => (.error (.arithmetic fault), ctx) := by
  unfold askForFunds Bailout.funder?
  rw [OnContext.bind_apply]
  show (match ctx.government with | none => _ | some _ => _ : OnContext (Option AgentId)) ctx = _
  cases ctx.government with
  | none => rfl
  | some government =>
      simp only [Government.fund_eq hamount, Option.filter_some]
      by_cases hbudget : amount ≤ government.budget
      · rw [if_neg (fun h => absurd hbudget (not_le_iff.mpr h)), if_pos (decide_eq_true hbudget)]
        dsimp only
        cases hdisburse : government.disburse amount with
        | ok paid => rfl
        | error fault => rfl
      · rw [if_pos (not_le_iff.mp hbudget), if_neg (by simpa using hbudget)]
        rfl

theorem Government.agentId_of_disburse {government paid : Government} {amount : Decimal}
    (h : government.disburse amount = .ok paid) : paid.agentId = government.agentId := by
  simp only [disburse, bind_eq_ok, pure_eq_ok] at h
  obtain ⟨budget, -, disbursed, -, rfl⟩ := h
  rfl

end Performs

theorem Bailin.performs_run (bank : Institution) (shortfall : Decimal) (ctx : Context) :
    Performs (perform bank shortfall) ctx (run bank shortfall ctx) := by
  unfold perform run
  split_ifs
  · exact performs_pure _ ctx
  refine performs_lookUp (performs_work fun base _ => performs_work fun filed _ =>
    performs_work fun cancelled _ => performs_work fun loans _ =>
      performs_work fun deposits _ => ?_)
  dsimp only
  split_ifs
  · exact performs_abandon _ _ _
  refine performs_work fun recorded _ => performs_work fun totalLoss _ => performs_get ?_
  exact performs_work fun compensated _ => performs_work fun price _ =>
    performs_announce (performs_finish _ _ _)

theorem Bailout.performs_run (bank : Institution) (shortfall : Decimal) (ctx : Context) :
    Performs (perform bank shortfall) ctx (run bank shortfall ctx) := by
  unfold perform run
  split_ifs with hdue
  · exact performs_pure _ ctx
  have hamount : ¬ shortfall < 0 := by
    have hpos := toRat_pos_of_epsilon_lt (not_le_iff.mp hdue)
    rw [lt_iff_toRat, toRat_zero]
    exact not_lt.mpr hpos.le
  refine performs_lookUp (performs_work fun base _ => performs_work fun filed _ =>
    performs_work fun cancelled _ => ?_)
  have hfunds := askForFunds_apply hamount ctx
  cases hfunder : funder? ctx shortfall with
  | none =>
      rw [hfunder] at hfunds
      exact performs_after hfunds (performs_abandon _ _ _)
  | some government =>
      rw [hfunder] at hfunds
      dsimp only at hfunds ⊢
      cases hpaid : government.disburse shortfall with
      | error fault =>
          rw [hpaid] at hfunds
          exact performs_failing _ hfunds
      | ok paid =>
          rw [hpaid] at hfunds
          dsimp only at hfunds
          rw [Government.agentId_of_disburse hpaid] at hfunds
          refine performs_after hfunds ?_
          refine performs_work fun injected _ => performs_get (performs_work fun allotted _ => ?_)
          exact performs_work fun price _ => performs_announce (performs_finish _ _ _)

namespace DebtEquitySwap

theorem performs_exchange (e : Episode) (totalLoans : Decimal) (ctx : Context) :
    Performs (performExchange e totalLoans) ctx (exchange e totalLoans ctx) := by
  refine performs_work fun count _ => performs_lookUp (performs_work fun cancelled _ => ?_)
  refine performs_work fun equity _ => performs_work fun price _ => performs_announce ?_
  exact performs_get (performs_work fun exchanged _ => performs_pure _ _)

theorem performs_run (firm : Institution) (shortfall : Decimal) (ctx : Context) :
    Performs (perform firm shortfall) ctx (run firm shortfall ctx) := by
  unfold perform run
  refine performs_work fun totalLoans _ => performs_work fun equity _ => ?_
  split_ifs
  · exact performs_pure _ ctx
  refine performs_work fun filed _ => performs_work fun solvency _ => ?_
  split_ifs
  · exact performs_abandon _ _ _
  · exact performs_work fun repaid _ => performs_finish _ _ _
  · exact performs_bind (performs_exchange _ _ _) fun r _ => performs_finish _ _ _

end DebtEquitySwap

namespace AssetThreshold

theorem performs_handOverFirm (e : Episode) (debts : List (AgentId × Decimal))
    (remainingDebt : Decimal) (ctx : Context) :
    Performs (performHandOver e debts remainingDebt) ctx
      (handOverFirm e debts remainingDebt ctx) := by
  refine performs_work fun count _ => performs_lookUp (performs_work fun cancelled _ => ?_)
  refine performs_work fun equity _ => performs_work fun price _ => performs_announce ?_
  exact performs_get (performs_result _ _)

theorem performs_settleRest (e : Episode) (debts : List (AgentId × Decimal))
    (remainingDebt : Decimal) (ctx : Context) :
    Performs (performSettlement e debts remainingDebt) ctx
      (settleRest e debts remainingDebt ctx) := by
  unfold performSettlement settleRest
  refine performs_lookUp (performs_work fun held _ => performs_work fun value _ => ?_)
  split_ifs
  · exact performs_get (performs_work fun handed _ => performs_finish _ _ _)
  · exact performs_bind (performs_handOverFirm _ _ _ _) fun r _ => performs_finish _ _ _

theorem performs_run (cash : CashRule) (firm : Institution) (shortfall : Decimal)
    (ctx : Context) : Performs (perform cash firm shortfall) ctx (run cash firm shortfall ctx) := by
  unfold perform run
  refine performs_work fun totalDebt _ => ?_
  split_ifs
  · exact performs_pure _ ctx
  refine performs_work fun filed _ => performs_work fun paid _ => performs_work fun debts _ =>
    performs_work fun remaining _ => ?_
  split_ifs
  · exact performs_finish _ _ _
  · exact performs_settleRest _ _ _ _

end AssetThreshold

theorem Policy.performs_run (p : Policy) (i : Institution) (shortfall : Decimal) (ctx : Context) :
    Performs (p.perform i shortfall) ctx (p.run i shortfall ctx) := by
  cases p with
  | bailin => exact Bailin.performs_run i shortfall ctx
  | assetThreshold cash => exact AssetThreshold.performs_run cash i shortfall ctx
  | bailout => exact Bailout.performs_run i shortfall ctx
  | debtEquitySwap => exact DebtEquitySwap.performs_run i shortfall ctx
  | liquidate =>
      show Performs (performFlag i shortfall) ctx (flag i shortfall ctx)
      unfold performFlag flag
      split_ifs
      · exact performs_pure _ ctx
      · exact performs_work fun filed _ => performs_finish _ _ _

/-! ### Refusals come first -/

/-- The prices, the queue and the government are as they were. -/
structure Context.Untouched (ctx ctx' : Context) : Prop where
  book : ctx'.book = ctx.book
  queue : ctx'.queue = ctx.queue
  government : ctx'.government = ctx.government

/-- On a context the computation comes to what another one says, and where that has failed, but
not by an overflow, the context is untouched. -/
structure Agrees (m : OnContext Episode) (ctx : Context) (x : Except Error (Episode × Context)) :
    Prop where
  ok : ∀ r, x = .ok r → m ctx = (.ok r.1, r.2)
  error : ∀ err, x = .error err → ∃ left, m ctx = (.error err, left) ∧
    (¬ err.IsOverflow → ctx.Untouched left)

section Agrees

variable {m : OnContext Episode} {ctx : Context}

theorem agrees_error {err : Error} {left : Context} (h : m ctx = (.error err, left))
    (hleft : ctx.Untouched left) : Agrees m ctx (.error err) where
  ok _ hr := by cases hr
  error err' herr := ⟨left, by rw [h, Except.error.inj herr], fun _ => hleft⟩

theorem Performs.agrees {x : Except Decimal.Fault (Episode × Context)} (h : Performs m ctx x)
    (hx : FailsOnlyBy Fault.IsOverflow x) : Agrees m ctx (liftM x) := by
  cases x with
  | ok r =>
      refine ⟨fun r' hr => ?_, fun err herr => by cases herr⟩
      rw [← Except.ok.inj hr]
      exact h
  | error fault =>
      refine ⟨fun r' hr => (by cases hr), fun err herr => ?_⟩
      obtain ⟨left, hleft⟩ := h
      rw [← Except.error.inj herr]
      exact ⟨left, hleft, fun hno => absurd ⟨fault, rfl, hx fault rfl⟩ hno⟩

end Agrees

namespace Policy

variable (p : Policy) (i : Institution) (shortfall : Decimal) (ctx : Context)

/-- The checks find what speaks against the policy. -/
theorem check_eq : p.check i shortfall = match p.objection? i shortfall with
    | some err => .error err
    | none => .ok () := by
  unfold check objection? BalanceSheet.check ConfigFault.refuse
  by_cases hdeleted : i.isDeleted = true
  · rw [if_pos hdeleted, if_pos hdeleted]
  by_cases hnegative : shortfall < 0
  · rw [if_neg hdeleted, if_neg hdeleted, if_pos hnegative, if_pos hnegative]
  rw [if_neg hdeleted, if_neg hdeleted, if_neg hnegative, if_neg hnegative]
  cases i.sheet.fault? with
  | some fault => rfl
  | none =>
      dsimp only
      split_ifs
      · rfl
      · cases p.fault? with
        | some fault => rfl
        | none => rfl

theorem agrees_resolve :
    Agrees (p.performChecked i shortfall) ctx (p.resolve i shortfall ctx) := by
  have hcheck := p.check_eq i shortfall
  unfold performChecked resolve
  cases hobjection : p.objection? i shortfall with
  | some err =>
      rw [hobjection] at hcheck
      rw [hcheck]
      exact agrees_error rfl ⟨rfl, rfl, rfl⟩
  | none =>
      rw [hobjection] at hcheck
      rw [hcheck]
      exact (p.performs_run i shortfall ctx).agrees (p.failsOnlyBy_run i shortfall ctx)

end Policy

/-- **An episode on a context that others hold comes to the same answer and leaves the same
context, and one that is refused leaves it untouched.** -/
theorem Authority.agrees_resolve (a : Authority) (i : Institution) (ctx : Context) :
    Agrees (a.perform i) ctx (a.resolve i ctx) := by
  unfold perform resolve
  cases a.assess i with
  | error err =>
      have huntouched : ctx.Untouched ctx := ⟨rfl, rfl, rfl⟩
      exact agrees_error rfl huntouched
  | ok assessment =>
      show Agrees (if assessment.isCompliant then pure (.compliant i) else
          modify (fun ctx => { ctx with terms := a.rulebook.terms }) >>= fun _ =>
            a.rulebook.policy.performChecked i assessment.shortfall) ctx
        (if assessment.isCompliant then .ok (.compliant i, ctx) else
          a.rulebook.policy.resolve i assessment.shortfall { ctx with terms := a.rulebook.terms })
      split_ifs
      · exact ⟨fun r hr => Except.ok.inj hr ▸ rfl, fun err herr => by cases herr⟩
      · have hpolicy := a.rulebook.policy.agrees_resolve i assessment.shortfall
          { ctx with terms := a.rulebook.terms }
        refine ⟨hpolicy.ok, fun err herr => ?_⟩
        obtain ⟨left, hleft, huntouched⟩ := hpolicy.error err herr
        exact ⟨left, hleft, fun hno => ⟨(huntouched hno).book, (huntouched hno).queue,
          (huntouched hno).government⟩⟩

end Insolvency
