/-
The life cycle of an episode.

An episode leaves a trace: the stages it has come to, in order.  Nearly everything in an
episode changes the books and nothing else, neither the trace nor who the institution is
nor where it stands.  `Through` is that frame, labelled with the stages reached on the
way, and labels append.  So the course of a policy is read off its functions one after the
other, and its ends are all ends of `conclude`, which is the only one to set the outcome,
the status and the time, and the only one the queue hears of.

What holds of one call holds of any number of calls on one context (`Context.answers`): a
call finds the context as the one before it has left it, and the queue is what it was with
one entry more for each institution flagged or liquidated.
-/
import Insolvency.Proofs.Bailin.Stages
import Insolvency.Proofs.Episode.Flagged
import Insolvency.Proofs.Episode.GivingShares

namespace Insolvency

/-- The stages that a policy's episodes go through.  An episode with nothing to do goes through
none. -/
def Policy.courses : Policy → List (List Stage)
  | .bailin => [
      [.start, .stocksTerminated, .loansWrittenDown, .depositsWrittenDown, .sharesIssued,
        .resolved],
      [.start, .stocksTerminated, .loansWrittenDown, .depositsWrittenDown,
        .flaggedForLiquidation]]
  | .assetThreshold _ => [
      [.start, .cashCompensated, .resolved],
      [.start, .cashCompensated, .stockRedistributed, .resolved],
      [.start, .cashCompensated, .liquidated]]
  | .bailout => [
      [.start, .stocksTerminated, .governmentFunded, .sharesIssued, .resolved],
      [.start, .stocksTerminated, .flaggedForLiquidation]]
  | .debtEquitySwap => [
      [.start, .cashCompensated, .resolved],
      [.start, .loansWrittenDown, .stocksTerminated, .sharesIssued, .resolved],
      [.start, .flaggedForLiquidation]]
  | .liquidate => [[.start, .flaggedForLiquidation]]

namespace Episode

/-! ### The stages on the way -/

/-- The episode has come through these stages, and of the institution only the books have
changed. -/
structure Through (stages : List Stage) (e e' : Episode) : Prop where
  trace : e'.trace = e.trace ++ stages
  institution : e'.institution = { e.institution with sheet := e'.institution.sheet }

section Through

variable {e e' e'' : Episode} {stages stages' : List Stage}

/-- Where no stage is reached the trace is the same. -/
theorem Through.aside (htrace : e'.trace = e.trace)
    (hinstitution : e'.institution = { e.institution with sheet := e'.institution.sheet }) :
    Through [] e e' :=
  ⟨htrace.trans (List.append_nil _).symm, hinstitution⟩

theorem Through.refl (e : Episode) : Through [] e e := .aside rfl rfl

theorem Through.trans (h : Through stages e e') (h' : Through stages' e' e'') :
    Through (stages ++ stages') e e'' where
  trace := by rw [h'.trace, h.trace, List.append_assoc]
  institution := by rw [h'.institution, h.institution]

/-- A last change of the books. -/
theorem Through.adjust (h : Through stages e e') (htrace : e''.trace = e'.trace)
    (hinstitution : e''.institution = { e'.institution with sheet := e''.institution.sheet }) :
    Through stages e e'' where
  trace := htrace.trans h.trace
  institution := by rw [hinstitution, h.institution]

theorem Through.reach (h : Through stages e e') (stage : Stage) :
    Through (stages ++ [stage]) e (e'.reach stage) :=
  h.trans ⟨rfl, rfl⟩

theorem through_fileClaims (h : e.fileClaims = .ok e') : Through [] e e' := by
  obtain ⟨claims, -, rfl⟩ := fileClaims_eq_ok.mp h
  exact .aside rfl rfl

theorem through_writeDownClaim {creditor : AgentId} {amount : Decimal}
    (h : e.writeDownClaim creditor amount = .ok e') : Through [] e e' := by
  obtain ⟨claims, -, rfl⟩ := writeDownClaim_eq_ok.mp h
  exact .aside rfl rfl

theorem through_cancelShares {price : Decimal} (h : e.cancelShares price = .ok e') :
    Through [] e e' := by
  obtain ⟨lost, -, rfl⟩ := cancelShares_eq_ok.mp h
  exact .aside rfl rfl

/-- Giving shares to creditors reaches no stage. -/
theorem GivesShares.through (h : GivesShares e e') : Through [] e e' :=
  .aside h.trace (by rw [h.institution]; rfl)

end Through

/-! ### The end -/

/-- What the queue hears of an institution's episode. -/
def notices (e : Episode) (id : InstitutionId) : List (InstitutionId × Outcome) :=
  if e.outcome.needsLiquidation then [(id, e.outcome)] else []

theorem schedule_eq (ctx : Context) (id : InstitutionId) (o : Outcome) : ctx.schedule id o
    = { ctx with queue := ctx.queue ++ if o.needsLiquidation then [(id, o)] else [] } := by
  unfold Context.schedule
  split_ifs
  · rfl
  · rw [List.append_nil]

/-- An episode with nothing to do has left everything as it was. -/
structure Idle (before : Institution) (ctx : Context) (e : Episode) (ctx' : Context) : Prop where
  outcome : e.outcome = .compliant
  trace : e.trace = []
  institution : e.institution = before
  changes : e.changes = []
  context : ctx' = ctx

/-- An episode of a policy has come to its end. -/
structure Concluded (p : Policy) (before : Institution) (ctx : Context) (e : Episode)
    (ctx' : Context) : Prop where
  outcome : e.outcome ≠ .compliant
  course : e.trace ∈ p.courses
  last : e.trace.getLast? = e.outcome.lastStage?
  /-- The books and the two fields that tell of the end are all that can differ. -/
  institution : e.institution = { before with
    sheet := e.institution.sheet, status := e.outcome.status, updated := ctx.now }
  changes : e.changes = ⟨.update, .institution e.institution⟩
    :: e.intermediaries.map fun m => ⟨.create, .intermediary m⟩
  /-- Beside prices and the government only the queue can differ. -/
  context : ctx' = { ctx with
    book := ctx'.book, government := ctx'.government, queue := ctx.queue ++ e.notices before.id }

/-- The two ways an episode can be when it is over. -/
def LifeCycle (p : Policy) (before : Institution) (ctx : Context) (e : Episode)
    (ctx' : Context) : Prop :=
  Idle before ctx e ctx' ∨ Concluded p before ctx e ctx'

variable {p : Policy} {i : Institution} {shortfall : Decimal} {ctx ctx' : Context} {e : Episode}
  {stages : List Stage}

theorem idle_compliant (i : Institution) (ctx : Context) : Idle i ctx (compliant i) ctx :=
  ⟨rfl, rfl, rfl, rfl, rfl⟩

/-- The stages of the way and the last one make a course of the policy. -/
theorem concluded_of_through {o : Outcome} (h : Through stages (opening i shortfall) e)
    (hctx : ctx' = { ctx with book := ctx'.book, government := ctx'.government })
    (ho : o ≠ .compliant) (hcourse : stages ++ o.lastStage?.toList ∈ p.courses) :
    Concluded p i ctx (e.conclude o ctx').1 (e.conclude o ctx').2 where
  outcome := ho
  course := by
    show e.trace ++ o.lastStage?.toList ∈ p.courses
    rw [h.trace]
    exact hcourse
  last := by
    show (e.trace ++ o.lastStage?.toList).getLast? = o.lastStage?
    cases o with
    | compliant => exact absurd rfl ho
    | resolved => exact List.getLast?_concat
    | flaggedForLiquidation => exact List.getLast?_concat
    | liquidated => exact List.getLast?_concat
  institution := by
    show { e.institution with status := o.status, updated := ctx'.now } = _
    rw [h.institution, hctx]
    rfl
  changes := if_neg ho
  context := by
    have hid : e.institution.id = i.id := by
      rw [h.institution]
      rfl
    have hqueued : (e.conclude o ctx').2 = _ := schedule_eq ctx' e.institution.id o
    rw [hqueued, hid, hctx]
    rfl

/-- An episode given up has gone through its stages all the same. -/
theorem concluded_of_giveUp {r : Episode × Context} (h : e.giveUp i ctx = .ok r)
    (hstages : Through stages (opening i shortfall) e)
    (hcourse : stages ++ [.flaggedForLiquidation] ∈ p.courses) : Concluded p i ctx r.1 r.2 := by
  simp only [giveUp, bind_eq_ok, pure_eq_ok] at h
  obtain ⟨filed, hfiled, rfl⟩ := h
  have hblank := through_fileClaims hfiled
  have hall : Through stages (opening i shortfall) filed :=
    ⟨hblank.trace.trans ((List.append_nil _).trans hstages.trace), hblank.institution⟩
  exact concluded_of_through hall rfl (by decide) hcourse

end Episode

open Episode

variable {i : Institution} {shortfall : Decimal} {ctx : Context} {e e' : Episode}
  {r : Episode × Context}

/-! ### Bail-in -/

namespace Bailin

theorem through_cancelSharesAtCost {price : Decimal} (h : cancelSharesAtCost e price = .ok e') :
    Through [.stocksTerminated] e e' := by
  simp only [cancelSharesAtCost, bind_eq_ok, pure_eq_ok] at h
  obtain ⟨gone, hgone, removed, hremoved, rfl⟩ := h
  have hself : Through [] gone removed := by
    cases hheld : e.shares.holders.get? e.institution.agentId with
    | none =>
        rw [hheld] at hremoved
        exact pure_eq_ok.mp hremoved ▸ .refl gone
    | some quantity =>
        simp only [hheld, removeSelfHeld, bind_eq_ok, pure_eq_ok] at hremoved
        obtain ⟨_, -, assets, -, _, -, _, -, rfl⟩ := hremoved
        exact .aside rfl rfl
  exact ((through_cancelShares hgone).trans hself).reach .stocksTerminated

theorem through_compensateAll {before : Institution} {base : Decimal}
    {lost : List (AgentId × Decimal)} (h : compensateAll before base lost e ctx = .ok r) :
    ∃ handed price, Through [.sharesIssued] e handed ∧ handed.sharePrice base = .ok price ∧
      r = (handed.publishPrice price ctx).1.conclude .resolved
        (handed.publishPrice price ctx).2 := by
  simp only [compensateAll, bind_eq_ok, pure_eq_ok] at h
  obtain ⟨⟨recorded, writeDowns⟩, hrecord, total, -, handed, hfold, price, hprice, rfl⟩ := h
  refine ⟨handed.reach .sharesIssued, price, ?_, hprice, rfl⟩
  have hrecorded : Through [] e recorded := by
    refine foldlM_related (R := fun b b' => Through [] b.1 b'.1) (fun _ => .refl _) .trans hrecord
      fun loss _ state state' hstep => ?_
    simp only [recordWriteDown, bind_eq_ok, pure_eq_ok] at hstep
    obtain ⟨down, hclaim, _, -, rfl⟩ := hstep
    exact through_writeDownClaim hclaim
  have hhanded := foldlM_related GivesShares.refl .trans hfold fun _ _ _ _ =>
    givesShares_compensate
  exact (hrecorded.trans hhanded.through).reach .sharesIssued

/-- The stages up to where it shows whether the creditors can cover the shortfall. -/
theorem Course.Of.through {c : Course} (h : c.Of i shortfall ctx) :
    Through [.start, .stocksTerminated, .loansWrittenDown, .depositsWrittenDown]
      (opening i shortfall) c.depositsDown := by
  obtain ⟨filed, hfiled, hcancel⟩ := h.cancelling
  obtain ⟨l1, _, _, -, -, -, he1⟩ := writeDownLoans_eq_ok h.loans
  obtain ⟨l2, _, _, -, -, -, he2⟩ := writeDownDeposits_eq_ok h.deposits
  have hcancelled := ((through_fileClaims hfiled).reach .start).trans
    (through_cancelSharesAtCost hcancel)
  have hdown : Through [.loansWrittenDown, .depositsWrittenDown] c.cancelled c.depositsDown := by
    rw [he2, he1]
    exact ⟨List.append_assoc _ _ _, rfl⟩
  exact hcancelled.trans hdown

theorem lifeCycle_of_run (h : run i shortfall ctx = .ok r) : LifeCycle .bailin i ctx r.1 r.2 := by
  rcases run_cases h with ⟨-, rfl⟩ | ⟨c, hc, hend⟩
  · exact Or.inl (idle_compliant i ctx)
  · have hall := hc.through
    refine Or.inr ?_
    rcases hend with ⟨-, hr⟩ | ⟨-, hr⟩
    · exact concluded_of_giveUp hr hall (by decide)
    · obtain ⟨handed, price, hhanded, -, rfl⟩ := through_compensateAll hr
      exact concluded_of_through (hall.trans (hhanded.adjust rfl rfl)) rfl
        (by decide) (by decide)

end Bailin

/-! ### Bail-out -/

theorem Bailout.lifeCycle_of_run (h : Bailout.run i shortfall ctx = .ok r) :
    LifeCycle .bailout i ctx r.1 r.2 := by
  rcases Bailout.run_course h with ⟨-, rfl⟩ | ⟨-, base, filed, cancelled, -, hfiled, hcancel, h⟩
  · exact Or.inl (idle_compliant i ctx)
  · have hcancelled := (((through_fileClaims hfiled).reach .start).trans
      (through_cancelShares hcancel)).reach .stocksTerminated
    refine Or.inr ?_
    rcases h with ⟨-, h⟩ |
      ⟨government, paid, injected, allotted, newPrice, -, hinject, hallot, -, rfl⟩
    · exact concluded_of_giveUp h hcancelled (by decide)
    · have hinjected :
        Through [.governmentFunded] (cancelled.reach .stocksTerminated) injected := by
        simp only [Bailout.inject, bind_eq_ok, pure_eq_ok] at hinject
        obtain ⟨assets, -, rfl⟩ := hinject
        exact ⟨rfl, rfl⟩
      have hallotted := (givesShares_allot hallot).through.reach .sharesIssued
      have hall := hcancelled.trans (hinjected.trans hallotted)
      exact concluded_of_through (hall.adjust rfl rfl) rfl (by decide)
        (by decide)

/-! ### Debt-for-equity swap -/

namespace DebtEquitySwap

theorem through_repay (h : repay e = .ok e') : Through [.cashCompensated] e e' := by
  simp only [repay, bind_eq_ok, pure_eq_ok] at h
  obtain ⟨⟨paid, sum⟩, hpaid, assets, -, rfl⟩ := h
  have hlenders : Through [] (e.withLiabilities e.liabilities.withoutLoans) paid := by
    refine foldlM_related (R := fun b b' => Through [] b.1 b'.1) (fun _ => .refl _) .trans hpaid
      fun loan _ state state' hstep => ?_
    obtain ⟨hout, hkept, -⟩ := payLender_paysOut hstep
    exact .aside hout.trace (by rw [hkept])
  have hstart : Through [] e (e.withLiabilities e.liabilities.withoutLoans) := .aside rfl rfl
  refine Through.reach ((hstart.trans hlenders).adjust ?_ ?_) .cashCompensated
  · rfl
  · rfl

theorem through_exchange {totalLoans : Decimal} (h : exchange e totalLoans ctx = .ok r) :
    Through [.loansWrittenDown, .stocksTerminated, .sharesIssued] e r.1 ∧
      r.2 = { ctx with book := r.2.book, government := r.2.government } := by
  obtain ⟨count, cancelled, price, exchanged, -, hcancel, -, hfold, rfl⟩ := exchange_eq_ok h
  refine ⟨?_, rfl⟩
  have hforgiven : Through [.loansWrittenDown] e (forgiven e totalLoans) := ⟨rfl, rfl⟩
  have hcancelled : Through [.stocksTerminated] (forgiven e totalLoans)
      ((cancelled.reach .stocksTerminated).publishPrice price ctx).1 :=
    ((through_cancelShares hcancel).reach .stocksTerminated).trans (.aside rfl rfl)
  have hexchanged : Through [.sharesIssued]
      ((cancelled.reach .stocksTerminated).publishPrice price ctx).1
      (exchanged.reach .sharesIssued) :=
    (givesShares_exchangeLoans hfold).through.reach .sharesIssued
  exact hforgiven.trans (hcancelled.trans hexchanged)

theorem lifeCycle_of_run (h : run i shortfall ctx = .ok r) :
    LifeCycle .debtEquitySwap i ctx r.1 r.2 := by
  simp only [run, bind_eq_ok] at h
  obtain ⟨totalLoans, -, equity, -, h⟩ := h
  split_ifs at h
  · exact Or.inl (pure_eq_ok.mp h ▸ idle_compliant i ctx)
  · simp only [bind_eq_ok] at h
    obtain ⟨filed, hfiled, withoutLoans, -, h⟩ := h
    have hopened := (through_fileClaims hfiled).reach .start
    refine Or.inr ?_
    split_ifs at h
    · exact concluded_of_giveUp h hopened (by decide)
    · simp only [bind_eq_ok, pure_eq_ok] at h
      obtain ⟨e, hrepay, rfl⟩ := h
      have hrepaid := hopened.trans (through_repay hrepay)
      exact concluded_of_through (hrepaid.adjust rfl rfl) rfl (by decide)
        (by decide)
    · simp only [bind_eq_ok, pure_eq_ok] at h
      obtain ⟨⟨e, ctx'⟩, hexchange, rfl⟩ := h
      obtain ⟨hthrough, hctx⟩ := through_exchange hexchange
      have hexchanged := hopened.trans hthrough
      exact concluded_of_through (hexchanged.adjust rfl rfl)
        hctx (by decide) (by decide)

end DebtEquitySwap

/-! ### Asset threshold -/

namespace AssetThreshold

theorem through_payCreditor {available totalDebt : Decimal} {state state' : Episode × Decimal}
    {owed : AgentId × Owed} (h : payCreditor available totalDebt state owed = .ok state') :
    Through [] state.1 state'.1 := by
  simp only [payCreditor, bind_eq_ok] at h
  obtain ⟨amount, -, h⟩ := h
  split_ifs at h
  · exact pure_eq_ok.mp h ▸ .refl _
  · simp only [bind_eq_ok, pure_eq_ok] at h
    obtain ⟨liabilities, -, e, hclaim, paid, -, rfl⟩ := h
    have hbooks : Through [] state.1 (state.1.withLiabilities liabilities) := .aside rfl rfl
    exact (hbooks.trans (through_writeDownClaim hclaim)).adjust rfl rfl

theorem through_compensateInCash {cash : CashRule} {totalDebt : Decimal}
    (h : compensateInCash e cash totalDebt = .ok e') : Through [.cashCompensated] e e' := by
  simp only [compensateInCash, bind_eq_ok, pure_eq_ok] at h
  obtain ⟨spendable, -, ⟨paid, sum⟩, hpaid, assets, -, rfl⟩ := h
  have hcreditors : Through [] e paid := by
    unfold payCreditors at hpaid
    split_ifs at hpaid
    · exact foldlM_related (R := fun b b' => Through [] b.1 b'.1) (fun _ => .refl _) .trans hpaid
        fun _ _ _ _ => through_payCreditor
    · obtain ⟨rfl, -⟩ := Prod.mk.inj (Except.ok.inj hpaid)
      exact .refl e
  refine Through.reach (hcreditors.adjust ?_ ?_) .cashCompensated
  · rfl
  · rfl

theorem through_handOutShares {debts holdings : List (AgentId × Decimal)}
    {remainingDebt value price : Decimal}
    (h : handOutShares e debts holdings remainingDebt value price ctx = .ok e') :
    Through [.stockRedistributed] e e' := by
  obtain ⟨given, settled, hgiven, rfl⟩ := handOutShares_eq_ok h
  have hcleared : Through [] e
      (withoutDebts { given with totals := { given.totals with claimsSettled := settled } }) :=
    hgiven.through.adjust rfl rfl
  exact hcleared.reach .stockRedistributed

theorem through_handOverFirm {debts : List (AgentId × Decimal)} {remainingDebt : Decimal}
    (h : handOverFirm e debts remainingDebt ctx = .ok (e', ctx')) :
    Through [] e e' ∧ ctx' = { ctx with book := ctx'.book, government := ctx'.government } := by
  obtain ⟨count, cancelled, equity, price, hands⟩ := handsOver_of_handOverFirm h
  have hcancelled : Through [] e ((withoutDebts cancelled).publishPrice price ctx).1 :=
    (through_cancelShares hands.cancelling).adjust rfl rfl
  refine ⟨hcancelled.trans hands.gives.through, ?_⟩
  rw [hands.context]
  rfl

theorem courses_eq (cash : CashRule) :
    Policy.courses (.assetThreshold cash) = Policy.courses (.assetThreshold .allCash) := rfl

theorem concluded_of_settleRest {debts : List (AgentId × Decimal)} {remainingDebt : Decimal}
    {cash : CashRule} (hpaid : Through [.start, .cashCompensated] (opening i shortfall) e)
    (h : settleRest e debts remainingDebt ctx = .ok r) :
    Concluded (.assetThreshold cash) i ctx r.1 r.2 := by
  rcases settleRest_cases h with ⟨value, given, -, hgiven, rfl⟩ | ⟨handed, ctx', hhanded, rfl⟩
  · refine concluded_of_through (hpaid.trans (through_handOutShares hgiven)) rfl (by decide) ?_
    rw [courses_eq]
    decide
  · obtain ⟨hthrough, hctx⟩ := through_handOverFirm hhanded
    refine concluded_of_through (hpaid.trans hthrough) hctx (by decide) ?_
    rw [courses_eq]
    decide

theorem lifeCycle_of_run {cash : CashRule} (h : run cash i shortfall ctx = .ok r) :
    LifeCycle (.assetThreshold cash) i ctx r.1 r.2 := by
  rcases run_cases h with rfl | ⟨c, hc, hend⟩
  · exact Or.inl (idle_compliant i ctx)
  · obtain ⟨filed, hfiled, hcash⟩ := hc.paying
    have hpaid := ((through_fileClaims hfiled).reach .start).trans (through_compensateInCash hcash)
    refine Or.inr ?_
    rcases hend with ⟨-, rfl⟩ | ⟨-, hr⟩
    · refine concluded_of_through (hpaid.adjust rfl rfl) rfl (by decide) ?_
      rw [courses_eq]
      decide
    · exact concluded_of_settleRest hpaid hr

end AssetThreshold

/-! ### Any policy, and any number of calls -/

theorem Policy.lifeCycle_of_flag (h : Policy.flag i shortfall ctx = .ok r) :
    LifeCycle .liquidate i ctx r.1 r.2 := by
  rcases Policy.flag_cases h with ⟨-, rfl⟩ | ⟨-, filed, hfiled, rfl⟩
  · exact Or.inl (idle_compliant i ctx)
  · exact Or.inr (concluded_of_through ((through_fileClaims hfiled).reach .start) rfl (by decide)
      (by decide))

theorem Policy.lifeCycle_of_resolve {p : Policy} (h : p.resolve i shortfall ctx = .ok r) :
    LifeCycle p i ctx r.1 r.2 := by
  obtain ⟨-, h⟩ := Policy.resolve_eq_ok.mp h
  cases p with
  | bailin => exact Bailin.lifeCycle_of_run h
  | assetThreshold cash => exact AssetThreshold.lifeCycle_of_run h
  | bailout => exact Bailout.lifeCycle_of_run h
  | debtEquitySwap => exact DebtEquitySwap.lifeCycle_of_run h
  | liquidate => exact Policy.lifeCycle_of_flag h

/-- A policy to be run on an institution. -/
structure Call where
  policy : Policy
  institution : Institution
  shortfall : Decimal

/-- A call that gave an episode, with the context it found and the one it left. -/
structure Answered where
  call : Call
  found : Context
  episode : Episode
  left : Context

namespace Context

/-- The episodes of calls made one after the other on one context.  A call that fails gives none,
and the next one finds the context as it was before. -/
def answers (ctx : Context) : List Call → List Answered
  | [] => []
  | c :: rest =>
    match c.policy.resolve c.institution c.shortfall ctx with
    | .ok (e, ctx') => ⟨c, ctx, e, ctx'⟩ :: ctx'.answers rest
    | .error _ => ctx.answers rest

/-- The context that calls made one after the other leave. -/
def after (ctx : Context) : List Call → Context
  | [] => ctx
  | c :: rest =>
    match c.policy.resolve c.institution c.shortfall ctx with
    | .ok (_, ctx') => ctx'.after rest
    | .error _ => ctx.after rest

/-- The queue hears of an episode once, and only if the institution is to be liquidated. -/
theorem queue_of_lifeCycle {p : Policy} {before : Institution} {ctx ctx' : Context} {e : Episode}
    (h : LifeCycle p before ctx e ctx') :
    ctx'.queue = ctx.queue ++ e.notices before.id ∧ ctx'.now = ctx.now := by
  rcases h with hidle | hend
  · have hnone : e.notices before.id = [] := by
      unfold notices
      rw [hidle.outcome]
      rfl
    rw [hidle.context, hnone, List.append_nil]
    exact ⟨rfl, rfl⟩
  · rw [hend.context]
    exact ⟨rfl, rfl⟩

/-- **Every episode of any number of calls on one context lives by its policy's life cycle, and
the queue hears of each institution flagged or liquidated, once and in order.** -/
theorem lifeCycle_of_calls (ctx : Context) (calls : List Call) :
    (∀ a ∈ ctx.answers calls,
      LifeCycle a.call.policy a.call.institution a.found a.episode a.left ∧
        a.found.now = ctx.now) ∧
    (ctx.after calls).queue
      = ctx.queue ++ (ctx.answers calls).flatMap fun a =>
        a.episode.notices a.call.institution.id := by
  induction calls generalizing ctx with
  | nil => exact ⟨List.forall_mem_nil _, (List.append_nil _).symm⟩
  | cons c rest ih =>
      unfold answers after
      cases hcall : c.policy.resolve c.institution c.shortfall ctx with
      | error _ => exact ih ctx
      | ok r =>
          obtain ⟨e, ctx'⟩ := r
          obtain ⟨hrest, hqueue⟩ := ih ctx'
          have hcycle := Policy.lifeCycle_of_resolve hcall
          obtain ⟨hheard, hnow⟩ := queue_of_lifeCycle hcycle
          refine ⟨List.forall_mem_cons.mpr ⟨⟨hcycle, rfl⟩, fun a ha => ?_⟩, ?_⟩
          · exact ⟨(hrest a ha).1, (hrest a ha).2.trans hnow⟩
          · rw [hqueue, hheard, List.append_assoc]
            rfl

/-- A bank that cannot be saved waits for its liquidation while the next call resolves it. -/
theorem lifeCycle_of_calls_sampleBank :
    let calls := [⟨.bailin, sampleBank, 2000.0⟩, ⟨.bailin, sampleBank, 100.0⟩]
    (∃ a ∈ sampleContext.answers calls, a.episode.outcome = .resolved ∧
      LifeCycle .bailin sampleBank a.found a.episode a.left) ∧
    (sampleContext.after calls).queue = [("north", .flaggedForLiquidation)] := by
  intro calls
  obtain ⟨a, ha, hcall, hout⟩ : ∃ a ∈ sampleContext.answers calls,
      a.call = ⟨.bailin, sampleBank, 100.0⟩ ∧ a.episode.outcome = .resolved :=
    ⟨_, List.mem_cons_of_mem _ (List.mem_cons_self ..), rfl, rfl⟩
  obtain ⟨hcycles, hqueue⟩ := lifeCycle_of_calls sampleContext calls
  have hcycle := (hcycles a ha).1
  rw [hcall] at hcycle
  exact ⟨⟨a, ha, hout, hcycle⟩, hqueue⟩

end Context

end Insolvency
