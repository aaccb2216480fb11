/-
What an episode finds in its context and what it leaves there.

Episodes share a context: the prices, the queue, the terms for intermediaries.  An episode
looks at one price in it, that of the institution it is about, and what it leaves is a new
price of this institution and a notice to the queue (`Context.heed`).  Only the bail-out does
more, because it asks the government.

So episodes of different institutions do not see each other, and nothing hangs on which comes
first but the order of the queue (`resolve_comm`).
-/
import Insolvency.Proofs.Episode.DebtAccounting
import Insolvency.Proofs.Episode.LifeCycle
import Insolvency.Proofs.Ledger.Agreement

namespace Insolvency

variable {i : Institution} {shortfall : Decimal} {ctx ctx' : Context} {e e' : Episode}

/-! ### What an episode leaves behind -/

/-- The context once the episode of an institution is over: its new price is listed, if it got
one, and the queue has heard of it. -/
def Context.heed (ctx : Context) (id : InstitutionId) (e : Episode) : Context :=
  { ctx with
    book := e.totals.newSharePrice.elim ctx.book (ctx.book.publish id)
    queue := ctx.queue ++ e.notices id }

namespace Episode

theorem GivesShares.newSharePrice (h : GivesShares e e') :
    e'.totals.newSharePrice = e.totals.newSharePrice := by
  rw [h.totals]

/-- The government is as it was, and so are the prices but for the one that the episode has
noted. -/
structure Publishes (id : InstitutionId) (ctx : Context) (e : Episode) (ctx' : Context) : Prop where
  book : ctx'.book = e.totals.newSharePrice.elim ctx.book (ctx.book.publish id)
  government : ctx'.government = ctx.government

section Publishes

variable {id : InstitutionId}

theorem publishes_none (h : e.totals.newSharePrice = none) : Publishes id ctx e ctx where
  book := by rw [h]; rfl
  government := rfl

theorem publishes_publishPrice (hid : e.institution.id = id) (price : Decimal) :
    Publishes id ctx (e.publishPrice price ctx).1 (e.publishPrice price ctx).2 := by
  subst hid
  exact ⟨rfl, rfl⟩

theorem Publishes.congr (h : Publishes id ctx e ctx')
    (hnote : e'.totals.newSharePrice = e.totals.newSharePrice) : Publishes id ctx e' ctx' where
  book := by rw [h.book, hnote]
  government := h.government

/-- The end of an episode notes nothing and publishes nothing. -/
theorem Publishes.conclude (h : Publishes id ctx e ctx') (o : Outcome) :
    Publishes id ctx (e.conclude o ctx').1 (e.conclude o ctx').2 := by
  have hqueued : (e.conclude o ctx').2 = _ := schedule_eq ctx' e.institution.id o
  rw [hqueued]
  exact ⟨h.book, h.government⟩

theorem publishes_giveUp {r : Episode × Context} (h : e.giveUp i ctx = .ok r) :
    Publishes id ctx r.1 r.2 := by
  have hflagged := flagged_of_giveUp h
  rw [hflagged.context]
  refine ⟨?_, rfl⟩
  rw [hflagged.totals]
  rfl

end Publishes

end Episode

open Episode

theorem Bailin.publishes_of_run {r : Episode × Context} (h : Bailin.run i shortfall ctx = .ok r) :
    Publishes i.id ctx r.1 r.2 := by
  rcases Bailin.run_cases h with ⟨-, rfl⟩ | ⟨c, hc, ⟨-, hr⟩ | ⟨-, hr⟩⟩
  · exact publishes_none rfl
  · exact publishes_giveUp hr
  · obtain ⟨handed, price, hhanded, -, rfl⟩ := Bailin.through_compensateAll hr
    have hid : handed.institution.id = i.id := by
      rw [(hc.through.trans hhanded).institution]
      rfl
    exact (publishes_publishPrice hid price).conclude .resolved

namespace DebtEquitySwap

theorem newSharePrice_repay (h : repay e = .ok e') :
    e'.totals.newSharePrice = e.totals.newSharePrice := by
  simp only [repay, bind_eq_ok, pure_eq_ok] at h
  obtain ⟨⟨paid, sum⟩, hpaid, assets, -, rfl⟩ := h
  refine foldlM_induction (P := fun state : Episode × Decimal =>
    state.1.totals.newSharePrice = e.totals.newSharePrice) hpaid rfl
    fun loan _ state state' hstate hstep => ?_
  simp only [payLender, bind_eq_ok, pure_eq_ok] at hstep
  obtain ⟨down, hdown, sum', -, rfl⟩ := hstep
  have hkept := totals_writeDownClaim hdown
  exact (congrArg Totals.newSharePrice hkept).trans hstate

/-- The price is published before the lenders get their shares, and they get no other. -/
theorem publishes_exchange {totalLoans : Decimal} (h : exchange e totalLoans ctx = .ok (e', ctx')) :
    Publishes e.institution.id ctx e' ctx' := by
  obtain ⟨count, cancelled, price, exchanged, -, hcancel, -, hfold, hr⟩ := exchange_eq_ok h
  obtain ⟨rfl, rfl⟩ := Prod.mk.inj hr
  have hid : (cancelled.reach .stocksTerminated).institution.id = e.institution.id := by
    show cancelled.institution.id = _
    rw [(through_cancelShares hcancel).institution]
    rfl
  have hgiven := givesShares_exchangeLoans hfold
  exact (publishes_publishPrice hid price).congr hgiven.newSharePrice

theorem publishes_of_run {r : Episode × Context} (h : run i shortfall ctx = .ok r) :
    Publishes i.id ctx r.1 r.2 := by
  rcases run_cases h with rfl | ⟨e, hr⟩ | hsettled
  · exact publishes_none rfl
  · exact publishes_giveUp hr
  · cases hsettled with
    | @paid opened e totalLoans hopened _ _ hrepay =>
        have hnote : (covered e).totals.newSharePrice = none := by
          show e.totals.newSharePrice = none
          rw [newSharePrice_repay hrepay, hopened.totals]
          rfl
        exact (publishes_none hnote).conclude .resolved
    | @swapped opened e ctx'' totalLoans hopened _ hexchange =>
        have hpublished : Publishes _ ctx (covered e) ctx'' :=
          (publishes_exchange hexchange).congr rfl
        rw [hopened.institution] at hpublished
        exact hpublished.conclude .resolved

end DebtEquitySwap

namespace AssetThreshold

theorem newSharePrice_payCreditors {available totalDebt paid : Decimal}
    (h : payCreditors e available totalDebt = .ok (e', paid)) :
    e'.totals.newSharePrice = e.totals.newSharePrice := by
  unfold payCreditors at h
  split_ifs at h
  · refine foldlM_induction (P := fun state : Episode × Decimal =>
      state.1.totals.newSharePrice = e.totals.newSharePrice) h rfl
      fun owed _ state state' hstate hstep => ?_
    simp only [payCreditor, bind_eq_ok] at hstep
    obtain ⟨amount, -, hstep⟩ := hstep
    split_ifs at hstep
    · exact pure_eq_ok.mp hstep ▸ hstate
    · simp only [bind_eq_ok, pure_eq_ok] at hstep
      obtain ⟨liabilities, -, down, hdown, sum, -, rfl⟩ := hstep
      have hkept := totals_writeDownClaim hdown
      exact (congrArg Totals.newSharePrice hkept).trans hstate
  · obtain ⟨rfl, -⟩ := Prod.mk.inj (Except.ok.inj h)
    rfl

theorem Course.Of.newSharePrice {cash : CashRule} {c : Course} (h : c.Of cash i shortfall) :
    c.paid.totals.newSharePrice = none := by
  obtain ⟨filed, hfiled, hpaid⟩ := h.paying
  obtain ⟨claims, -, rfl⟩ := Episode.fileClaims_eq_ok.mp hfiled
  simp only [compensateInCash, bind_eq_ok, pure_eq_ok] at hpaid
  obtain ⟨spendable, -, ⟨e1, paid⟩, hpaid, assets, -, hend⟩ := hpaid
  rw [← hend]
  show e1.totals.newSharePrice = none
  rw [newSharePrice_payCreditors hpaid]
  rfl

theorem newSharePrice_handOutShares {debts holdings : List (AgentId × Decimal)}
    {remainingDebt value price : Decimal}
    (h : handOutShares e debts holdings remainingDebt value price ctx = .ok e') :
    e'.totals.newSharePrice = e.totals.newSharePrice := by
  obtain ⟨given, settled, hgiven, rfl⟩ := handOutShares_eq_ok h
  exact hgiven.newSharePrice

theorem publishes_handOverFirm {debts : List (AgentId × Decimal)} {remainingDebt : Decimal}
    (h : handOverFirm e debts remainingDebt ctx = .ok (e', ctx')) :
    Publishes e.institution.id ctx e' ctx' := by
  obtain ⟨count, cancelled, equity, price, hands⟩ := handsOver_of_handOverFirm h
  have hid : (withoutDebts cancelled).institution.id = e.institution.id := by
    show cancelled.institution.id = _
    rw [(through_cancelShares hands.cancelling).institution]
  rw [hands.context]
  exact (publishes_publishPrice hid price).congr hands.gives.newSharePrice

theorem publishes_of_run {cash : CashRule} {r : Episode × Context}
    (h : run cash i shortfall ctx = .ok r) : Publishes i.id ctx r.1 r.2 := by
  rcases run_cases h with rfl | ⟨c, hc, ⟨-, rfl⟩ | ⟨-, hrest⟩⟩
  · exact publishes_none rfl
  · have hpaid : Publishes i.id ctx (withoutDebts c.paid) ctx := publishes_none hc.newSharePrice
    exact hpaid.conclude .resolved
  · rcases settleRest_cases hrest with ⟨value, handed, -, hhand, rfl⟩ | ⟨handed, ctx'', hhand, rfl⟩
    · have hnote := (newSharePrice_handOutShares hhand).trans hc.newSharePrice
      exact (publishes_none hnote).conclude .resolved
    · have hpublished := publishes_handOverFirm hhand
      have hid : c.paid.institution.id = i.id := hc.sameShares.id
      rw [hid] at hpublished
      exact hpublished.conclude .liquidated

end AssetThreshold

theorem Policy.publishes_of_flag {r : Episode × Context}
    (h : Policy.flag i shortfall ctx = .ok r) : Publishes i.id ctx r.1 r.2 := by
  rcases Policy.flag_cases h with ⟨-, rfl⟩ | ⟨-, filed, hfiled, rfl⟩
  · exact publishes_none rfl
  · obtain ⟨claims, -, rfl⟩ := Episode.fileClaims_eq_ok.mp hfiled
    have hblank : Publishes i.id ctx ({ opening i shortfall with claims }.reach .start) ctx :=
      publishes_none rfl
    exact hblank.conclude .flaggedForLiquidation

/-- **Unless the government pays, an episode leaves a price and a notice behind and nothing
else.** -/
theorem Policy.heed_of_resolve {p : Policy} (hp : p ≠ .bailout)
    (h : p.resolve i shortfall ctx = .ok (e, ctx')) : ctx' = ctx.heed i.id e := by
  obtain ⟨-, hrun⟩ := resolve_eq_ok.mp h
  have hpublishes : Publishes i.id ctx e ctx' := by
    cases p with
    | bailin => exact Bailin.publishes_of_run hrun
    | assetThreshold cash => exact AssetThreshold.publishes_of_run hrun
    | bailout => exact absurd rfl hp
    | debtEquitySwap => exact DebtEquitySwap.publishes_of_run hrun
    | liquidate => exact Policy.publishes_of_flag hrun
  have hlife : LifeCycle p i ctx e ctx' := Policy.lifeCycle_of_resolve h
  have hcontext : ctx' = { ctx with
      book := ctx'.book, government := ctx'.government, queue := ctx'.queue } := by
    rcases hlife with hidle | hdone
    · rw [hidle.context]
    · rw [hdone.context]
  have hqueue : ctx'.queue = ctx.queue ++ e.notices i.id := (Context.queue_of_lifeCycle hlife).1
  rw [hcontext, hpublishes.book, hpublishes.government, hqueue]
  rfl

/-! ### What an episode looks at -/

/-- The context amid other prices, with another queue and another government. -/
def Context.amid (ctx : Context) (book : PriceBook) (queue : List (InstitutionId × Outcome))
    (government : Option Government) : Context :=
  { ctx with book, queue, government }

/-- The reports are the same. -/
def SameReport (r r' : Episode × Context) : Prop := r'.1 = r.1

/-- The reports so far are the same, and the time is. -/
def SameSoFar (r r' : Episode × Context) : Prop := r'.1 = r.1 ∧ r'.2.now = r.2.now

/-- Of the context the report shows the time alone. -/
theorem SameSoFar.conclude {r r' : Episode × Context} (h : SameSoFar r r') (o : Outcome) :
    SameReport (r.1.conclude o r.2) (r'.1.conclude o r'.2) := by
  unfold SameReport Episode.conclude
  rw [h.1, h.2]

section Amid

variable {book : PriceBook} {queue : List (InstitutionId × Outcome)}
  {government : Option Government}

theorem parallel_giveUp (e : Episode) (before : Institution) (ctx : Context) :
    Parallel SameReport (e.giveUp before ctx)
      (e.giveUp before (ctx.amid book queue government)) := by
  refine parallel_bind rfl fun filed _ => ?_
  exact .ok rfl

theorem Bailin.parallel_compensateAll (before : Institution) (base : Decimal)
    (lost : List (AgentId × Decimal)) (e : Episode) (ctx : Context) :
    Parallel SameReport (Bailin.compensateAll before base lost e ctx)
      (Bailin.compensateAll before base lost e (ctx.amid book queue government)) := by
  refine parallel_bind rfl fun recorded _ => ?_
  refine parallel_bind rfl fun total _ => ?_
  refine parallel_bind rfl fun handed _ => ?_
  refine parallel_bind rfl fun price _ => ?_
  exact .ok rfl

theorem Bailin.parallel_run (hprice : book.value i.id = ctx.book.value i.id) :
    Parallel SameReport (Bailin.run i shortfall ctx)
      (Bailin.run i shortfall (ctx.amid book queue government)) := by
  unfold Bailin.run
  split_ifs
  · exact .ok rfl
  · refine parallel_bind rfl fun base _ => ?_
    refine parallel_bind rfl fun filed _ => ?_
    refine parallel_bind (congrArg (cancelSharesAtCost _) hprice.symm) fun cancelled _ => ?_
    refine parallel_bind rfl fun loans _ => ?_
    refine parallel_bind rfl fun deposits _ => ?_
    obtain ⟨down, lost⟩ := deposits
    dsimp only
    split_ifs
    · exact parallel_giveUp down i ctx
    · exact parallel_compensateAll i base _ down ctx

namespace DebtEquitySwap

theorem parallel_exchange (e : Episode) (totalLoans : Decimal) (ctx : Context)
    (hprice : book.value e.institution.id = ctx.book.value e.institution.id) :
    Parallel SameSoFar (exchange e totalLoans ctx)
      (exchange e totalLoans (ctx.amid book queue government)) := by
  refine parallel_bind rfl fun count _ => ?_
  refine parallel_bind (congrArg (Episode.cancelShares _) hprice.symm) fun cancelled _ => ?_
  refine parallel_bind rfl fun equity _ => ?_
  refine parallel_bind rfl fun price _ => ?_
  refine parallel_bind rfl fun exchanged _ => ?_
  exact .ok ⟨rfl, rfl⟩

theorem parallel_run (hprice : book.value i.id = ctx.book.value i.id) :
    Parallel SameReport (run i shortfall ctx)
      (run i shortfall (ctx.amid book queue government)) := by
  refine parallel_bind rfl fun totalLoans _ => ?_
  refine parallel_bind rfl fun equity _ => ?_
  split_ifs
  · exact .ok rfl
  · refine parallel_bind rfl fun filed hfiled => ?_
    have hopened : Opened i shortfall (filed.reach .start) := ⟨filed, hfiled, rfl⟩
    refine parallel_bind rfl fun solvent _ => ?_
    split_ifs
    · exact parallel_giveUp _ i ctx
    · refine parallel_bind rfl fun repaid _ => ?_
      exact .ok rfl
    · rw [← hopened.institution] at hprice
      refine (parallel_exchange _ totalLoans ctx hprice).bind fun r r' hsame => ?_
      have hcovered : SameSoFar (covered r.1, r.2) (covered r'.1, r'.2) :=
        ⟨congrArg covered hsame.1, hsame.2⟩
      exact .ok (hcovered.conclude .resolved)

end DebtEquitySwap

namespace AssetThreshold

theorem parallel_handOverFirm (e : Episode) (debts : List (AgentId × Decimal))
    (remainingDebt : Decimal) (ctx : Context)
    (hprice : book.value e.institution.id = ctx.book.value e.institution.id) :
    Parallel SameSoFar (handOverFirm e debts remainingDebt ctx)
      (handOverFirm e debts remainingDebt (ctx.amid book queue government)) := by
  refine parallel_bind rfl fun count _ => ?_
  refine parallel_bind (congrArg (Episode.cancelShares _) hprice.symm) fun cancelled _ => ?_
  refine parallel_bind rfl fun equity _ => ?_
  refine parallel_bind rfl fun price _ => ?_
  refine parallel_bind rfl fun handed _ => ?_
  exact .ok ⟨rfl, rfl⟩

theorem parallel_settleRest (e : Episode) (debts : List (AgentId × Decimal))
    (remainingDebt : Decimal) (ctx : Context)
    (hprice : book.value e.institution.id = ctx.book.value e.institution.id) :
    Parallel SameReport (settleRest e debts remainingDebt ctx)
      (settleRest e debts remainingDebt (ctx.amid book queue government)) := by
  refine parallel_bind rfl fun held _ => ?_
  refine parallel_bind (by rw [← hprice]; rfl) fun value _ => ?_
  split_ifs
  · refine parallel_bind (by rw [← hprice]; rfl) fun handed _ => ?_
    exact .ok rfl
  · refine (parallel_handOverFirm e debts remainingDebt ctx hprice).bind fun r r' hsame => ?_
    exact .ok (hsame.conclude .liquidated)

theorem parallel_run (cash : CashRule) (hprice : book.value i.id = ctx.book.value i.id) :
    Parallel SameReport (run cash i shortfall ctx)
      (run cash i shortfall (ctx.amid book queue government)) := by
  refine parallel_bind rfl fun totalDebt _ => ?_
  split_ifs
  · exact .ok rfl
  · refine parallel_bind rfl fun filed hfiled => ?_
    refine parallel_bind rfl fun paid hpaid => ?_
    refine parallel_bind rfl fun debts _ => ?_
    refine parallel_bind rfl fun remainingDebt _ => ?_
    split_ifs
    · exact .ok rfl
    · have hid : paid.institution.id = i.id := (cashPaid_of_compensateInCash hpaid).same.id.trans
        (sameShares_fileClaims hfiled).id
      rw [← hid] at hprice
      exact parallel_settleRest paid debts remainingDebt ctx hprice

end AssetThreshold

theorem Policy.parallel_flag : Parallel SameReport (Policy.flag i shortfall ctx)
    (Policy.flag i shortfall (ctx.amid book queue government)) := by
  unfold Policy.flag
  split_ifs
  · exact .ok rfl
  · refine parallel_bind rfl fun filed _ => ?_
    exact .ok rfl

/-- **Unless it asks the government, an episode looks at no price but that of its own
institution.** -/
theorem Policy.parallel_resolve {p : Policy} (hp : p ≠ .bailout)
    (hprice : book.value i.id = ctx.book.value i.id) :
    Parallel SameReport (p.resolve i shortfall ctx)
      (p.resolve i shortfall (ctx.amid book queue government)) := by
  unfold Policy.resolve
  cases p.objection? i shortfall with
  | some error => exact .error error
  | none =>
      refine Parallel.lift ?_
      cases p with
      | bailin => exact Bailin.parallel_run hprice
      | assetThreshold cash => exact AssetThreshold.parallel_run cash hprice
      | bailout => exact absurd rfl hp
      | debtEquitySwap => exact DebtEquitySwap.parallel_run hprice
      | liquidate => exact Policy.parallel_flag

end Amid

/-! ### Two institutions -/

namespace PriceBook

theorem price?_publish_of_ne (b : PriceBook) {stock other : InstitutionId} (hne : other ≠ stock)
    (price : Decimal) : (b.publish stock price).price? other = b.price? other := by
  show (b.prices.insert stock price).get? other = b.prices.get? other
  rw [Table.get?_insert, if_neg hne]

theorem publish_comm (b : PriceBook) {stock other : InstitutionId} (hne : stock ≠ other)
    (price otherPrice : Decimal) : (b.publish stock price).publish other otherPrice
      = (b.publish other otherPrice).publish stock price :=
  congrArg PriceBook.mk (b.prices.insert_comm hne price otherPrice)

end PriceBook

namespace Context

/-- The context with ids for the intermediaries that one institution's episode spawns. -/
def spawning (ctx : Context) (newId : Nat → IntermediaryId) : Context := { ctx with newId }

theorem price?_heed_of_ne (ctx : Context) {id stock : InstitutionId} (hne : stock ≠ id)
    (e : Episode) : (ctx.heed id e).book.price? stock = ctx.book.price? stock := by
  unfold heed
  cases e.totals.newSharePrice with
  | none => rfl
  | some price => exact ctx.book.price?_publish_of_ne hne price

theorem book_heed_comm (ctx : Context) {a b : InstitutionId} (hne : a ≠ b) (e f : Episode) :
    ((ctx.heed a e).heed b f).book = ((ctx.heed b f).heed a e).book := by
  unfold heed
  cases e.totals.newSharePrice with
  | none => rfl
  | some price =>
      cases f.totals.newSharePrice with
      | none => rfl
      | some otherPrice => exact ctx.book.publish_comm hne price otherPrice

theorem queue_heed_perm (ctx : Context) (a b : InstitutionId) (e f : Episode) :
    ((ctx.heed a e).heed b f).queue.Perm ((ctx.heed b f).heed a e).queue := by
  show ((ctx.queue ++ e.notices a) ++ f.notices b).Perm ((ctx.queue ++ f.notices b) ++ e.notices a)
  rw [List.append_assoc, List.append_assoc]
  exact List.perm_append_comm.append_left ctx.queue

end Context

namespace Policy

/-- After the episode of another institution the report is the same. -/
theorem resolve_after {p : Policy} {newId : Nat → IntermediaryId} {id : InstitutionId}
    (hp : p ≠ .bailout) (hne : i.id ≠ id) (other : Episode)
    (h : p.resolve i shortfall (ctx.spawning newId) = .ok (e, ctx')) :
    p.resolve i shortfall ((ctx.heed id other).spawning newId)
      = .ok (e, ((ctx.heed id other).spawning newId).heed i.id e) := by
  have hprice : (ctx.heed id other).book.value i.id = (ctx.spawning newId).book.value i.id := by
    unfold PriceBook.value
    rw [ctx.price?_heed_of_ne hne]
    rfl
  have hboth : Parallel SameReport (p.resolve i shortfall (ctx.spawning newId))
      (p.resolve i shortfall ((ctx.heed id other).spawning newId)) := parallel_resolve hp hprice
  obtain ⟨⟨e', left⟩, hafter, hreport⟩ := hboth.exists_ok h
  obtain rfl : e' = e := hreport
  rw [hafter, heed_of_resolve hp hafter]

/-- **Episodes of different institutions commute**, as long as none asks the government.  If both
policies succeed on the same prices, queue and terms, each with ids of its own for intermediaries,
then they succeed one after the other in either order.  The reports are the same, the prices are in
the end, and the queue is but for its order.  Neither changes a price but that of its own
institution, nor the government. -/
theorem resolve_comm {p q : Policy} {i j : Institution} {due otherDue : Decimal}
    {ctx ctxA ctxB : Context} {newId otherNewId : Nat → IntermediaryId} {a b : Episode}
    (hne : i.id ≠ j.id) (hp : p ≠ .bailout) (hq : q ≠ .bailout)
    (ha : p.resolve i due (ctx.spawning newId) = .ok (a, ctxA))
    (hb : q.resolve j otherDue (ctx.spawning otherNewId) = .ok (b, ctxB)) :
    ∃ ctxAB ctxBA,
      q.resolve j otherDue (ctxA.spawning otherNewId) = .ok (b, ctxAB) ∧
      p.resolve i due (ctxB.spawning newId) = .ok (a, ctxBA) ∧
      ctxAB.book = ctxBA.book ∧ ctxAB.queue.Perm ctxBA.queue ∧
      (∀ stock, stock ≠ i.id → ctxA.book.price? stock = ctx.book.price? stock) ∧
      ctxA.government = ctx.government ∧ ctxAB.government = ctx.government := by
  obtain rfl := heed_of_resolve hp ha
  obtain rfl := heed_of_resolve hq hb
  have hsecond := resolve_after hq hne.symm a hb
  have hfirst := resolve_after hp hne b ha
  refine ⟨_, _, hsecond, hfirst, ?_, ?_, ?_, rfl, rfl⟩
  · exact ctx.book_heed_comm hne a b
  · exact ctx.queue_heed_perm i.id j.id a b
  · exact fun stock hstock => ctx.price?_heed_of_ne hstock a

/-- A firm beside the sample bank, with the books of the sample firm. -/
def otherFirm : Institution := { sampleFirm with id := "south" }

/-- The bank is bailed in, and the firm swaps its debt. -/
theorem resolve_comm_sampleBank : ∃ a ctxA b ctxB ctxAB ctxBA,
    sampleBank.id ≠ otherFirm.id ∧ bailin ≠ bailout ∧ debtEquitySwap ≠ bailout ∧
      bailin.resolve sampleBank 100.0 (sampleContext.spawning fun n => "north-" ++ toString n)
        = .ok (a, ctxA) ∧
      debtEquitySwap.resolve otherFirm 0 (sampleContext.spawning fun n => "south-" ++ toString n)
        = .ok (b, ctxB) ∧
      debtEquitySwap.resolve otherFirm 0 (ctxA.spawning fun n => "south-" ++ toString n)
        = .ok (b, ctxAB) ∧
      bailin.resolve sampleBank 100.0 (ctxB.spawning fun n => "north-" ++ toString n)
        = .ok (a, ctxBA) ∧
      ctxAB.book = ctxBA.book ∧ ctxAB.queue.Perm ctxBA.queue ∧
      (∀ stock, stock ≠ sampleBank.id →
        ctxA.book.price? stock = sampleContext.book.price? stock) ∧
      ctxA.government = sampleContext.government ∧ ctxAB.government = sampleContext.government := by
  obtain ⟨a, ctxA, ha⟩ : ∃ a ctxA, bailin.resolve sampleBank 100.0
      (sampleContext.spawning fun n => "north-" ++ toString n) = .ok (a, ctxA) := ⟨_, _, rfl⟩
  obtain ⟨b, ctxB, hb⟩ : ∃ b ctxB, debtEquitySwap.resolve otherFirm 0
      (sampleContext.spawning fun n => "south-" ++ toString n) = .ok (b, ctxB) := ⟨_, _, rfl⟩
  have hne : sampleBank.id ≠ otherFirm.id := by decide
  have hbailin : bailin ≠ bailout := by decide
  have hswap : debtEquitySwap ≠ bailout := by decide
  obtain ⟨ctxAB, ctxBA, hboth⟩ := resolve_comm hne hbailin hswap ha hb
  exact ⟨a, ctxA, b, ctxB, ctxAB, ctxBA, hne, hbailin, hswap, ha, hb, hboth⟩

end Policy

end Insolvency
