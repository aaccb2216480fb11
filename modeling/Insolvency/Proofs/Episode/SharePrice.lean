/-
The share prices that episodes publish.

Four policies split the equity of an institution into shares, and each works its price out in
its own place: from equity that is cut off at nothing before or after the division, or from
the assets once no debt is left.  Whatever the place, the books do not change between the
price and the end of the episode but for the shares.  So the price is what the equity of the
institution that is handed back makes over the shares that there were before, up to one
rounding.

An episode without a price leaves the book of prices alone, and one with a price lists it and
changes no other.  That is all that happens to the book, however many episodes share it.
-/
import Insolvency.Authority
import Insolvency.Proofs.Episode.Isolation
import Insolvency.Proofs.Episode.Overflow
import Insolvency.Proofs.Episode.RemainingShortfall
import Insolvency.Proofs.Shares.Reissue

namespace Insolvency

open Decimal

variable {i : Institution} {shortfall : Decimal} {ctx ctx' : Context} {e e' : Episode}

/-! ### One division -/

/-- A quotient multiplied back is off by one rounding, scaled by the divisor. -/
theorem Decimal.div_mul_error {a b r : Decimal} (h : a.div b = .ok r) (hb : 0 < b.toRat) :
    |r.toRat * b.toRat - a.toRat| ≤ grain * max b.toRat |a.toRat| := by
  have hround := (rounds_div h).2.abs_sub_le (le_max_left 1 |a.toRat / b.toRat|) (le_max_right _ _)
  have hsize : max 1 |a.toRat / b.toRat| * b.toRat = max b.toRat |a.toRat| := by
    rw [max_mul_of_nonneg _ _ hb.le, one_mul, abs_div, abs_of_pos hb, div_mul_cancel₀ _ hb.ne']
  have hmax : 0 ≤ grain * max b.toRat |a.toRat| :=
    grain_mul_nonneg (hb.le.trans (le_max_left _ _))
  calc |r.toRat * b.toRat - a.toRat|
      = |r.toRat - a.toRat / b.toRat| * b.toRat := by
        rw [← abs_of_pos hb, ← abs_mul, abs_of_pos hb, sub_mul, div_mul_cancel₀ _ hb.ne']
    _ ≤ 2 / 3 * grain * max 1 |a.toRat / b.toRat| * b.toRat := by gcongr
    _ = 2 / 3 * (grain * max b.toRat |a.toRat|) := by rw [mul_assoc _ _ b.toRat, hsize, mul_assoc]
    _ ≤ grain * max b.toRat |a.toRat| := by linarith

namespace Episode

/-- What one of a number of shares is worth, up to rounding: its part of the equity, or nothing if
the equity is below that. -/
structure Values (count equity price : Decimal) : Prop where
  nonneg : 0 ≤ price
  close : |price.toRat * count.toRat - max equity.toRat 0|
    ≤ grain * max count.toRat |equity.toRat|

section Values

variable {count equity price : Decimal}

/-- The quotient is cut off at nothing. -/
theorem values_max_div {quotient : Decimal} (h : equity.div count = .ok quotient)
    (hcount : 0 < count.toRat) : Values count equity (max quotient 0) where
  nonneg := by
    rw [le_iff_toRat, toRat_max]
    exact toRat_zero.trans_le (toRat_zero.ge.trans (le_max_right _ _))
  close := by
    have hcut : (max quotient 0).toRat * count.toRat = max (quotient.toRat * count.toRat) 0 := by
      rw [toRat_max, toRat_zero, max_mul_of_nonneg _ _ hcount.le, zero_mul]
    rw [hcut]
    exact (abs_max_sub_max_le_abs _ _ _).trans (div_mul_error h hcount)

/-- The equity is cut off at nothing before it is divided. -/
theorem values_div_max (h : (max equity 0).div count = .ok price) (hcount : 0 < count.toRat) :
    Values count equity price where
  nonneg := by
    rw [le_iff_toRat]
    refine (rounds_div h).2.ge_of_ge ?_
    rw [toRat_max, toRat_zero]
    exact div_nonneg (le_max_right _ _) hcount.le
  close := by
    have hsmaller : |max equity.toRat 0| ≤ |equity.toRat| := by
      rw [abs_of_nonneg (le_max_right _ _)]
      exact max_le (le_abs_self _) (abs_nonneg _)
    have herror := div_mul_error h hcount
    rw [toRat_max, toRat_zero] at herror
    refine herror.trans (mul_le_mul_of_nonneg_left ?_ grain_pos.le)
    exact max_le_max_left _ hsmaller

end Values

/-! ### The price and the equity handed back -/

/-- A price that an episode has noted is what the equity handed back makes over the shares that
there were before. -/
def Priced (before : Institution) (e : Episode) : Prop :=
  ∀ price ∈ e.totals.newSharePrice, ∃ outstanding equity,
    before.sheet.shares.total = .ok outstanding ∧ e.institution.equity = .ok equity ∧
      Values (normalizedCount outstanding) equity price

theorem priced_none (h : e.totals.newSharePrice = none) : Priced i e := by
  intro price hprice
  rw [h] at hprice
  cases hprice

theorem pos_of_shareCount {count : Decimal} (h : e.shareCount = .ok count) : 0 < count.toRat := by
  have hne : count.toRat ≠ 0 := fun hzero =>
    ne_zero_of_shareCount _ h (toRat_injective (hzero.trans toRat_zero.symm))
  exact (nonneg_of_shareCount h).lt_of_ne hne.symm

theorem priced_of_values {opened : Episode} {count equity price : Decimal}
    (hcount : opened.shareCount = .ok count) (hshares : opened.shares = i.sheet.shares)
    (hequity : e.institution.equity = .ok equity) (hnote : e.totals.newSharePrice = some price)
    (hvalues : Values count equity price) : Priced i e := by
  intro listed hlisted
  obtain rfl : price = listed := Option.some.inj (hnote.symm.trans hlisted)
  obtain ⟨outstanding, houtstanding, rfl⟩ := shareCount_eq_ok hcount
  rw [hshares] at houtstanding
  exact ⟨outstanding, equity, houtstanding, hequity, hvalues⟩

/-- Equity is worked out from what is owned and owed, so whatever leaves those alone leaves it. -/
theorem SameBooks.equity (h : SameBooks e e') : e'.institution.equity = e.institution.equity := by
  have hassets : e'.institution.sheet.assets = e.institution.sheet.assets := h.assets
  have hliabilities : e'.institution.sheet.liabilities = e.institution.sheet.liabilities :=
    h.liabilities
  unfold Institution.equity BalanceSheet.equity BalanceSheet.totalAssets
    BalanceSheet.totalLiabilities
  rw [hassets, hliabilities]

/-- The end of an episode changes neither the price nor the books. -/
theorem Priced.conclude (h : Priced i e) (o : Outcome) : Priced i (e.conclude o ctx).1 := h

/-- A price that is published last goes with the books as they are. -/
theorem priced_of_sharePrice {opened : Episode} {count price : Decimal} {o : Outcome}
    (hcount : opened.shareCount = .ok count) (hshares : opened.shares = i.sheet.shares)
    (hprice : e.sharePrice count = .ok price) :
    Priced i ((e.publishPrice price ctx).1.conclude o ctx').1 := by
  simp only [sharePrice, bind_eq_ok, pure_eq_ok] at hprice
  obtain ⟨equity, hequity, quotient, hquotient, rfl⟩ := hprice
  have hpriced : Priced i (e.publishPrice (max quotient 0) ctx).1 :=
    priced_of_values hcount hshares hequity rfl
      (values_max_div hquotient (pos_of_shareCount hcount))
  exact hpriced.conclude o

theorem priced_giveUp {r : Episode × Context} (h : e.giveUp i ctx = .ok r) : Priced i r.1 := by
  refine priced_none ?_
  rw [(flagged_of_giveUp h).totals]

end Episode

open Episode

theorem Bailin.priced_of_run {r : Episode × Context} (h : Bailin.run i shortfall ctx = .ok r) :
    Priced i r.1 := by
  rcases Bailin.run_cases h with ⟨-, rfl⟩ | ⟨c, hc, ⟨-, hr⟩ | ⟨-, hr⟩⟩
  · exact priced_none rfl
  · exact priced_giveUp hr
  · obtain ⟨handed, price, -, hprice, rfl⟩ := Bailin.through_compensateAll hr
    exact priced_of_sharePrice hc.count rfl hprice

theorem Bailout.priced_of_run {r : Episode × Context} (h : Bailout.run i shortfall ctx = .ok r) :
    Priced i r.1 := by
  rcases Bailout.run_course h with
    ⟨-, rfl⟩ | ⟨-, base, filed, cancelled, hbase, -, -, ⟨-, hr⟩ | hpaid⟩
  · exact priced_none rfl
  · exact priced_giveUp hr
  · obtain ⟨government, paid, injected, allotted, price, -, -, -, hprice, rfl⟩ := hpaid
    exact priced_of_sharePrice hbase rfl hprice

namespace DebtEquitySwap

/-- The price is worked out before the lenders get their shares, and that leaves the equity. -/
theorem priced_exchange {totalLoans : Decimal} (h : exchange e totalLoans ctx = .ok (e', ctx'))
    (hshares : e.shares = i.sheet.shares) : Priced i e' := by
  obtain ⟨count, cancelled, price, exchanged, hcount, -, ⟨equity, hequity, hprice⟩, hfold, hr⟩ :=
    exchange_eq_ok h
  obtain ⟨rfl, rfl⟩ := Prod.mk.inj hr
  have hgiven := givesShares_exchangeLoans hfold
  exact priced_of_values hcount hshares (hgiven.sameBooks.equity.trans hequity) hgiven.newSharePrice
    (values_div_max hprice (pos_of_shareCount hcount))

theorem priced_of_run {r : Episode × Context} (h : run i shortfall ctx = .ok r) :
    Priced i r.1 := by
  rcases run_cases h with rfl | ⟨e, hr⟩ | hsettled
  · exact priced_none rfl
  · exact priced_giveUp hr
  · cases hsettled with
    | @paid opened e totalLoans hopened _ _ hrepay =>
        refine priced_none ?_
        show e.totals.newSharePrice = none
        rw [newSharePrice_repay hrepay, hopened.totals]
        rfl
    | @swapped opened e ctx'' totalLoans hopened _ hexchange =>
        have hshares : opened.shares = i.sheet.shares := by
          rw [Episode.shares, hopened.institution]
        exact (priced_exchange hexchange hshares).conclude .resolved

end DebtEquitySwap

namespace AssetThreshold

/-- Without debts the equity is what is owned. -/
theorem equity_of_noDebts {equity : Decimal} (h : e.assets.total = .ok equity)
    (hnone : e.liabilities = ⟨∅, ∅⟩) : e.institution.equity = .ok equity := by
  have hnone' : e.institution.sheet.liabilities = ⟨∅, ∅⟩ := hnone
  have htotal : e.institution.sheet.assets.total = .ok equity := h
  have hsub : equity.sub 0 = .ok equity := sub_zero_eq_ok equity
  unfold Institution.equity BalanceSheet.equity BalanceSheet.totalAssets
    BalanceSheet.totalLiabilities
  rw [htotal, hnone']
  exact hsub

/-- What is owned is divided, and without debts that is the equity. -/
theorem priced_handOverFirm {debts : List (AgentId × Decimal)} {remainingDebt : Decimal}
    (h : handOverFirm e debts remainingDebt ctx = .ok (e', ctx'))
    (hshares : e.shares = i.sheet.shares) (hassets : e.assets.holdings.Nonneg) :
    Priced i e' := by
  have hnone := liabilities_handOverFirm h
  have hkept := (sameFigures_handOverFirm h).assets
  obtain ⟨count, cancelled, equity, price, hands⟩ := handsOver_of_handOverFirm h
  have htotal : e.assets.total = .ok equity :=
    (sameBooks_cancelShares hands.cancelling).assets ▸ hands.valued
  have hequity : e'.institution.equity = .ok equity := equity_of_noDebts (hkept ▸ htotal) hnone
  have hcut : max equity 0 = equity := by
    apply toRat_injective
    rw [toRat_max, toRat_zero]
    exact max_eq_left (sum_nonneg hassets htotal)
  exact priced_of_values hands.counted hshares hequity hands.gives.newSharePrice
    (values_div_max (hcut.symm ▸ hands.priced) (pos_of_shareCount hands.counted))

theorem priced_of_run {cash : CashRule} {r : Episode × Context}
    (h : run cash i shortfall ctx = .ok r) (hsheet : i.sheet.Nonneg) : Priced i r.1 := by
  rcases run_cases h with rfl | ⟨c, hc, ⟨-, rfl⟩ | ⟨-, hrest⟩⟩
  · exact priced_none rfl
  · exact priced_none hc.newSharePrice
  · rcases settleRest_cases hrest with ⟨value, handed, -, hhand, rfl⟩ | ⟨handed, ctx'', hhand, rfl⟩
    · exact priced_none ((newSharePrice_handOutShares hhand).trans hc.newSharePrice)
    · obtain ⟨spent, hspent, hcredit⟩ := hc.assets
      have hassets := Assets.nonneg_creditHolding_neg hcredit hsheet.assets hspent
      exact (priced_handOverFirm hhand hc.sameShares.shares hassets).conclude .liquidated

end AssetThreshold

theorem Policy.priced_of_resolve {p : Policy} (h : p.resolve i shortfall ctx = .ok (e, ctx')) :
    Priced i e := by
  obtain ⟨hnone, hrun⟩ := resolve_eq_ok.mp h
  obtain ⟨hsheet, -⟩ := inOrder_of_objection? hnone
  cases p with
  | bailin => exact Bailin.priced_of_run hrun
  | assetThreshold cash => exact AssetThreshold.priced_of_run hrun hsheet
  | bailout => exact Bailout.priced_of_run hrun
  | debtEquitySwap => exact DebtEquitySwap.priced_of_run hrun
  | liquidate =>
      rcases Policy.flag_cases hrun with ⟨-, hr⟩ | ⟨-, filed, hfiled, hr⟩
      · obtain ⟨rfl, -⟩ := Prod.mk.inj hr
        exact priced_none rfl
      · obtain ⟨claims, -, rfl⟩ := Episode.fileClaims_eq_ok.mp hfiled
        obtain ⟨rfl, -⟩ := Prod.mk.inj hr
        exact priced_none rfl

/-! ### The book of prices -/

theorem Bailout.book_of_run {r : Episode × Context} (h : Bailout.run i shortfall ctx = .ok r) :
    r.2.book = r.1.totals.newSharePrice.elim ctx.book (ctx.book.publish i.id) := by
  rcases Bailout.run_course h with
    ⟨-, rfl⟩ | ⟨-, base, filed, cancelled, -, hfiled, hcancelled, ⟨-, hr⟩ | hpaid⟩
  · rfl
  · exact (publishes_giveUp hr).book
  · obtain ⟨government, paid, injected, allotted, price, -, hinject, hallot, -, rfl⟩ := hpaid
    have hid : (allotted.reach .sharesIssued).institution.id = i.id := by
      obtain ⟨claims, -, rfl⟩ := Episode.fileClaims_eq_ok.mp hfiled
      obtain ⟨lost, -, rfl⟩ := Episode.cancelShares_eq_ok.mp hcancelled
      simp only [Bailout.inject, bind_eq_ok, pure_eq_ok] at hinject
      obtain ⟨assets, -, rfl⟩ := hinject
      show allotted.institution.id = _
      rw [(givesShares_allot hallot).institution]
      rfl
    exact ((publishes_publishPrice hid price).conclude .resolved).book

/-- The price that an episode has noted is listed, and without one the book stays as it is. -/
theorem Policy.book_of_resolve {p : Policy} (h : p.resolve i shortfall ctx = .ok (e, ctx')) :
    ctx'.book = e.totals.newSharePrice.elim ctx.book (ctx.book.publish i.id) := by
  by_cases hp : p = .bailout
  · subst hp
    exact Bailout.book_of_run (resolve_eq_ok.mp h).2
  · rw [heed_of_resolve hp h]
    rfl

namespace PriceBook

theorem price?_publish_self (b : PriceBook) (stock : InstitutionId) (price : Decimal) :
    (b.publish stock price).price? stock = some price := by
  show (b.prices.insert stock price).get? stock = some price
  rw [Table.get?_insert, if_pos rfl]

/-- No listed price is below nothing. -/
def Nonneg (b : PriceBook) : Prop := ∀ stock, ∀ price ∈ b.price? stock, 0 ≤ price

end PriceBook

/-- What an episode of an institution does to the prices. -/
structure Reprices (before : Institution) (ctx : Context) (e : Episode) (ctx' : Context) :
    Prop where
  others : ∀ stock, stock ≠ before.id → ctx'.book.price? stock = ctx.book.price? stock
  kept : e.totals.newSharePrice = none → ctx'.book = ctx.book
  listed : ∀ price ∈ e.totals.newSharePrice, ctx'.book.price? before.id = some price
  priced : Priced before e

theorem reprices_of_book
    (hbook : ctx'.book = e.totals.newSharePrice.elim ctx.book (ctx.book.publish i.id))
    (hpriced : Priced i e) : Reprices i ctx e ctx' where
  others stock hne := by
    rw [hbook]
    cases e.totals.newSharePrice with
    | none => rfl
    | some price => exact ctx.book.price?_publish_of_ne hne price
  kept hnone := by
    rw [hbook, hnone]
    rfl
  listed price hprice := by
    rw [hbook, Option.mem_def.mp hprice]
    exact ctx.book.price?_publish_self i.id price
  priced := hpriced

theorem Policy.reprices_of_resolve {p : Policy} (h : p.resolve i shortfall ctx = .ok (e, ctx')) :
    Reprices i ctx e ctx' :=
  reprices_of_book (book_of_resolve h) (priced_of_resolve h)

theorem Authority.reprices_of_resolve {a : Authority} (h : a.resolve i ctx = .ok (e, ctx')) :
    Reprices i ctx e ctx' := by
  unfold resolve at h
  obtain ⟨assessment, -, h⟩ := bind_eq_ok.mp h
  split_ifs at h
  · obtain ⟨rfl, rfl⟩ := Prod.mk.inj (pure_eq_ok.mp h)
    exact reprices_of_book rfl (priced_none rfl)
  · have hreprices := Policy.reprices_of_resolve h
    exact ⟨hreprices.others, hreprices.kept, hreprices.listed, hreprices.priced⟩

/-! ### Runs of episodes -/

/-- The books of prices that runs of episodes lead to.  Between two episodes everything in the
context may be exchanged but the prices. -/
inductive PriceBook.Reachable (start : PriceBook) : PriceBook → Prop
  | start : Reachable start start
  | policy {p : Policy} {i : Institution} {shortfall : Decimal} {ctx ctx' : Context} {e : Episode}
      (before : Reachable start ctx.book) (h : p.resolve i shortfall ctx = .ok (e, ctx')) :
      Reachable start ctx'.book
  | authority {a : Authority} {i : Institution} {ctx ctx' : Context} {e : Episode}
      (before : Reachable start ctx.book) (h : a.resolve i ctx = .ok (e, ctx')) :
      Reachable start ctx'.book

/-- One episode keeps the prices from falling below nothing. -/
theorem Reprices.nonneg (h : Reprices i ctx e ctx') (hbook : ctx.book.Nonneg) :
    ctx'.book.Nonneg := by
  cases hnote : e.totals.newSharePrice with
  | none =>
      rw [h.kept hnote]
      exact hbook
  | some new =>
      intro stock price hprice
      by_cases hself : stock = i.id
      · subst hself
        obtain rfl := Option.some.inj ((h.listed new hnote).symm.trans hprice)
        obtain ⟨outstanding, equity, -, -, hvalues⟩ := h.priced new hnote
        exact hvalues.nonneg
      · rw [h.others stock hself] at hprice
        exact hbook stock price hprice

theorem PriceBook.Reachable.nonneg {start book : PriceBook} (h : Reachable start book)
    (hstart : start.Nonneg) : book.Nonneg := by
  induction h with
  | start => exact hstart
  | policy _ h ih => exact (Policy.reprices_of_resolve h).nonneg ih
  | authority _ h ih => exact (Authority.reprices_of_resolve h).nonneg ih

theorem PriceBook.Reachable.trans {start mid book : PriceBook} (h : Reachable start mid)
    (h' : Reachable mid book) : Reachable start book := by
  induction h' with
  | start => exact h
  | policy _ hresolve ih => exact .policy ih hresolve
  | authority _ hresolve ih => exact .authority ih hresolve

end Insolvency
