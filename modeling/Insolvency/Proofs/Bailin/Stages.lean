/-
What the stages of a bail-in do to the books.

`Shows` collects it for a whole course: the figures worked out on the way, the assets as
the removal of self-held shares leaves them, each class of liabilities as its write-down
leaves it, and the totals recorded.  The bounds that hold of a bail-in are worked out
from these facts alone.
-/
import Insolvency.Proofs.Bailin.WriteDown

namespace Insolvency.Bailin

open Decimal

/-! ### Cancelling the shares -/

/-- The shares are cancelled, and the value `removed` of those that the bank held itself is off
its assets and on top of the shortfall. -/
structure Cancelled (bank : Institution) (shortfall removed : Decimal) (e : Episode) : Prop where
  removed_nonneg : 0 ≤ removed.toRat
  removed_le : removed.toRat ≤ (bank.sheet.assets.holding .equity).toRat
  assets : (removed = 0 ∧ e.assets = bank.sheet.assets) ∨
    bank.sheet.assets.creditHolding .equity (-removed) = .ok e.assets
  liabilities : e.liabilities = bank.sheet.liabilities
  due : Rounds (shortfall.toRat + removed.toRat) e.totals.shortfall
  totals : e.totals = {
    shortfall := e.totals.shortfall, remainingShortfall := e.totals.shortfall }
  agentId : e.institution.agentId = bank.agentId
  shares : e.shares = .empty
  allotments : e.allotments = []

theorem selfHeldValue_bounds {e : Episode} {quantity price removed : Decimal}
    (h : selfHeldValue e quantity price = .ok removed) (hq : 0 ≤ quantity.toRat)
    (hprice : 0 ≤ price.toRat) (hheld : 0 ≤ (e.assets.holding .equity).toRat) :
    0 ≤ removed.toRat ∧ removed.toRat ≤ (e.assets.holding .equity).toRat := by
  simp only [selfHeldValue, bind_eq_ok, pure_eq_ok] at h
  obtain ⟨value, hvalue, rfl⟩ := h
  rw [toRat_min]
  exact ⟨le_min ((rounds_mul hvalue).nonneg (mul_nonneg hq hprice)) hheld, min_le_right _ _⟩

theorem get?_nonneg {κ : Type} [Ord κ] [Std.LawfulEqOrd κ] {a : Accounts κ} (h : a.Nonneg) {k : κ}
    {v : Decimal} (hv : a.get? k = some v) : 0 ≤ v.toRat := by
  have := Accounts.amount_nonneg h k
  rwa [Accounts.amount, hv, Option.getD_some] at this

theorem cancelled_of_removeSelfHeld (bank : Institution) (shortfall : Decimal)
    {price : Decimal} {e e' : Episode} {held : Option Decimal}
    (h : removeSelfHeld e held price = .ok e')
    (hassets : e.assets = bank.sheet.assets) (hliabilities : e.liabilities = bank.sheet.liabilities)
    (htotals : e.totals = { shortfall := shortfall, remainingShortfall := shortfall })
    (hid : e.institution.agentId = bank.agentId) (hshares : e.shares = .empty)
    (hallotments : e.allotments = [])
    (hheld : ∀ q ∈ held, 0 ≤ q.toRat) (hprice : 0 ≤ price.toRat)
    (hnn : bank.sheet.assets.holdings.Nonneg) : ∃ removed, Cancelled bank shortfall removed e' := by
  have hequity : 0 ≤ (bank.sheet.assets.holding .equity).toRat := Accounts.amount_nonneg hnn _
  cases held with
  | none =>
      obtain rfl := pure_eq_ok.mp h
      refine ⟨0, toRat_zero.ge, by rwa [toRat_zero], Or.inl ⟨rfl, hassets⟩, hliabilities, ?_, ?_,
        hid, hshares, hallotments⟩
      · rw [htotals, toRat_zero, add_zero]
        exact rounds_self shortfall
      · rw [htotals]
  | some quantity =>
      simp only [removeSelfHeld, bind_eq_ok, pure_eq_ok] at h
      obtain ⟨removed, hremoved, assets, hcredit, remaining, hremaining, due, hdue, rfl⟩ := h
      rw [htotals] at hremaining hdue
      -- Both figures start out as the shortfall, so both end up the same.
      obtain rfl : remaining = due := Except.ok.inj (hremaining.symm.trans hdue)
      have hbounds := selfHeldValue_bounds hremoved (hheld quantity rfl) hprice (hassets ▸ hequity)
      rw [hassets] at hbounds hcredit
      refine ⟨removed, hbounds.1, hbounds.2, Or.inr hcredit, hliabilities, rounds_add hdue, ?_, hid,
        hshares, hallotments⟩
      simp only [htotals]

theorem cancelled_of_cancelSharesAtCost {bank : Institution} {shortfall price : Decimal}
    {filed e : Episode} (hfiled : (Episode.opening bank shortfall).fileClaims = .ok filed)
    (h : cancelSharesAtCost (filed.reach .start) price = .ok e) (hprice : 0 ≤ price.toRat)
    (hassets : bank.sheet.assets.holdings.Nonneg) (hshares : bank.sheet.shares.holders.Nonneg) :
    ∃ removed, Cancelled bank shortfall removed e := by
  obtain ⟨claims, -, rfl⟩ := Episode.fileClaims_eq_ok.mp hfiled
  simp only [cancelSharesAtCost, Episode.cancelShares, bind_eq_ok, pure_eq_ok] at h
  obtain ⟨_, ⟨lost, -, rfl⟩, kept, hkept, rfl⟩ := h
  obtain ⟨removed, hc⟩ := cancelled_of_removeSelfHeld bank shortfall hkept rfl rfl rfl rfl rfl rfl
    (fun q hq => get?_nonneg hshares hq) hprice hassets
  exact ⟨removed, hc.removed_nonneg, hc.removed_le, hc.assets, hc.liabilities, hc.due, hc.totals,
    hc.agentId, hc.shares, hc.allotments⟩

/-! ### Writing down the liabilities -/

theorem writeDownLoans_eq_ok {e e' : Episode} {lost : Accounts AgentId}
    (h : writeDownLoans e = .ok (e', lost)) :
    ∃ liabilities recovered left, scaleLoans e = .ok (liabilities, lost) ∧
      lost.total = .ok recovered ∧ leftAfter e.totals.remainingShortfall recovered = .ok left ∧
      e' = Episode.reach { e.withLiabilities liabilities with
        totals := { e.totals with loansWrittenDown := recovered, remainingShortfall := left } }
        .loansWrittenDown := by
  simp only [writeDownLoans, bind_eq_ok, pure_eq_ok, Prod.mk.injEq] at h
  obtain ⟨⟨liabilities, lost'⟩, hscale, recovered, hrec, left, hleft, rfl, rfl⟩ := h
  exact ⟨liabilities, recovered, left, hscale, hrec, hleft, rfl⟩

theorem writeDownDeposits_eq_ok {e e' : Episode} {lost : Accounts AgentId}
    (h : writeDownDeposits e = .ok (e', lost)) :
    ∃ liabilities recovered left, scaleDeposits e = .ok (liabilities, lost) ∧
      lost.total = .ok recovered ∧ leftAfter e.totals.remainingShortfall recovered = .ok left ∧
      e' = Episode.reach { e.withLiabilities liabilities with
        totals := { e.totals with depositsWrittenDown := recovered, remainingShortfall := left } }
        .depositsWrittenDown := by
  simp only [writeDownDeposits, bind_eq_ok, pure_eq_ok, Prod.mk.injEq] at h
  obtain ⟨⟨liabilities, lost'⟩, hscale, recovered, hrec, left, hleft, rfl, rfl⟩ := h
  exact ⟨liabilities, recovered, left, hscale, hrec, hleft, rfl⟩

/-! ### The whole course -/

/-- The figures that a bail-in works out on its way. -/
structure Figures where
  /-- What the bank's own shares were worth to it. -/
  removed : Decimal
  /-- What is to be covered. -/
  due : Decimal
  fromLoans : Decimal
  afterLoans : Decimal
  fromDeposits : Decimal
  afterDeposits : Decimal

/-- What is known of the course of a bail-in and its figures. -/
structure Course.Shows (bank : Institution) (shortfall : Decimal) (c : Course) (f : Figures) :
    Prop where
  removed_nonneg : 0 ≤ f.removed.toRat
  removed_le : f.removed.toRat ≤ (bank.sheet.assets.holding .equity).toRat
  assets : (f.removed = 0 ∧ c.depositsDown.assets = bank.sheet.assets) ∨
    bank.sheet.assets.creditHolding .equity (-f.removed) = .ok c.depositsDown.assets
  due : Rounds (shortfall.toRat + f.removed.toRat) f.due
  loans : ∃ total p, ClassDown f.due bank.sheet.liabilities.loans
    c.depositsDown.liabilities.loans c.loansLost total p
  fromLoans : c.loansLost.total = .ok f.fromLoans
  afterLoans : leftAfter f.due f.fromLoans = .ok f.afterLoans
  deposits : DepositsDown f.afterLoans bank.sheet.liabilities.deposits
    c.depositsDown.liabilities.deposits c.depositsLost
  fromDeposits : c.depositsLost.total = .ok f.fromDeposits
  afterDeposits : leftAfter f.afterLoans f.fromDeposits = .ok f.afterDeposits
  totals : c.depositsDown.totals = {
    shortfall := f.due, remainingShortfall := f.afterDeposits,
    loansWrittenDown := f.fromLoans, depositsWrittenDown := f.fromDeposits }
  agentId : c.depositsDown.institution.agentId = bank.agentId
  shares : c.depositsDown.shares = .empty
  allotments : c.depositsDown.allotments = []

/-- **Every course shows these figures.** -/
theorem Course.Of.shows {bank : Institution} {shortfall : Decimal} {ctx : Context} {c : Course}
    (h : c.Of bank shortfall ctx) (hprice : 0 ≤ (ctx.book.value bank.id).toRat)
    (hsheet : bank.sheet.Nonneg) : ∃ f, c.Shows bank shortfall f := by
  obtain ⟨filed, hfiled, hcancel⟩ := h.cancelling
  obtain ⟨removed, hcancelled⟩ :=
    cancelled_of_cancelSharesAtCost hfiled hcancel hprice hsheet.assets hsheet.shares
  obtain ⟨l1, fromLoans, afterLoans, hscale1, hrec1, hleft1, he1⟩ := writeDownLoans_eq_ok h.loans
  obtain ⟨l2, fromDeposits, afterDeposits, hscale2, hrec2, hleft2, he2⟩ :=
    writeDownDeposits_eq_ok h.deposits
  have hstart : c.cancelled.totals.remainingShortfall = c.cancelled.totals.shortfall := by
    rw [hcancelled.totals]
  have hloansNonneg : c.cancelled.liabilities.loans.Nonneg := hcancelled.liabilities ▸ hsheet.loans
  obtain ⟨⟨total, p, hloans⟩, hkept⟩ := scaleLoans_eq_ok hscale1 hloansNonneg
  rw [hstart, hcancelled.liabilities] at hloans
  rw [hstart] at hleft1
  rw [hcancelled.liabilities] at hkept
  have hl1 : c.loansDown.liabilities = l1 := by rw [he1]; rfl
  have hl2 : c.depositsDown.liabilities = l2 := by rw [he2]; rfl
  have hr1 : c.loansDown.totals.remainingShortfall = afterLoans := by rw [he1]; rfl
  have hdepositsNonneg : c.loansDown.liabilities.deposits.Nonneg :=
    hl1 ▸ hkept.nonneg hsheet.deposits
  obtain ⟨hdeposits, hloansKept⟩ := scaleDeposits_eq_ok hscale2 hdepositsNonneg
  rw [hr1, hl1] at hdeposits
  rw [hl1] at hloansKept
  rw [hr1] at hleft2
  refine ⟨⟨removed, c.cancelled.totals.shortfall, fromLoans, afterLoans, fromDeposits,
    afterDeposits⟩, ?_⟩
  exact {
    removed_nonneg := hcancelled.removed_nonneg
    removed_le := hcancelled.removed_le
    assets := by
      have : c.depositsDown.assets = c.cancelled.assets := by
        rw [he2, he1]
        rfl
      rw [this]
      exact hcancelled.assets
    due := hcancelled.due
    loans := ⟨total, p, hl2 ▸ hloans.congr (Or.inl rfl) hloansKept⟩
    fromLoans := hrec1
    afterLoans := hleft1
    deposits := hl2 ▸ hdeposits.congr hkept
    fromDeposits := hrec2
    afterDeposits := hleft2
    totals := by
      rw [he2, he1]
      show { c.cancelled.totals with
        loansWrittenDown := fromLoans, depositsWrittenDown := fromDeposits,
        remainingShortfall := afterDeposits } = _
      rw [hcancelled.totals]
    agentId := by
      rw [he2, he1]
      exact hcancelled.agentId
    shares := by
      rw [he2, he1]
      exact hcancelled.shares
    allotments := by
      rw [he2, he1]
      exact hcancelled.allotments }

/-- All that a bail-in of books in order can come to, with its figures. -/
theorem run_shows {bank : Institution} {shortfall : Decimal} {ctx : Context}
    {r : Episode × Context} (h : run bank shortfall ctx = .ok r) (hsheet : bank.sheet.Nonneg)
    (hprice : ∀ price ∈ ctx.book.price? bank.id, 0 ≤ price) :
    r = (.compliant bank, ctx) ∨
      ∃ (c : Course) (f : Figures), c.Of bank shortfall ctx ∧ c.Shows bank shortfall f ∧
      ((0 < f.afterDeposits ∧ c.depositsDown.giveUp bank ctx = .ok r) ∨
       (¬ 0 < f.afterDeposits ∧ compensateAll bank c.base c.lost c.depositsDown ctx = .ok r)) := by
  rcases run_cases h with ⟨-, hr⟩ | ⟨c, hc, hend⟩
  · exact Or.inl hr
  · obtain ⟨f, hf⟩ := hc.shows (PriceBook.value_nonneg hprice) hsheet
    rw [Course.uncovered, hf.totals] at hend
    exact Or.inr ⟨c, f, hc, hf, hend⟩

/-- A bail-in that resolves its bank has covered what was due, and handed out shares for it. -/
theorem shows_of_resolved {bank : Institution} {shortfall : Decimal} {ctx ctx' : Context}
    {e : Episode} (h : run bank shortfall ctx = .ok (e, ctx')) (hsheet : bank.sheet.Nonneg)
    (hprice : ∀ price ∈ ctx.book.price? bank.id, 0 ≤ price) (hout : e.outcome = .resolved) :
    ∃ (c : Course) (f : Figures), c.Of bank shortfall ctx ∧ c.Shows bank shortfall f ∧
      ¬ 0 < f.afterDeposits ∧
      compensateAll bank c.base c.lost c.depositsDown ctx = .ok (e, ctx') := by
  rcases run_shows h hsheet hprice with hr | ⟨c, f, hc, hf, ⟨-, hr⟩ | ⟨hdone, hr⟩⟩
  · cases hout.symm.trans (Episode.outcome_of_compliant hr.symm)
  · cases hout.symm.trans (Episode.outcome_of_giveUp hr)
  · exact ⟨c, f, hc, hf, hdone, hr⟩

namespace Course.Shows

variable {bank : Institution} {shortfall : Decimal} {c : Course} {f : Figures}

theorem due_nonneg (h : c.Shows bank shortfall f) (hshortfall : 0 ≤ shortfall.toRat) :
    0 ≤ f.due.toRat :=
  h.due.nonneg (add_nonneg hshortfall h.removed_nonneg)

theorem afterLoans_nonneg (h : c.Shows bank shortfall f) : 0 ≤ f.afterLoans.toRat := by
  rcases leftAfter_eq_ok h.afterLoans with ⟨-, hzero⟩ | ⟨-, hpos, -⟩
  · rw [hzero, toRat_zero]
  · exact (toRat_pos_of_epsilon_lt hpos).le

theorem lost_nonneg (h : c.Shows bank shortfall f) : AllNonneg (c.lost.map Prod.snd) := by
  obtain ⟨total, p, hloans⟩ := h.loans
  rw [lost, List.map_append]
  exact List.forall_mem_append.mpr ⟨hloans.scaled.lost_nonneg, h.deposits.lost_nonneg⟩

end Course.Shows

end Insolvency.Bailin
