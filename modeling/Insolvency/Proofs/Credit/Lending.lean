/-
One request for an emergency loan.

A request works here on the central bank itself.  It is checked and booked before anything is
remembered, so a request that is denied or fails leaves the central bank as it was
(`perform_apply`).  Whether it is approved depends on the institution, on the loans out and on
the sums that the loan makes (`request_cases`).  One that is approved puts the amount on both
sides of the borrower's sheet and touches nothing else (`booked_of_book`); where no place is
lost in adding up, equity stays what it was (`keepsEquity_of_book`).
-/
import Insolvency.Credit.CentralBank
import Insolvency.Proofs.Ledger.Grid

namespace Insolvency

open Decimal

/-- A computation on a central bank, which keeps what was done to it where it fails. -/
abbrev OnBank := ExceptT Error (StateM CentralBank)

/-- Figures worked out without the central bank. -/
def OnBank.work {α : Type} (x : Except Decimal.Fault α) : OnBank α := fun b => (liftM x, b)

namespace CentralBank

variable {b left : CentralBank} {i borrower : Institution} {amount : Decimal} {now : Timestamp}

/-- A loan asked of the central bank that others ask too. -/
def perform (i : Institution) (amount : Decimal) (now : Timestamp) :
    OnBank (Except Denial Institution) := do
  if amount ≤ 0 then throw (.invalidAmount amount)
  if i.isDeleted then throw (.objectIsDeleted .institution)
  match ← OnBank.work ((← get).assess i) with
  | .error denial => return .error denial
  | .ok _ =>
    let borrower ← OnBank.work ((← get).book i amount now)
    modify fun b => { b with outstanding := b.outstanding.insert i.id amount }
    return .ok borrower

/-- The answer is that of the central bank left alone, and what fails has done nothing. -/
theorem perform_apply (b : CentralBank) (i : Institution) (amount : Decimal) (now : Timestamp) :
    perform i amount now b = match b.request i amount now with
      | .ok (left, answer) => (.ok answer, left)
      | .error err => (.error err, b) := by
  unfold perform request
  by_cases hamount : amount ≤ 0
  · rw [if_pos hamount, if_pos hamount]
    rfl
  by_cases hdeleted : i.isDeleted = true
  · rw [if_neg hamount, if_neg hamount, if_pos hdeleted, if_pos hdeleted]
    rfl
  rw [if_neg hamount, if_neg hamount, if_neg hdeleted, if_neg hdeleted]
  show (OnBank.work (b.assess i) >>= _ : OnBank _) b = _
  cases hassess : b.assess i with
  | error fault => rfl
  | ok decision =>
      cases decision with
      | error denial => rfl
      | ok risk =>
          show (OnBank.work (b.book i amount now) >>= _ : OnBank _) b = _
          cases hbook : b.book i amount now with
          | error fault => rfl
          | ok borrower => rfl

/-! ### Who gets a loan -/

/-- What is asked of an institution that gets a loan. -/
structure Eligible (b : CentralBank) (i : Institution) (amount : Decimal) : Prop where
  positive : 0 < amount
  present : i.isDeleted = false
  free : b.outstanding.get? i.id = none
  approved : ∃ risk, b.measure.risk i.sheet = .ok risk ∧ b.approval.approves risk = true

/-- Neither side of the loan gets too large for an amount. -/
def Bookable (b : CentralBank) (i : Institution) (amount : Decimal) : Prop :=
  (∃ cash, i.sheet.assets.cash.add amount = .ok cash) ∧
    ∃ owed, (i.sheet.liabilities.loan b.agentId).add amount = .ok owed

theorem exists_assess_iff : (∃ risk, b.assess i = .ok (.ok risk)) ↔
    b.outstanding.get? i.id = none ∧
      ∃ risk, b.measure.risk i.sheet = .ok risk ∧ b.approval.approves risk = true := by
  unfold assess Table.contains
  cases b.outstanding.get? i.id with
  | some amount => simp [pure, Except.pure]
  | none =>
      cases b.measure.risk i.sheet with
      | error fault => simp [bind, Except.bind]
      | ok risk =>
          by_cases happroves : b.approval.approves risk = true
          · simp [bind, Except.bind, pure, Except.pure, happroves]
          · simp [bind, Except.bind, pure, Except.pure, happroves]

theorem book_eq_ok (h : b.book i amount now = .ok borrower) : ∃ assets liabilities,
    i.sheet.assets.creditHolding .cash amount = .ok assets ∧
    i.sheet.liabilities.creditLoan b.agentId amount = .ok liabilities ∧
    borrower = { i with sheet := { i.sheet with assets, liabilities }, updated := now } := by
  simp only [book, bind_eq_ok, pure_eq_ok] at h
  obtain ⟨assets, hassets, liabilities, hliabilities, rfl⟩ := h
  exact ⟨assets, liabilities, hassets, hliabilities, rfl⟩

theorem exists_book_iff :
    (∃ borrower, b.book i amount now = .ok borrower) ↔ b.Bookable i amount := by
  constructor
  · rintro ⟨borrower, h⟩
    obtain ⟨assets, liabilities, hassets, hliabilities, -⟩ := book_eq_ok h
    exact ⟨⟨_, (Assets.add_of_creditHolding hassets).1⟩,
      ⟨_, (Liabilities.add_of_creditLoan hliabilities).1⟩⟩
  · rintro ⟨⟨cash, hcash⟩, ⟨owed, howed⟩⟩
    have hassets : i.sheet.assets.creditHolding .cash amount
        = .ok ⟨Accounts.swept (i.sheet.assets.holdings.insert .cash cash)⟩ := by
      change (i.sheet.assets.holdings.amount .cash).add amount = .ok cash at hcash
      rw [Assets.creditHolding, Accounts.credit, hcash]
      rfl
    have hliabilities : i.sheet.liabilities.creditLoan b.agentId amount
        = .ok (Liabilities.swept { i.sheet.liabilities with
            loans := i.sheet.liabilities.loans.insert b.agentId owed }) := by
      change (i.sheet.liabilities.loans.amount b.agentId).add amount = .ok owed at howed
      rw [Liabilities.creditLoan, Accounts.credit, howed]
      rfl
    rw [book, hassets, hliabilities]
    exact ⟨_, rfl⟩

/-- A request ends with a loan, a denial or an error, and which it is depends on the
institution and on whether the loan can be booked. -/
theorem request_cases (b : CentralBank) (i : Institution) (amount : Decimal) (now : Timestamp) :
    (∃ borrower, b.Eligible i amount ∧ b.book i amount now = .ok borrower ∧
      b.request i amount now
        = .ok ({ b with outstanding := b.outstanding.insert i.id amount }, .ok borrower)) ∨
    (∃ denial, ¬ b.Eligible i amount ∧ b.request i amount now = .ok (b, .error denial)) ∨
    ∃ err, ¬ (b.Eligible i amount ∧ b.Bookable i amount) ∧ b.request i amount now = .error err := by
  unfold request
  by_cases hamount : amount ≤ 0
  · rw [if_pos hamount]
    exact Or.inr (Or.inr ⟨_, fun h => not_le_iff.mpr h.1.positive hamount, rfl⟩)
  by_cases hdeleted : i.isDeleted = true
  · rw [if_neg hamount, if_pos hdeleted]
    refine Or.inr (Or.inr ⟨_, fun h => ?_, rfl⟩)
    rw [h.1.present] at hdeleted
    cases hdeleted
  rw [if_neg hamount, if_neg hdeleted]
  have hassessed (h : b.Eligible i amount) : ∃ risk, b.assess i = .ok (.ok risk) :=
    exists_assess_iff.mpr ⟨h.free, h.approved⟩
  cases hassess : b.assess i with
  | error fault =>
      refine Or.inr (Or.inr ⟨_, fun h => ?_, rfl⟩)
      obtain ⟨risk, hrisk⟩ := hassessed h.1
      cases hassess.symm.trans hrisk
  | ok decision =>
      cases decision with
      | error denial =>
          refine Or.inr (Or.inl ⟨denial, fun h => ?_, rfl⟩)
          obtain ⟨risk, hrisk⟩ := hassessed h
          cases hassess.symm.trans hrisk
      | ok risk =>
          obtain ⟨hfree, happroved⟩ := exists_assess_iff.mp ⟨risk, hassess⟩
          have heligible : b.Eligible i amount :=
            ⟨not_le_iff.mp hamount, Bool.eq_false_iff.mpr hdeleted, hfree, happroved⟩
          cases hbook : b.book i amount now with
          | error fault =>
              refine Or.inr (Or.inr ⟨.arithmetic fault, fun h => ?_, rfl⟩)
              obtain ⟨borrower, hborrower⟩ := exists_book_iff.mpr h.2
              cases hbook.symm.trans hborrower
          | ok borrower => exact Or.inl ⟨borrower, heligible, rfl, rfl⟩

/-! ### What a loan does -/

/-- The amount is on both sides of the borrower's sheet, and nothing else is different. -/
structure Booked (b : CentralBank) (i : Institution) (amount : Decimal) (now : Timestamp)
    (borrower : Institution) : Prop where
  cash : i.sheet.assets.cash.add amount = .ok borrower.sheet.assets.cash
  holdings : ∀ cls ≠ .cash, borrower.sheet.assets.holding cls = i.sheet.assets.holding cls
  loan : (i.sheet.liabilities.loan b.agentId).add amount
    = .ok (borrower.sheet.liabilities.loan b.agentId)
  loans : ∀ creditor ≠ b.agentId,
    borrower.sheet.liabilities.loan creditor = i.sheet.liabilities.loan creditor
  deposits : ∀ creditor,
    borrower.sheet.liabilities.deposit creditor = i.sheet.liabilities.deposit creditor
  shares : borrower.sheet.shares = i.sheet.shares
  others : borrower = { i with sheet := borrower.sheet, updated := now }

theorem booked_of_book (h : b.book i amount now = .ok borrower) :
    b.Booked i amount now borrower := by
  obtain ⟨assets, liabilities, hassets, hliabilities, rfl⟩ := book_eq_ok h
  obtain ⟨hcash, hholdings⟩ := Assets.add_of_creditHolding hassets
  obtain ⟨hloan, hloans, hdeposits⟩ := Liabilities.add_of_creditLoan hliabilities
  exact {
    cash := hcash
    holdings := hholdings
    loan := hloan
    loans := hloans
    deposits := hdeposits
    shares := rfl
    others := rfl }

/-- A loan of more than nothing puts nothing below nothing. -/
theorem nonneg_book (h : b.book i amount now = .ok borrower) (hamount : 0 ≤ amount.toRat)
    (hassets : i.sheet.assets.holdings.Nonneg) (hloans : i.sheet.liabilities.loans.Nonneg)
    (hdeposits : i.sheet.liabilities.deposits.Nonneg) :
    borrower.sheet.assets.holdings.Nonneg ∧ borrower.sheet.liabilities.loans.Nonneg ∧
      borrower.sheet.liabilities.deposits.Nonneg := by
  obtain ⟨assets, liabilities, hcredit, hliabilities, rfl⟩ := book_eq_ok h
  have hcash := add_nonneg (Accounts.amount_nonneg hassets .cash) hamount
  exact ⟨Assets.nonneg_creditHolding hcredit hassets hcash,
    Liabilities.nonneg_creditLoan hliabilities hloans hdeposits hamount⟩

/-- The loan raises what is owned and what is owed alike, to the last place. -/
theorem exact_of_book {k : Nat} (h : b.book i amount now = .ok borrower)
    (hi : i.sheet.OnGrid k) (hamount : OnGrid k amount.toRat)
    (hcash : |i.sheet.assets.cash.toRat + amount.toRat| < gridBound k)
    (hloan : |(i.sheet.liabilities.loan b.agentId).toRat + amount.toRat| < gridBound k) :
    borrower.sheet.OnGrid k ∧
      borrower.sheet.assets.exactTotal = i.sheet.assets.exactTotal + amount.toRat ∧
      borrower.sheet.liabilities.exactTotal
        = i.sheet.liabilities.exactTotal + amount.toRat := by
  obtain ⟨assets, liabilities, hassets, hliabilities, rfl⟩ := book_eq_ok h
  obtain ⟨hholdings, howned⟩ := Assets.onGrid_creditHolding hi.holdings hamount hcash hassets
  obtain ⟨hloans, hdeposits, howed⟩ :=
    Liabilities.onGrid_creditLoan hi.loans hi.deposits hamount hloan hliabilities
  exact ⟨⟨hholdings, hloans, hdeposits⟩, howned, howed⟩

/-- Equity is the same after the loan as before, as an amount. -/
def SameEquity (i borrower : Institution) : Prop :=
  ∃ d, i.equity = .ok d ∧ borrower.equity = .ok d

section Equity

variable {k : Nat} (h : b.book i amount now = .ok borrower) (hi : i.sheet.OnGrid k)
  (hamount : OnGrid k amount.toRat)

include h hi hamount

/-- Equity stays if every total that comes up before and after is in bounds. -/
theorem sameEquity_of_totals
    (hcash : |i.sheet.assets.cash.toRat + amount.toRat| < gridBound k)
    (hloan : |(i.sheet.liabilities.loan b.agentId).toRat + amount.toRat| < gridBound k)
    (hbefore : i.sheet.TotalsWithin k) (hafter : borrower.sheet.TotalsWithin k) :
    SameEquity i borrower := by
  obtain ⟨hgrid, howned, howed⟩ := exact_of_book h hi hamount hcash hloan
  obtain ⟨d, hd, hexact⟩ := hi.exists_equity hbefore
  obtain ⟨d', hd', hexact'⟩ := hgrid.exists_equity hafter
  have hsame : d' = d := by
    apply toRat_injective
    rw [hexact', hexact, BalanceSheet.exactEquity, howned, howed, BalanceSheet.exactEquity]
    ring
  exact ⟨d, hd, hsame ▸ hd'⟩

/-- Of books that hold nothing negative the two totals with the loan in them are enough. -/
theorem sameEquity_of_nonneg (hpositive : 0 < amount)
    (hassets : i.sheet.assets.hasNegative = false)
    (hliabilities : i.sheet.liabilities.hasNegative = false)
    (howned : i.sheet.assets.exactTotal + amount.toRat < gridBound k)
    (howed : i.sheet.liabilities.exactTotal + amount.toRat < gridBound k) :
    SameEquity i borrower := by
  rw [Liabilities.hasNegative, Bool.or_eq_false_iff] at hliabilities
  have hnonneg := Accounts.nonneg_iff.mpr hassets
  have hloans := Accounts.nonneg_iff.mpr hliabilities.1
  have hdeposits := Accounts.nonneg_iff.mpr hliabilities.2
  have hdue := zero_lt_iff.mp hpositive
  have hcash : 0 ≤ i.sheet.assets.cash.toRat := Accounts.amount_nonneg hnonneg .cash
  have hcash' : i.sheet.assets.cash.toRat ≤ i.sheet.assets.exactTotal :=
    Accounts.amount_le_exactTotal hnonneg .cash
  have hloan : 0 ≤ (i.sheet.liabilities.loan b.agentId).toRat :=
    Accounts.amount_nonneg hloans b.agentId
  have hloan' : (i.sheet.liabilities.loan b.agentId).toRat ≤ i.sheet.liabilities.exactTotal :=
    (Accounts.amount_le_exactTotal hloans b.agentId).trans
      (le_add_of_nonneg_right (Accounts.exactTotal_nonneg hdeposits))
  have hcashBound : |i.sheet.assets.cash.toRat + amount.toRat| < gridBound k := by
    rw [abs_of_nonneg (add_nonneg hcash hdue.le)]
    linarith
  have hloanBound : |(i.sheet.liabilities.loan b.agentId).toRat + amount.toRat| < gridBound k := by
    rw [abs_of_nonneg (add_nonneg hloan hdue.le)]
    linarith
  obtain ⟨-, hassetsAfter, hliabilitiesAfter⟩ := exact_of_book h hi hamount hcashBound hloanBound
  obtain ⟨hnonneg', hloans', hdeposits'⟩ := nonneg_book h hdue.le hnonneg hloans hdeposits
  refine sameEquity_of_totals h hi hamount hcashBound hloanBound ?_ ?_
  · refine BalanceSheet.totalsWithin_of_nonneg hnonneg hloans hdeposits ?_ ?_
    · linarith
    · linarith
  · refine BalanceSheet.totalsWithin_of_nonneg hnonneg' hloans' hdeposits' ?_ ?_
    · rw [hassetsAfter]
      exact howned
    · rw [hliabilitiesAfter]
      exact howed

end Equity

/-- The loan leaves equity alone if everything is a multiple of `10⁻ᵏ` and every total that
comes up is in bounds, for which two totals are enough if nothing in the books is negative. -/
structure KeepsEquity (b : CentralBank) (k : Nat) (i : Institution) (amount : Decimal)
    (borrower : Institution) : Prop where
  always : |i.sheet.assets.cash.toRat + amount.toRat| < gridBound k →
    |(i.sheet.liabilities.loan b.agentId).toRat + amount.toRat| < gridBound k →
    i.sheet.TotalsWithin k → borrower.sheet.TotalsWithin k → SameEquity i borrower
  nonneg : i.sheet.assets.hasNegative = false → i.sheet.liabilities.hasNegative = false →
    i.sheet.assets.exactTotal + amount.toRat < gridBound k →
    i.sheet.liabilities.exactTotal + amount.toRat < gridBound k → SameEquity i borrower

theorem keepsEquity_of_book {k : Nat} (h : b.book i amount now = .ok borrower)
    (hpositive : 0 < amount) (hi : i.sheet.OnGrid k) (hamount : OnGrid k amount.toRat) :
    b.KeepsEquity k i amount borrower where
  always := sameEquity_of_totals h hi hamount
  nonneg := sameEquity_of_nonneg h hi hamount hpositive

end CentralBank

end Insolvency
