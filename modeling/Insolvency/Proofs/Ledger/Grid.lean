/-
Books with few places.

Books in whole units, in cents or in any `10⁻ᵏ` are added up exactly as long as no total on
the way reaches 2⁹⁶ of them, and then their equity is what is owned less what is owed to the
last place.  Where nothing in the books is below nothing, no total on the way is above the
last one, and only that has to be looked at.
-/
import Insolvency.Proofs.Decimal.Grid
import Insolvency.Proofs.Ledger.Agreement

namespace Insolvency

open Decimal

namespace Decimal

theorem onGrid_exactSum {k : Nat} {ds : List Decimal} (hds : ∀ d ∈ ds, OnGrid k d.toRat) :
    OnGrid k (exactSum ds) := by
  induction ds with
  | nil => exact onGrid_zero k
  | cons d rest ih =>
      obtain ⟨hd, hrest⟩ := List.forall_mem_cons.mp hds
      exact exactSum_cons d rest ▸ hd.add (ih hrest)

/-- Where nothing is taken away, a running total is never above the last. -/
theorem runsWithin_of_nonneg {k : Nat} {ds : List Decimal} (hds : AllNonneg ds)
    (h : exactSum ds < gridBound k) : RunsWithin k 0 ds := by
  intro n
  have hsplit : exactSum ds = exactSum (ds.take n) + exactSum (ds.drop n) := by
    rw [← exactSum_append, List.take_append_drop]
  have htaken : 0 ≤ exactSum (ds.take n) :=
    exactSum_nonneg fun d hd => hds d (List.mem_of_mem_take hd)
  have hleft : 0 ≤ exactSum (ds.drop n) :=
    exactSum_nonneg fun d hd => hds d (List.mem_of_mem_drop hd)
  rw [zero_add, abs_of_nonneg htaken]
  linarith

end Decimal

/-! ### Accounts -/

namespace Accounts

variable {κ : Type} [Ord κ] {k : Nat} {a b : Accounts κ} {v : Decimal}

/-- Every account holds a multiple of `10⁻ᵏ`. -/
def OnGrid (k : Nat) (a : Accounts κ) : Prop := ∀ v ∈ a.values, Decimal.OnGrid k v.toRat

theorem OnGrid.amount [Std.LawfulEqOrd κ] (h : a.OnGrid k) (key : κ) :
    Decimal.OnGrid k (a.amount key).toRat := by
  rcases lookup_getD_mem key a.entries with hzero | hmem
  · rw [Accounts.amount, Table.get?, hzero, toRat_zero]
    exact onGrid_zero k
  · exact h _ hmem

theorem OnGrid.swept (h : a.OnGrid k) : Accounts.OnGrid k a.swept := by
  intro v hv
  rw [values_swept] at hv
  exact h v (List.mem_of_mem_filter hv)

/-- Accounts are added up exactly if every running total is in bounds. -/
theorem OnGrid.exists_total (h : a.OnGrid k) (hruns : RunsWithin k 0 a.values) :
    ∃ t, a.total = .ok t ∧ t.toRat = a.exactTotal := by
  have hzero : Decimal.OnGrid k (0 : Decimal).toRat := by
    rw [toRat_zero]
    exact onGrid_zero k
  rw [← toRat_zero] at hruns
  obtain ⟨t, ht, hsum⟩ := foldlM_add_of_onGrid hzero h hruns
  rw [toRat_zero, zero_add] at hsum
  exact ⟨t, ht, hsum⟩

/-- An account is credited exactly if it stays in bounds. -/
theorem OnGrid.credit [Std.TransOrd κ] [Std.LawfulEqOrd κ] {key : κ} (ha : a.OnGrid k)
    (hv : Decimal.OnGrid k v.toRat) (hlt : |(a.amount key).toRat + v.toRat| < gridBound k)
    (h : a.credit key v = .ok b) :
    Accounts.OnGrid k b ∧ exactTotal b = a.exactTotal + v.toRat := by
  simp only [Accounts.credit, bind_eq_ok, pure_eq_ok] at h
  obtain ⟨new, hnew, rfl⟩ := h
  obtain ⟨r, hr, hsum⟩ := exists_add_of_onGrid (ha.amount key) hv hlt
  obtain rfl : r = new := Except.ok.inj (hr.symm.trans hnew)
  refine ⟨fun w hw => ?_, ?_⟩
  · rcases Table.mem_values_insert hw with rfl | hold
    · exact hsum ▸ (ha.amount key).add hv
    · exact ha w hold
  · rw [exactTotal_insert, hsum]
    ring

end Accounts

/-! ### The ledgers -/

section Ledgers

variable {k : Nat} {v : Decimal}

theorem Assets.onGrid_creditHolding {a b : Assets} {cls : AssetClass} (ha : a.holdings.OnGrid k)
    (hv : Decimal.OnGrid k v.toRat) (hlt : |(a.holding cls).toRat + v.toRat| < gridBound k)
    (h : a.creditHolding cls v = .ok b) :
    b.holdings.OnGrid k ∧ b.exactTotal = a.exactTotal + v.toRat := by
  simp only [creditHolding, bind_eq_ok, pure_eq_ok] at h
  obtain ⟨credited, hcredit, rfl⟩ := h
  obtain ⟨hgrid, hsum⟩ := ha.credit hv hlt hcredit
  exact ⟨hgrid.swept, (Accounts.exactTotal_swept credited).trans hsum⟩

theorem Liabilities.onGrid_creditLoan {l m : Liabilities} {creditor : AgentId}
    (hloans : l.loans.OnGrid k) (hdeposits : l.deposits.OnGrid k)
    (hv : Decimal.OnGrid k v.toRat) (hlt : |(l.loan creditor).toRat + v.toRat| < gridBound k)
    (h : l.creditLoan creditor v = .ok m) :
    m.loans.OnGrid k ∧ m.deposits.OnGrid k ∧ m.exactTotal = l.exactTotal + v.toRat := by
  simp only [creditLoan, Liabilities.swept, bind_eq_ok, pure_eq_ok] at h
  obtain ⟨credited, hcredit, rfl⟩ := h
  obtain ⟨hgrid, hsum⟩ := hloans.credit hv hlt hcredit
  refine ⟨hgrid.swept, hdeposits.swept, ?_⟩
  rw [exactTotal, Accounts.exactTotal_swept, Accounts.exactTotal_swept, hsum, exactTotal]
  ring

end Ledgers

/-! ### The sheet -/

namespace BalanceSheet

variable {k : Nat} {s : BalanceSheet}

/-- All that is owned and owed are multiples of `10⁻ᵏ`. -/
structure OnGrid (k : Nat) (s : BalanceSheet) : Prop where
  holdings : s.assets.holdings.OnGrid k
  loans : s.liabilities.loans.OnGrid k
  deposits : s.liabilities.deposits.OnGrid k

/-- Every total that comes up when equity is worked out is below 2⁹⁶ times `10⁻ᵏ`. -/
structure TotalsWithin (k : Nat) (s : BalanceSheet) : Prop where
  holdings : RunsWithin k 0 s.assets.holdings.values
  loans : RunsWithin k 0 s.liabilities.loans.values
  deposits : RunsWithin k 0 s.liabilities.deposits.values
  liabilities : |s.liabilities.exactTotal| < gridBound k
  equity : |s.exactEquity| < gridBound k

/-- Equity without a place lost. -/
theorem OnGrid.exists_equity (h : s.OnGrid k) (htotals : s.TotalsWithin k) :
    ∃ d, s.equity = .ok d ∧ d.toRat = s.exactEquity := by
  obtain ⟨assets, hassets, hasum⟩ := h.holdings.exists_total htotals.holdings
  obtain ⟨loans, hloans, hlsum⟩ := h.loans.exists_total htotals.loans
  obtain ⟨deposits, hdeposits, hdsum⟩ := h.deposits.exists_total htotals.deposits
  have hagrid : Decimal.OnGrid k assets.toRat := hasum ▸ onGrid_exactSum h.holdings
  have hlgrid : Decimal.OnGrid k loans.toRat := hlsum ▸ onGrid_exactSum h.loans
  have hdgrid : Decimal.OnGrid k deposits.toRat := hdsum ▸ onGrid_exactSum h.deposits
  have howed : loans.toRat + deposits.toRat = s.liabilities.exactTotal := by
    rw [hlsum, hdsum, Liabilities.exactTotal]
  obtain ⟨owed, hadd, hosum⟩ := exists_add_of_onGrid hlgrid hdgrid (howed ▸ htotals.liabilities)
  have hleft : assets.toRat - owed.toRat = s.exactEquity := by
    rw [hosum, howed, hasum, exactEquity, Assets.exactTotal]
  have hogrid : Decimal.OnGrid k owed.toRat := hosum ▸ hlgrid.add hdgrid
  obtain ⟨d, hsub, hdiff⟩ := exists_sub_of_onGrid hagrid hogrid (hleft ▸ htotals.equity)
  refine ⟨d, ?_, hdiff.trans hleft⟩
  have hliabilities : s.totalLiabilities = .ok owed := by
    rw [totalLiabilities, Liabilities.total, hloans, hdeposits]
    exact hadd
  rw [BalanceSheet.equity, totalAssets, Assets.total, hassets, hliabilities]
  exact hsub

/-- Of books with nothing below nothing only the two last totals have to be looked at. -/
theorem totalsWithin_of_nonneg (hassets : s.assets.holdings.Nonneg)
    (hloans : s.liabilities.loans.Nonneg) (hdeposits : s.liabilities.deposits.Nonneg)
    (howned : s.assets.exactTotal < gridBound k) (howed : s.liabilities.exactTotal < gridBound k) :
    s.TotalsWithin k := by
  have hloans' := Accounts.exactTotal_nonneg hloans
  have hdeposits' := Accounts.exactTotal_nonneg hdeposits
  have hassets' : 0 ≤ s.assets.exactTotal := Accounts.exactTotal_nonneg hassets
  have hparts : s.liabilities.exactTotal
      = s.liabilities.loans.exactTotal + s.liabilities.deposits.exactTotal := rfl
  refine ⟨runsWithin_of_nonneg hassets howned, runsWithin_of_nonneg hloans ?_,
    runsWithin_of_nonneg hdeposits ?_, ?_, ?_⟩
  · change s.liabilities.loans.exactTotal < gridBound k
    linarith
  · change s.liabilities.deposits.exactTotal < gridBound k
    linarith
  · rw [abs_lt]
    constructor <;> linarith
  · rw [exactEquity, abs_lt]
    constructor <;> linarith

end BalanceSheet

end Insolvency
