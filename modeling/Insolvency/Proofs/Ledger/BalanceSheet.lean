/-
A balance sheet as numbers.

What an institution owns and owes is taken exactly here, entry by entry, and so is the
equity that the two leave; how many entries there are is what the rounding of the
library's own figures goes by.
-/
import Insolvency.Ledger.BalanceSheet
import Insolvency.Proofs.Ledger.Accounts

namespace Insolvency

open Decimal

/-! ### Assets -/

namespace Assets

/-- What is owned, as a number. -/
def exactTotal (a : Assets) : ℚ := a.holdings.exactTotal

/-- How many holdings are booked. -/
def entryCount (a : Assets) : Nat := a.holdings.entries.length

/-- A holding that is credited, and the others. -/
theorem creditHolding_eq_ok {a b : Assets} {cls : AssetClass} {v : Decimal}
    (h : a.creditHolding cls v = .ok b) :
    ∃ new, Rounds ((a.holding cls).toRat + v.toRat) new ∧
      b.holdings = Accounts.swept (a.holdings.insert cls new) := by
  simp only [creditHolding, Accounts.credit, bind_eq_ok, pure_eq_ok] at h
  obtain ⟨credited, ⟨new, hnew, rfl⟩, rfl⟩ := h
  exact ⟨new, rounds_add hnew, rfl⟩

/-- The holding credited is the sum, and the others stay. -/
theorem add_of_creditHolding {a b : Assets} {cls : AssetClass} {v : Decimal}
    (h : a.creditHolding cls v = .ok b) :
    (a.holding cls).add v = .ok (b.holding cls) ∧ ∀ c ≠ cls, b.holding c = a.holding c := by
  simp only [creditHolding, bind_eq_ok, pure_eq_ok] at h
  obtain ⟨credited, hcredit, rfl⟩ := h
  have hamount := Accounts.amount_credit hcredit
  refine ⟨?_, fun c hne => ?_⟩
  · rw [holding, holding, Accounts.amount_swept]
    exact (if_pos rfl).mp (hamount cls)
  · rw [holding, holding, Accounts.amount_swept]
    exact (if_neg hne).mp (hamount c)

/-- So it is rounded once. -/
theorem holding_creditHolding {a b : Assets} {cls : AssetClass} {v : Decimal}
    (h : a.creditHolding cls v = .ok b) :
    Rounds ((a.holding cls).toRat + v.toRat) (b.holding cls) ∧
      ∀ c ≠ cls, b.holding c = a.holding c := by
  obtain ⟨hsum, hothers⟩ := add_of_creditHolding h
  exact ⟨rounds_add hsum, hothers⟩

/-- Crediting a holding changes the total by the credit, but for one rounding. -/
theorem exactTotal_creditHolding {a b : Assets} {cls : AssetClass} {v : Decimal}
    (h : a.creditHolding cls v = .ok b) {c : ℚ} (hc : 1 ≤ c)
    (hsize : |(a.holding cls).toRat + v.toRat| ≤ c) :
    |b.exactTotal - (a.exactTotal + v.toRat)| ≤ 2 / 3 * grain * c := by
  obtain ⟨new, hnew, hb⟩ := creditHolding_eq_ok h
  have hsplit : b.exactTotal - (a.exactTotal + v.toRat)
      = new.toRat - ((a.holding cls).toRat + v.toRat) := by
    rw [exactTotal, hb, Accounts.exactTotal_swept, Accounts.exactTotal_insert, exactTotal, holding]
    ring
  rw [hsplit]
  exact hnew.abs_sub_le hc hsize

theorem nonneg_creditHolding {a b : Assets} {cls : AssetClass} {v : Decimal}
    (h : a.creditHolding cls v = .ok b) (ha : a.holdings.Nonneg)
    (hv : 0 ≤ (a.holding cls).toRat + v.toRat) : b.holdings.Nonneg := by
  obtain ⟨new, hnew, hb⟩ := creditHolding_eq_ok h
  rw [hb]
  exact (ha.insert cls (hnew.nonneg hv)).swept

theorem entryCount_creditHolding_le {a b : Assets} {cls : AssetClass} {v : Decimal}
    (h : a.creditHolding cls v = .ok b) : b.entryCount ≤ a.entryCount + 1 := by
  obtain ⟨new, -, hb⟩ := creditHolding_eq_ok h
  rw [entryCount, hb]
  exact (Accounts.length_swept_le _).trans (Table.length_insert_le ..)

end Assets

/-! ### Liabilities -/

namespace Liabilities

/-- What is owed, as a number. -/
def exactTotal (l : Liabilities) : ℚ := l.loans.exactTotal + l.deposits.exactTotal

/-- How many loans and deposits are booked. -/
def entryCount (l : Liabilities) : Nat := l.loans.entries.length + l.deposits.entries.length

/-- The loan credited is the sum, and the others stay, as do all deposits. -/
theorem add_of_creditLoan {l m : Liabilities} {creditor : AgentId} {v : Decimal}
    (h : l.creditLoan creditor v = .ok m) :
    (l.loan creditor).add v = .ok (m.loan creditor) ∧
      (∀ c ≠ creditor, m.loan c = l.loan c) ∧ ∀ c, m.deposit c = l.deposit c := by
  simp only [creditLoan, swept, bind_eq_ok, pure_eq_ok] at h
  obtain ⟨credited, hcredit, rfl⟩ := h
  have hamount := Accounts.amount_credit hcredit
  refine ⟨?_, fun c hne => ?_, fun c => Accounts.amount_swept l.deposits c⟩
  · rw [loan, loan, Accounts.amount_swept]
    exact (if_pos rfl).mp (hamount creditor)
  · rw [loan, loan, Accounts.amount_swept]
    exact (if_neg hne).mp (hamount c)

theorem nonneg_creditLoan {l m : Liabilities} {creditor : AgentId} {v : Decimal}
    (h : l.creditLoan creditor v = .ok m) (hloans : l.loans.Nonneg) (hdeposits : l.deposits.Nonneg)
    (hv : 0 ≤ v.toRat) : m.loans.Nonneg ∧ m.deposits.Nonneg := by
  simp only [creditLoan, Accounts.credit, bind_eq_ok, pure_eq_ok] at h
  obtain ⟨credited, ⟨new, hnew, rfl⟩, rfl⟩ := h
  have hsum := (rounds_add hnew).nonneg (add_nonneg (Accounts.amount_nonneg hloans creditor) hv)
  exact ⟨(hloans.insert creditor hsum).swept, hdeposits.swept⟩

end Liabilities

/-! ### Shares -/

namespace Shares

variable {r r' : Shares} {holder : AgentId} {q : Decimal}

/-- As long as the account can bear it, no account is below nothing. -/
theorem nonneg_issue_of_add_nonneg (h : r.issue holder q = .ok r') (hr : r.holders.Nonneg)
    (hq : 0 ≤ (r.held holder).toRat + q.toRat) : r'.holders.Nonneg := by
  simp only [issue, Accounts.credit, bind_eq_ok, pure_eq_ok] at h
  obtain ⟨credited, ⟨new, hnew, rfl⟩, rfl⟩ := h
  exact (hr.insert holder ((rounds_add hnew).nonneg hq)).swept

theorem nonneg_issue (h : r.issue holder q = .ok r') (hr : r.holders.Nonneg)
    (hq : 0 ≤ q.toRat) : r'.holders.Nonneg :=
  nonneg_issue_of_add_nonneg h hr (add_nonneg (Accounts.amount_nonneg hr holder) hq)

end Shares

/-! ### The sheet -/

namespace BalanceSheet

/-- What is owned less what is owed, as a number. -/
def exactEquity (s : BalanceSheet) : ℚ := s.assets.exactTotal - s.liabilities.exactTotal

/-- How many entries the books have. -/
def entryCount (s : BalanceSheet) : Nat :=
  s.assets.entryCount + s.liabilities.entryCount + s.shares.holders.entries.length

/-- Nothing in the books is below nothing. -/
structure Nonneg (s : BalanceSheet) : Prop where
  assets : s.assets.holdings.Nonneg
  loans : s.liabilities.loans.Nonneg
  deposits : s.liabilities.deposits.Nonneg
  shares : s.shares.holders.Nonneg

/-- Books pass the check just when nothing in them is below nothing. -/
theorem nonneg_iff {s : BalanceSheet} : s.Nonneg ↔ s.fault? = none := by
  have hparts : s.Nonneg ↔ s.assets.hasNegative = false ∧ s.liabilities.hasNegative = false ∧
      s.shares.hasNegative = false := by
    rw [Assets.hasNegative, Liabilities.hasNegative, Shares.hasNegative, Bool.or_eq_false_iff,
      ← Accounts.nonneg_iff, ← Accounts.nonneg_iff, ← Accounts.nonneg_iff, ← Accounts.nonneg_iff]
    exact ⟨fun h => ⟨h.assets, ⟨h.loans, h.deposits⟩, h.shares⟩,
      fun ⟨ha, ⟨hl, hd⟩, hs⟩ => ⟨ha, hl, hd, hs⟩⟩
  rw [hparts, fault?]
  cases s.assets.hasNegative <;> cases s.liabilities.hasNegative <;>
    cases s.shares.hasNegative <;> simp

end BalanceSheet

end Insolvency
