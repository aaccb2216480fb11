/-
Cash payments stay in range.

What a creditor gets is a product divided by all debts: the cash that there is, times what
the creditor is owed.  The product goes by the size of the one times the other, and it alone
can be too large.  The loop takes each payment off the creditor's loan and deposit and adds
it to what was paid so far, so these stay within what was owed to all who have had their
turn, but for a rounding each.
-/
import Mathlib.Algebra.BigOperators.Ring.List
import Insolvency.Proofs.AssetThreshold.CashPayments
import Insolvency.Proofs.Episode.InRange

namespace Insolvency

open Decimal

variable {P : Fault → Prop} {c m size : ℚ}

/-! ### Liabilities -/

namespace Liabilities

variable {l : Liabilities} {creditor : AgentId} {v : Decimal}

/-- No loan and no deposit is further from nothing than this. -/
structure Within (c : ℚ) (l : Liabilities) : Prop where
  loans : l.loans.Within c
  deposits : l.deposits.Within c

theorem Within.mono {c' : ℚ} (h : l.Within c) (hle : c ≤ c') : l.Within c' :=
  ⟨h.loans.mono hle, h.deposits.mono hle⟩

theorem yields_creditLoan (hl : l.Within c) (hv : |v.toRat| ≤ m) (h : c + m ≤ 7 * 10 ^ 28) :
    Yields P (Liabilities.Within (c + m + 1 / 2)) (l.creditLoan creditor v) := by
  have hm := (abs_nonneg _).trans hv
  exact (Accounts.yields_credit hl.loans hv h).bind fun _ _ hloans =>
    yields_pure ⟨hloans.swept, hl.deposits.swept.mono (by linarith)⟩

theorem yields_creditDeposit (hl : l.Within c) (hv : |v.toRat| ≤ m) (h : c + m ≤ 7 * 10 ^ 28) :
    Yields P (Liabilities.Within (c + m + 1 / 2)) (l.creditDeposit creditor v) := by
  have hm := (abs_nonneg _).trans hv
  exact (Accounts.yields_credit hl.deposits hv h).bind fun _ _ hdeposits =>
    yields_pure ⟨hl.loans.swept.mono (by linarith), hdeposits.swept⟩

end Liabilities

namespace AssetThreshold

/-! ### One creditor -/

section Creditor

variable {available totalDebt : Decimal} {owed : AgentId × Owed} {state : Episode × Decimal}

/-- What is known of a creditor that is to be paid: it is owed nothing below nothing, and no more
than all creditors are. -/
structure Payable (available totalDebt : Decimal) (size : ℚ) (owed : Owed) : Prop where
  loan : 0 ≤ owed.loanValue.toRat
  deposit : 0 ≤ owed.depositValue.toRat
  inRange : owed.exactTotal ≤ 10 ^ 28
  le : ∀ t, owed.total = .ok t → t.toRat ≤ totalDebt.toRat
  product : available.toRat * owed.exactTotal ≤ size

theorem Payable.exactTotal_nonneg {owed : Owed} (h : Payable available totalDebt size owed) :
    0 ≤ owed.exactTotal :=
  add_nonneg h.loan h.deposit

theorem yields_payment {owed : Owed} (h : Payable available totalDebt size owed)
    (h0 : 0 ≤ available.toRat) (havailable : available.toRat ≤ 10 ^ 28)
    (hdue : .epsilon < totalDebt) :
    Yields (LargeProduct size)
      (fun amount => 0 ≤ amount.toRat ∧ amount.toRat ≤ owed.exactTotal + 1 / 2)
      (payment available totalDebt owed) := by
  have howed := h.exactTotal_nonneg
  have hsum : owed.loanValue.toRat + owed.depositValue.toRat = owed.exactTotal := rfl
  refine (yields_add (a := owed.loanValue) (b := owed.depositValue) ?_).bind
    fun total htotal hround => ?_
  · rw [hsum, abs_of_nonneg howed]
    linarith [h.inRange]
  have htotal0 := hround.nonneg howed
  have hnear := add_le_of_nonneg htotal h.loan h.deposit
  rw [hsum] at hround hnear
  refine (yields_mul ?_).bind fun product _ hproduct => ?_
  · rw [abs_of_nonneg (mul_nonneg h0 htotal0)]
    have := mul_le_mul_of_nonneg_left hnear h0
    have := mul_nonneg h0 howed
    linarith [h.product]
  refine (yields_part hproduct h0 (by linarith) htotal0 (h.le total htotal) hdue).bind
    fun part _ hpart => ?_
  refine yields_pure ?_
  rw [toRat_min]
  refine ⟨le_min hpart.1 htotal0, (min_le_right _ _).trans ?_⟩
  linarith [(abs_le.mp hround.abs_sub_le_half).2]

theorem yields_takeOff {l : Liabilities} {creditor : AgentId} {loan amount : Decimal}
    (hl : l.Within c) (hloan : 0 ≤ loan.toRat) (h0 : 0 ≤ amount.toRat)
    (h : c + 2 * amount.toRat + 1 ≤ 7 * 10 ^ 28) :
    Yields P (Liabilities.Within (c + 2 * amount.toRat + 1)) (takeOff l creditor loan amount) := by
  have hmin := toRat_min amount loan
  have hfrom0 : 0 ≤ (min amount loan).toRat := hmin ▸ le_min h0 hloan
  have hfrom : (min amount loan).toRat ≤ amount.toRat := hmin ▸ min_le_left _ _
  have hdebit : |(-min amount loan).toRat| ≤ amount.toRat := by
    rwa [toRat_neg, abs_neg, abs_of_nonneg hfrom0]
  refine (Liabilities.yields_creditLoan hl hdebit (by linarith)).bind fun l' _ hl' => ?_
  refine (yields_sub_of_le hfrom0 hfrom).bind fun rest _ hrest => ?_
  have hdebit' : |(-rest).toRat| ≤ amount.toRat := by
    rw [toRat_neg, abs_neg, abs_of_nonneg hrest.1]
    exact hrest.2
  exact (Liabilities.yields_creditDeposit hl' hdebit' (by linarith)).imp fun _ _ hl'' =>
    hl''.mono (by linarith)

/-- What has been paid, and what is owed on the books, within a bound each. -/
structure PaidWithin (c : ℚ) (state : Episode × Decimal) : Prop where
  liabilities : state.1.liabilities.Within (10 ^ 28 + c)
  claims : state.1.ClaimsInRange
  paid : |state.2.toRat| ≤ c

theorem yields_payCreditor (h : Payable available totalDebt size owed.2)
    (h0 : 0 ≤ available.toRat) (havailable : available.toRat ≤ 10 ^ 28)
    (hdue : .epsilon < totalDebt) (hstate : PaidWithin c state)
    (hbound : c + (2 * owed.2.exactTotal + 2) ≤ 6 * 10 ^ 28) :
    Yields (LargeProduct size) (PaidWithin (c + (2 * owed.2.exactTotal + 2)))
      (payCreditor available totalDebt state owed) := by
  have howed := h.exactTotal_nonneg
  refine (yields_payment h h0 havailable hdue).bind fun amount _ hamount => ?_
  split_ifs
  · exact yields_pure ⟨hstate.liabilities.mono (by linarith), hstate.claims,
      hstate.paid.trans (by linarith)⟩
  refine (yields_takeOff hstate.liabilities h.loan hamount.1 (by linarith)).bind
    fun liabilities _ hliabilities => ?_
  refine (Episode.yields_writeDownClaim
    (e := state.1.withLiabilities liabilities) hstate.claims).bind fun e _ he => ?_
  have hpaid : |amount.toRat| ≤ owed.2.exactTotal + 1 / 2 :=
    (abs_of_nonneg hamount.1).trans_le hamount.2
  refine (yields_add_within hstate.paid hpaid (by linarith)).bind fun paid _ hpaid => ?_
  refine yields_pure ⟨?_, he.1, hpaid.trans (by linarith)⟩
  rw [he.2]
  exact hliabilities.mono (by linarith)

end Creditor

/-! ### All creditors -/

section Creditors

variable {e : Episode} {cash : CashRule} {available totalDebt : Decimal}

/-- Books that can be paid from: nothing in them is below nothing, and what they come to is an
amount. -/
structure Solid (e : Episode) (size : ℚ) : Prop where
  sheet : e.institution.sheet.Nonneg
  assets : e.assets.exactTotal ≤ 10 ^ 28
  liabilities : e.liabilities.exactTotal ≤ 10 ^ 28
  entries : e.liabilities.entryCount ≤ maxEntries
  product : e.assets.exactTotal * e.liabilities.exactTotal ≤ size

theorem Solid.cash_bounds (h : Solid e size) :
    0 ≤ e.assets.cash.toRat ∧ e.assets.cash.toRat ≤ e.assets.exactTotal :=
  ⟨Accounts.amount_nonneg h.sheet.assets .cash, Accounts.amount_le_exactTotal h.sheet.assets .cash⟩

theorem Solid.within (h : Solid e size) : e.liabilities.Within (10 ^ 28) := by
  have hloans := Accounts.exactTotal_nonneg h.sheet.loans
  have hdeposits := Accounts.exactTotal_nonneg h.sheet.deposits
  have htotal := h.liabilities
  unfold Liabilities.exactTotal at htotal
  refine ⟨h.sheet.loans.within.mono ?_, h.sheet.deposits.within.mono ?_⟩
  · change e.liabilities.loans.exactTotal ≤ _
    change 0 ≤ e.liabilities.deposits.exactTotal at hdeposits
    linarith
  · change e.liabilities.deposits.exactTotal ≤ _
    change 0 ≤ e.liabilities.loans.exactTotal at hloans
    linarith

theorem payable_of_mem (h : Solid e size) (htotal : e.liabilities.total = .ok totalDebt)
    (h0 : 0 ≤ available.toRat) (havailable : available.toRat ≤ e.assets.exactTotal)
    {x : AgentId × Owed} (hx : x ∈ e.liabilities.byCreditor.entries) :
    Payable available totalDebt size x.2 := by
  have hloan := Accounts.amount_nonneg h.sheet.loans x.1
  have hdeposit := Accounts.amount_nonneg h.sheet.deposits x.1
  have hle : x.2.exactTotal ≤ e.liabilities.exactTotal := by
    rw [Liabilities.eq_of_mem_byCreditor hx]
    exact add_le_add (Accounts.amount_le_exactTotal h.sheet.loans x.1)
      (Accounts.amount_le_exactTotal h.sheet.deposits x.1)
  have howed : 0 ≤ x.2.exactTotal :=
    Liabilities.nonneg_of_mem_byCreditor h.sheet.loans h.sheet.deposits hx
  refine ⟨?_, ?_, hle.trans h.liabilities, fun t ht => ?_, ?_⟩
  · rw [Liabilities.eq_of_mem_byCreditor hx]
    exact hloan
  · rw [Liabilities.eq_of_mem_byCreditor hx]
    exact hdeposit
  · simp only [Liabilities.total, bind_eq_ok] at htotal
    obtain ⟨loans, hloans, deposits, hdeposits, hadd⟩ := htotal
    rw [Liabilities.eq_of_mem_byCreditor hx] at ht
    refine (rounds_add ht).mono (rounds_add hadd) (add_le_add ?_ ?_)
    · exact Accounts.amount_le_total hloans h.sheet.loans x.1
    · exact Accounts.amount_le_total hdeposits h.sheet.deposits x.1
  · exact (mul_le_mul havailable hle howed (h0.trans havailable)).trans h.product

/-- All creditors are paid: what is paid to all of them is what they are owed, at most twice. -/
theorem yields_payCreditors (h : Solid e size) (htotal : e.liabilities.total = .ok totalDebt)
    (hdue : .epsilon < totalDebt) (havailable : available.toRat ≤ e.assets.exactTotal)
    (hclaims : e.ClaimsInRange) :
    Yields (LargeProduct size) (fun paid => |paid.2.toRat| ≤ 3 * 10 ^ 28)
      (payCreditors e available totalDebt) := by
  unfold payCreditors
  split_ifs with hnone
  · have h0 := (zero_lt_iff.mp hnone).le
    have hpayable := fun x hx => payable_of_mem (x := x) h htotal h0 havailable hx
    have hlength := (Liabilities.length_byCreditor_le e.liabilities).trans h.entries
    have hlength' : (e.liabilities.byCreditor.entries.length : ℚ) ≤ 2 ^ 64 := by
      exact_mod_cast hlength
    have hdebts := h.liabilities
    have hspent : (e.liabilities.byCreditor.entries.map fun x => 2 * x.2.exactTotal + 2).sum
        = 2 * e.liabilities.exactTotal + 2 * e.liabilities.byCreditor.entries.length := by
      rw [List.sum_map_add, List.sum_map_mul_left, Liabilities.sum_byCreditor, List.map_const',
        List.sum_replicate, nsmul_eq_mul, mul_comm (2 : ℚ) (List.length _)]
    have hstart : PaidWithin 0 (e, 0) :=
      ⟨h.within.mono (by linarith), hclaims, by rw [toRat_zero, abs_zero]⟩
    refine (yields_foldlM_spending (w := fun x => 2 * x.2.exactTotal + 2) (l := 6 * 10 ^ 28) hstart
      (fun x hx => ?_) ?_ fun x hx u state hstate hle => ?_).imp
      fun paid _ hpaid => hpaid.paid.trans ?_
    · linarith [(hpayable x hx).exactTotal_nonneg]
    · rw [hspent]
      linarith
    · exact yields_payCreditor (hpayable x hx) h0 (havailable.trans h.assets) hdue hstate hle
    · rw [hspent]
      linarith
  · refine yields_ok ?_
    rw [toRat_zero, abs_zero]
    positivity

theorem yields_spendable (h : Solid e size) (hcash : cash.fault? = none) :
    Yields P (fun spendable => spendable.toRat ≤ e.assets.cash.toRat)
      (cash.spendable e.assets) := by
  obtain ⟨h0, hle⟩ := h.cash_bounds
  cases cash with
  | allCash => exact yields_ok le_rfl
  | cashFraction fraction =>
      obtain ⟨hf0, hf1⟩ : 0 ≤ fraction.toRat ∧ fraction.toRat ≤ 1 := by
        simp only [CashRule.fault?] at hcash
        split_ifs at hcash with hrange
        rw [not_or, lt_iff_toRat, lt_iff_toRat, toRat_zero, toRat_one, not_lt, not_lt] at hrange
        exact hrange
      have hproduct : e.assets.cash.toRat * fraction.toRat ≤ e.assets.cash.toRat :=
        mul_le_of_le_one_right h0 hf1
      refine (yields_mul_of_le ?_).imp fun r _ hr => hr.le_of_le hproduct
      rw [abs_of_nonneg (mul_nonneg h0 hf0)]
      linarith [h.assets]

/-- The creditors share the cash, or a product was too large. -/
theorem yields_compensateInCash (h : Solid e size) (hcash : cash.fault? = none)
    (htotal : e.liabilities.total = .ok totalDebt) (hdue : .epsilon < totalDebt)
    (hclaims : e.ClaimsInRange) :
    Yields (LargeProduct size) (fun _ => True) (compensateInCash e cash totalDebt) := by
  obtain ⟨h0, hle⟩ := h.cash_bounds
  refine (yields_spendable h hcash).bind fun spendable _ hspendable => ?_
  have havailable : (min spendable totalDebt).toRat ≤ e.assets.exactTotal := by
    rw [toRat_min]
    exact (min_le_left _ _).trans (hspendable.trans hle)
  refine (yields_payCreditors h htotal hdue havailable hclaims).bind
    fun ⟨e', paid⟩ hpay hpaid => ?_
  have hspent : |(-min paid e.assets.cash).toRat| ≤ 3 * 10 ^ 28 := by
    rw [toRat_neg, abs_neg, toRat_min]
    refine (abs_min_le_max_abs_abs).trans (max_le hpaid ?_)
    rw [abs_of_nonneg h0]
    linarith [h.assets]
  have hheld : e'.assets.holdings.Within (10 ^ 28) := by
    rw [(payCreditors_paysOut hpay).assets]
    exact h.sheet.assets.within.mono h.assets
  refine Yields.bind (Q := fun _ => True) ?_ fun _ _ _ => yields_pure trivial
  exact (Accounts.yields_credit hheld hspent (by norm_num)).bind fun _ _ _ => yields_pure trivial

end Creditors

end AssetThreshold

end Insolvency
