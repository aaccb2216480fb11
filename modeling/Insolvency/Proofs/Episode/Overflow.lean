/-
Only an overflow stops an episode.

Past the checks of a policy nothing is refused any more, so an episode fails where its
arithmetic does.  And the arithmetic never divides by nothing: every divisor is a figure that
was compared with dust before, or the number of shares, which is made one where there are none.
What is left are results too large to be amounts.

There is one lemma for each step, in the order of the steps.
-/
import Insolvency.Authority
import Insolvency.Proofs.Decimal.Overflow
import Insolvency.Proofs.SellOff.Course

namespace Insolvency

open Decimal

/-! ### The books -/

theorem Table.failsOnlyBy_traverseEntries {κ α β ε : Type} {P : ε → Prop} {f : κ → α → Except ε β}
    (hf : ∀ k v, FailsOnlyBy P (f k v)) (es : List (κ × α)) :
    FailsOnlyBy P (traverseEntries f es) := by
  induction es with
  | nil => exact failsOnlyBy_ok _
  | cons x rest ih => exact (hf x.1 x.2).bind fun _ _ => ih.bind fun _ _ => failsOnlyBy_pure _

namespace Accounts

variable {κ : Type} [Ord κ]

theorem failsOnlyBy_credit [Std.TransOrd κ] [Std.LawfulEqOrd κ] (a : Accounts κ) (k : κ)
    (v : Decimal) : FailsOnlyBy Fault.IsOverflow (a.credit k v) :=
  (failsOnlyBy_add _ _).bind fun _ _ => failsOnlyBy_pure _

theorem failsOnlyBy_scale (a : Accounts κ) (factor : Decimal) :
    FailsOnlyBy Fault.IsOverflow (a.scale factor) := by
  refine FailsOnlyBy.bind ?_ fun _ _ => failsOnlyBy_pure _
  refine FailsOnlyBy.bind (Table.failsOnlyBy_traverseEntries (fun _ v => ?_) _) fun _ _ =>
    failsOnlyBy_pure _
  exact (failsOnlyBy_mul v factor).bind fun _ _ =>
    (failsOnlyBy_sub _ _).bind fun _ _ => failsOnlyBy_pure _

end Accounts

theorem Assets.failsOnlyBy_creditHolding (a : Assets) (cls : AssetClass) (v : Decimal) :
    FailsOnlyBy Fault.IsOverflow (a.creditHolding cls v) :=
  (Accounts.failsOnlyBy_credit _ _ _).bind fun _ _ => failsOnlyBy_pure _

theorem Liabilities.failsOnlyBy_total (l : Liabilities) : FailsOnlyBy Fault.IsOverflow l.total :=
  (failsOnlyBy_sum _).bind fun _ _ => (failsOnlyBy_sum _).bind fun _ _ => failsOnlyBy_add _ _

theorem BalanceSheet.failsOnlyBy_equity (s : BalanceSheet) :
    FailsOnlyBy Fault.IsOverflow s.equity :=
  (failsOnlyBy_sum _).bind fun _ _ => s.liabilities.failsOnlyBy_total.bind fun _ _ =>
    failsOnlyBy_sub _ _

theorem Shares.failsOnlyBy_transfer (r : Shares) (source target : AgentId) (q : Decimal) :
    FailsOnlyBy Fault.IsOverflow (r.transfer source target q) :=
  (failsOnlyBy_issue _ _ _).bind fun _ _ => (failsOnlyBy_issue _ _ _).bind fun _ _ =>
    failsOnlyBy_pure _

theorem Government.failsOnlyBy_disburse (g : Government) (amount : Decimal) :
    FailsOnlyBy Fault.IsOverflow (g.disburse amount) :=
  (failsOnlyBy_sub _ _).bind fun _ _ => (failsOnlyBy_add _ _).bind fun _ _ => failsOnlyBy_pure _

/-! ### Any episode -/

namespace Episode

variable (e : Episode) (ctx : Context)

theorem failsOnlyBy_claimsOf (l : Liabilities) : FailsOnlyBy Fault.IsOverflow (claimsOf l) :=
  failsOnlyBy_mapM fun _ _ => (failsOnlyBy_add _ _).bind fun _ _ => failsOnlyBy_pure _

theorem failsOnlyBy_fileClaims : FailsOnlyBy Fault.IsOverflow e.fileClaims :=
  (failsOnlyBy_claimsOf _).bind fun _ _ => failsOnlyBy_pure _

theorem failsOnlyBy_writeDownIn (creditor : AgentId) (amount : Decimal) (claims : List Claim) :
    FailsOnlyBy Fault.IsOverflow (writeDownIn creditor amount claims) := by
  induction claims with
  | nil => exact failsOnlyBy_ok []
  | cons c rest ih =>
      unfold writeDownIn
      split_ifs
      · refine FailsOnlyBy.bind ?_ fun _ _ => failsOnlyBy_pure _
        exact (failsOnlyBy_sub _ _).bind fun _ _ => (failsOnlyBy_add _ _).bind fun _ _ =>
          failsOnlyBy_pure _
      · exact ih.bind fun _ _ => failsOnlyBy_pure _

theorem failsOnlyBy_writeDownClaim (creditor : AgentId) (amount : Decimal) :
    FailsOnlyBy Fault.IsOverflow (e.writeDownClaim creditor amount) :=
  (failsOnlyBy_writeDownIn _ _ _).bind fun _ _ => failsOnlyBy_pure _

theorem failsOnlyBy_cancelShares (price : Decimal) :
    FailsOnlyBy Fault.IsOverflow (e.cancelShares price) :=
  FailsOnlyBy.bind (failsOnlyBy_mapM fun _ _ => (failsOnlyBy_mul _ _).bind fun _ _ =>
    failsOnlyBy_pure _) fun _ _ => failsOnlyBy_pure _

theorem failsOnlyBy_shareCount : FailsOnlyBy Fault.IsOverflow e.shareCount :=
  (failsOnlyBy_sum _).bind fun _ _ => failsOnlyBy_pure _

theorem normalizedCount_ne_zero (outstanding : Decimal) : normalizedCount outstanding ≠ 0 := by
  unfold normalizedCount
  split_ifs with hdust
  · decide
  · exact ne_zero_of_epsilon_lt (not_le_iff.mp hdust)

/-- The number of shares that equity is split into is never nothing. -/
theorem ne_zero_of_shareCount {count : Decimal} (h : e.shareCount = .ok count) : count ≠ 0 := by
  simp only [shareCount, bind_eq_ok, pure_eq_ok] at h
  obtain ⟨outstanding, -, rfl⟩ := h
  exact normalizedCount_ne_zero outstanding

theorem failsOnlyBy_sharePrice {count : Decimal} (hcount : count ≠ 0) :
    FailsOnlyBy Fault.IsOverflow (e.sharePrice count) :=
  (BalanceSheet.failsOnlyBy_equity _).bind fun _ _ => (failsOnlyBy_div _ hcount).bind fun _ _ =>
    failsOnlyBy_pure _

theorem failsOnlyBy_giveUp (before : Institution) :
    FailsOnlyBy Fault.IsOverflow (e.giveUp before ctx) :=
  (failsOnlyBy_fileClaims _).bind fun _ _ => failsOnlyBy_pure _

theorem failsOnlyBy_addToHolding (beneficiary : AgentId) (stock : InstitutionId)
    (quantity : Decimal) (ms : List Intermediary) :
    FailsOnlyBy Fault.IsOverflow (addToHolding beneficiary stock quantity ms) := by
  induction ms with
  | nil => exact failsOnlyBy_ok none
  | cons m rest ih =>
      unfold addToHolding
      split_ifs
      · exact (failsOnlyBy_add _ _).bind fun _ _ => failsOnlyBy_pure _
      · refine ih.bind fun found _ => ?_
        cases found with
        | some _ => exact failsOnlyBy_pure _
        | none => exact failsOnlyBy_pure _

theorem failsOnlyBy_assignHolder (creditor : AgentId) (quantity : Decimal) :
    FailsOnlyBy Fault.IsOverflow (e.assignHolder creditor quantity ctx) := by
  unfold assignHolder
  split_ifs
  · exact failsOnlyBy_pure _
  · refine (failsOnlyBy_addToHolding _ _ _ _).bind fun found _ => ?_
    cases found with
    | some _ => exact failsOnlyBy_pure _
    | none => exact failsOnlyBy_pure _

theorem failsOnlyBy_allot (creditor : AgentId) (quantity value : Decimal) (basis : Entitlement) :
    FailsOnlyBy Fault.IsOverflow (e.allot creditor quantity value basis ctx) :=
  (failsOnlyBy_assignHolder _ _ _ _).bind fun _ _ =>
    (Shares.failsOnlyBy_issue _ _ _).bind fun _ _ =>
    (failsOnlyBy_add _ _).bind fun _ _ => failsOnlyBy_pure _

end Episode

theorem Totals.failsOnlyBy_settle (t : Totals) (debt settled value : Decimal) :
    FailsOnlyBy Fault.IsOverflow (t.settle debt settled value) :=
  (failsOnlyBy_add _ _).bind fun _ _ => (failsOnlyBy_sub _ _).bind fun _ _ =>
    (failsOnlyBy_add _ _).bind fun _ _ => (failsOnlyBy_sub _ _).bind fun _ _ =>
      (failsOnlyBy_add _ _).bind fun _ _ => (failsOnlyBy_add _ _).bind fun _ _ => failsOnlyBy_pure _

/-! ### Bail-ins -/

namespace Bailin

variable (e : Episode) (ctx : Context)

theorem failsOnlyBy_leftAfter (remaining recovered : Decimal) :
    FailsOnlyBy Fault.IsOverflow (leftAfter remaining recovered) :=
  (failsOnlyBy_sub _ _).bind fun _ _ => failsOnlyBy_pure _

theorem failsOnlyBy_cancelSharesAtCost (price : Decimal) :
    FailsOnlyBy Fault.IsOverflow (cancelSharesAtCost e price) := by
  refine (Episode.failsOnlyBy_cancelShares e price).bind fun cancelled _ => ?_
  refine FailsOnlyBy.bind ?_ fun _ _ => failsOnlyBy_pure _
  cases e.shares.holders.get? e.institution.agentId with
  | none => exact failsOnlyBy_pure _
  | some quantity =>
      refine FailsOnlyBy.bind ((failsOnlyBy_mul _ _).bind fun _ _ => failsOnlyBy_pure _)
        fun _ _ => ?_
      exact (Assets.failsOnlyBy_creditHolding _ _ _).bind fun _ _ => (failsOnlyBy_add _ _).bind
        fun _ _ => (failsOnlyBy_add _ _).bind fun _ _ => failsOnlyBy_pure _

theorem failsOnlyBy_writeDownFactor (remaining total : Decimal) :
    FailsOnlyBy Fault.IsOverflow (writeDownFactor remaining total) := by
  refine (failsOnlyBy_proportion _ _).bind fun p _ => ?_
  split_ifs
  · exact failsOnlyBy_pure _
  · exact (failsOnlyBy_sub _ _).bind fun _ _ => failsOnlyBy_pure _

theorem failsOnlyBy_writeDownLoans : FailsOnlyBy Fault.IsOverflow (writeDownLoans e) := by
  refine FailsOnlyBy.bind ?_ fun _ _ => (failsOnlyBy_sum _).bind fun _ _ =>
    (failsOnlyBy_leftAfter _ _).bind fun _ _ => failsOnlyBy_pure _
  refine (failsOnlyBy_sum _).bind fun total _ => ?_
  refine (failsOnlyBy_writeDownFactor _ _).bind fun factor _ => ?_
  cases factor with
  | none => exact failsOnlyBy_pure _
  | some factor => exact (Accounts.failsOnlyBy_scale _ _).bind fun _ _ => failsOnlyBy_pure _

theorem failsOnlyBy_writeDownDeposits : FailsOnlyBy Fault.IsOverflow (writeDownDeposits e) := by
  refine FailsOnlyBy.bind ?_ fun _ _ => (failsOnlyBy_sum _).bind fun _ _ =>
    (failsOnlyBy_leftAfter _ _).bind fun _ _ => failsOnlyBy_pure _
  unfold scaleDeposits
  split_ifs
  · refine (failsOnlyBy_sum _).bind fun total _ => ?_
    refine (failsOnlyBy_writeDownFactor _ _).bind fun factor _ => ?_
    cases factor with
    | none => exact failsOnlyBy_pure _
    | some factor => exact (Accounts.failsOnlyBy_scale _ _).bind fun _ _ => failsOnlyBy_pure _
  · exact failsOnlyBy_pure _

theorem failsOnlyBy_recordWriteDown (state : Episode × Accounts Loser) (loss : AgentId × Decimal) :
    FailsOnlyBy Fault.IsOverflow (recordWriteDown state loss) :=
  (Episode.failsOnlyBy_writeDownClaim _ _ _).bind fun _ _ =>
    (Accounts.failsOnlyBy_credit _ _ _).bind fun _ _ => failsOnlyBy_pure _

theorem failsOnlyBy_compensate (base totalLoss : Decimal) (loss : Loser × Decimal) :
    FailsOnlyBy Fault.IsOverflow (compensate base totalLoss ctx e loss) := by
  unfold compensate
  split_ifs
  · exact failsOnlyBy_pure e
  · exact (failsOnlyBy_proportion _ _).bind fun _ _ => (failsOnlyBy_mul _ _).bind fun _ _ =>
      Episode.failsOnlyBy_allot _ _ _ _ _ _

theorem failsOnlyBy_compensateAll (before : Institution) {base : Decimal} (hbase : base ≠ 0)
    (lost : List (AgentId × Decimal)) :
    FailsOnlyBy Fault.IsOverflow (compensateAll before base lost e ctx) := by
  refine FailsOnlyBy.bind (failsOnlyBy_foldlM (fun state loss _ =>
    failsOnlyBy_recordWriteDown state loss) _) fun recorded _ => ?_
  refine (failsOnlyBy_sum _).bind fun totalLoss _ => ?_
  refine FailsOnlyBy.bind (failsOnlyBy_foldlM (fun e loss _ =>
    failsOnlyBy_compensate e ctx base totalLoss loss) _) fun compensated _ => ?_
  exact (Episode.failsOnlyBy_sharePrice _ hbase).bind fun _ _ => failsOnlyBy_pure _

theorem failsOnlyBy_run (bank : Institution) (shortfall : Decimal) :
    FailsOnlyBy Fault.IsOverflow (run bank shortfall ctx) := by
  unfold run
  split_ifs
  · exact failsOnlyBy_pure _
  refine (Episode.failsOnlyBy_shareCount _).bind fun base hbase => ?_
  refine (Episode.failsOnlyBy_fileClaims _).bind fun filed _ => ?_
  refine (failsOnlyBy_cancelSharesAtCost _ _).bind fun cancelled _ => ?_
  refine (failsOnlyBy_writeDownLoans _).bind fun loans _ => ?_
  refine (failsOnlyBy_writeDownDeposits _).bind fun deposits _ => ?_
  dsimp only
  split_ifs
  · exact Episode.failsOnlyBy_giveUp _ _ _
  · exact failsOnlyBy_compensateAll _ _ _ (Episode.ne_zero_of_shareCount _ hbase) _

end Bailin

/-! ### Bail-outs -/

namespace Bailout

theorem failsOnlyBy_inject (e : Episode) (amount : Decimal) :
    FailsOnlyBy Fault.IsOverflow (inject e amount) :=
  (Assets.failsOnlyBy_creditHolding _ _ _).bind fun _ _ => failsOnlyBy_pure _

theorem failsOnlyBy_run (bank : Institution) (shortfall : Decimal) (ctx : Context) :
    FailsOnlyBy Fault.IsOverflow (run bank shortfall ctx) := by
  unfold run
  split_ifs
  · exact failsOnlyBy_pure _
  refine (Episode.failsOnlyBy_shareCount _).bind fun base hbase => ?_
  refine (Episode.failsOnlyBy_fileClaims _).bind fun filed _ => ?_
  refine (Episode.failsOnlyBy_cancelShares _ _).bind fun cancelled _ => ?_
  cases funder? ctx shortfall with
  | none => exact Episode.failsOnlyBy_giveUp _ _ _
  | some government =>
      refine (government.failsOnlyBy_disburse shortfall).bind fun paid _ => ?_
      refine (failsOnlyBy_inject _ _).bind fun injected _ => ?_
      refine (Episode.failsOnlyBy_allot _ _ _ _ _ _).bind fun allotted _ => ?_
      exact (Episode.failsOnlyBy_sharePrice _ (Episode.ne_zero_of_shareCount _ hbase)).bind
        fun _ _ => failsOnlyBy_pure _

end Bailout

/-! ### Debt-for-equity swaps -/

namespace DebtEquitySwap

variable (e : Episode) (ctx : Context)

theorem failsOnlyBy_repay : FailsOnlyBy Fault.IsOverflow (repay e) := by
  refine FailsOnlyBy.bind (failsOnlyBy_foldlM (fun state loan _ => ?_) _) fun paid _ => ?_
  · exact (Episode.failsOnlyBy_writeDownClaim _ _ _).bind fun _ _ => (failsOnlyBy_add _ _).bind
      fun _ _ => failsOnlyBy_pure _
  · exact (Assets.failsOnlyBy_creditHolding _ _ _).bind fun _ _ => failsOnlyBy_pure _

theorem failsOnlyBy_exchangeLoan (count totalLoans price : Decimal) (loan : AgentId × Decimal) :
    FailsOnlyBy Fault.IsOverflow (exchangeLoan count totalLoans price ctx e loan) := by
  refine (failsOnlyBy_proportion _ _).bind fun _ _ =>
    (failsOnlyBy_mul _ _).bind fun quantity _ => ?_
  refine (failsOnlyBy_mul _ _).bind fun value _ => ?_
  refine (Episode.failsOnlyBy_allot _ _ _ _ _ _).bind fun allotted _ => ?_
  refine (Episode.failsOnlyBy_writeDownClaim _ _ _).bind fun down _ => ?_
  exact (Totals.failsOnlyBy_settle _ _ _ _).bind fun _ _ => failsOnlyBy_pure _

theorem failsOnlyBy_exchange (totalLoans : Decimal) :
    FailsOnlyBy Fault.IsOverflow (exchange e totalLoans ctx) := by
  refine (Episode.failsOnlyBy_shareCount _).bind fun count hcount => ?_
  refine (Episode.failsOnlyBy_cancelShares _ _).bind fun cancelled _ => ?_
  refine (BalanceSheet.failsOnlyBy_equity _).bind fun equity _ => ?_
  refine (failsOnlyBy_div _ (Episode.ne_zero_of_shareCount _ hcount)).bind fun price _ => ?_
  exact FailsOnlyBy.bind (failsOnlyBy_foldlM (fun e loan _ =>
    failsOnlyBy_exchangeLoan e _ count totalLoans price loan) _) fun _ _ => failsOnlyBy_pure _

theorem failsOnlyBy_run (firm : Institution) (shortfall : Decimal) :
    FailsOnlyBy Fault.IsOverflow (run firm shortfall ctx) := by
  refine (failsOnlyBy_sum _).bind fun totalLoans _ => ?_
  refine (BalanceSheet.failsOnlyBy_equity _).bind fun equity _ => ?_
  split_ifs
  · exact failsOnlyBy_pure _
  refine (Episode.failsOnlyBy_fileClaims _).bind fun filed _ => ?_
  refine (failsOnlyBy_add _ _).bind fun solvency _ => ?_
  split_ifs
  · exact Episode.failsOnlyBy_giveUp _ _ _
  · exact (failsOnlyBy_repay _).bind fun _ _ => failsOnlyBy_pure _
  · exact (failsOnlyBy_exchange _ _ _).bind fun _ _ => failsOnlyBy_pure _

end DebtEquitySwap

/-! ### Asset thresholds -/

namespace AssetThreshold

variable (e : Episode) (ctx : Context) {totalDebt remainingDebt value count : Decimal}

theorem failsOnlyBy_spendable (cash : CashRule) (assets : Assets) :
    FailsOnlyBy Fault.IsOverflow (cash.spendable assets) := by
  cases cash with
  | allCash => exact failsOnlyBy_ok _
  | cashFraction f => exact failsOnlyBy_mul _ _

theorem failsOnlyBy_takeOff (l : Liabilities) (creditor : AgentId) (loan amount : Decimal) :
    FailsOnlyBy Fault.IsOverflow (takeOff l creditor loan amount) := by
  refine FailsOnlyBy.bind ((Accounts.failsOnlyBy_credit _ _ _).bind fun _ _ => failsOnlyBy_pure _)
    fun _ _ => (failsOnlyBy_sub _ _).bind fun _ _ => ?_
  exact (Accounts.failsOnlyBy_credit _ _ _).bind fun _ _ => failsOnlyBy_pure _

theorem failsOnlyBy_payCreditor (htotal : totalDebt ≠ 0) (available : Decimal)
    (state : Episode × Decimal) (owed : AgentId × Owed) :
    FailsOnlyBy Fault.IsOverflow (payCreditor available totalDebt state owed) := by
  refine FailsOnlyBy.bind ?_ fun amount _ => ?_
  · exact (failsOnlyBy_add _ _).bind fun _ _ => (failsOnlyBy_mul _ _).bind fun _ _ =>
      (failsOnlyBy_div _ htotal).bind fun _ _ => failsOnlyBy_pure _
  split_ifs
  · exact failsOnlyBy_pure _
  · refine (failsOnlyBy_takeOff _ _ _ _).bind fun liabilities _ => ?_
    exact (Episode.failsOnlyBy_writeDownClaim _ _ _).bind fun _ _ => (failsOnlyBy_add _ _).bind
      fun _ _ => failsOnlyBy_pure _

theorem failsOnlyBy_compensateInCash (htotal : totalDebt ≠ 0) (cash : CashRule) :
    FailsOnlyBy Fault.IsOverflow (compensateInCash e cash totalDebt) := by
  refine (failsOnlyBy_spendable _ _).bind fun spendable _ => ?_
  refine FailsOnlyBy.bind ?_ fun paid _ => (Assets.failsOnlyBy_creditHolding _ _ _).bind fun _ _ =>
    failsOnlyBy_pure _
  unfold payCreditors
  split_ifs
  · exact failsOnlyBy_foldlM (fun state owed _ => failsOnlyBy_payCreditor htotal _ state owed) _
  · exact failsOnlyBy_ok _

theorem failsOnlyBy_debtsOf (claims : List Claim) : FailsOnlyBy Fault.IsOverflow (debtsOf claims) :=
  FailsOnlyBy.bind (failsOnlyBy_mapM fun _ _ => (failsOnlyBy_sub _ _).bind fun _ _ =>
    failsOnlyBy_pure _) fun _ _ => failsOnlyBy_pure _

theorem failsOnlyBy_giveTo (hdue : remainingDebt ≠ 0) (source : AgentId) (give price : Decimal)
    (debt : AgentId × Decimal) :
    FailsOnlyBy Fault.IsOverflow (giveTo source give remainingDebt price ctx e debt) := by
  refine (failsOnlyBy_mul _ _).bind fun _ _ => (failsOnlyBy_div _ hdue).bind fun quantity _ => ?_
  split_ifs
  · exact failsOnlyBy_pure e
  · exact (Episode.failsOnlyBy_assignHolder _ _ _ _).bind fun _ _ =>
      (Shares.failsOnlyBy_transfer _ _ _ _).bind fun _ _ => (failsOnlyBy_mul _ _).bind fun _ _ =>
        (failsOnlyBy_add _ _).bind fun _ _ => failsOnlyBy_pure _

theorem failsOnlyBy_handOutFrom (hdue : remainingDebt ≠ 0) (hvalue : value ≠ 0)
    (debts : List (AgentId × Decimal)) (price : Decimal) (holding : AgentId × Decimal) :
    FailsOnlyBy Fault.IsOverflow (handOutFrom debts remainingDebt value price ctx e holding) := by
  refine FailsOnlyBy.bind ?_ fun give _ =>
    failsOnlyBy_foldlM (fun e debt _ => failsOnlyBy_giveTo e ctx hdue _ give price debt) e
  exact (failsOnlyBy_mul _ _).bind fun _ _ => (failsOnlyBy_div _ hvalue).bind fun _ _ =>
    failsOnlyBy_pure _

theorem failsOnlyBy_handOutShares (hdue : remainingDebt ≠ 0) (hvalue : value ≠ 0)
    (debts holdings : List (AgentId × Decimal)) (price : Decimal) :
    FailsOnlyBy Fault.IsOverflow
      (handOutShares e debts holdings remainingDebt value price ctx) := by
  refine FailsOnlyBy.bind (failsOnlyBy_foldlM (fun e holding _ =>
    failsOnlyBy_handOutFrom e ctx hdue hvalue debts price holding) e) fun handed _ => ?_
  refine FailsOnlyBy.bind (failsOnlyBy_foldlM (fun e debt _ =>
    Episode.failsOnlyBy_writeDownClaim e debt.1 debt.2) handed) fun down _ => ?_
  exact (failsOnlyBy_add _ _).bind fun _ _ => failsOnlyBy_pure _

theorem failsOnlyBy_handOverPart (hdue : remainingDebt ≠ 0) (equity : Decimal)
    (debt : AgentId × Decimal) :
    FailsOnlyBy Fault.IsOverflow (handOverPart count equity remainingDebt ctx e debt) := by
  refine (failsOnlyBy_mul _ _).bind fun _ _ => (failsOnlyBy_div _ hdue).bind fun quantity _ => ?_
  refine (failsOnlyBy_mul _ _).bind fun _ _ => (failsOnlyBy_div _ hdue).bind fun value _ => ?_
  refine (Episode.failsOnlyBy_allot _ _ _ _ _ _).bind fun allotted _ => ?_
  refine (Episode.failsOnlyBy_writeDownClaim _ _ _).bind fun down _ => ?_
  exact (Totals.failsOnlyBy_settle _ _ _ _).bind fun _ _ => failsOnlyBy_pure _

theorem failsOnlyBy_handOverFirm (hdue : remainingDebt ≠ 0) (debts : List (AgentId × Decimal)) :
    FailsOnlyBy Fault.IsOverflow (handOverFirm e debts remainingDebt ctx) := by
  refine (Episode.failsOnlyBy_shareCount _).bind fun count hcount => ?_
  refine (Episode.failsOnlyBy_cancelShares _ _).bind fun cancelled _ => ?_
  refine (failsOnlyBy_sum _).bind fun equity _ => ?_
  refine (failsOnlyBy_div _ (Episode.ne_zero_of_shareCount _ hcount)).bind fun price _ => ?_
  exact FailsOnlyBy.bind (failsOnlyBy_foldlM (fun e debt _ =>
    failsOnlyBy_handOverPart e _ hdue equity debt) _) fun _ _ => failsOnlyBy_pure _

theorem failsOnlyBy_run (cash : CashRule) (firm : Institution) (shortfall : Decimal) :
    FailsOnlyBy Fault.IsOverflow (run cash firm shortfall ctx) := by
  refine (Liabilities.failsOnlyBy_total _).bind fun totalDebt _ => ?_
  split_ifs with hdust
  · exact failsOnlyBy_pure _
  refine (Episode.failsOnlyBy_fileClaims _).bind fun filed _ => ?_
  refine (failsOnlyBy_compensateInCash _ (ne_zero_of_epsilon_lt (not_le_iff.mp hdust)) _).bind
    fun paid _ => ?_
  refine (failsOnlyBy_debtsOf _).bind fun debts _ => (failsOnlyBy_sum _).bind fun remaining _ => ?_
  split_ifs with hleft
  · exact failsOnlyBy_pure _
  have hdue := ne_zero_of_epsilon_lt (not_le_iff.mp hleft)
  refine (failsOnlyBy_sum _).bind fun held _ => (failsOnlyBy_mul _ _).bind fun value _ => ?_
  split_ifs with hworth
  · exact (failsOnlyBy_handOutShares _ _ hdue (ne_zero_of_epsilon_lt hworth.1) _ _ _).bind
      fun _ _ => failsOnlyBy_pure _
  · exact (failsOnlyBy_handOverFirm _ _ hdue _).bind fun _ _ => failsOnlyBy_pure _

end AssetThreshold

/-! ### Any policy -/

/-- **Only an overflow stops an episode.** -/
theorem Policy.failsOnlyBy_run (p : Policy) (i : Institution) (shortfall : Decimal)
    (ctx : Context) : FailsOnlyBy Fault.IsOverflow (p.run i shortfall ctx) := by
  cases p with
  | bailin => exact Bailin.failsOnlyBy_run ctx i shortfall
  | assetThreshold cash => exact AssetThreshold.failsOnlyBy_run ctx cash i shortfall
  | bailout => exact Bailout.failsOnlyBy_run i shortfall ctx
  | debtEquitySwap => exact DebtEquitySwap.failsOnlyBy_run ctx i shortfall
  | liquidate =>
      show FailsOnlyBy Fault.IsOverflow (flag i shortfall ctx)
      unfold flag
      split_ifs
      · exact failsOnlyBy_pure _
      · exact (Episode.failsOnlyBy_fileClaims _).bind fun _ _ => failsOnlyBy_pure _

end Insolvency
