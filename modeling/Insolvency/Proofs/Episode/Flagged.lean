/-
A flagged institution is an untouched one.

Of the five policies four can flag an institution, and they come to it in different
ways: a bail-in and a bail-out after they have cancelled the shares, a debt-for-equity
swap after looking at the equity, a liquidation at once.  The asset threshold never
does.  What they leave behind is the same for all.
-/
import Insolvency.Proofs.Bailin.Course
import Insolvency.Proofs.Episode.Bailout

namespace Insolvency

variable {i : Institution} {shortfall : Decimal} {ctx ctx' : Context} {e : Episode}

theorem Bailout.flagged_of_run (h : Bailout.run i shortfall ctx = .ok (e, ctx'))
    (hout : e.outcome = .flaggedForLiquidation) : Episode.Flagged i ctx e ctx' := by
  rcases Bailout.run_cases h with ⟨-, hr⟩ | ⟨cancelled, hr⟩ | hfunded
  · cases hout.symm.trans (Episode.outcome_of_compliant hr.symm)
  · exact Episode.flagged_of_giveUp hr
  · -- A government that pays ends it resolved.
    cases hout.symm.trans hfunded.outcome

theorem DebtEquitySwap.flagged_of_run (h : DebtEquitySwap.run i shortfall ctx = .ok (e, ctx'))
    (hout : e.outcome = .flaggedForLiquidation) : Episode.Flagged i ctx e ctx' := by
  simp only [DebtEquitySwap.run, bind_eq_ok] at h
  obtain ⟨totalLoans, -, equity, -, h⟩ := h
  split_ifs at h
  · cases hout.symm.trans (Episode.outcome_of_compliant (pure_eq_ok.mp h))
  · simp only [bind_eq_ok] at h
    obtain ⟨filed, -, withoutLoans, -, h⟩ := h
    split_ifs at h
    · exact Episode.flagged_of_giveUp h
    · simp only [bind_eq_ok, pure_eq_ok] at h
      obtain ⟨_, -, h⟩ := h
      cases hout.symm.trans (Episode.outcome_of_conclude h)
    · simp only [bind_eq_ok, pure_eq_ok] at h
      obtain ⟨_, -, h⟩ := h
      cases hout.symm.trans (Episode.outcome_of_conclude h)

theorem AssetThreshold.settleRest_outcome {debts : List (AgentId × Decimal)}
    {remainingDebt : Decimal} {opened : Episode}
    (h : AssetThreshold.settleRest opened debts remainingDebt ctx = .ok (e, ctx')) :
    e.outcome = .resolved ∨ e.outcome = .liquidated := by
  simp only [AssetThreshold.settleRest, bind_eq_ok] at h
  obtain ⟨_, -, value, -, h⟩ := h
  split_ifs at h
  · simp only [bind_eq_ok, pure_eq_ok] at h
    obtain ⟨_, -, h⟩ := h
    exact Or.inl (Episode.outcome_of_conclude h)
  · simp only [bind_eq_ok, pure_eq_ok] at h
    obtain ⟨_, -, h⟩ := h
    exact Or.inr (Episode.outcome_of_conclude h)

/-- A firm whose creditors are paid, in whatever way, is not flagged. -/
theorem AssetThreshold.run_outcome {cash : CashRule}
    (h : AssetThreshold.run cash i shortfall ctx = .ok (e, ctx')) :
    e.outcome ≠ .flaggedForLiquidation := by
  simp only [AssetThreshold.run, bind_eq_ok] at h
  obtain ⟨totalDebt, -, h⟩ := h
  split_ifs at h
  · rw [Episode.outcome_of_compliant (pure_eq_ok.mp h)]
    decide
  · simp only [bind_eq_ok] at h
    obtain ⟨_, -, _, -, _, -, remainingDebt, -, h⟩ := h
    split_ifs at h
    · rw [Episode.outcome_of_conclude (pure_eq_ok.mp h)]
      decide
    · rcases AssetThreshold.settleRest_outcome h with hout | hout
      · rw [hout]
        decide
      · rw [hout]
        decide

theorem Policy.flagged_of_flag (h : Policy.flag i shortfall ctx = .ok (e, ctx'))
    (hout : e.outcome = .flaggedForLiquidation) : Episode.Flagged i ctx e ctx' := by
  rcases Policy.flag_cases h with ⟨-, hr⟩ | ⟨-, filed, hfiled, hr⟩
  · cases hout.symm.trans (Episode.outcome_of_compliant hr.symm)
  · have := Episode.flagged_of_blank ctx hfiled rfl ⟨rfl, rfl, rfl, rfl, rfl⟩ rfl
      (filed.reach .start).trace
    obtain ⟨rfl, rfl⟩ := Prod.mk.inj hr
    exact this

namespace Policy

theorem flagged_of_run {p : Policy} (h : p.run i shortfall ctx = .ok (e, ctx'))
    (hout : e.outcome = .flaggedForLiquidation) : Episode.Flagged i ctx e ctx' := by
  cases p with
  | bailin => exact Bailin.flagged_of_run h hout
  | assetThreshold cash => exact absurd hout (AssetThreshold.run_outcome h)
  | bailout => exact Bailout.flagged_of_run h hout
  | debtEquitySwap => exact DebtEquitySwap.flagged_of_run h hout
  | liquidate => exact flagged_of_flag h hout

/-- **Flagging an institution changes nothing but its status and the queue.** -/
theorem flagged_of_resolve {p : Policy} (h : p.resolve i shortfall ctx = .ok (e, ctx'))
    (hout : e.outcome = .flaggedForLiquidation) : Episode.Flagged i ctx e ctx' := by
  obtain ⟨-, hrun⟩ := resolve_eq_ok.mp h
  exact flagged_of_run hrun hout

/-- A shortfall larger than all that the sample bank owes. -/
theorem flagged_of_resolve_sampleBank : ∃ e ctx',
    Policy.bailin.resolve sampleBank 2000.0 sampleContext = .ok (e, ctx') ∧
      e.outcome = .flaggedForLiquidation ∧ Episode.Flagged sampleBank sampleContext e ctx' := by
  obtain ⟨e, ctx', h, hout⟩ : ∃ e ctx',
      Policy.bailin.resolve sampleBank 2000.0 sampleContext = .ok (e, ctx') ∧
        e.outcome = .flaggedForLiquidation := ⟨_, _, rfl, rfl⟩
  exact ⟨e, ctx', h, hout, flagged_of_resolve h hout⟩

end Policy

end Insolvency
