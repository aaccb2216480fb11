/-
The course of a bail-in.

`run` is taken apart here once.  Either the shortfall is dust and nothing happens, or
the bail-in goes through its stages, and what it has left uncovered after the deposits
decides between giving up and handing out shares.  Everything proved about a bail-in
starts from `run_cases`, and no proof opens `run` again.
-/
import Insolvency.Proofs.Episode.Ending

namespace Insolvency.Bailin

/-- The figures a bail-in works out on its way. -/
structure Course where
  /-- The number of shares that the new equity is split into. -/
  base : Decimal
  /-- Claims are on file and the shares cancelled. -/
  cancelled : Episode
  loansDown : Episode
  loansLost : Accounts AgentId
  depositsDown : Episode
  depositsLost : Accounts AgentId

namespace Course

/-- What each creditor lost, loans first. -/
def lost (c : Course) : List (AgentId × Decimal) := c.loansLost.entries ++ c.depositsLost.entries

/-- What the creditors could not cover. -/
def uncovered (c : Course) : Decimal := c.depositsDown.totals.remainingShortfall

/-- The course that a bail-in of a bank takes. -/
structure Of (bank : Institution) (shortfall : Decimal) (ctx : Context) (c : Course) : Prop where
  due : Decimal.epsilon < shortfall
  count : (Episode.opening bank shortfall).shareCount = .ok c.base
  cancelling : ∃ filed, (Episode.opening bank shortfall).fileClaims = .ok filed ∧
    cancelSharesAtCost (filed.reach .start) (ctx.book.value bank.id) = .ok c.cancelled
  loans : writeDownLoans c.cancelled = .ok (c.loansDown, c.loansLost)
  deposits : writeDownDeposits c.loansDown = .ok (c.depositsDown, c.depositsLost)

end Course

/-- All that a bail-in can come to. -/
theorem run_cases {bank : Institution} {shortfall : Decimal} {ctx : Context}
    {r : Episode × Context} (h : run bank shortfall ctx = .ok r) :
    (shortfall ≤ .epsilon ∧ r = (.compliant bank, ctx)) ∨
    ∃ c : Course, c.Of bank shortfall ctx ∧
      ((0 < c.uncovered ∧ c.depositsDown.giveUp bank ctx = .ok r) ∨
       (¬ 0 < c.uncovered ∧ compensateAll bank c.base c.lost c.depositsDown ctx = .ok r)) := by
  unfold run at h
  split_ifs at h with hdue
  · exact Or.inl ⟨hdue, (pure_eq_ok.mp h).symm⟩
  · simp only [bind_eq_ok] at h
    obtain ⟨base, hbase, filed, hfiled, cancelled, hcancelled, ⟨loansDown, loansLost⟩, hloans,
      ⟨depositsDown, depositsLost⟩, hdeposits, h⟩ := h
    refine Or.inr ⟨⟨base, cancelled, loansDown, loansLost, depositsDown, depositsLost⟩,
      ⟨Decimal.not_le_iff.mp hdue, hbase, ⟨filed, hfiled, hcancelled⟩, hloans, hdeposits⟩, ?_⟩
    split_ifs at h with hleft
    · exact Or.inl ⟨hleft, h⟩
    · exact Or.inr ⟨hleft, h⟩

/-- Whoever hands out shares ends resolved. -/
theorem compensateAll_outcome {before : Institution} {base : Decimal}
    {lost : List (AgentId × Decimal)} {e e' : Episode} {ctx ctx' : Context}
    (h : compensateAll before base lost e ctx = .ok (e', ctx')) : e'.outcome = .resolved := by
  simp only [compensateAll, bind_eq_ok, pure_eq_ok] at h
  obtain ⟨_, -, _, -, _, -, _, -, h⟩ := h
  exact Episode.outcome_of_conclude h

/-- A bail-in that flags the bank was given up. -/
theorem flagged_of_run {bank : Institution} {shortfall : Decimal} {ctx ctx' : Context}
    {e : Episode} (h : run bank shortfall ctx = .ok (e, ctx'))
    (hout : e.outcome = .flaggedForLiquidation) : Episode.Flagged bank ctx e ctx' := by
  rcases run_cases h with ⟨-, hr⟩ | ⟨c, -, ⟨-, hr⟩ | ⟨-, hr⟩⟩
  · cases hout.symm.trans (Episode.outcome_of_compliant hr.symm)
  · exact Episode.flagged_of_giveUp hr
  · cases hout.symm.trans (compensateAll_outcome hr)

end Insolvency.Bailin
