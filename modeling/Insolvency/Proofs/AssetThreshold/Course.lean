/-
The course of an asset-threshold episode.

`run` is taken apart here once.  Either the firm owes next to nothing, or its creditors
share its cash.  What they are still owed decides the rest: dust is forgotten, debts that
the outsiders' shares can pay are paid in shares, and for all others the firm is handed
over.
-/
import Insolvency.Proofs.Episode.SameShares
import Insolvency.Proofs.Ledger.Creditors

namespace Insolvency.AssetThreshold

open Decimal

/-! ### Paying in cash -/

theorem payCreditor_paysOut {available totalDebt : Decimal} {state state' : Episode × Decimal}
    {owed : AgentId × Owed} (h : payCreditor available totalDebt state owed = .ok state') :
    state.1.PaysOut state'.1 := by
  simp only [payCreditor, bind_eq_ok] at h
  obtain ⟨amount, -, h⟩ := h
  split_ifs at h
  · exact pure_eq_ok.mp h ▸ .refl _
  · simp only [bind_eq_ok, pure_eq_ok] at h
    obtain ⟨liabilities, -, e, hclaim, paid, -, rfl⟩ := h
    have hdown := Episode.paysOut_writeDownClaim hclaim
    exact ⟨⟨hdown.same.id, hdown.same.shares, hdown.same.cancelled, hdown.same.allotments,
      hdown.same.handovers, hdown.same.intermediaries⟩, hdown.assets, hdown.claimants, hdown.trace⟩

theorem payCreditors_paysOut {e e' : Episode} {available totalDebt paid : Decimal}
    (h : payCreditors e available totalDebt = .ok (e', paid)) : e.PaysOut e' := by
  unfold payCreditors at h
  split_ifs at h
  · exact foldlM_related (R := fun b b' => b.1.PaysOut b'.1) (fun _ => .refl _) .trans h
      fun _ _ _ _ => payCreditor_paysOut
  · obtain ⟨rfl, -⟩ := Prod.mk.inj (Except.ok.inj h)
    exact .refl e

/-- The creditors have shared the cash; no more of it went than was there. -/
structure CashPaid (e e' : Episode) : Prop where
  same : e.SameShares e'
  claimants : e'.claimants = e.claimants
  trace : e'.trace = e.trace ++ [.cashCompensated]
  assets : ∃ spent : Decimal, spent.toRat ≤ e.assets.cash.toRat ∧
    e.assets.creditHolding .cash (-spent) = .ok e'.assets

theorem cashPaid_of_compensateInCash {e e' : Episode} {cash : CashRule} {totalDebt : Decimal}
    (h : compensateInCash e cash totalDebt = .ok e') : CashPaid e e' := by
  simp only [compensateInCash, bind_eq_ok, pure_eq_ok] at h
  obtain ⟨spendable, -, ⟨e1, paid⟩, hpaid, assets, hassets, rfl⟩ := h
  have hout := payCreditors_paysOut hpaid
  have hassets' : e1.assets.creditHolding .cash (-min paid e.assets.cash) = .ok assets := hassets
  rw [hout.assets] at hassets'
  exact {
    same := ⟨hout.same.id, hout.same.shares, hout.same.cancelled, hout.same.allotments,
      hout.same.handovers, hout.same.intermediaries⟩
    claimants := hout.claimants
    trace := by
      show e1.trace ++ [.cashCompensated] = _
      rw [hout.trace]
    assets := by
      refine ⟨min paid e.assets.cash, ?_, hassets'⟩
      rw [toRat_min]
      exact min_le_right _ _ }

/-! ### The debts that are left -/

/-- Debts that are left are more than nothing, and owed to whoever has a claim on file. -/
structure DebtsLeft (claims : List Claim) (debts : List (AgentId × Decimal)) : Prop where
  pos : ∀ d ∈ debts, 0 < d.2.toRat
  claimant : ∀ d ∈ debts, d.1 ∈ claims.map Claim.creditor
  length_le : debts.length ≤ claims.length

theorem debtsLeft_of_debtsOf {claims : List Claim} {debts : List (AgentId × Decimal)}
    (h : debtsOf claims = .ok debts) : DebtsLeft claims debts := by
  simp only [debtsOf, bind_eq_ok, pure_eq_ok] at h
  obtain ⟨left, hleft, rfl⟩ := h
  have hall := mapM_eq_ok.mp hleft
  refine ⟨fun d hd => ?_, fun d hd => ?_, ?_⟩
  · have hpos := (List.mem_filter.mp hd).2
    rw [decide_eq_true_eq, lt_iff_toRat, toRat_zero] at hpos
    exact hpos
  · have hmem := List.mem_of_mem_filter hd
    clear hd hleft
    induction hall with
    | nil => cases hmem
    | cons hc _ ih =>
        rcases List.mem_cons.mp hmem with rfl | hmem
        · simp only [bind_eq_ok, pure_eq_ok] at hc
          obtain ⟨_, -, rfl⟩ := hc
          exact List.mem_cons_self ..
        · exact List.mem_cons_of_mem _ (ih hmem)
  · exact (List.length_filter_le ..).trans hall.length_eq.ge

/-! ### The whole course -/

/-- The figures that an asset-threshold episode works out on its way. -/
structure Course where
  totalDebt : Decimal
  /-- The creditors have shared the cash. -/
  paid : Episode
  /-- What each is still owed. -/
  debts : List (AgentId × Decimal)
  remainingDebt : Decimal

namespace Course

/-- The course that the episode of a firm takes. -/
structure Of (cash : CashRule) (firm : Institution) (shortfall : Decimal) (c : Course) : Prop where
  total : firm.sheet.totalLiabilities = .ok c.totalDebt
  paying : ∃ filed, (Episode.opening firm shortfall).fileClaims = .ok filed ∧
    compensateInCash (filed.reach .start) cash c.totalDebt = .ok c.paid
  debts : debtsOf c.paid.claims = .ok c.debts
  remaining : Decimal.sum (c.debts.map Prod.snd) = .ok c.remainingDebt

end Course

/-- All that an asset-threshold episode can come to. -/
theorem run_cases {cash : CashRule} {firm : Institution} {shortfall : Decimal} {ctx : Context}
    {r : Episode × Context} (h : run cash firm shortfall ctx = .ok r) :
    r = (.compliant firm, ctx) ∨ ∃ c : Course, c.Of cash firm shortfall ∧
      ((c.remainingDebt ≤ .epsilon ∧ r = (withoutDebts c.paid).conclude .resolved ctx) ∨
       (.epsilon < c.remainingDebt ∧ settleRest c.paid c.debts c.remainingDebt ctx = .ok r)) := by
  simp only [run, bind_eq_ok] at h
  obtain ⟨totalDebt, htotal, h⟩ := h
  split_ifs at h
  · exact Or.inl (pure_eq_ok.mp h).symm
  · simp only [bind_eq_ok] at h
    obtain ⟨filed, hfiled, paid, hpaid, debts, hdebts, remainingDebt, hremaining, h⟩ := h
    refine Or.inr ⟨⟨totalDebt, paid, debts, remainingDebt⟩,
      ⟨htotal, ⟨filed, hfiled, hpaid⟩, hdebts, hremaining⟩, ?_⟩
    split_ifs at h with hdust
    · exact Or.inl ⟨hdust, (pure_eq_ok.mp h).symm⟩
    · exact Or.inr ⟨not_le_iff.mp hdust, h⟩

/-- The debts that cash did not cover are paid in shares that are worth something, or the firm is
handed over. -/
theorem settleRest_cases {e : Episode} {debts : List (AgentId × Decimal)} {remainingDebt : Decimal}
    {ctx : Context} {r : Episode × Context} (h : settleRest e debts remainingDebt ctx = .ok r) :
    (∃ value e', .epsilon < value ∧
        handOutShares e debts (outsiders e) remainingDebt value
          (ctx.book.value e.institution.id) ctx = .ok e' ∧
        r = e'.conclude .resolved ctx) ∨
      ∃ e' ctx', handOverFirm e debts remainingDebt ctx = .ok (e', ctx') ∧
        r = e'.conclude .liquidated ctx' := by
  simp only [settleRest, bind_eq_ok] at h
  obtain ⟨held, -, value, -, h⟩ := h
  split_ifs at h with hworth
  · simp only [bind_eq_ok, pure_eq_ok] at h
    obtain ⟨e', he', rfl⟩ := h
    exact Or.inl ⟨value, e', hworth.1, he', rfl⟩
  · simp only [bind_eq_ok, pure_eq_ok] at h
    obtain ⟨⟨e', ctx'⟩, he', rfl⟩ := h
    exact Or.inr ⟨e', ctx', he', rfl⟩

namespace Course.Of

variable {cash : CashRule} {firm : Institution} {shortfall : Decimal} {c : Course}

/-- Up to the debts that are left nothing happens to the shares. -/
theorem sameShares (h : c.Of cash firm shortfall) :
    (Episode.opening firm shortfall).SameShares c.paid := by
  obtain ⟨filed, hfiled, hpaid⟩ := h.paying
  exact ((Episode.sameShares_fileClaims hfiled).trans (Episode.sameShares_reach filed .start)).trans
    (cashPaid_of_compensateInCash hpaid).same

/-- The cash spent was there. -/
theorem assets (h : c.Of cash firm shortfall) :
    ∃ spent : Decimal, spent.toRat ≤ firm.sheet.assets.cash.toRat ∧
      firm.sheet.assets.creditHolding .cash (-spent) = .ok c.paid.assets := by
  obtain ⟨filed, hfiled, hpaid⟩ := h.paying
  obtain ⟨claims, -, rfl⟩ := Episode.fileClaims_eq_ok.mp hfiled
  exact (cashPaid_of_compensateInCash hpaid).assets

/-- Only the firm's creditors have claims on file. -/
theorem claimants (h : c.Of cash firm shortfall) :
    c.paid.claimants = firm.sheet.liabilities.byCreditor.keys := by
  obtain ⟨filed, hfiled, hpaid⟩ := h.paying
  rw [(cashPaid_of_compensateInCash hpaid).claimants]
  exact Episode.claimants_of_fileClaims hfiled

theorem trace (h : c.Of cash firm shortfall) : c.paid.trace = [.start, .cashCompensated] := by
  obtain ⟨filed, hfiled, hpaid⟩ := h.paying
  rw [(cashPaid_of_compensateInCash hpaid).trace]
  obtain ⟨claims, -, rfl⟩ := Episode.fileClaims_eq_ok.mp hfiled
  rfl

theorem debtsLeft (h : c.Of cash firm shortfall) : DebtsLeft c.paid.claims c.debts :=
  debtsLeft_of_debtsOf h.debts

theorem length_debts_le (h : c.Of cash firm shortfall) :
    c.debts.length ≤ firm.sheet.liabilities.entryCount := by
  have hclaims : c.paid.claims.length = firm.sheet.liabilities.byCreditor.entries.length := by
    have hlen := congrArg List.length h.claimants
    rwa [Episode.claimants, List.length_map, Table.keys, List.length_map] at hlen
  exact h.debtsLeft.length_le.trans
    (hclaims.trans_le (Liabilities.length_byCreditor_le firm.sheet.liabilities))

end Course.Of

/-- What a firm still owes once its creditors have shared the cash. -/
def unpaidDebt (cash : CashRule) (firm : Institution) (shortfall : Decimal) :
    Except Decimal.Fault Decimal := do
  let filed ← (Episode.opening firm shortfall).fileClaims
  let paid ← compensateInCash (filed.reach .start) cash (← firm.sheet.totalLiabilities)
  Decimal.sum ((← debtsOf paid.claims).map Prod.snd)

theorem Course.Of.unpaidDebt_eq_ok {cash : CashRule} {firm : Institution} {shortfall : Decimal}
    {c : Course} (h : c.Of cash firm shortfall) :
    unpaidDebt cash firm shortfall = .ok c.remainingDebt := by
  obtain ⟨filed, hfiled, hpaid⟩ := h.paying
  simp only [unpaidDebt, bind_eq_ok]
  exact ⟨filed, hfiled, c.totalDebt, h.total, c.paid, hpaid, c.debts, h.debts, h.remaining⟩

end Insolvency.AssetThreshold
