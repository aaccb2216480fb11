/-
What firms owe is accounted for.

Two policies are for firms.  An asset threshold deals with everything that the firm owes, and a
swap with its loans.  Whichever way either of them ends, what it deals with is settled or
forgiven; and unless somebody else's shares are handed around, what creditors get is counted
against their debts or as a surplus, and is worth what the firm is.

There are five endings.  In three of them nothing is left to settle once cash is paid, or it
is all settled at once, and in the other two it is settled debt by debt.  What all of them
share is the split of the debts into what is paid and what is left (`Split`), where either
part may be empty.
-/
import Insolvency.Proofs.AssetThreshold.HandingOver
import Insolvency.Proofs.Shares.Reissue

namespace Insolvency

open Decimal

variable {firm : Institution} {shortfall : Decimal} {ctx ctx' : Context} {e e' : Episode}

/-- What a policy for firms deals with, as a number: all that the firm owes, or its loans. -/
def Policy.debt? (p : Policy) (l : Liabilities) : Option ℚ :=
  match p with
  | assetThreshold _ => some l.exactTotal
  | debtEquitySwap => some l.loans.exactTotal
  | bailin | bailout | liquidate => none

/-- The figures of an episode account for the debts of a firm. -/
structure Episode.AccountsFor (e : Episode) (firm : Institution) (debt : ℚ) : Prop where
  /-- All debts are settled or forgiven. -/
  debts : |e.totals.claimsSettled.toRat + e.totals.debtForgiven.toRat - debt|
    ≤ tolerance firm.sheet.liabilities.entryCount debt
  /-- What the firm gives its creditors settles claims or is their surplus. -/
  values : .stockRedistributed ∉ e.trace →
    |e.totals.cashPaid.toRat + e.totals.equityValueDelivered.toRat
        - (e.totals.claimsSettled.toRat + e.totals.surplusToCreditors.toRat)|
      ≤ (firm.sheet.liabilities.entryCount + 1)
        * max 1 (max debt e.totals.equityValueDelivered.toRat) / 10 ^ 26
  /-- A firm that is handed over is worth what it owns once the cash is paid, be that taken exactly
  or as the books add it up. -/
  delivered : e.outcome = .liquidated → ∃ owned,
    firm.sheet.assets.creditHolding .cash (-min e.totals.cashPaid firm.sheet.assets.cash)
      = .ok e.institution.sheet.assets ∧
    e.institution.sheet.totalAssets = .ok owned ∧
    |e.totals.equityValueDelivered.toRat - e.institution.sheet.assets.exactTotal|
      ≤ (firm.sheet.liabilities.entryCount + 1)
        * max 1 e.institution.sheet.assets.exactTotal / 10 ^ 15 ∧
    |e.totals.equityValueDelivered.toRat - owned.toRat|
      ≤ (firm.sheet.liabilities.entryCount + 1) * max 1 owned.toRat / 10 ^ 15

theorem hundred_allowance_eq (entries : Nat) (size : ℚ) :
    100 * allowance entries size = (entries + 1) * max 1 size / 10 ^ 26 := by
  unfold allowance grain maxPlaces
  ring

/-- Where the totals add up and the firm is not handed over, its debts are accounted for. -/
theorem Totals.AddUp.accountsFor {debt : ℚ}
    (h : e.totals.AddUp debt firm.sheet.liabilities.entryCount) (hout : e.outcome = .resolved) :
    e.AccountsFor firm debt where
  debts := by
    rw [tolerance_eq]
    linarith [h.debts, epsilon_nonneg]
  values _ := (hundred_allowance_eq ..) ▸ h.values
  delivered hliquidated := by cases hout.symm.trans hliquidated

/-! ### Asset threshold -/

namespace AssetThreshold

variable {paid : Decimal}

theorem CashShared.onlyPaid (h : CashShared (Episode.opening firm shortfall) e paid) :
    e.totals.OnlyPaid (e.claims.map Claim.writtenDown) := by
  rw [h.totals]
  exact ⟨h.total, rfl, rfl, rfl, rfl⟩

theorem Course.Of.split {cash : CashRule} {c : Course} (h : c.Of cash firm shortfall)
    (hshared : CashShared (Episode.opening firm shortfall) c.paid paid)
    (hsheet : firm.sheet.Nonneg) :
    Split firm.sheet.liabilities.exactTotal firm.sheet.liabilities.entryCount
      (c.paid.claims.map Claim.writtenDown) (c.debts.map Prod.snd) :=
  split_of_debtsOf hsheet.loans hsheet.deposits hshared.claims h.debts

/-- The cash covers the debts, but for dust. -/
theorem accountsFor_of_dust {cash : CashRule} {c : Course} (h : c.Of cash firm shortfall)
    (hshared : CashShared (Episode.opening firm shortfall) c.paid paid)
    (hsheet : firm.sheet.Nonneg) (hdust : c.remainingDebt ≤ .epsilon) :
    ((withoutDebts c.paid).conclude .resolved ctx).1.AccountsFor firm
      firm.sheet.liabilities.exactTotal := by
  have honly := hshared.onlyPaid
  refine ⟨?_, fun _ => ?_, fun hliquidated => by cases hliquidated⟩
  · show |c.paid.totals.claimsSettled.toRat + c.paid.totals.debtForgiven.toRat - _| ≤ _
    rw [honly.forgiven, toRat_zero, add_zero]
    exact (h.split hshared hsheet).paid_error_of_dust honly.settled h.remaining hdust
  · show |c.paid.totals.cashPaid.toRat + c.paid.totals.equityValueDelivered.toRat
      - (c.paid.totals.claimsSettled.toRat + c.paid.totals.surplusToCreditors.toRat)| ≤ _
    rw [honly.delivered, honly.surplus, honly.cashPaid, sub_self, abs_zero]
    positivity

theorem totals_giveTo {source : AgentId} {give remainingDebt price : Decimal}
    {debt : AgentId × Decimal} (h : giveTo source give remainingDebt price ctx e debt = .ok e') :
    e'.totals = { e.totals with equityValueDelivered := e'.totals.equityValueDelivered } := by
  simp only [giveTo, bind_eq_ok] at h
  obtain ⟨_, -, quantity, -, h⟩ := h
  split_ifs at h
  · obtain rfl := pure_eq_ok.mp h
    rfl
  · simp only [bind_eq_ok, pure_eq_ok] at h
    obtain ⟨⟨assigned, holder⟩, hassign, ⟨shares, moved⟩, -, value, -, delivered, -, rfl⟩ := h
    show { assigned.totals with equityValueDelivered := delivered } = _
    rw [Episode.assignHolder_eq_ok hassign]

/-- Of the figures about debts, shares that are handed out only change that the rest is settled. -/
theorem totals_handOutShares {debts holdings : List (AgentId × Decimal)}
    {remainingDebt value price : Decimal}
    (h : handOutShares e debts holdings remainingDebt value price ctx = .ok e') :
    e.totals.claimsSettled.add remainingDebt = .ok e'.totals.claimsSettled ∧
      e'.totals.debtForgiven = e.totals.debtForgiven := by
  simp only [handOutShares, bind_eq_ok, pure_eq_ok] at h
  obtain ⟨handed, hhand, down, hdown, settled, hsettled, rfl⟩ := h
  have hhanded : handed.totals.claimsSettled = e.totals.claimsSettled ∧
      handed.totals.debtForgiven = e.totals.debtForgiven := by
    refine foldlM_induction
      (P := fun mid : Episode => mid.totals.claimsSettled = e.totals.claimsSettled
      ∧ mid.totals.debtForgiven = e.totals.debtForgiven) hhand ⟨rfl, rfl⟩
      fun holding _ mid mid' hmid hstep => ?_
    simp only [handOutFrom, bind_eq_ok] at hstep
    obtain ⟨give, -, hstep⟩ := hstep
    refine foldlM_induction
      (P := fun mid : Episode => mid.totals.claimsSettled = e.totals.claimsSettled
      ∧ mid.totals.debtForgiven = e.totals.debtForgiven) hstep hmid
      fun debt _ mid mid' hmid hgive => ?_
    rw [totals_giveTo hgive]
    exact hmid
  have hwritten : down.totals = handed.totals :=
    foldlM_induction (P := fun mid : Episode => mid.totals = handed.totals) hdown rfl
      fun d _ mid mid' hmid hstep => (Episode.totals_writeDownClaim hstep).trans hmid
  rw [hwritten, hhanded.1] at hsettled
  refine ⟨hsettled, ?_⟩
  show down.totals.debtForgiven = _
  rw [hwritten, hhanded.2]

/-- Others pay the rest with their shares. -/
theorem accountsFor_of_handOutShares {cash : CashRule} {c : Course} (h : c.Of cash firm shortfall)
    (hshared : CashShared (Episode.opening firm shortfall) c.paid paid)
    (hsheet : firm.sheet.Nonneg) {holdings : List (AgentId × Decimal)} {value price : Decimal}
    (hhand : handOutShares c.paid c.debts holdings c.remainingDebt value price ctx = .ok e) :
    (e.conclude .resolved ctx).1.AccountsFor firm firm.sheet.liabilities.exactTotal := by
  have honly := hshared.onlyPaid
  obtain ⟨hsettled, hforgiven⟩ := totals_handOutShares hhand
  refine ⟨?_, fun hnone => absurd ?_ hnone, fun hliquidated => by cases hliquidated⟩
  · show |e.totals.claimsSettled.toRat + e.totals.debtForgiven.toRat - _| ≤ _
    rw [hforgiven, honly.forgiven, toRat_zero, add_zero, tolerance_eq]
    linarith [(h.split hshared hsheet).add_error honly.settled h.remaining hsettled, epsilon_nonneg]
  · show .stockRedistributed ∈ e.trace ++ _
    rw [trace_of_handOutShares hhand]
    simp

/-- The firm is what the creditors get for the rest, and each debt is settled for its part of it. -/
structure TakenOver (firm : Institution) (c : Course) (e : Episode) (equity : Decimal)
    (ss : List Settlement) : Prop where
  assets : e.assets = c.paid.assets
  worth : c.paid.assets.total = .ok equity
  assets_nonneg : c.paid.assets.holdings.Nonneg
  settling : Settling firm.sheet.liabilities.exactTotal firm.sheet.liabilities.entryCount
    (c.paid.claims.map Claim.writtenDown) ss c.paid.totals e.totals
  handedOut : HandedOut (c.debts.map Prod.snd) (ss.map Settlement.value) equity c.remainingDebt
    e.totals.equityValueDelivered

theorem takenOver_of_handOverFirm {cash : CashRule} {c : Course} (h : c.Of cash firm shortfall)
    (hshared : CashShared (Episode.opening firm shortfall) c.paid paid)
    (hsheet : firm.sheet.Nonneg) (hdue : .epsilon < c.remainingDebt)
    (hhand : handOverFirm c.paid c.debts c.remainingDebt ctx = .ok (e, ctx')) :
    ∃ equity ss, TakenOver firm c e equity ss := by
  have honly := hshared.onlyPaid
  have hsplit := h.split hshared hsheet
  obtain ⟨spent, hspent, hcredit⟩ := h.assets
  have hassets := Assets.nonneg_creditHolding_neg hcredit hsheet.assets hspent
  obtain ⟨equity, ss, hequity, hkept, hdebts, hparts, hsettles⟩ :=
    settles_handOverFirm hhand hassets hsplit.left_nonneg h.remaining hdue
  have hvalues := forall_mem_of_forall₂ hparts fun _ _ hpart => hpart.nonneg
  have hdelivered := hsettles.delivered
  rw [honly.delivered] at hdelivered
  exact ⟨equity, ss, {
    assets := hkept
    worth := hequity
    assets_nonneg := hassets
    settling := ⟨hdebts ▸ hsplit, honly, hsettles, fun s hs => hvalues _ (List.mem_map_of_mem hs)⟩
    handedOut := ⟨hparts, sum_nonneg hassets hequity, List.forall_mem_map.mpr h.debtsLeft.pos,
      h.remaining, hdue, hdelivered⟩ }⟩

/-- The firm is handed over for the rest. -/
theorem accountsFor_of_takenOver {c : Course} {equity : Decimal} {ss : List Settlement}
    (h : TakenOver firm c e equity ss)
    (hshared : CashShared (Episode.opening firm shortfall) c.paid paid) :
    (e.conclude .liquidated ctx).1.AccountsFor firm firm.sheet.liabilities.exactTotal := by
  have haddUp := h.settling.addUp
  have hdebts : (c.debts.map Prod.snd).length ≤ firm.sheet.liabilities.entryCount := by
    rw [h.handedOut.parts.length_eq, List.length_map]
    exact h.settling.length_le
  refine ⟨?_, fun _ => (hundred_allowance_eq ..) ▸ haddUp.values, fun _ => ⟨equity, ?_, ?_, ?_, ?_⟩⟩
  · rw [tolerance_eq]
    have := haddUp.debts
    show |e.totals.claimsSettled.toRat + e.totals.debtForgiven.toRat - _| ≤ _
    linarith [epsilon_nonneg]
  · have hcash : e.totals.cashPaid = paid := by rw [h.settling.settles.cashPaid, hshared.totals]
    show firm.sheet.assets.creditHolding .cash (-min e.totals.cashPaid firm.sheet.assets.cash)
      = .ok e.assets
    rw [hcash, h.assets]
    exact hshared.assets
  · show e.assets.total = .ok equity
    rw [h.assets]
    exact h.worth
  · show |e.totals.equityValueDelivered.toRat - e.assets.exactTotal|
      ≤ (firm.sheet.liabilities.entryCount + 1) * max 1 e.assets.exactTotal / 10 ^ 15
    rw [h.assets]
    exact (h.handedOut.exact_error h.worth h.assets_nonneg hdebts).trans_eq (by ring)
  · have hone : (1 : ℚ) ≤ max 1 equity.toRat := le_max_left _ _
    refine (h.handedOut.error hdebts).trans ?_
    rw [mul_div_assoc]
    gcongr
    linarith

theorem accountsFor_of_run {cash : CashRule} {r : Episode × Context}
    (h : run cash firm shortfall ctx = .ok r) (hsheet : firm.sheet.Nonneg)
    (hend : r.1.outcome = .resolved ∨ r.1.outcome = .liquidated) :
    r.1.AccountsFor firm firm.sheet.liabilities.exactTotal := by
  rcases run_cases h with rfl | ⟨c, hc, hrun⟩
  · rcases hend with hout | hout
    all_goals cases hout
  · obtain ⟨paid, hshared⟩ := hc.cashShared hsheet
    rcases hrun with ⟨hdust, rfl⟩ | ⟨hdue, hrest⟩
    · exact accountsFor_of_dust hc hshared hsheet hdust
    · rcases settleRest_cases hrest with ⟨value, handed, -, hhand, rfl⟩ |
        ⟨handed, ctx'', hhand, rfl⟩
      · exact accountsFor_of_handOutShares hc hshared hsheet hhand
      · obtain ⟨equity, ss, htaken⟩ := takenOver_of_handOverFirm hc hshared hsheet hdue hhand
        exact accountsFor_of_takenOver htaken hshared

end AssetThreshold

/-! ### Debt-for-equity swap -/

namespace DebtEquitySwap

theorem Opened.totals (h : Opened firm shortfall e) :
    e.totals = (Episode.opening firm shortfall).totals := by
  obtain ⟨filed, hfiled, rfl⟩ := h
  obtain ⟨claims, -, rfl⟩ := Episode.fileClaims_eq_ok.mp hfiled
  rfl

/-- All loans are paid off, or none is. -/
theorem split_loans (hsheet : firm.sheet.Nonneg) {paid left : List Decimal}
    (h : paid ++ left = firm.sheet.liabilities.loans.values) :
    Split firm.sheet.liabilities.loans.exactTotal firm.sheet.liabilities.entryCount paid left := by
  have hnn : AllNonneg (paid ++ left) := h ▸ hsheet.loans
  have hlength := congrArg List.length h
  rw [Accounts.length_values, List.length_append] at hlength
  have hentries : firm.sheet.liabilities.loans.entries.length
    ≤ firm.sheet.liabilities.entryCount := Nat.le_add_right _ _
  refine ⟨fun d hd => hnn d (List.mem_append_left _ hd),
    fun d hd => hnn d (List.mem_append_right _ hd), by omega, by omega, ?_⟩
  rw [← exactSum_append, h, Accounts.exactTotal, sub_self, abs_zero]
  have := allowance_nonneg firm.sheet.liabilities.entryCount
    (exactSum firm.sheet.liabilities.loans.values)
  linarith

theorem onlyPaid_repay {opened : Episode} (h : repay opened = .ok e)
    (hopened : Opened firm shortfall opened) :
    e.totals.OnlyPaid firm.sheet.liabilities.loans.values := by
  simp only [repay, bind_eq_ok, pure_eq_ok] at h
  obtain ⟨⟨e1, paid⟩, hpaid, assets, -, rfl⟩ := h
  obtain ⟨-, -, hsum⟩ := payLenders_paysOut hpaid
  have htotals : e1.totals = (Episode.opening firm shortfall).totals := by
    refine foldlM_induction (P := fun state : Episode × Decimal =>
      state.1.totals = (Episode.opening firm shortfall).totals) hpaid hopened.totals
      fun loan _ state state' hstate hstep => ?_
    simp only [payLender, bind_eq_ok, pure_eq_ok] at hstep
    obtain ⟨down, hdown, paid', -, rfl⟩ := hstep
    exact (Episode.totals_writeDownClaim hdown).trans hstate
  have hloans : opened.liabilities = firm.sheet.liabilities := by
    rw [Episode.liabilities, hopened.institution]
  rw [hloans] at hsum
  exact ⟨hsum, rfl, congrArg Totals.debtForgiven htotals,
    congrArg Totals.surplusToCreditors htotals, congrArg Totals.equityValueDelivered htotals⟩

/-- One lender gets its part of the shares for its loan. -/
theorem settles_exchangeLoan {count totalLoans price : Decimal} {loan : AgentId × Decimal}
    (h : exchangeLoan count totalLoans price ctx e loan = .ok e') (hcount : 0 ≤ count.toRat)
    (hprice : 0 ≤ price.toRat) :
    ∃ s : Settlement, (s.debt = loan.2 ∧ 0 ≤ s.value.toRat) ∧ Settles e.totals e'.totals [s] := by
  simp only [exchangeLoan, bind_eq_ok, pure_eq_ok] at h
  obtain ⟨p, hp, quantity, hquantity, value, hvalue, allotted, hallot, down, hdown, totals, htotals,
    rfl⟩ := h
  obtain ⟨s, hs, rfl, hsettles⟩ := Episode.settles_of_allot hallot hdown htotals
  have hquantity0 := (rounds_mul hquantity).nonneg (mul_nonneg hcount (proportion_nonneg hp))
  exact ⟨s, ⟨hs, (rounds_mul hvalue).nonneg (mul_nonneg hquantity0 hprice)⟩, hsettles⟩

theorem settles_exchange {totalLoans : Decimal} (h : exchange e totalLoans ctx = .ok (e', ctx')) :
    ∃ ss, ss.map Settlement.debt = e.liabilities.loans.values ∧
      (∀ s ∈ ss, 0 ≤ s.value.toRat) ∧ Settles e.totals e'.totals ss := by
  simp only [exchange, bind_eq_ok, pure_eq_ok, Prod.mk.injEq] at h
  obtain ⟨count, hcount, cancelled, hcancel, equity, -, price, hprice, exchanged, hfold, rfl,
    -⟩ := h
  have hcount0 := Episode.nonneg_of_shareCount hcount
  have hprice0 : 0 ≤ price.toRat := by
    refine (rounds_div hprice).2.nonneg (div_nonneg ?_ hcount0)
    rw [toRat_max, toRat_zero]
    exact le_max_right _ _
  obtain ⟨ss, hss, hsettles⟩ := Episode.settles_of_foldlM hfold fun loan _ mid mid' hstep =>
    settles_exchangeLoan hstep hcount0 hprice0
  refine ⟨ss, map_eq_map_of_forall₂ (hss.imp fun _ _ hs => hs.1),
    forall_mem_of_forall₂ hss fun _ _ hs => hs.2, hsettles.of_eq ?_⟩
  have htotals : cancelled.totals = { e.totals with loansWrittenDown := totalLoans } :=
    Episode.totals_cancelShares hcancel
  show { cancelled.totals with newSharePrice := some price } = { e.totals with
    newSharePrice := some price, loansWrittenDown := cancelled.totals.loansWrittenDown }
  rw [htotals]

theorem accountsFor_of_run {r : Episode × Context} (h : run firm shortfall ctx = .ok r)
    (hsheet : firm.sheet.Nonneg) (hend : r.1.outcome = .resolved ∨ r.1.outcome = .liquidated) :
    r.1.AccountsFor firm firm.sheet.liabilities.loans.exactTotal := by
  rcases run_cases h with rfl | ⟨e, hr⟩ | hsettled
  · rcases hend with hout | hout
    all_goals cases hout
  · have hflagged := Episode.outcome_of_giveUp hr
    rcases hend with hout | hout
    all_goals cases hflagged.symm.trans hout
  · cases hsettled with
    | @paid opened e _ hopened _ _ hrepay =>
        have honly := onlyPaid_repay hrepay hopened
        have hsettling : Settling firm.sheet.liabilities.loans.exactTotal
            firm.sheet.liabilities.entryCount firm.sheet.liabilities.loans.values []
            e.totals e.totals :=
          ⟨split_loans hsheet (List.append_nil _), honly, .nil e.totals, List.forall_mem_nil _⟩
        have haddUp := hsettling.addUp
        exact Totals.AddUp.accountsFor ⟨haddUp.debts, haddUp.values⟩ rfl
    | @swapped opened e _ totalLoans hopened _ hexchange =>
        obtain ⟨ss, hss, hvalues, hsettles⟩ := settles_exchange hexchange
        rw [Episode.liabilities, hopened.institution] at hss
        have honly : opened.totals.OnlyPaid [] := by
          rw [hopened.totals]
          exact ⟨rfl, rfl, rfl, rfl, rfl⟩
        have hsettling : Settling firm.sheet.liabilities.loans.exactTotal
            firm.sheet.liabilities.entryCount [] ss opened.totals e.totals :=
          ⟨split_loans hsheet hss, honly, hsettles, hvalues⟩
        have haddUp := hsettling.addUp
        exact Totals.AddUp.accountsFor ⟨haddUp.debts, haddUp.values⟩ rfl

end DebtEquitySwap

/-! ### Both policies -/

namespace Policy

/-- **What a firm owes is accounted for**, whichever of the two policies settles it, whatever the
price, and however the episode ends. -/
theorem accountsFor_of_resolve {p : Policy} {debt : ℚ}
    (h : p.resolve firm shortfall ctx = .ok (e, ctx'))
    (hdebt : p.debt? firm.sheet.liabilities = some debt)
    (hend : e.outcome = .resolved ∨ e.outcome = .liquidated) : e.AccountsFor firm debt := by
  obtain ⟨hnone, hrun⟩ := resolve_eq_ok.mp h
  obtain ⟨hsheet, -⟩ := inOrder_of_objection? hnone
  cases p with
  | assetThreshold cash =>
      obtain rfl := Option.some.inj hdebt
      exact AssetThreshold.accountsFor_of_run hrun hsheet hend
  | debtEquitySwap =>
      obtain rfl := Option.some.inj hdebt
      exact DebtEquitySwap.accountsFor_of_run hrun hsheet hend
  | bailin => cases hdebt
  | bailout => cases hdebt
  | liquidate => cases hdebt

/-- A firm with the books of the sample bank, half of whose cash goes to its creditors. -/
def sampleFirm : Institution := { sampleBank with kind := .macroFirm }

/-- The cash is not enough and the outsiders' shares are worth less than the rest, so the firm is
handed over. -/
theorem accountsFor_of_resolve_sampleFirm : ∃ e ctx',
    (assetThreshold (.cashFraction 0.5)).resolve sampleFirm 700.0 sampleContext = .ok (e, ctx') ∧
      (assetThreshold (.cashFraction 0.5)).debt? sampleFirm.sheet.liabilities
        = some sampleFirm.sheet.liabilities.exactTotal ∧
      e.outcome = .liquidated ∧ .stockRedistributed ∉ e.trace ∧
      e.AccountsFor sampleFirm sampleFirm.sheet.liabilities.exactTotal := by
  obtain ⟨e, ctx', h, hout, htrace⟩ : ∃ e ctx',
      (assetThreshold (.cashFraction 0.5)).resolve sampleFirm 700.0 sampleContext = .ok (e, ctx') ∧
        e.outcome = .liquidated ∧ .stockRedistributed ∉ e.trace := ⟨_, _, rfl, rfl, by decide⟩
  exact ⟨e, ctx', h, rfl, hout, htrace, accountsFor_of_resolve h rfl (Or.inr hout)⟩

end Policy

end Insolvency
