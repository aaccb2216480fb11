/-
Cash is shared by what each creditor is owed.

Once the cash is shared, each claim is written down by what the rule for one payment makes of it
(`PaidPart`), also where that is nothing, and the payments on record are those that are not
nothing.  So a payment is read off the claim, and no creditor has two of either; nor does anything
that comes later pay anybody.

What one payment is off by is two roundings: that of the product, which the division by all that
is owed makes smaller, and that of the quotient.  No creditor gets more than it is owed, and its
exact part is no more than that either, so capping the payment brings it nearer to it.
-/
import Insolvency.Proofs.AssetThreshold.CashPayments
import Insolvency.Proofs.Episode.DebtAccounting
import Insolvency.Proofs.Episode.GivingShares

namespace Insolvency

open Decimal

/-! ### Payments read off the claims -/

/-- What a creditor is paid by the payments on a list: nothing if there is none to it. -/
def paidTo (creditor : AgentId) : List Payment → Decimal
  | [] => 0
  | p :: rest => if p.creditor = creditor then p.amount else paidTo creditor rest

theorem paidTo_of_notMem {creditor : AgentId} {ps : List Payment}
    (h : creditor ∉ ps.map Payment.creditor) : paidTo creditor ps = 0 := by
  induction ps with
  | nil => rfl
  | cons p rest ih =>
      obtain ⟨hp, hrest⟩ := not_or.mp (h ∘ List.mem_cons.mpr)
      rw [paidTo, if_neg (Ne.symm hp), ih hrest]

theorem Claim.mem_receipt {c : Claim} {p : Payment} :
    p ∈ c.receipt ↔ c.writtenDown ≠ 0 ∧ p = ⟨c.creditor, c.writtenDown⟩ := by
  unfold receipt
  split_ifs with hnothing
  · simp [hnothing]
  · simp [hnothing]

theorem receipts_sublist (claims : List Claim) :
    ((claims.flatMap Claim.receipt).map Payment.creditor).Sublist (claims.map Claim.creditor) := by
  induction claims with
  | nil => exact .slnil
  | cons c rest ih =>
      rw [List.flatMap_cons, List.map_append, List.map_cons]
      unfold Claim.receipt
      split_ifs
      · exact ih.cons _
      · exact ih.cons_cons _

theorem paidTo_receipts {claims : List Claim} (h : (claims.map Claim.creditor).Nodup) {c : Claim}
    (hc : c ∈ claims) : paidTo c.creditor (claims.flatMap Claim.receipt) = c.writtenDown := by
  induction claims with
  | nil => cases hc
  | cons first rest ih =>
      obtain ⟨hfirst, hrest⟩ := List.nodup_cons.mp h
      rw [List.flatMap_cons, Claim.receipt]
      rcases List.mem_cons.mp hc with rfl | hc
      · split_ifs with hnothing
        · rw [hnothing]
          exact paidTo_of_notMem fun hmem => hfirst ((receipts_sublist rest).mem hmem)
        · exact if_pos rfl
      · have hne : first.creditor ≠ c.creditor := fun heq =>
          hfirst (heq ▸ List.mem_map_of_mem hc)
        split_ifs
        · exact ih hrest hc
        · exact (if_neg hne).trans (ih hrest hc)

/-- Whatever a list was made into was made of something in it. -/
theorem exists_of_mem_forall₂ {α β : Type} {R : α → β → Prop} {xs : List α} {ys : List β}
    (h : List.Forall₂ R xs ys) : ∀ y ∈ ys, ∃ x ∈ xs, R x y :=
  forall_mem_of_forall₂ ((List.forall₂_and_left _ _).mpr ⟨fun _ hx => hx, h⟩)
    fun x _ hxy => ⟨x, hxy.1, hxy.2⟩

theorem Episode.payments_allot {e e' : Episode} {ctx : Context} {creditor : AgentId}
    {quantity value : Decimal} {basis : Entitlement}
    (h : e.allot creditor quantity value basis ctx = .ok e') : e'.payments = e.payments := by
  simp only [allot, bind_eq_ok, pure_eq_ok] at h
  obtain ⟨⟨assigned, holder⟩, hassign, shares, -, issued, -, rfl⟩ := h
  rw [assignHolder_eq_ok hassign]
  rfl

namespace AssetThreshold

/-! ### One payment -/

variable {available totalDebt : Decimal} {owed : AgentId × Owed} {c : Claim}

/-- A part of an amount, worked out as a product over the whole, is off by the two roundings. -/
theorem part_error {x y w product q : Decimal} (hproduct : Rounds (x.toRat * y.toRat) product)
    (hq : Rounds (product.toRat / w.toRat) q) (hx : 0 ≤ x.toRat) (hle : x.toRat ≤ w.toRat)
    (hw : 0 < w.toRat) (hy : 0 ≤ y.toRat) :
    |q.toRat - x.toRat * y.toRat / w.toRat|
      ≤ max 1 y.toRat / 10 ^ 27 + max 1 (x.toRat * y.toRat) / 10 ^ 28 / w.toRat := by
  have hexact0 : 0 ≤ x.toRat * y.toRat := mul_nonneg hx hy
  have hpart : x.toRat * y.toRat / w.toRat ≤ y.toRat := by
    rw [div_le_iff₀ hw, mul_comm]
    gcongr
  have hgrain := grain_pos
  have hfirst : |product.toRat / w.toRat - x.toRat * y.toRat / w.toRat|
      ≤ 2 / 3 * grain * (max 1 (x.toRat * y.toRat) / w.toRat) := by
    rw [← sub_div, abs_div, abs_of_pos hw, ← mul_div_assoc]
    have hnear := hproduct.abs_sub_le (le_max_left _ _)
      ((abs_of_nonneg hexact0).trans_le (le_max_right 1 _))
    gcongr
  have hlost : 0 ≤ 2 / 3 * grain * (max 1 (x.toRat * y.toRat) / w.toRat) := by positivity
  have hsecond : |q.toRat - product.toRat / w.toRat| ≤ 2 / 3 * grain
      * (max 1 y.toRat + 2 / 3 * grain * (max 1 (x.toRat * y.toRat) / w.toRat)) := by
    refine hq.abs_sub_le (by linarith [le_max_left 1 y.toRat]) ?_
    rw [abs_of_nonneg (div_nonneg (hproduct.nonneg hexact0) hw.le)]
    linarith [(abs_le.mp hfirst).2, le_max_right 1 y.toRat]
  refine (abs_sub_le _ (product.toRat / w.toRat) _).trans ((add_le_add hsecond hfirst).trans ?_)
  rw [div_right_comm]
  unfold grain maxPlaces at hlost ⊢
  linarith [le_max_left 1 y.toRat]

/-- **A payment is off a creditor's part of the cash by the roundings of one product and one
quotient.** -/
theorem payment_error (hc : PaidPart available totalDebt owed c) (havailable : 0 ≤ available.toRat)
    (hle : available.toRat ≤ totalDebt.toRat) (hdebt : 0 < totalDebt.toRat)
    (howed : 0 ≤ c.amount.toRat) :
    |c.writtenDown.toRat - available.toRat * c.amount.toRat / totalDebt.toRat|
      ≤ max 1 c.amount.toRat / 10 ^ 27
        + max 1 (available.toRat * c.amount.toRat) / 10 ^ 28 / totalDebt.toRat := by
  have hpayment := hc.payment
  simp only [payment, hc.amount, bind_eq_ok, pure_eq_ok] at hpayment
  obtain ⟨_, hsame, product, hproduct, part, hpart, hpaid⟩ := hpayment
  obtain rfl := Except.ok.inj hsame
  have hdue : available.toRat * c.amount.toRat / totalDebt.toRat ≤ c.amount.toRat := by
    rw [div_le_iff₀ hdebt, mul_comm]
    gcongr
  rw [← hpaid, toRat_min]
  -- The exact part is no more than the debt, so the cap does not move the payment away from it.
  have hcapped := abs_inf_sub_inf_le_abs part.toRat
    (available.toRat * c.amount.toRat / totalDebt.toRat) c.amount.toRat
  rw [inf_eq_left.mpr hdue] at hcapped
  exact hcapped.trans
    (part_error (rounds_mul hproduct) (rounds_div hpart).2 havailable hle hdebt howed)

/-- Where there is no cash, nothing is paid. -/
theorem Unpaid.paidPart_of_nothing (h : Unpaid owed c) (hdebt : 0 < totalDebt.toRat)
    (howed : 0 ≤ c.amount.toRat) : PaidPart 0 totalDebt owed c := by
  refine ⟨h.creditor, h.amount, ?_⟩
  have hne : totalDebt ≠ 0 := fun hzero => hdebt.ne' (toRat_eq_zero.mpr hzero)
  simp only [payment, h.amount, zero_mul_eq_ok, zero_div_eq_ok hne, zero_min howed, h.writtenDown,
    bind, Except.bind, pure, Except.pure]

/-! ### All payments -/

/-- The cash stage is over: the claims are written down by the parts paid, which are on record. -/
structure PaidProRata (l : Liabilities) (available totalDebt : Decimal) (claims : List Claim)
    (payments : List Payment) : Prop where
  parts : List.Forall₂ (PaidPart available totalDebt) l.byCreditor.entries claims
  record : payments = claims.flatMap Claim.receipt

theorem paidProRata_of_compensateInCash {e paid : Episode} {cash : CashRule} {spendable : Decimal}
    (h : compensateInCash e cash totalDebt = .ok paid)
    (hspendable : cash.spendable e.assets = .ok spendable) (hspendable0 : 0 ≤ spendable.toRat)
    (hdebt : 0 < totalDebt.toRat)
    (hunpaid : List.Forall₂ Unpaid e.liabilities.byCreditor.entries e.claims)
    (howed : ∀ x ∈ e.liabilities.byCreditor.entries, 0 ≤ x.2.exactTotal)
    (hnone : e.payments = []) :
    PaidProRata e.liabilities (min spendable totalDebt) totalDebt paid.claims paid.payments := by
  simp only [compensateInCash, hspendable, bind_eq_ok, pure_eq_ok] at h
  obtain ⟨_, hsame, ⟨e1, sum⟩, hpay, assets, -, rfl⟩ := h
  obtain rfl := Except.ok.inj hsame
  show PaidProRata e.liabilities (min spendable totalDebt) totalDebt e1.claims e1.payments
  unfold payCreditors at hpay
  split_ifs at hpay with havailable
  · have hstart : e.claims = [] ++ e.claims := rfl
    obtain ⟨claims, hclaims, hon, hpays⟩ := payCreditors_claims hpay (zero_lt_iff.mp havailable).le
      hdebt.le hunpaid hstart (Table.nodup_keys _) howed
    rw [List.nil_append] at hon
    refine ⟨hon ▸ hclaims, ?_⟩
    rw [hpays.payments, hnone, List.nil_append]
    exact congrArg (List.flatMap Claim.receipt) hon.symm
  · obtain ⟨rfl, rfl⟩ := Prod.mk.inj (Except.ok.inj hpay)
    have hnothing : min spendable totalDebt = 0 := by
      refine toRat_injective (le_antisymm (not_lt.mp ?_) ?_)
      · rwa [toRat_zero, ← zero_lt_iff]
      · rw [toRat_zero, toRat_min]
        exact le_min hspendable0 hdebt.le
    rw [hnothing]
    have hclaims := ((List.forall₂_and_left _ _).mpr ⟨howed, hunpaid⟩).imp
      fun x c hc => hc.2.paidPart_of_nothing hdebt (hc.2.amount_nonneg hc.1)
    refine ⟨hclaims, ?_⟩
    rw [hnone, eq_comm, List.flatMap_eq_nil_iff]
    intro c hc
    have hunwritten := forall_mem_of_forall₂ hunpaid (fun _ _ hc => hc.writtenDown) c hc
    exact if_pos hunwritten

/-! ### What the creditors have -/

/-- The creditors have shared an amount of cash by what each is owed. -/
structure SharesCash (l : Liabilities) (available totalDebt : Decimal) (claims : List Claim)
    (payments : List Payment) : Prop where
  nodup : (payments.map Payment.creditor).Nodup
  /-- A payment is something, and no more than the creditor is owed. -/
  within : ∀ p ∈ payments, 0 < p.amount ∧ ∃ owed total, (p.creditor, owed) ∈ l.byCreditor.entries ∧
    owed.total = .ok total ∧ p.amount ≤ total
  /-- Every creditor has its part of the cash, be it paid or not. -/
  part : ∀ x ∈ l.byCreditor.entries, ∃ total, x.2.total = .ok total ∧
    |(paidTo x.1 payments).toRat - available.toRat * total.toRat / totalDebt.toRat|
      ≤ max 1 total.toRat / 10 ^ 27
        + max 1 (available.toRat * total.toRat) / 10 ^ 28 / totalDebt.toRat
  claimants : claims.map Claim.creditor = l.byCreditor.keys
  writtenDown : ∀ c ∈ claims, c.writtenDown = paidTo c.creditor payments

theorem PaidProRata.sharesCash {l : Liabilities} {claims : List Claim} {payments : List Payment}
    (h : PaidProRata l available totalDebt claims payments) (havailable : 0 ≤ available.toRat)
    (hle : available.toRat ≤ totalDebt.toRat) (hdebt : 0 < totalDebt.toRat)
    (howed : ∀ x ∈ l.byCreditor.entries, 0 ≤ x.2.exactTotal) :
    SharesCash l available totalDebt claims payments := by
  obtain ⟨hclaims, rfl⟩ := h
  have hcreditors : claims.map Claim.creditor = l.byCreditor.keys :=
    map_eq_map_of_forall₂ (hclaims.imp fun _ _ hc => hc.creditor)
  have hnodup : (claims.map Claim.creditor).Nodup := hcreditors ▸ Table.nodup_keys _
  refine ⟨(receipts_sublist claims).nodup hnodup, fun p hp => ?_, fun x hx => ?_, hcreditors,
    fun c hc => (paidTo_receipts hnodup hc).symm⟩
  · obtain ⟨c, hc, hreceipt⟩ := List.mem_flatMap.mp hp
    obtain ⟨hsome, rfl⟩ := Claim.mem_receipt.mp hreceipt
    obtain ⟨x, hx, hpart⟩ := exists_of_mem_forall₂ hclaims c hc
    have hpartly := hpart.partlyPaid havailable hdebt.le (howed x hx)
    refine ⟨zero_lt_iff.mpr (lt_of_le_of_ne hpartly.nonneg fun hzero => hsome ?_), x.2,
      c.amount, ?_, hpart.amount, le_iff_toRat.mpr hpartly.le⟩
    · exact toRat_eq_zero.mp hzero.symm
    · rw [hpart.creditor]
      exact hx
  · obtain ⟨c, hc, hpart⟩ := exists_of_mem_forall₂ hclaims.flip x hx
    have hpaid := paidTo_receipts hnodup hc
    rw [hpart.creditor] at hpaid
    rw [hpaid]
    exact ⟨c.amount, hpart.amount, payment_error hpart havailable hle hdebt
      ((rounds_add hpart.amount).nonneg (howed x hx))⟩

theorem spendable_nonneg {cash : CashRule} {assets : Assets} {spendable : Decimal}
    (h : cash.spendable assets = .ok spendable) (hcash : cash.fault? = none)
    (hassets : assets.holdings.Nonneg) : 0 ≤ spendable.toRat := by
  have hheld : 0 ≤ assets.cash.toRat := Accounts.amount_nonneg hassets .cash
  cases cash with
  | allCash => exact Except.ok.inj h ▸ hheld
  | cashFraction f =>
      change (if f < 0 ∨ 1 < f then some _ else none) = none at hcash
      split_ifs at hcash with hrange
      obtain ⟨hlow, -⟩ := not_or.mp hrange
      rw [lt_iff_toRat, toRat_zero, not_lt] at hlow
      exact (rounds_mul h).nonneg (mul_nonneg hheld hlow)

/-- Where the creditors are not left alone, more than dust is owed. -/
theorem epsilon_lt_of_run {cash : CashRule} {firm : Institution} {shortfall : Decimal}
    {ctx : Context} {r : Episode × Context} (h : run cash firm shortfall ctx = .ok r)
    (hout : r.1.outcome ≠ .compliant) (htotal : firm.sheet.totalLiabilities = .ok totalDebt) :
    .epsilon < totalDebt := by
  rw [← not_le_iff]
  intro hdust
  simp only [run, htotal, bind_eq_ok] at h
  obtain ⟨_, hsame, h⟩ := h
  obtain rfl := Except.ok.inj hsame
  rw [if_pos hdust] at h
  exact hout (pure_eq_ok.mp h ▸ rfl)

/-! ### Nobody else is paid -/

section Rest

variable {e e' : Episode} {debts : List (AgentId × Decimal)} {remainingDebt : Decimal}
  {ctx : Context}

theorem payments_handOverPart {count equity : Decimal} {debt : AgentId × Decimal}
    (h : handOverPart count equity remainingDebt ctx e debt = .ok e') :
    e'.payments = e.payments := by
  simp only [handOverPart, bind_eq_ok, pure_eq_ok] at h
  obtain ⟨_, -, quantity, -, _, -, value, -, allotted, hallot, down, hdown, totals, -, rfl⟩ := h
  obtain ⟨claims, -, rfl⟩ := Episode.writeDownClaim_eq_ok.mp hdown
  have hkept := Episode.payments_allot hallot
  exact hkept

/-- What the creditors get besides cash is no payment. -/
theorem payments_settleRest {r : Episode × Context}
    (h : settleRest e debts remainingDebt ctx = .ok r) : r.1.payments = e.payments := by
  rcases settleRest_cases h with ⟨value, handed, -, hhand, rfl⟩ | ⟨handed, ctx', hhand, rfl⟩
  · obtain ⟨given, claims, hgives⟩ := redistributes_of_handOutShares hhand
    obtain ⟨settled, rfl⟩ := hgives.result
    exact hgives.frame.payments
  · simp only [handOverFirm, bind_eq_ok, pure_eq_ok, Prod.mk.injEq] at hhand
    obtain ⟨count, -, cancelled, hcancel, equity, -, price, -, parts, hfold, rfl, -⟩ := hhand
    obtain ⟨lost, -, rfl⟩ := Episode.cancelShares_eq_ok.mp hcancel
    have hkept : parts.payments = e.payments :=
      foldlM_induction (P := fun mid : Episode => mid.payments = e.payments) hfold rfl
        fun debt _ mid mid' hmid hstep => (payments_handOverPart hstep).trans hmid
    exact hkept

end Rest

/-- What comes after the cash is shared pays nobody. -/
theorem payments_of_rest {ctx : Context} {r : Episode × Context} {c : Course}
    (h : (c.remainingDebt ≤ .epsilon ∧ r = (withoutDebts c.paid).conclude .resolved ctx) ∨
      (.epsilon < c.remainingDebt ∧ settleRest c.paid c.debts c.remainingDebt ctx = .ok r)) :
    r.1.payments = c.paid.payments := by
  rcases h with ⟨-, rfl⟩ | ⟨-, hrest⟩
  · rfl
  · exact payments_settleRest hrest

end AssetThreshold

namespace Policy

variable {cash : CashRule} {firm : Institution} {shortfall : Decimal} {ctx ctx' : Context}
  {e : Episode}

/-- **Cash is shared pro rata.**  In every episode that does something the claims on file are those
of the creditors, right after the cash stage each is written down by just the payment to its
creditor, and the payments stay what they are then. -/
theorem sharesCash_of_resolve (h : (assetThreshold cash).resolve firm shortfall ctx = .ok (e, ctx'))
    (hout : e.outcome ≠ .compliant) :
    ∃ totalDebt spendable filed paid, firm.sheet.totalLiabilities = .ok totalDebt ∧
      cash.spendable firm.sheet.assets = .ok spendable ∧
      (Episode.opening firm shortfall).fileClaims = .ok filed ∧
      AssetThreshold.compensateInCash (filed.reach .start) cash totalDebt = .ok paid ∧
      paid.trace = [.start, .cashCompensated] ∧ paid.payments = e.payments ∧
      AssetThreshold.SharesCash firm.sheet.liabilities (min spendable totalDebt) totalDebt
        paid.claims e.payments := by
  obtain ⟨hnone, hrun⟩ := resolve_eq_ok.mp h
  obtain ⟨hsheet, -⟩ := inOrder_of_objection? hnone
  rcases AssetThreshold.run_cases hrun with hcompliant | ⟨c, hc, hend⟩
  · exact absurd (Episode.outcome_of_compliant hcompliant.symm) hout
  obtain ⟨filed, hfiled, hpaid⟩ := hc.paying
  have hdebt := toRat_pos_of_epsilon_lt (AssetThreshold.epsilon_lt_of_run hrun hout hc.total)
  have hkept := AssetThreshold.payments_of_rest hend
  obtain ⟨claims, hclaims, rfl⟩ := Episode.fileClaims_eq_ok.mp hfiled
  obtain ⟨spendable, hspendable⟩ :
      ∃ spendable, cash.spendable firm.sheet.assets = .ok spendable := by
    simp only [AssetThreshold.compensateInCash, bind_eq_ok] at hpaid
    obtain ⟨spendable, hspendable, -⟩ := hpaid
    exact ⟨spendable, hspendable⟩
  have hspendable0 :=
    AssetThreshold.spendable_nonneg hspendable (fault?_of_objection? hnone) hsheet.assets
  have hunpaid := AssetThreshold.unpaid_of_claimsOf hclaims
  have howed : ∀ x ∈ firm.sheet.liabilities.byCreditor.entries, 0 ≤ x.2.exactTotal :=
    fun x hx => Liabilities.nonneg_of_mem_byCreditor hsheet.loans hsheet.deposits hx
  have hshared := AssetThreshold.paidProRata_of_compensateInCash hpaid hspendable hspendable0 hdebt
    hunpaid howed rfl
  refine ⟨c.totalDebt, spendable, _, c.paid, hc.total, hspendable, hfiled, hpaid, hc.trace,
    hkept.symm, ?_⟩
  change e.payments = c.paid.payments at hkept
  rw [hkept]
  refine hshared.sharesCash ?_ ?_ hdebt howed
  · rw [toRat_min]
    exact le_min hspendable0 hdebt.le
  · rw [toRat_min]
    exact min_le_right _ _

/-- Half of the sample firm's cash is shared among its two creditors. -/
theorem sharesCash_of_resolve_sampleFirm : ∃ e ctx' paid,
    (assetThreshold (.cashFraction 0.5)).resolve sampleFirm 700.0 sampleContext = .ok (e, ctx') ∧
      e.outcome ≠ .compliant ∧ e.payments.length = 2 ∧
      AssetThreshold.SharesCash sampleFirm.sheet.liabilities 500.0 900.0 paid e.payments := by
  obtain ⟨e, ctx', h, hout, hlength⟩ : ∃ e ctx',
      (assetThreshold (.cashFraction 0.5)).resolve sampleFirm 700.0 sampleContext = .ok (e, ctx') ∧
        e.outcome ≠ .compliant ∧ e.payments.length = 2 := ⟨_, _, rfl, by decide, rfl⟩
  obtain ⟨totalDebt, spendable, filed, paid, htotal, hspendable, -, -, -, -, hshares⟩ :=
    sharesCash_of_resolve h hout
  obtain rfl : (900.0 : Decimal) = totalDebt := Except.ok.inj htotal
  obtain rfl : (500.0 : Decimal) = spendable := Except.ok.inj hspendable
  exact ⟨e, ctx', paid.claims, h, hout, hlength, hshares⟩

end Policy

end Insolvency
