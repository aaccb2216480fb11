/-
Two asset-threshold episodes side by side.

The books of two firms agree, and so do their episodes.  Whoever is owed nothing is paid
nothing, has no debt left over, and gets neither shares nor a part of the firm; whoever has an
account of nothing gives nothing up.

Who gives up shares at all is a question put to the entries: those do who have no claim on file,
be it one on nothing.  The two episodes part unless the same of the shareholders are creditors
(`hstanding` in `agree_run`).
-/
import Insolvency.Proofs.AssetThreshold.Course
import Insolvency.Proofs.Episode.Agreement

namespace Insolvency

open Decimal

/-- Entries of nothing add nothing. -/
theorem sum_kept {κ : Type} {xs ys : List (κ × Decimal)} (h : SameKept Accounts.counts xs ys) :
    Decimal.sum (xs.map Prod.snd) = Decimal.sum (ys.map Prod.snd) := by
  have hfilter : ∀ zs : List (κ × Decimal),
      Decimal.sum ((zs.filter Accounts.counts).map Prod.snd) = Decimal.sum (zs.map Prod.snd) := by
    intro zs
    have hvalues :
        (zs.filter Accounts.counts).map Prod.snd = (zs.map Prod.snd).filter (· != 0) := by
      rw [List.filter_map]
      rfl
    rw [hvalues]
    exact foldlM_add_filter _ 0
  rw [← hfilter xs, ← hfilter ys, h]

namespace AssetThreshold

variable {e e' : Episode} {ctx : Context}

/-! ### Paying in cash -/

theorem agree_takeOff {l m : Liabilities} (h : l.Agree m) (creditor : AgentId)
    (loan amount : Decimal) :
    Parallel Eq (takeOff l creditor loan amount) (takeOff m creditor loan amount) := by
  refine (h.creditLoan creditor _).bind fun debited _ hdebited => ?_
  subst hdebited
  exact .of_eq rfl

theorem agree_payCreditor {p q : Episode × Decimal} (h : Episode.AgreeBeside p q)
    (available totalDebt : Decimal) (owed : AgentId × Owed) :
    Parallel Episode.AgreeBeside (payCreditor available totalDebt p owed)
      (payCreditor available totalDebt q owed) := by
  obtain ⟨e, paid⟩ := p
  obtain ⟨e', paid'⟩ := q
  obtain ⟨hagree, rfl⟩ := h
  refine parallel_bind rfl fun amount _ => ?_
  dsimp only
  split_ifs
  · exact parallel_pure ⟨hagree, rfl⟩
  refine (agree_takeOff hagree.liabilities owed.1 owed.2.loanValue amount).bind fun l _ hl => ?_
  subst hl
  refine ((hagree.withLiabilities (.refl l)).writeDownClaim owed.1 amount).bind
    fun down down' hdown => ?_
  refine parallel_bind rfl fun total _ => parallel_pure ⟨?_, rfl⟩
  exact { hdown with payments := congrArg (· ++ [_]) hdown.payments }

/-- Whoever is owed nothing is not paid. -/
theorem payCreditor_nothing {totalDebt : Decimal} (htotal : totalDebt ≠ 0) (available : Decimal)
    {owed : AgentId × Owed} (howed : Liabilities.owes owed = false) (state : Episode × Decimal) :
    payCreditor available totalDebt state owed = .ok state := by
  have hnothing : owed.2 = ⟨0, 0⟩ := by simpa [Liabilities.owes] using howed
  have hpayment : payment available totalDebt owed.2 = .ok 0 := by
    rw [hnothing, payment, Owed.total, add_zero_eq_ok]
    simp only [bind, Except.bind, mul_zero_eq_ok, zero_div_eq_ok htotal]
    rfl
  rw [payCreditor, hpayment]
  rfl

theorem agree_payCreditors (h : e.Agree e') (available : Decimal) {totalDebt : Decimal}
    (htotal : totalDebt ≠ 0) :
    Parallel Episode.AgreeBeside (payCreditors e available totalDebt)
      (payCreditors e' available totalDebt) := by
  unfold payCreditors
  split_ifs
  · exact parallel_foldlM_kept h.liabilities.byCreditor
      (fun _ howed => payCreditor_nothing htotal available howed)
      (fun _ howed => payCreditor_nothing htotal available howed)
      (fun owed _ _ hst => agree_payCreditor hst available totalDebt owed) ⟨h, rfl⟩
  · exact .ok ⟨h, rfl⟩

theorem spendable_of_agree (h : e.Agree e') (cash : CashRule) :
    cash.spendable e.assets = cash.spendable e'.assets := by
  have hcash : e.assets.cash = e'.assets.cash := h.assets .cash
  cases cash with
  | allCash => exact congrArg Except.ok hcash
  | cashFraction f => rw [CashRule.spendable, CashRule.spendable, hcash]

theorem agree_compensateInCash (h : e.Agree e') (cash : CashRule) {totalDebt : Decimal}
    (htotal : totalDebt ≠ 0) :
    Parallel Episode.Agree (compensateInCash e cash totalDebt)
      (compensateInCash e' cash totalDebt) := by
  have hcash : e.assets.cash = e'.assets.cash := h.assets .cash
  unfold compensateInCash
  refine parallel_bind (spendable_of_agree h cash) fun spendable _ => ?_
  refine (agree_payCreditors h _ htotal).bind fun p q hpq => ?_
  obtain ⟨e1, paid⟩ := p
  obtain ⟨e2, paid'⟩ := q
  obtain ⟨hagree, rfl⟩ := hpq
  dsimp only
  rw [hcash]
  refine (Assets.agree_creditHolding hagree.assets .cash _).bind fun assets _ hassets => ?_
  subst hassets
  rw [hagree.totals]
  exact parallel_pure (((hagree.withAssets (.refl assets.holdings)).withTotals _).reach _)

/-! ### The debts that are left -/

theorem agree_debtsOf {cs ds : List Claim} (h : Episode.ClaimsAgree cs ds) :
    Parallel Eq (debtsOf cs) (debtsOf ds) := by
  have hleft : Parallel (SameKept fun d : AgentId × Decimal => decide (0 < d.2))
      (cs.mapM fun c => do return (c.creditor, ← c.remaining))
      (ds.mapM fun c => do return (c.creditor, ← c.remaining)) := by
    refine parallel_mapM h.same fun c hc hcounts => ⟨(c.creditor, 0), ?_, rfl⟩
    have hamount : c.amount = 0 := by simpa [Claim.counts] using hcounts
    have hdown : c.writtenDown = 0 := hc.elim (fun hc => h.left.hollow c hc hamount)
      fun hc => h.right.hollow c hc hamount
    rw [Claim.remaining, hamount, hdown, sub_zero_eq_ok]
    rfl
  exact hleft.bind fun _ _ hsame => parallel_pure hsame

theorem agree_withoutDebts (h : e.Agree e') : (withoutDebts e).Agree (withoutDebts e') :=
  h.withLiabilities (.refl ⟨∅, ∅⟩)

/-! ### Paying in shares -/

/-- The same outsiders have shares, if the same of the shareholders have claims on file. -/
theorem outsiders_kept (h : e.Agree e')
    (hstanding : ∀ a, e.shares.held a ≠ 0 → (a ∈ e.claimants ↔ a ∈ e'.claimants)) :
    SameKept Accounts.counts (outsiders e) (outsiders e') := by
  have hshares : e.shares.holders.entries.filter Accounts.counts
      = e'.shares.holders.entries.filter Accounts.counts := Accounts.agree_iff.mp h.shares
  have hswap : ∀ e : Episode, (outsiders e).filter Accounts.counts
      = (e.shares.holders.entries.filter Accounts.counts).filter
        fun x => !e.claims.any (·.creditor == x.1) := fun e => List.filter_comm ..
  rw [SameKept, hswap, hswap, ← hshares]
  refine List.filter_congr fun x hx => ?_
  obtain ⟨hmem, hcounts⟩ := List.mem_filter.mp hx
  have hheld : e.shares.held x.1 ≠ 0 := by
    rw [Shares.held, Accounts.amount_of_mem_entries hmem]
    exact bne_iff_ne.mp hcounts
  have hany : ∀ e : Episode, e.claims.any (·.creditor == x.1) = true ↔ x.1 ∈ e.claimants := by
    intro e
    rw [List.any_eq_true, Episode.claimants, List.mem_map]
    simp only [beq_iff_eq]
  congr 1
  rw [Bool.eq_iff_iff, hany, hany]
  exact hstanding x.1 hheld

theorem agree_giveTo (h : e.Agree e') (source : AgentId) (give remainingDebt price : Decimal)
    (debt : AgentId × Decimal) :
    Parallel Episode.Agree (giveTo source give remainingDebt price ctx e debt)
      (giveTo source give remainingDebt price ctx e' debt) := by
  refine parallel_bind rfl fun product _ => parallel_bind rfl fun quantity _ => ?_
  dsimp only
  split_ifs
  · exact parallel_pure h
  refine (h.assignHolder debt.1 quantity ctx).bind fun p q hpq => ?_
  obtain ⟨assigned, holder⟩ := p
  obtain ⟨assigned', holder'⟩ := q
  obtain ⟨hagree, rfl⟩ := hpq
  refine (Shares.agree_transfer hagree.shares source holder quantity).bind fun r _ hr => ?_
  subst hr
  obtain ⟨shares, moved⟩ := r
  refine parallel_bind rfl fun value _ => ?_
  rw [hagree.totals]
  refine parallel_bind rfl fun delivered _ => parallel_pure ?_
  exact { (hagree.withShares (.refl shares.holders)).withTotals _ with
    handovers := congrArg (· ++ [_]) hagree.handovers }

/-- Whoever has nothing gives nothing up. -/
theorem handOutFrom_nothing {remainingDebt value : Decimal} (hdue : remainingDebt ≠ 0)
    (hvalue : value ≠ 0) (debts : List (AgentId × Decimal)) (price : Decimal)
    {holding : AgentId × Decimal} (hnothing : Accounts.counts holding = false) (e : Episode) :
    handOutFrom debts remainingDebt value price ctx e holding = .ok e := by
  have hzero : holding.2 = 0 := by simpa [Accounts.counts] using hnothing
  have hgive : surrendered holding.2 remainingDebt value = .ok 0 := by
    rw [hzero, surrendered, zero_mul_eq_ok]
    simp only [bind, Except.bind, zero_div_eq_ok hvalue]
    rfl
  rw [handOutFrom, hgive]
  have hskip : ∀ debt ∈ debts, false = false → ∀ e,
      giveTo holding.1 0 remainingDebt price ctx e debt = .ok e := by
    intro debt _ _ e
    rw [giveTo, zero_mul_eq_ok]
    simp only [bind, Except.bind, zero_div_eq_ok hdue]
    rfl
  have hnone : (debts.filter fun _ => false).foldlM
      (giveTo holding.1 0 remainingDebt price ctx) e = _ := foldlM_filter hskip e
  rw [List.filter_false] at hnone
  exact hnone.symm

theorem agree_handOutShares (h : e.Agree e') (debts : List (AgentId × Decimal))
    {holdings holdings' : List (AgentId × Decimal)}
    (hkept : SameKept Accounts.counts holdings holdings')
    {remainingDebt value : Decimal} (hdue : remainingDebt ≠ 0) (hvalue : value ≠ 0)
    (price : Decimal) :
    Parallel Episode.Agree (handOutShares e debts holdings remainingDebt value price ctx)
      (handOutShares e' debts holdings' remainingDebt value price ctx) := by
  have hhanded : Parallel Episode.Agree
      (holdings.foldlM (handOutFrom debts remainingDebt value price ctx) e)
      (holdings'.foldlM (handOutFrom debts remainingDebt value price ctx) e') :=
    parallel_foldlM_kept hkept
      (fun _ hnothing => handOutFrom_nothing hdue hvalue debts price hnothing)
      (fun _ hnothing => handOutFrom_nothing hdue hvalue debts price hnothing)
      (fun holding _ _ hst => parallel_bind rfl fun give _ =>
        parallel_foldlM (fun debt _ _ _ hst' => agree_giveTo hst' holding.1 give _ _ debt) hst) h
  refine hhanded.bind fun handed handed' hagree => ?_
  refine (parallel_foldlM (fun debt _ _ _ hst => hst.writeDownClaim debt.1 debt.2) hagree).bind
    fun down down' hdown => ?_
  rw [hdown.totals]
  refine parallel_bind rfl fun settled _ => parallel_pure ?_
  exact (agree_withoutDebts (hdown.withTotals _)).reach _

/-! ### Handing over the firm -/

theorem agree_handOverPart (h : e.Agree e') (count equity remainingDebt : Decimal)
    (debt : AgentId × Decimal) :
    Parallel Episode.Agree (handOverPart count equity remainingDebt ctx e debt)
      (handOverPart count equity remainingDebt ctx e' debt) := by
  refine parallel_bind rfl fun _ _ => parallel_bind rfl fun quantity _ => ?_
  refine parallel_bind rfl fun _ _ => parallel_bind rfl fun value _ => ?_
  refine (h.allot debt.1 quantity value .writeDown ctx).bind fun allotted allotted' hallotted => ?_
  refine (hallotted.writeDownClaim debt.1 _).bind fun down down' hdown => ?_
  rw [hdown.totals]
  exact parallel_bind rfl fun totals _ => parallel_pure (hdown.withTotals totals)

theorem agree_handOverFirm (h : e.Agree e') (debts : List (AgentId × Decimal))
    (remainingDebt : Decimal) :
    Parallel Episode.AgreeBeside (handOverFirm e debts remainingDebt ctx)
      (handOverFirm e' debts remainingDebt ctx) := by
  unfold handOverFirm
  rw [← h.institution.id]
  refine parallel_bind h.shareCount fun count _ => ?_
  refine (h.cancelShares _).bind fun gone gone' hgone => ?_
  refine parallel_bind hgone.assets.total fun equity _ => parallel_bind rfl fun price _ => ?_
  obtain ⟨hpublished, hctx⟩ := (agree_withoutDebts hgone).publishPrice price ctx
  dsimp only
  rw [hctx]
  refine Parallel.bind (parallel_foldlM (fun debt _ _ _ hst =>
    agree_handOverPart hst count equity remainingDebt debt) hpublished)
    fun handed handed' hhanded => ?_
  exact parallel_pure ⟨hhanded, rfl⟩

/-! ### The whole course -/

theorem agree_settleRest (h : e.Agree e') (debts : List (AgentId × Decimal))
    {remainingDebt : Decimal} (hdue : remainingDebt ≠ 0)
    (hstanding : ∀ a, e.shares.held a ≠ 0 → (a ∈ e.claimants ↔ a ∈ e'.claimants)) :
    Parallel Episode.AgreeBeside (settleRest e debts remainingDebt ctx)
      (settleRest e' debts remainingDebt ctx) := by
  have hkept := outsiders_kept h hstanding
  unfold settleRest
  rw [← h.institution.id]
  refine parallel_bind (sum_kept hkept) fun held _ => parallel_bind rfl fun value _ => ?_
  split_ifs with hworth
  · exact (agree_handOutShares h debts hkept hdue (ne_zero_of_epsilon_lt hworth.1) _).bind
      fun _ _ hhanded => parallel_pure (hhanded.conclude .resolved rfl)
  · exact (agree_handOverFirm h debts remainingDebt).bind
      fun _ _ hhanded => parallel_pure (hhanded.1.conclude .liquidated hhanded.2)

/-- **Two asset-threshold episodes of firms with books that agree come to the same**, if the same of
the shareholders are creditors. -/
theorem agree_run {i j : Institution} (h : i.Agree j)
    (hstanding : ∀ a, i.sheet.shares.held a ≠ 0 →
      i.sheet.liabilities.isCreditor a = j.sheet.liabilities.isCreditor a)
    (cash : CashRule) (shortfall : Decimal) (ctx : Context) :
    Parallel Episode.AgreeBeside (run cash i shortfall ctx) (run cash j shortfall ctx) := by
  have htotal : i.sheet.totalLiabilities = j.sheet.totalLiabilities := h.sheet.liabilities.total
  refine parallel_bind htotal fun totalDebt htotal' => ?_
  split_ifs with hdust
  · exact parallel_pure ⟨Episode.agree_opening h 0, rfl⟩
  refine (Episode.agree_opening h shortfall).fileClaims.with_results.bind
    fun filed filed' hfiled => ?_
  obtain ⟨hfiled, hfile, hfile'⟩ := hfiled
  refine (agree_compensateInCash (hfiled.reach .start) cash
    (ne_zero_of_epsilon_lt (not_le_iff.mp hdust))).with_results.bind fun paid paid' hpaid => ?_
  obtain ⟨hpaid, hpay, hpay'⟩ := hpaid
  refine (agree_debtsOf hpaid.claims).with_results.bind fun debts _ hdebts => ?_
  obtain ⟨rfl, hdebts, hdebts'⟩ := hdebts
  refine parallel_bind rfl fun remainingDebt hremaining => ?_
  split_ifs with hleft
  · exact parallel_pure ((agree_withoutDebts hpaid).conclude .resolved rfl)
  refine agree_settleRest hpaid debts (ne_zero_of_epsilon_lt (not_le_iff.mp hleft))
    fun a hheld => ?_
  have hcourse : Course.Of cash i shortfall ⟨totalDebt, paid, debts, remainingDebt⟩ :=
    ⟨htotal', ⟨filed, hfile, hpay⟩, hdebts, hremaining⟩
  have hcourse' : Course.Of cash j shortfall ⟨totalDebt, paid', debts, remainingDebt⟩ :=
    ⟨htotal.symm.trans htotal', ⟨filed', hfile', hpay'⟩, hdebts', hremaining⟩
  have hclaimants : ∀ {k : Institution} {c : Course}, c.Of cash k shortfall →
      (a ∈ c.paid.claimants ↔ k.sheet.liabilities.isCreditor a = true) := by
    intro k c hc
    rw [hc.claimants, Liabilities.mem_byCreditor_iff]
  have hshares : paid.shares = i.sheet.shares := hcourse.sameShares.shares
  rw [hshares] at hheld
  rw [hclaimants hcourse, hclaimants hcourse', hstanding a hheld]

end AssetThreshold

end Insolvency
