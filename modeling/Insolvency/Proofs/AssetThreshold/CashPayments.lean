/-
What creditors get in cash, and what they are still owed.

The cash is shared creditor by creditor, and each payment is taken off the claim of the one
who gets it.  No creditor has two claims, so a payment meets the claim that is on file for it
and no other; and no payment is more than the claim, so the claim is reduced by all of it.
That is the invariant of the loop: the claims that it has come to are reduced by what was
paid on them, and the others are untouched.  So the claims say it all: the payments on record are
those written down that are not nothing (`Claim.receipt`), and their sum is what was paid.

At its end payments and remaining debts split the liabilities.  Three roundings stand between
them: what a creditor is owed is a sum, what is left of it is a difference, and both are
within a grain of its size.
-/
import Insolvency.Proofs.AssetThreshold.Course
import Insolvency.Proofs.Episode.Settlement

namespace Insolvency

open Decimal

/-! ### One claim -/

/-- A claim of the whole amount is reduced by a payment that is no more than it. -/
theorem Claim.writeDown_fresh {c c' : Claim} {amount : Decimal} (h : c.writeDown amount = .ok c')
    (hc : c.writtenDown = 0) (h0 : 0 ≤ amount.toRat) (hle : amount.toRat ≤ c.amount.toRat) :
    c' = { c with writtenDown := amount } := by
  have hcapped : min (max amount 0) c.amount = amount := by
    refine toRat_injective ?_
    rw [toRat_min, toRat_max, toRat_zero, max_eq_left h0, min_eq_left hle]
  rw [writeDown, remaining, hc, sub_zero_eq_ok] at h
  simp only [bind_eq_ok, pure_eq_ok] at h
  obtain ⟨left, hleft, down, hdown, rfl⟩ := h
  rw [← Except.ok.inj hleft, hcapped, zero_add_eq_ok] at hdown
  rw [Except.ok.inj hdown]

/-- The payment that a claim is written down by, if it is written down. -/
def Claim.receipt (c : Claim) : List Payment :=
  if c.writtenDown = 0 then [] else [⟨c.creditor, c.writtenDown⟩]

namespace Episode

/-- The first claim of a creditor is none of those before it. -/
theorem writeDownIn_append {creditor : AgentId} {amount : Decimal} {done rest claims : List Claim}
    (h : writeDownIn creditor amount (done ++ rest) = .ok claims)
    (hdone : creditor ∉ done.map Claim.creditor) :
    ∃ rest', writeDownIn creditor amount rest = .ok rest' ∧ claims = done ++ rest' := by
  induction done generalizing claims with
  | nil => exact ⟨claims, h, rfl⟩
  | cons c done ih =>
      obtain ⟨hc, hdone⟩ := not_or.mp (hdone ∘ List.mem_cons.mpr)
      rw [List.cons_append, writeDownIn, if_neg (Ne.symm hc)] at h
      simp only [bind_eq_ok, pure_eq_ok] at h
      obtain ⟨claims', hclaims', rfl⟩ := h
      obtain ⟨rest', hrest', rfl⟩ := ih hclaims' hdone
      exact ⟨rest', hrest', rfl⟩

end Episode

namespace AssetThreshold

/-! ### Paying one creditor -/

/-- A claim of which nothing is paid yet. -/
structure Unpaid (owed : AgentId × Owed) (c : Claim) : Prop where
  creditor : c.creditor = owed.1
  amount : owed.2.total = .ok c.amount
  writtenDown : c.writtenDown = 0

/-- A claim of which some may be paid, and no more than there is of it. -/
structure PartlyPaid (owed : AgentId × Owed) (c : Claim) : Prop where
  creditor : c.creditor = owed.1
  amount : owed.2.total = .ok c.amount
  nonneg : 0 ≤ c.writtenDown.toRat
  le : c.writtenDown.toRat ≤ c.amount.toRat

/-- The claim is written down by what the creditor gets for it. -/
structure PaidPart (available totalDebt : Decimal) (owed : AgentId × Owed) (c : Claim) : Prop where
  creditor : c.creditor = owed.1
  amount : owed.2.total = .ok c.amount
  payment : payment available totalDebt owed.2 = .ok c.writtenDown

variable {available totalDebt : Decimal} {owed : AgentId × Owed} {c : Claim}

theorem Unpaid.amount_nonneg (h : Unpaid owed c) (howed : 0 ≤ owed.2.exactTotal) :
    0 ≤ c.amount.toRat :=
  (rounds_add h.amount).nonneg howed

theorem unpaid_of_claimsOf {l : Liabilities} {claims : List Claim}
    (h : Episode.claimsOf l = .ok claims) : List.Forall₂ Unpaid l.byCreditor.entries claims :=
  (Episode.freshClaims_of_claimsOf h).imp fun _ _ hc => ⟨hc.1, hc.2.1, hc.2.2⟩

theorem payment_bounds {amount : Decimal} (h : payment available totalDebt owed.2 = .ok amount)
    (hc : Unpaid owed c) (howed : 0 ≤ owed.2.exactTotal) (havailable : 0 ≤ available.toRat)
    (hdebt : 0 ≤ totalDebt.toRat) : 0 ≤ amount.toRat ∧ amount.toRat ≤ c.amount.toRat := by
  have hamount := hc.amount_nonneg howed
  simp only [payment, hc.amount, bind_eq_ok, pure_eq_ok] at h
  obtain ⟨total, htotal, product, hproduct, part, hpart, rfl⟩ := h
  obtain rfl := Except.ok.inj htotal
  have hproduct0 := (rounds_mul hproduct).nonneg (mul_nonneg havailable hamount)
  have hpart0 := (rounds_div hpart).2.nonneg (div_nonneg hproduct0 hdebt)
  rw [toRat_min]
  exact ⟨le_min hpart0 hamount, min_le_right _ _⟩

theorem PaidPart.partlyPaid (h : PaidPart available totalDebt owed c)
    (havailable : 0 ≤ available.toRat) (hdebt : 0 ≤ totalDebt.toRat)
    (howed : 0 ≤ owed.2.exactTotal) : PartlyPaid owed c := by
  have hunpaid : Unpaid owed { c with writtenDown := 0 } := ⟨h.creditor, h.amount, rfl⟩
  obtain ⟨h0, hle⟩ := payment_bounds h.payment hunpaid howed havailable hdebt
  exact ⟨h.creditor, h.amount, h0, hle⟩

/-- What claims are written down by has been paid: it is counted and on record, and nothing else
is. -/
structure Pays (state state' : Episode × Decimal) (claims : List Claim) : Prop where
  sum : (claims.map Claim.writtenDown).foldlM add state.2 = .ok state'.2
  payments : state'.1.payments = state.1.payments ++ claims.flatMap Claim.receipt
  totals : state'.1.totals = state.1.totals

theorem Pays.nil (state : Episode × Decimal) : Pays state state [] :=
  ⟨rfl, (List.append_nil _).symm, rfl⟩

theorem Pays.append {state state' state'' : Episode × Decimal} {claims claims' : List Claim}
    (h : Pays state state' claims) (h' : Pays state' state'' claims') :
    Pays state state'' (claims ++ claims') where
  sum := by
    rw [List.map_append, List.foldlM_append, h.sum]
    exact h'.sum
  payments := by rw [h'.payments, h.payments, List.append_assoc, List.flatMap_append]
  totals := h'.totals.trans h.totals

/-- A payment is taken off the creditor's claim, and no other claim is touched. -/
theorem payCreditor_claims {state state' : Episode × Decimal} {done rest : List Claim}
    (h : payCreditor available totalDebt state owed = .ok state')
    (havailable : 0 ≤ available.toRat) (hdebt : 0 ≤ totalDebt.toRat)
    (hclaims : state.1.claims = done ++ c :: rest) (hdone : owed.1 ∉ done.map Claim.creditor)
    (hc : Unpaid owed c) (howed : 0 ≤ owed.2.exactTotal) :
    ∃ c', PaidPart available totalDebt owed c' ∧ state'.1.claims = done ++ c' :: rest ∧
      Pays state state' [c'] := by
  simp only [payCreditor, bind_eq_ok] at h
  obtain ⟨amount, hamount, h⟩ := h
  obtain ⟨h0, hle⟩ := payment_bounds hamount hc howed havailable hdebt
  split_ifs at h with hnothing
  · obtain rfl := pure_eq_ok.mp h
    have hsame : c.writtenDown = amount := hc.writtenDown.trans hnothing.symm
    refine ⟨c, ⟨hc.creditor, hc.amount, hsame ▸ hamount⟩, hclaims, ?_, ?_, rfl⟩
    · rw [List.map_singleton, hc.writtenDown, List.foldlM_cons, add_zero_eq_ok]
      rfl
    · rw [List.flatMap_singleton, Claim.receipt, if_pos hc.writtenDown, List.append_nil]
  · simp only [bind_eq_ok, pure_eq_ok] at h
    obtain ⟨liabilities, -, e, hdown, paid, hpaid, rfl⟩ := h
    obtain ⟨claims, hwritten, rfl⟩ := Episode.writeDownClaim_eq_ok.mp hdown
    change Episode.writeDownIn owed.1 amount state.1.claims = .ok claims at hwritten
    rw [hclaims] at hwritten
    obtain ⟨rest', hrest', rfl⟩ := Episode.writeDownIn_append hwritten hdone
    rw [Episode.writeDownIn, if_pos hc.creditor] at hrest'
    simp only [bind_eq_ok, pure_eq_ok] at hrest'
    obtain ⟨c', hc', rfl⟩ := hrest'
    obtain rfl := Claim.writeDown_fresh hc' hc.writtenDown h0 hle
    have hreceipt : [({ c with writtenDown := amount } : Claim)].flatMap Claim.receipt
        = [⟨owed.1, amount⟩] := by
      rw [List.flatMap_singleton, Claim.receipt, if_neg hnothing, hc.creditor]
    refine ⟨{ c with writtenDown := amount }, ⟨hc.creditor, hc.amount, hamount⟩, rfl, ?_, ?_, rfl⟩
    · exact (bind_pure _).trans hpaid
    · exact congrArg (state.1.payments ++ ·) hreceipt.symm

/-! ### Paying all creditors -/

/-- The creditors in turn: the claims of those who have had their turn are reduced by what they
got, and the others are untouched. -/
theorem payCreditors_claims {owed : List (AgentId × Owed)} {state state' : Episode × Decimal}
    {done unpaid : List Claim}
    (h : owed.foldlM (payCreditor available totalDebt) state = .ok state')
    (havailable : 0 ≤ available.toRat) (hdebt : 0 ≤ totalDebt.toRat)
    (hunpaid : List.Forall₂ Unpaid owed unpaid) (hclaims : state.1.claims = done ++ unpaid)
    (hnodup : (done.map Claim.creditor ++ owed.map Prod.fst).Nodup)
    (howed : ∀ x ∈ owed, 0 ≤ x.2.exactTotal) :
    ∃ claims, List.Forall₂ (PaidPart available totalDebt) owed claims ∧
      state'.1.claims = done ++ claims ∧ Pays state state' claims := by
  induction hunpaid generalizing state done with
  | nil =>
      obtain rfl := pure_eq_ok.mp h
      exact ⟨[], .nil, hclaims, .nil state⟩
  | @cons x c owed unpaid hc _ ih =>
      rw [List.foldlM_cons, bind_eq_ok] at h
      obtain ⟨mid, hmid, h⟩ := h
      obtain ⟨hx, hrest⟩ := List.forall_mem_cons.mp howed
      have hnew : x.1 ∉ done.map Claim.creditor := fun hmem =>
        (List.disjoint_of_nodup_append hnodup) hmem (List.mem_cons_self ..)
      obtain ⟨c', hc', hclaims', hfirst⟩ :=
        payCreditor_claims hmid havailable hdebt hclaims hnew hc hx
      have hnext : mid.1.claims = (done ++ [c']) ++ unpaid := by
        rw [hclaims', List.append_assoc]
        rfl
      have hnodup' : ((done ++ [c']).map Claim.creditor ++ owed.map Prod.fst).Nodup := by
        rwa [List.map_append, List.append_assoc, List.map_singleton, hc'.creditor]
      obtain ⟨claims, hpaid, hclaims'', hothers⟩ := ih h hnext hnodup' hrest
      refine ⟨c' :: claims, .cons hc' hpaid, ?_, hfirst.append hothers⟩
      rw [hclaims'', List.append_assoc]
      rfl

theorem sum_unpaid {owed : List (AgentId × Owed)} {unpaid : List Claim}
    (h : List.Forall₂ Unpaid owed unpaid) (s : Decimal) :
    (unpaid.map Claim.writtenDown).foldlM add s = .ok s := by
  induction h with
  | nil => rfl
  | cons hc _ ih =>
      rw [List.map_cons, List.foldlM_cons, hc.writtenDown, add_zero_eq_ok]
      exact ih

theorem partlyPaid_of_unpaid {owed : List (AgentId × Owed)} {unpaid : List Claim}
    (h : List.Forall₂ Unpaid owed unpaid) (howed : ∀ x ∈ owed, 0 ≤ x.2.exactTotal) :
    List.Forall₂ PartlyPaid owed unpaid := by
  induction h with
  | nil => exact .nil
  | cons hc _ ih =>
      obtain ⟨hx, hrest⟩ := List.forall_mem_cons.mp howed
      have hzero := congrArg toRat hc.writtenDown
      rw [toRat_zero] at hzero
      exact .cons ⟨hc.creditor, hc.amount, hzero.ge, hzero.trans_le (hc.amount_nonneg hx)⟩
        (ih hrest)

/-- The creditors have shared the cash: what they got is off their claims and off the cash, and the
totals say how much it is. -/
structure CashShared (e e' : Episode) (paid : Decimal) : Prop where
  claims : List.Forall₂ PartlyPaid e.liabilities.byCreditor.entries e'.claims
  total : sum (e'.claims.map Claim.writtenDown) = .ok paid
  totals : e'.totals = { e.totals with cashPaid := paid, claimsSettled := paid }
  assets : e.assets.creditHolding .cash (-min paid e.assets.cash) = .ok e'.assets

theorem cashShared_of_compensateInCash {e e' : Episode} {cash : CashRule}
    (h : compensateInCash e cash totalDebt = .ok e')
    (hunpaid : List.Forall₂ Unpaid e.liabilities.byCreditor.entries e.claims)
    (hdebt : 0 ≤ totalDebt.toRat)
    (howed : ∀ x ∈ e.liabilities.byCreditor.entries, 0 ≤ x.2.exactTotal) :
    ∃ paid, CashShared e e' paid := by
  simp only [compensateInCash, bind_eq_ok, pure_eq_ok] at h
  obtain ⟨spendable, -, ⟨e1, paid⟩, hpay, assets, hassets, rfl⟩ := h
  have hassets' : e1.assets.creditHolding .cash (-min paid e.assets.cash) = .ok assets := hassets
  rw [(payCreditors_paysOut hpay).assets] at hassets'
  unfold payCreditors at hpay
  split_ifs at hpay with havailable
  · rw [lt_iff_toRat, toRat_zero] at havailable
    have hstart : e.claims = [] ++ e.claims := rfl
    obtain ⟨claims, hparts, hclaims, hpays⟩ := payCreditors_claims hpay havailable.le hdebt
      hunpaid hstart (Table.nodup_keys _) howed
    rw [List.nil_append] at hclaims
    refine ⟨paid, ?_, ?_, ?_, hassets'⟩
    · refine hclaims ▸ ((List.forall₂_and_left _ _).mpr ⟨howed, hparts⟩).imp fun x c hc => ?_
      exact hc.2.partlyPaid havailable.le hdebt hc.1
    · exact hclaims ▸ hpays.sum
    · exact congrArg (fun t => { t with cashPaid := paid, claimsSettled := paid }) hpays.totals
  · obtain ⟨rfl, rfl⟩ := Prod.mk.inj (Except.ok.inj hpay)
    exact ⟨0, partlyPaid_of_unpaid hunpaid howed, sum_unpaid hunpaid 0, rfl, hassets'⟩

/-- A firm's creditors share its cash. -/
theorem cashShared_of_paying {cash : CashRule} {firm : Institution} {shortfall totalDebt : Decimal}
    {filed paid : Episode} (htotal : firm.sheet.totalLiabilities = .ok totalDebt)
    (hfiled : (Episode.opening firm shortfall).fileClaims = .ok filed)
    (hpaid : compensateInCash (filed.reach .start) cash totalDebt = .ok paid)
    (hsheet : firm.sheet.Nonneg) :
    ∃ spent, CashShared (Episode.opening firm shortfall) paid spent := by
  obtain ⟨claims, hclaims, rfl⟩ := Episode.fileClaims_eq_ok.mp hfiled
  have htotal0 := Liabilities.total_nonneg hsheet.loans hsheet.deposits htotal
  obtain ⟨spent, hshared⟩ :=
    cashShared_of_compensateInCash hpaid (unpaid_of_claimsOf hclaims) htotal0
    fun x hx => Liabilities.nonneg_of_mem_byCreditor hsheet.loans hsheet.deposits hx
  exact ⟨spent, hshared.claims, hshared.total, hshared.totals, hshared.assets⟩

theorem Course.Of.cashShared {cash : CashRule} {firm : Institution} {shortfall : Decimal}
    {c : Course} (h : c.Of cash firm shortfall) (hsheet : firm.sheet.Nonneg) :
    ∃ paid, CashShared (Episode.opening firm shortfall) c.paid paid := by
  obtain ⟨filed, hfiled, hpaid⟩ := h.paying
  exact cashShared_of_paying h.total hfiled hpaid hsheet

/-! ### What is left -/

/-- What is left of each claim, those of which nothing is left included. -/
theorem debts_eq_filter {claims : List Claim} {debts : List (AgentId × Decimal)}
    (h : debtsOf claims = .ok debts) :
    ∃ left : List (AgentId × Decimal), debts = left.filter (fun d => decide (0 < d.2)) ∧
      List.Forall₂ (fun (c : Claim) d => c.amount.sub c.writtenDown = .ok d) claims
        (left.map Prod.snd) := by
  simp only [debtsOf, bind_eq_ok, pure_eq_ok] at h
  obtain ⟨left, hleft, rfl⟩ := h
  refine ⟨left, rfl, List.forall₂_map_right_iff.mpr ((mapM_eq_ok.mp hleft).imp fun c d hd => ?_)⟩
  simp only [bind_eq_ok, pure_eq_ok] at hd
  obtain ⟨r, hr, rfl⟩ := hd
  exact hr

theorem exactSum_filter_pos {left : List (AgentId × Decimal)} (h : AllNonneg (left.map Prod.snd)) :
    exactSum ((left.filter fun d => decide (0 < d.2)).map Prod.snd)
      = exactSum (left.map Prod.snd) := by
  induction left with
  | nil => rfl
  | cons d rest ih =>
      obtain ⟨hd, hrest⟩ := allNonneg_cons.mp h
      by_cases hpos : 0 < d.2
      · rw [List.filter_cons_of_pos (by simp [hpos]), List.map_cons, List.map_cons, exactSum_cons,
          exactSum_cons, ih hrest]
      · have hzero : d.2.toRat = 0 := le_antisymm (not_lt.mp (hpos ∘ zero_lt_iff.mpr)) hd
        rw [List.filter_cons_of_neg (by simp [hpos]), ih hrest, List.map_cons, exactSum_cons, hzero,
          zero_add]

theorem amounts_error {l : Liabilities} {claims : List Claim} (hloans : l.loans.Nonneg)
    (hdeposits : l.deposits.Nonneg) (h : List.Forall₂ PartlyPaid l.byCreditor.entries claims) :
    |exactSum (claims.map Claim.amount) - l.exactTotal| ≤ allowance l.entryCount l.exactTotal := by
  have hrounds : List.Forall₂ (fun (x : AgentId × Owed) d =>
      Rounds x.2.exactTotal d ∧ |x.2.exactTotal| ≤ x.2.exactTotal) l.byCreditor.entries
      (claims.map Claim.amount) := by
    have howed : ∀ x ∈ l.byCreditor.entries, 0 ≤ x.2.exactTotal := fun x hx =>
      Liabilities.nonneg_of_mem_byCreditor hloans hdeposits hx
    refine List.forall₂_map_right_iff.mpr (((List.forall₂_and_left _ _).mpr ⟨howed, h⟩).imp ?_)
    rintro x c ⟨hx, hc⟩
    exact ⟨rounds_add hc.amount, (abs_of_nonneg hx).le⟩
  have herror := exactSum_rounds_error hrounds
  rw [Liabilities.sum_byCreditor] at herror
  refine herror.trans (rounding_le_allowance (Liabilities.length_byCreditor_le l) ?_)
  have := allowance_nonneg l.entryCount l.exactTotal
  linarith [le_max_right 1 l.exactTotal]

/-- **Cash payments and remaining debts split the liabilities.** -/
theorem split_of_debtsOf {l : Liabilities} {claims : List Claim} {debts : List (AgentId × Decimal)}
    (hloans : l.loans.Nonneg) (hdeposits : l.deposits.Nonneg)
    (hclaims : List.Forall₂ PartlyPaid l.byCreditor.entries claims)
    (hdebts : debtsOf claims = .ok debts) :
    Split l.exactTotal l.entryCount (claims.map Claim.writtenDown) (debts.map Prod.snd) := by
  have hlength := hclaims.length_eq.symm.trans_le (Liabilities.length_byCreditor_le l)
  have hpaid : ∀ c ∈ claims, 0 ≤ c.writtenDown.toRat ∧ c.writtenDown.toRat ≤ c.amount.toRat :=
    forall_mem_of_forall₂ hclaims fun _ _ hc => ⟨hc.nonneg, hc.le⟩
  have hdue := debtsLeft_of_debtsOf hdebts
  obtain ⟨left, rfl, hleft⟩ := debts_eq_filter hdebts
  have hleft0 := allNonneg_of_sub hleft fun c hc => (hpaid c hc).2
  have hamounts := amounts_error hloans hdeposits hclaims
  have hsize : exactSum (claims.map Claim.amount)
      ≤ max 1 l.exactTotal + 2 * allowance l.entryCount l.exactTotal := by
    have := allowance_nonneg l.entryCount l.exactTotal
    linarith [(abs_le.mp hamounts).2, le_max_right 1 l.exactTotal]
  have hremaining := (exactSum_sub_error hleft hpaid).trans (rounding_le_allowance hlength hsize)
  refine ⟨List.forall_mem_map.mpr fun c hc => (hpaid c hc).1, ?_, ?_, ?_, ?_⟩
  · exact List.forall_mem_map.mpr fun d hd => (hdue.pos d hd).le
  · rwa [List.length_map]
  · rw [List.length_map]
    exact hdue.length_le.trans hlength
  · rw [exactSum_filter_pos hleft0, abs_le]
    constructor
    · linarith [(abs_le.mp hamounts).1, (abs_le.mp hremaining).1]
    · linarith [(abs_le.mp hamounts).2, (abs_le.mp hremaining).2]

end AssetThreshold

end Insolvency
