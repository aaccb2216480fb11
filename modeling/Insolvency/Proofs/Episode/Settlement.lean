/-
Debts settled in equity.

Whoever gets a firm for its debts gets equity worth something for each of them.  The debt is
settled as far as that goes; the rest of it is forgiven, or the rest of the value is a
surplus.  Four running totals keep count of this, and each of them rounds at every step.

What they come to hangs on two equations for each debt alone: settled and forgiven come to
the debt, and settled and surplus come to the value.  No running total is larger than the
figures of the episode make it, so the same two equations hold of the totals, but for a
hundred grains of that size for each entry.
-/
import Insolvency.Proofs.Decimal.Overflow
import Insolvency.Proofs.Decimal.Sum
import Insolvency.Proofs.Episode.Allotment
import Insolvency.Proofs.Episode.SameShares

namespace Insolvency

open Decimal

/-! ### Debts split -/

/-- What is paid on some debts, and what is left of them, comes to the debts. -/
structure Split (debt : ℚ) (entries : Nat) (paid left : List Decimal) : Prop where
  paid_nonneg : AllNonneg paid
  left_nonneg : AllNonneg left
  paid_length : paid.length ≤ entries
  left_length : left.length ≤ entries
  error : |exactSum paid + exactSum left - debt| ≤ 2 * allowance entries debt

namespace Split

variable {debt : ℚ} {entries : Nat} {paid left : List Decimal}

theorem exactSum_le (h : Split debt entries paid left) :
    exactSum paid + exactSum left ≤ max 1 debt + 2 * allowance entries debt := by
  linarith [(abs_le.mp h.error).2, le_max_right 1 debt]

/-- What is paid adds up, whatever else is settled of what is left. -/
theorem sum_paid_error (h : Split debt entries paid left) {settled : List Decimal} {t : Decimal}
    (hsum : sum (paid ++ settled) = .ok t) (hsettled : AllNonneg settled)
    (hlength : settled.length ≤ left.length) (hle : exactSum settled ≤ exactSum left) :
    |t.toRat - (exactSum paid + exactSum settled)| ≤ 44 * allowance entries debt := by
  rw [← exactSum_append]
  refine sum_near (List.forall_mem_append.mpr ⟨h.paid_nonneg, hsettled⟩) hsum ?_ ?_
  · have := h.paid_length
    have := h.left_length
    rw [List.length_append]
    omega
  · rw [exactSum_append]
    linarith [h.exactSum_le]

variable {allPaid allLeft : Decimal}

theorem paid_error (h : Split debt entries paid left) (hpaid : sum paid = .ok allPaid) :
    |allPaid.toRat - exactSum paid| ≤ 44 * allowance entries debt := by
  have hsum : sum (paid ++ []) = .ok allPaid := by rwa [List.append_nil]
  have herror := h.sum_paid_error hsum (List.forall_mem_nil _) (Nat.zero_le _)
    (exactSum_nonneg h.left_nonneg)
  rwa [exactSum_nil, add_zero] at herror

theorem left_error (h : Split debt entries paid left) (hleft : sum left = .ok allLeft) :
    |allLeft.toRat - exactSum left| ≤ 44 * allowance entries debt := by
  have hlength := h.left_length
  refine sum_near h.left_nonneg hleft (by omega) ?_
  linarith [h.exactSum_le, exactSum_nonneg h.paid_nonneg]

/-- Where what is left is dust, what is paid comes to the debts but for it. -/
theorem paid_error_of_dust (h : Split debt entries paid left) (hpaid : sum paid = .ok allPaid)
    (hleft : sum left = .ok allLeft) (hdust : allLeft ≤ .epsilon) :
    |allPaid.toRat - debt| ≤ tolerance entries debt := by
  have hsmall := le_iff_toRat.mp hdust
  have hone : epsilon.toRat ≤ 1 := by
    rw [toRat_epsilon]
    norm_num
  have hexact := foldlM_add_exact h.left_nonneg hleft toRat_zero.ge (hsmall.trans hone)
  rw [toRat_zero, zero_add] at hexact
  have hpaid' := abs_le.mp (h.paid_error hpaid)
  have hsplit := abs_le.mp h.error
  have hleft0 := exactSum_nonneg h.left_nonneg
  have := allowance_nonneg entries debt
  rw [tolerance_eq, abs_le]
  constructor
  · linarith [hpaid'.1, hsplit.1]
  · linarith [hpaid'.2, hsplit.2, epsilon_nonneg]

/-- Where what is left is settled as well, it all comes to the debts. -/
theorem add_error (h : Split debt entries paid left) (hpaid : sum paid = .ok allPaid)
    (hleft : sum left = .ok allLeft) {t : Decimal} (hadd : allPaid.add allLeft = .ok t) :
    |t.toRat - debt| ≤ 100 * allowance entries debt := by
  have hallowance := allowance_nonneg entries debt
  have hone : (1 : ℚ) ≤ max 1 debt := le_max_left _ _
  have hpaid' := abs_le.mp (h.paid_error hpaid)
  have hleft' := abs_le.mp (h.left_error hleft)
  have hsplit := abs_le.mp h.error
  have hsum0 : 0 ≤ allPaid.toRat + allLeft.toRat :=
    add_nonneg (sum_nonneg h.paid_nonneg hpaid) (sum_nonneg h.left_nonneg hleft)
  have hround := (rounds_add hadd).abs_sub_le
    (by linarith : 1 ≤ max 1 debt + 90 * allowance entries debt)
    (by rw [abs_of_nonneg hsum0]; linarith [h.exactSum_le, hpaid'.2, hleft'.2])
  have hlast : |t.toRat - (allPaid.toRat + allLeft.toRat)| ≤ 2 * allowance entries debt := by
    have hsize : grain * ((0 : Nat) + max 1 debt) ≤ allowance entries debt :=
      grain_mul_add_le_allowance (Nat.zero_le entries)
    rw [Nat.cast_zero, zero_add] at hsize
    linarith [hundred_grains_le hallowance]
  rw [abs_le]
  constructor
  · linarith [hpaid'.1, hleft'.1, hsplit.1, (abs_le.mp hlast).1]
  · linarith [hpaid'.2, hleft'.2, hsplit.2, (abs_le.mp hlast).2]

end Split

/-! ### One debt -/

/-- A debt that somebody gets equity of a value for. -/
structure Settlement where
  debt : Decimal
  value : Decimal
  forgiven : Decimal
  surplus : Decimal

namespace Settlement

/-- The debt is settled as far as the value goes. -/
def settled (s : Settlement) : Decimal := min s.value s.debt

/-- What is not settled is forgiven, and what is not needed for it is a surplus. -/
structure Booked (s : Settlement) : Prop where
  forgiven : s.debt.sub s.settled = .ok s.forgiven
  surplus : s.value.sub s.settled = .ok s.surplus

theorem settled_le_debt (s : Settlement) : s.settled.toRat ≤ s.debt.toRat := by
  rw [settled, toRat_min]
  exact min_le_right _ _

theorem settled_le_value (s : Settlement) : s.settled.toRat ≤ s.value.toRat := by
  rw [settled, toRat_min]
  exact min_le_left _ _

variable {s : Settlement}

theorem settled_nonneg (hdebt : 0 ≤ s.debt.toRat) (hvalue : 0 ≤ s.value.toRat) :
    0 ≤ s.settled.toRat := by
  rw [settled, toRat_min]
  exact le_min hvalue hdebt

theorem Booked.forgiven_nonneg (h : s.Booked) : 0 ≤ s.forgiven.toRat :=
  (rounds_sub h.forgiven).nonneg (sub_nonneg.mpr s.settled_le_debt)

theorem Booked.surplus_nonneg (h : s.Booked) : 0 ≤ s.surplus.toRat :=
  (rounds_sub h.surplus).nonneg (sub_nonneg.mpr s.settled_le_value)

theorem Booked.forgiven_le (h : s.Booked) (hsettled : 0 ≤ s.settled.toRat) :
    s.forgiven.toRat ≤ s.debt.toRat :=
  (rounds_sub h.forgiven).le_of_le (sub_le_self _ hsettled)

theorem Booked.surplus_le (h : s.Booked) (hsettled : 0 ≤ s.settled.toRat) :
    s.surplus.toRat ≤ s.value.toRat :=
  (rounds_sub h.surplus).le_of_le (sub_le_self _ hsettled)

end Settlement

/-! ### All debts in turn -/

/-- Debts have been settled one after the other, and the totals have kept count. -/
structure Settles (t t' : Totals) (ss : List Settlement) : Prop where
  cashPaid : t'.cashPaid = t.cashPaid
  booked : ∀ s ∈ ss, s.Booked
  settled : (ss.map Settlement.settled).foldlM add t.claimsSettled = .ok t'.claimsSettled
  forgiven : (ss.map Settlement.forgiven).foldlM add t.debtForgiven = .ok t'.debtForgiven
  surplus : (ss.map Settlement.surplus).foldlM add t.surplusToCreditors = .ok t'.surplusToCreditors
  delivered : (ss.map Settlement.value).foldlM add t.equityValueDelivered
    = .ok t'.equityValueDelivered

namespace Settles

variable {t t' t'' : Totals} {s : Settlement} {ss : List Settlement}

theorem nil (t : Totals) : Settles t t [] := ⟨rfl, List.forall_mem_nil _, rfl, rfl, rfl, rfl⟩

/-- The new share price, and what was written down of the loans, are kept apart. -/
theorem of_eq {u : Totals} (h : Settles u t' ss) (hu : u = { t with
    newSharePrice := u.newSharePrice, loansWrittenDown := u.loansWrittenDown }) :
    Settles t t' ss := by
  rw [hu] at h
  exact ⟨h.cashPaid, h.booked, h.settled, h.forgiven, h.surplus, h.delivered⟩

theorem cons (h : Settles t t' [s]) (h' : Settles t' t'' ss) : Settles t t'' (s :: ss) := by
  have hstep : ∀ {a b c d : Decimal} {ds : List Decimal}, [a].foldlM add b = .ok c →
      ds.foldlM add c = .ok d → (a :: ds).foldlM add b = .ok d := by
    intro a b c d ds hone hrest
    rw [List.foldlM_cons, bind_eq_ok] at hone ⊢
    obtain ⟨r, hr, hone⟩ := hone
    exact ⟨r, hr, pure_eq_ok.mp hone ▸ hrest⟩
  exact {
    cashPaid := h'.cashPaid.trans h.cashPaid
    booked := List.forall_mem_cons.mpr ⟨h.booked s (List.mem_singleton_self s), h'.booked⟩
    settled := hstep h.settled h'.settled
    forgiven := hstep h.forgiven h'.forgiven
    surplus := hstep h.surplus h'.surplus
    delivered := hstep h.delivered h'.delivered }

end Settles

theorem Totals.settles_of_settle {t t' : Totals} {debt value : Decimal}
    (h : t.settle debt (min value debt) value = .ok t') :
    ∃ s : Settlement, s.debt = debt ∧ s.value = value ∧ Settles t t' [s] := by
  simp only [settle, bind_eq_ok, pure_eq_ok] at h
  obtain ⟨claims, hclaims, forgiven, hforgiven, allForgiven, hallForgiven, surplus, hsurplus,
    allSurplus, hallSurplus, delivered, hdelivered, rfl⟩ := h
  have hone : ∀ {a b c : Decimal}, b.add a = .ok c → [a].foldlM add b = .ok c := by
    intro a b c h
    rw [List.foldlM_cons, h]
    rfl
  refine ⟨⟨debt, value, forgiven, surplus⟩, rfl, rfl, rfl, ?_, hone hclaims, hone hallForgiven,
    hone hallSurplus, hone hdelivered⟩
  intro s hs
  obtain rfl := List.mem_singleton.mp hs
  exact ⟨hforgiven, hsurplus⟩

namespace Episode

variable {e e' : Episode} {ctx : Context}

theorem totals_writeDownClaim {creditor : AgentId} {amount : Decimal}
    (h : e.writeDownClaim creditor amount = .ok e') : e'.totals = e.totals := by
  obtain ⟨claims, -, rfl⟩ := writeDownClaim_eq_ok.mp h
  rfl

theorem totals_cancelShares {price : Decimal} (h : e.cancelShares price = .ok e') :
    e'.totals = e.totals := by
  obtain ⟨lost, -, rfl⟩ := cancelShares_eq_ok.mp h
  rfl

/-- Shares are allotted for a debt, the claim is written down, and the debt is settled. -/
theorem settles_of_allot {allotted down : Episode} {creditor : AgentId}
    {quantity debt value amount : Decimal} {basis : Entitlement} {totals : Totals}
    (hallot : e.allot creditor quantity value basis ctx = .ok allotted)
    (hdown : allotted.writeDownClaim creditor amount = .ok down)
    (hsettle : down.totals.settle debt (min value debt) value = .ok totals) :
    ∃ s : Settlement, s.debt = debt ∧ s.value = value ∧ Settles e.totals totals [s] := by
  obtain ⟨s, hdebt, hvalue, h⟩ := Totals.settles_of_settle hsettle
  rw [totals_writeDownClaim hdown, (allot_eq_ok hallot).1.totals] at h
  exact ⟨s, hdebt, hvalue, h.cashPaid, h.booked, h.settled, h.forgiven, h.surplus, h.delivered⟩

/-- A loop that settles one debt at each step has settled them all. -/
theorem settles_of_foldlM {α : Type} {f : Episode → α → Except Decimal.Fault Episode} {xs : List α}
    {Q : α → Settlement → Prop} (h : xs.foldlM f e = .ok e')
    (hstep : ∀ x ∈ xs, ∀ mid mid', f mid x = .ok mid' →
      ∃ s, Q x s ∧ Settles mid.totals mid'.totals [s]) :
    ∃ ss, List.Forall₂ Q xs ss ∧ Settles e.totals e'.totals ss := by
  induction xs generalizing e with
  | nil =>
      obtain rfl := pure_eq_ok.mp h
      exact ⟨[], .nil, .nil e.totals⟩
  | cons x rest ih =>
      rw [List.foldlM_cons, bind_eq_ok] at h
      obtain ⟨mid, hmid, h⟩ := h
      obtain ⟨hx, hrest⟩ := List.forall_mem_cons.mp hstep
      obtain ⟨s, hq, hs⟩ := hx e mid hmid
      obtain ⟨ss, hqs, hss⟩ := ih h hrest
      exact ⟨s :: ss, .cons hq hqs, hs.cons hss⟩

end Episode

/-! ### What the totals come to -/

/-- Cash has been paid on some debts, and nothing else has been done about them. -/
structure Totals.OnlyPaid (t : Totals) (paid : List Decimal) : Prop where
  settled : sum paid = .ok t.claimsSettled
  cashPaid : t.cashPaid = t.claimsSettled
  forgiven : t.debtForgiven = 0
  surplus : t.surplusToCreditors = 0
  delivered : t.equityValueDelivered = 0

/-- What was settled and what was forgiven comes to the debts, and what creditors got comes to what
was settled and to their surplus. -/
structure Totals.AddUp (t : Totals) (debt : ℚ) (entries : Nat) : Prop where
  debts : |t.claimsSettled.toRat + t.debtForgiven.toRat - debt| ≤ 100 * allowance entries debt
  values : |t.cashPaid.toRat + t.equityValueDelivered.toRat
      - (t.claimsSettled.toRat + t.surplusToCreditors.toRat)|
    ≤ 100 * allowance entries (max debt t.equityValueDelivered.toRat)

/-- Everything that the accounts of settled debts are worked out from. -/
structure Settling (debt : ℚ) (entries : Nat) (paid : List Decimal) (ss : List Settlement)
    (t t' : Totals) : Prop where
  split : Split debt entries paid (ss.map Settlement.debt)
  before : t.OnlyPaid paid
  settles : Settles t t' ss
  value_nonneg : ∀ s ∈ ss, 0 ≤ s.value.toRat

namespace Settling

variable {debt : ℚ} {entries : Nat} {paid : List Decimal} {ss : List Settlement} {t t' : Totals}

theorem settled_nonneg (h : Settling debt entries paid ss t t') :
    ∀ s ∈ ss, 0 ≤ s.settled.toRat := fun s hs =>
  s.settled_nonneg (h.split.left_nonneg _ (List.mem_map_of_mem hs)) (h.value_nonneg s hs)

theorem length_le (h : Settling debt entries paid ss t t') : ss.length ≤ entries :=
  (List.length_map ..).symm.trans_le h.split.left_length

theorem claimsSettled_error (h : Settling debt entries paid ss t t') :
    |t'.claimsSettled.toRat - (exactSum paid + exactSum (ss.map Settlement.settled))|
      ≤ 44 * allowance entries debt := by
  refine h.split.sum_paid_error ?_ (List.forall_mem_map.mpr h.settled_nonneg) ?_ ?_
  · rw [sum, List.foldlM_append, bind_eq_ok]
    exact ⟨t.claimsSettled, h.before.settled, h.settles.settled⟩
  · rw [List.length_map, List.length_map]
  · exact exactSum_le_exactSum fun s _ => s.settled_le_debt

theorem cashPaid_error (h : Settling debt entries paid ss t t') :
    |t'.cashPaid.toRat - exactSum paid| ≤ 44 * allowance entries debt := by
  rw [h.settles.cashPaid, h.before.cashPaid]
  exact h.split.paid_error h.before.settled

theorem forgiven_le_debt (h : Settling debt entries paid ss t t') :
    ∀ s ∈ ss, s.forgiven.toRat ≤ s.debt.toRat := fun s hs =>
  (h.settles.booked s hs).forgiven_le (h.settled_nonneg s hs)

theorem exactSum_debts_le (h : Settling debt entries paid ss t t') :
    exactSum (ss.map Settlement.debt) ≤ max 1 debt + 2 * allowance entries debt := by
  linarith [h.split.exactSum_le, exactSum_nonneg h.split.paid_nonneg]

theorem debtForgiven_error (h : Settling debt entries paid ss t t') :
    |t'.debtForgiven.toRat - exactSum (ss.map Settlement.forgiven)|
      ≤ 44 * allowance entries debt := by
  have hsum := h.settles.forgiven
  rw [h.before.forgiven] at hsum
  refine sum_near (List.forall_mem_map.mpr fun s hs => (h.settles.booked s hs).forgiven_nonneg) hsum
    ?_ ((exactSum_le_exactSum h.forgiven_le_debt).trans h.exactSum_debts_le)
  have := h.length_le
  rw [List.length_map]
  omega

/-- Debt by debt, what is forgiven is what is not settled. -/
theorem exactSum_forgiven_error (h : Settling debt entries paid ss t t') :
    |exactSum (ss.map Settlement.forgiven) - (exactSum (ss.map Settlement.debt)
        - exactSum (ss.map Settlement.settled))| ≤ allowance entries debt := by
  have hsub : List.Forall₂ (fun (s : Settlement) d => s.debt.sub s.settled = .ok d) ss
      (ss.map Settlement.forgiven) :=
    List.forall₂_map_right_iff.mpr
    (List.forall₂_same.mpr fun s hs => (h.settles.booked s hs).forgiven)
  have herror := exactSum_sub_error hsub fun s hs =>
    ⟨h.settled_nonneg s hs, s.settled_le_debt⟩
  exact herror.trans (rounding_le_allowance h.length_le h.exactSum_debts_le)

/-- **Settled and forgiven come to the debts.** -/
theorem debts_error (h : Settling debt entries paid ss t t') :
    |t'.claimsSettled.toRat + t'.debtForgiven.toRat - debt| ≤ 100 * allowance entries debt := by
  have hsettled := abs_le.mp h.claimsSettled_error
  have hforgiven := abs_le.mp h.debtForgiven_error
  have hdebts := abs_le.mp h.exactSum_forgiven_error
  have hsplit := abs_le.mp h.split.error
  have := allowance_nonneg entries debt
  rw [abs_le]
  constructor
  · linarith [hsettled.1, hforgiven.1, hdebts.1, hsplit.1]
  · linarith [hsettled.2, hforgiven.2, hdebts.2, hsplit.2]

/-! ### What the values come to -/

/-- Both running totals of the values stay below what was delivered. -/
theorem delivered_error (h : Settling debt entries paid ss t t') {size : ℚ}
    (hsize : t'.equityValueDelivered.toRat ≤ size) :
    |t'.equityValueDelivered.toRat - exactSum (ss.map Settlement.value)|
      ≤ allowance entries size ∧
    |t'.surplusToCreditors.toRat - exactSum (ss.map Settlement.surplus)|
      ≤ allowance entries size := by
  have hdelivered := h.settles.delivered
  have hsurplus := h.settles.surplus
  rw [h.before.delivered] at hdelivered
  rw [h.before.surplus] at hsurplus
  have hbooked := h.settles.booked
  have hle := sum_mono (fun s hs => (hbooked s hs).surplus_le (h.settled_nonneg s hs)) hsurplus
    hdelivered
  have hlength : (ss.length : ℚ) ≤ entries := by exact_mod_cast h.length_le
  have hone : (1 : ℚ) ≤ max 1 size := le_max_left _ _
  have hmax := hsize.trans (le_max_right 1 size)
  have hgrain := grain_mul_nonneg (by linarith : 0 ≤ max 1 size)
  have hwithin : (ss.length : ℚ) * (2 / 3 * grain * max 1 size) ≤ allowance entries size := by
    calc (ss.length : ℚ) * (2 / 3 * grain * max 1 size)
        = 2 / 3 * (ss.length * (grain * max 1 size)) := by ring
      _ ≤ 2 / 3 * ((entries + 1) * (grain * max 1 size)) := by
          gcongr
          linarith
      _ = 2 / 3 * allowance entries size := rfl
      _ ≤ allowance entries size := by linarith [allowance_nonneg entries size]
  refine ⟨?_, ?_⟩
  · have herror := sum_error (List.forall_mem_map.mpr h.value_nonneg) hdelivered hone hmax
    rw [List.length_map] at herror
    exact herror.trans hwithin
  · have herror := sum_error
      (List.forall_mem_map.mpr fun s hs => (hbooked s hs).surplus_nonneg) hsurplus hone
      (hle.trans hmax)
    rw [List.length_map] at herror
    exact herror.trans hwithin

/-- Debt by debt, what is delivered is settled or a surplus. -/
theorem exactSum_surplus_error (h : Settling debt entries paid ss t t') {size : ℚ}
    (hsize : t'.equityValueDelivered.toRat ≤ size) :
    |exactSum (ss.map Settlement.surplus) - (exactSum (ss.map Settlement.value)
        - exactSum (ss.map Settlement.settled))| ≤ allowance entries size := by
  have hsub : List.Forall₂ (fun (s : Settlement) d => s.value.sub s.settled = .ok d) ss
      (ss.map Settlement.surplus) :=
    List.forall₂_map_right_iff.mpr
    (List.forall₂_same.mpr fun s hs => (h.settles.booked s hs).surplus)
  have herror := exactSum_sub_error hsub fun s hs =>
    ⟨h.settled_nonneg s hs, s.settled_le_value⟩
  refine herror.trans (rounding_le_allowance h.length_le ?_)
  have := allowance_nonneg entries size
  linarith [(abs_le.mp (h.delivered_error hsize).1).1, le_max_right 1 size]

/-- **What creditors got is settled or a surplus.** -/
theorem values_error (h : Settling debt entries paid ss t t') :
    |t'.cashPaid.toRat + t'.equityValueDelivered.toRat
        - (t'.claimsSettled.toRat + t'.surplusToCreditors.toRat)|
      ≤ 100 * allowance entries (max debt t'.equityValueDelivered.toRat) := by
  have hsize := le_max_right debt t'.equityValueDelivered.toRat
  have hallowance : allowance entries debt
      ≤ allowance entries (max debt t'.equityValueDelivered.toRat) :=
    allowance_mono (le_max_left _ _)
  have hsettled := abs_le.mp h.claimsSettled_error
  have hcash := abs_le.mp h.cashPaid_error
  have hdelivered := abs_le.mp (h.delivered_error hsize).1
  have hsurplus := abs_le.mp (h.delivered_error hsize).2
  have hvalues := abs_le.mp (h.exactSum_surplus_error hsize)
  have := allowance_nonneg entries debt
  rw [abs_le]
  constructor
  · linarith [hsettled.2, hcash.1, hdelivered.1, hsurplus.2, hvalues.2]
  · linarith [hsettled.1, hcash.2, hdelivered.2, hsurplus.1, hvalues.1]

theorem addUp (h : Settling debt entries paid ss t t') : t'.AddUp debt entries :=
  ⟨h.debts_error, h.values_error⟩

end Settling

end Insolvency
