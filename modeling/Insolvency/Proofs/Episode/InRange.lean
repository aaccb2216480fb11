/-
The steps of an episode with figures in range.

A step of an episode goes through accounts, claims, intermediaries and totals, and adds to
what they hold.  How large that may become is bounded here by how large it was and by how
much is added, and as long as that is within seven times 10²⁸ the step has a result.  A
claim needs no such bound: it is never written down by more than is left of it.
-/
import Insolvency.Proofs.Decimal.Range
import Insolvency.Proofs.Shares.Spawned

namespace Insolvency

open Decimal

variable {P : Fault → Prop} {c c' m : ℚ}

/-! ### Accounts -/

namespace Accounts

variable {κ : Type} [Ord κ] {a b : Accounts κ}

/-- No account is further from nothing than this. -/
def Within (c : ℚ) (a : Accounts κ) : Prop := ∀ k, |(a.amount k).toRat| ≤ c

theorem Within.mono (h : a.Within c) (hle : c ≤ c') : a.Within c' := fun k => (h k).trans hle

theorem Nonneg.within [Std.LawfulEqOrd κ] (h : a.Nonneg) : a.Within a.exactTotal := fun k => by
  rw [abs_of_nonneg (amount_nonneg h k)]
  exact amount_le_exactTotal h k

variable [Std.TransOrd κ] [Std.LawfulEqOrd κ]

theorem Within.swept (h : a.Within c) : a.swept.Within c := fun k => by
  rw [amount_swept]
  exact h k

theorem yields_credit [DecidableEq κ] {k : κ} {v : Decimal} (ha : a.Within c) (hv : |v.toRat| ≤ m)
    (h : c + m ≤ 7 * 10 ^ 28) :
    Yields P (fun b => Accounts.Within (c + m + 1 / 2) b) (a.credit k v) := by
  have hm := (abs_nonneg _).trans hv
  have hfails : FailsOnlyBy P (a.credit k v) :=
    ((yields_add_within (ha k) hv h).bind fun _ _ _ => yields_pure trivial :
      Yields P (fun _ => True) (a.credit k v)).fails
  refine ⟨hfails, fun b hb j => ?_⟩
  have hamount := amount_credit hb j
  split_ifs at hamount with hj
  · exact (yields_add_within (P := fun _ => True) (ha k) hv h).result _ (hj ▸ hamount)
  · rw [hamount]
    linarith [ha j]

end Accounts

/-! ### Claims -/

/-- A claim that is not too large to be written down. -/
structure Claim.InRange (claim : Claim) : Prop where
  amount : |claim.amount.toRat| ≤ 2 * 10 ^ 28
  writtenDown : |claim.writtenDown.toRat| ≤ 4 * 10 ^ 28

/-- What is taken off of a claim is no more than is left of it, so it never grows too large. -/
theorem Claim.yields_writeDown {claim : Claim} {amount : Decimal} (h : claim.InRange) :
    Yields P Claim.InRange (claim.writeDown amount) := by
  have hamount := abs_le.mp h.amount
  have hdown := abs_le.mp h.writtenDown
  refine (yields_sub (a := claim.amount) (b := claim.writtenDown) ?_).bind fun left _ hleft => ?_
  · exact (abs_sub _ _).trans (by linarith [h.amount, h.writtenDown])
  have hnear := abs_le.mp hleft.abs_sub_le_half
  have hcapped : |claim.writtenDown.toRat + (min (max amount 0) left).toRat| ≤ 4 * 10 ^ 28 := by
    rw [toRat_min, toRat_max, toRat_zero, abs_le]
    constructor
    · rcases min_choice (max amount.toRat 0) left.toRat with hmin | hmin
      · rw [hmin]
        linarith [le_max_right amount.toRat 0]
      · rw [hmin]
        linarith [hnear.1]
    · linarith [min_le_right (max amount.toRat 0) left.toRat, hnear.2]
  refine (yields_add (hcapped.trans (by norm_num))).bind fun down _ hdown' => ?_
  exact yields_pure ⟨h.amount, hdown'.abs_le_pow (by norm_num) hcapped⟩

namespace Episode

variable {e : Episode} {creditor : AgentId} {quantity amount : Decimal} {ctx : Context}

/-- All claims on file are in range. -/
def ClaimsInRange (e : Episode) : Prop := ∀ claim ∈ e.claims, claim.InRange

theorem yields_writeDownIn {claims : List Claim} (h : ∀ claim ∈ claims, claim.InRange) :
    Yields P (fun claims' => ∀ claim ∈ claims', claim.InRange)
      (writeDownIn creditor amount claims) := by
  induction claims with
  | nil => exact yields_ok h
  | cons claim rest ih =>
      obtain ⟨hclaim, hrest⟩ := List.forall_mem_cons.mp h
      unfold writeDownIn
      split_ifs
      · exact (Claim.yields_writeDown hclaim).bind fun claim' _ hclaim' =>
          yields_pure (List.forall_mem_cons.mpr ⟨hclaim', hrest⟩)
      · exact (ih hrest).bind fun rest' _ hrest' =>
          yields_pure (List.forall_mem_cons.mpr ⟨hclaim, hrest'⟩)

/-- A claim is written down, and nothing else is touched. -/
theorem yields_writeDownClaim (h : e.ClaimsInRange) :
    Yields P (fun e' => e'.ClaimsInRange ∧ e' = { e with claims := e'.claims })
      (e.writeDownClaim creditor amount) :=
  (yields_writeDownIn h).bind fun _ _ hclaims => yields_pure ⟨hclaims, rfl⟩

/-! ### Intermediaries -/

/-- No intermediary counts more shares than this. -/
def CountsWithin (c : ℚ) (ms : List Intermediary) : Prop := ∀ m ∈ ms, |m.shares.toRat| ≤ c

theorem CountsWithin.mono {ms : List Intermediary} (h : CountsWithin c ms) (hle : c ≤ c') :
    CountsWithin c' ms := fun m hm => (h m hm).trans hle

theorem yields_addToHolding {stock : InstitutionId} {ms : List Intermediary}
    (hms : CountsWithin c ms) (hq : |quantity.toRat| ≤ m) (h : c + m ≤ 7 * 10 ^ 28) :
    Yields P (fun _ => True) (addToHolding creditor stock quantity ms) := by
  induction ms with
  | nil => exact yields_ok trivial
  | cons x rest ih =>
      obtain ⟨hx, hrest⟩ := List.forall_mem_cons.mp hms
      unfold addToHolding
      split_ifs
      · exact (yields_add_within hx hq h).bind fun _ _ _ => yields_pure trivial
      · refine (ih hrest).bind fun found _ _ => ?_
        cases found with
        | none => exact yields_pure trivial
        | some x => exact yields_pure trivial

theorem Assigned.countsWithin {newId : Nat → IntermediaryId} {holder : AgentId}
    {ms ms' : List Intermediary} (h : Assigned newId creditor quantity ms holder ms')
    (hms : CountsWithin c ms) (hc : 0 ≤ c) (hq : |quantity.toRat| ≤ m)
    (hbound : c + m ≤ 7 * 10 ^ 28) : CountsWithin (c + m + 1 / 2) ms' := by
  have hm := (abs_nonneg _).trans hq
  cases h with
  | itself => exact hms.mono (by linarith)
  | @again before after x shares hsplit hadd =>
      subst hsplit
      intro y hy
      rcases List.mem_append.mp hy with hy | hy
      · exact (hms y (List.mem_append_left _ hy)).trans (by linarith)
      · rcases List.mem_cons.mp hy with rfl | hy
        · exact (yields_add_within (P := fun _ => True) (hms x List.mem_append_cons_self) hq
            hbound).result _ hadd
        · exact (hms y (List.mem_append_right _ (List.mem_cons_of_mem _ hy))).trans (by linarith)
  | @spawned x hagent hshares =>
      intro y hy
      rcases List.mem_append.mp hy with hy | hy
      · exact (hms y hy).trans (by linarith)
      · obtain rfl := List.mem_singleton.mp hy
        rw [hshares]
        linarith [hq]

/-- A holder is found, and nothing but the intermediaries is touched. -/
theorem yields_assignHolder (hms : CountsWithin c e.intermediaries) (hc : 0 ≤ c)
    (hq : |quantity.toRat| ≤ m) (h : c + m ≤ 7 * 10 ^ 28) :
    Yields P (fun r : Episode × AgentId => ∃ ms, r.1 = { e with intermediaries := ms } ∧
        CountsWithin (c + m + 1 / 2) ms ∧
        Assigned ctx.newId creditor quantity e.intermediaries r.2 ms)
      (e.assignHolder creditor quantity ctx) := by
  have hfails : Yields P (fun _ => True) (e.assignHolder creditor quantity ctx) := by
    unfold assignHolder
    split_ifs
    · exact yields_pure trivial
    · refine (yields_addToHolding hms hq h).bind fun found _ _ => ?_
      cases found with
      | none => exact yields_pure trivial
      | some x => exact yields_pure trivial
  refine hfails.imp fun r hr _ => ?_
  have hassigned := assigned_of_assignHolder hr
  exact ⟨r.1.intermediaries, assignHolder_eq_ok hr, hassigned.countsWithin hms hc hq h, hassigned⟩

end Episode

/-! ### Shares -/

namespace Shares

variable {r : Shares} {source target holder : AgentId} {q : Decimal}

theorem yields_issue (hr : r.holders.Within c) (hq : |q.toRat| ≤ m) (h : c + m ≤ 7 * 10 ^ 28) :
    Yields P (fun r' => r'.holders.Within (c + m + 1 / 2)) (r.issue holder q) :=
  (Accounts.yields_credit hr hq h).bind fun _ _ hcredited => yields_pure hcredited.swept

/-- What is moved is taken off the one account and put on the other. -/
theorem yields_transfer (hr : r.holders.Within c) (hnonneg : r.holders.Nonneg) (hq0 : 0 ≤ q.toRat)
    (hq : q.toRat ≤ m) (h : c + 2 * m + 1 ≤ 7 * 10 ^ 28) :
    Yields P (fun moved => moved.1.holders.Within (c + 2 * m + 1) ∧ moved.1.holders.Nonneg)
      (r.transfer source target q) := by
  have hmoved : |(r.movable source q).toRat| ≤ m := by
    rw [abs_of_nonneg (movable_nonneg r source q)]
    exact (movable_le r source hq0).trans hq
  have hfails : Yields P (fun moved : Shares × Decimal => moved.1.holders.Within (c + 2 * m + 1))
      (r.transfer source target q) := by
    have hdebit : |(-r.movable source q).toRat| ≤ m := by rwa [toRat_neg, abs_neg]
    refine (yields_issue hr hdebit (by linarith)).bind fun debited _ hdebited => ?_
    refine (yields_issue hdebited hmoved (by linarith)).bind fun credited _ hcredited => ?_
    exact yields_pure (hcredited.mono (by linarith))
  exact hfails.imp fun moved hmoved' hwithin => ⟨hwithin, nonneg_transfer hmoved' hnonneg⟩

end Shares

/-! ### Totals -/

/-- None of the figures that are added to with each debt is further from nothing than this. -/
structure Totals.Within (c : ℚ) (t : Totals) : Prop where
  issued : |t.sharesIssued.toRat| ≤ c
  settled : |t.claimsSettled.toRat| ≤ c
  forgiven : |t.debtForgiven.toRat| ≤ c
  surplus : |t.surplusToCreditors.toRat| ≤ c
  delivered : |t.equityValueDelivered.toRat| ≤ c

theorem Totals.yields_settle {t : Totals} {debt value : Decimal} (ht : t.Within c)
    (hdebt : 0 ≤ debt.toRat ∧ debt.toRat ≤ m) (hvalue : 0 ≤ value.toRat ∧ value.toRat ≤ m)
    (h : c + m ≤ 7 * 10 ^ 28) :
    Yields P (Totals.Within (c + m + 1 / 2)) (t.settle debt (min value debt) value) := by
  have hm := hdebt.1.trans hdebt.2
  have hmin := toRat_min value debt
  have hsettled0 : 0 ≤ (min value debt).toRat := hmin ▸ le_min hvalue.1 hdebt.1
  have hledebt : (min value debt).toRat ≤ debt.toRat := hmin ▸ min_le_right _ _
  have hlevalue : (min value debt).toRat ≤ value.toRat := hmin ▸ min_le_left _ _
  have habs : ∀ {d : Decimal}, 0 ≤ d.toRat → d.toRat ≤ m → |d.toRat| ≤ m := fun h0 hle =>
    (abs_of_nonneg h0).trans_le hle
  refine (yields_add_within ht.settled (habs hsettled0 (hledebt.trans hdebt.2)) h).bind
    fun settled _ hsettled => ?_
  refine (yields_sub_of_le hsettled0 hledebt).bind fun rest _ hrest => ?_
  refine (yields_add_within ht.forgiven (habs hrest.1 (hrest.2.trans hdebt.2)) h).bind
    fun forgiven _ hforgiven => ?_
  refine (yields_sub_of_le hsettled0 hlevalue).bind fun more _ hmore => ?_
  refine (yields_add_within ht.surplus (habs hmore.1 (hmore.2.trans hvalue.2)) h).bind
    fun surplus _ hsurplus => ?_
  refine (yields_add_within ht.delivered (habs hvalue.1 hvalue.2) h).bind
    fun delivered _ hdelivered => ?_
  exact yields_pure ⟨ht.issued.trans (by linarith), hsettled, hforgiven, hsurplus, hdelivered⟩

/-! ### Allotting -/

/-- Everything that grows where shares are allotted for debts: accounts, counts and totals. -/
structure Episode.Within (c : ℚ) (e : Episode) : Prop where
  held : e.shares.holders.Within c
  counts : CountsWithin c e.intermediaries
  totals : e.totals.Within c

/-- Shares are allotted, and put on record. -/
theorem Episode.yields_allot {e : Episode} {creditor : AgentId} {quantity value : Decimal}
    {basis : Entitlement} {ctx : Context} (he : e.Within c) (hq : |quantity.toRat| ≤ m)
    (h : c + m ≤ 7 * 10 ^ 28) :
    Yields P (fun e' => e'.Within (c + m + 1 / 2) ∧ e'.claims = e.claims)
      (e.allot creditor quantity value basis ctx) := by
  have hm := (abs_nonneg _).trans hq
  refine (yields_assignHolder he.counts ((abs_nonneg _).trans he.totals.issued) hq h).bind
    fun ⟨assigned, holder⟩ _ hassigned => ?_
  obtain ⟨ms, rfl, hcounts, -⟩ := hassigned
  refine (Shares.yields_issue he.held hq h).bind fun shares _ hshares => ?_
  refine (yields_add_within he.totals.issued hq h).bind fun issued _ hissued => ?_
  refine yields_pure ⟨⟨hshares, hcounts, hissued, ?_, ?_, ?_, ?_⟩, rfl⟩
  · exact he.totals.settled.trans (by linarith)
  · exact he.totals.forgiven.trans (by linarith)
  · exact he.totals.surplus.trans (by linarith)
  · exact he.totals.delivered.trans (by linarith)

end Insolvency
