/-
What the operations on share accounts do to one account.

All of them are issues.  Retiring issues a negative quantity, and moving issues it at one
end and takes it back at the other.  What is moved or retired is capped by what is there
and never negative, so neither brings an account below nothing, whatever was asked for.
-/
import Insolvency.Proofs.Decimal.Overflow
import Insolvency.Proofs.Ledger.BalanceSheet

namespace Insolvency

open Decimal

/-- Taking all of an amount off it leaves nothing. -/
theorem Decimal.add_neg_self_eq_ok (d : Decimal) : d.add (-d) = .ok 0 := by
  unfold add
  rw [units_neg, Int.add_right_neg, ← units_zero, ofRatio?_units]
  rfl

namespace Shares

variable {r r' : Shares} {holder source target a : AgentId} {q moved : Decimal}

/-! ### Issuing -/

/-- The account that shares are issued to holds the sum, and nothing changes in the others. -/
theorem held_issue (h : r.issue holder q = .ok r') (a : AgentId) :
    if a = holder then (r.held a).add q = .ok (r'.held a) else r'.held a = r.held a := by
  simp only [issue, bind_eq_ok, pure_eq_ok] at h
  obtain ⟨credited, hcredit, rfl⟩ := h
  have hamount := Accounts.amount_credit hcredit a
  unfold held
  rw [Accounts.amount_swept]
  split_ifs at hamount ⊢ with ha
  · subst ha
    exact hamount
  · exact hamount

theorem held_issue_self (h : r.issue holder q = .ok r') :
    (r.held holder).add q = .ok (r'.held holder) := by
  simpa using held_issue h holder

theorem held_issue_of_ne (h : r.issue holder q = .ok r') (hne : a ≠ holder) :
    r'.held a = r.held a := by
  simpa [hne] using held_issue h a

/-- Issuing nothing changes nobody's account. -/
theorem held_issue_of_toRat_eq_zero (h : r.issue holder q = .ok r') (hq : q.toRat = 0)
    (a : AgentId) : r'.held a = r.held a := by
  obtain rfl := toRat_eq_zero.mp hq
  by_cases ha : a = holder
  · subst ha
    exact (Except.ok.inj ((add_zero_eq_ok _).symm.trans (held_issue_self h))).symm
  · exact held_issue_of_ne h ha

/-! ### Issuing in turn -/

/-- Quantities have been issued one after the other, to whomever. -/
structure Issued (r r' : Shares) (qs : List Decimal) : Prop where
  nonneg : r'.holders.Nonneg
  ge : r.holders.exactTotal ≤ r'.holders.exactTotal
  le : r'.holders.exactTotal ≤ r.holders.exactTotal + 11 * exactSum qs
  error : ∀ c, 1 ≤ c → r'.holders.exactTotal ≤ c →
    |r'.holders.exactTotal - (r.holders.exactTotal + exactSum qs)| ≤ qs.length * (2 / 3 * grain * c)
  length_le : r'.holders.entries.length ≤ r.holders.entries.length + qs.length

theorem Issued.nil (hr : r.holders.Nonneg) : Issued r r [] where
  nonneg := hr
  ge := le_rfl
  le := by simp
  error := by simp
  length_le := le_rfl

/-- Issuing nothing to nobody. -/
theorem Issued.skip (hr : r.holders.Nonneg) : Issued r r [0] where
  nonneg := hr
  ge := le_rfl
  le := by simp
  error := fun c hc _ => by
    have := grain_pos
    simp only [exactSum_cons, exactSum_nil, toRat_zero, add_zero, sub_self, abs_zero]
    positivity
  length_le := Nat.le_succ _

theorem issued_of_issue (h : r.issue holder q = .ok r') (hr : r.holders.Nonneg)
    (hq : 0 ≤ q.toRat) : Issued r r' [q] := by
  have hnn := nonneg_issue h hr hq
  simp only [issue, bind_eq_ok, pure_eq_ok] at h
  obtain ⟨credited, hcredit, rfl⟩ := h
  have hcredited := Accounts.credited_of_credit hcredit hr hq
  have hlength : credited.swept.entries.length ≤ r.holders.entries.length + 1 := by
    simp only [Accounts.credit, bind_eq_ok, pure_eq_ok] at hcredit
    obtain ⟨new, -, rfl⟩ := hcredit
    exact (Accounts.length_swept_le _).trans (Table.length_insert_le ..)
  refine ⟨hnn, ?_, ?_, fun c hc hle => ?_, hlength⟩
  · rw [Accounts.exactTotal_swept]
    exact hcredited.ge
  · rw [Accounts.exactTotal_swept, exactSum_cons, exactSum_nil, add_zero]
    exact hcredited.le
  · rw [Accounts.exactTotal_swept] at hle ⊢
    rw [exactSum_cons, exactSum_nil, add_zero, List.length_singleton, Nat.cast_one, one_mul]
    exact hcredited.error c hc hle

theorem Issued.append {r'' : Shares} {qs qs' : List Decimal} (h : Issued r r' qs)
    (h' : Issued r' r'' qs') : Issued r r'' (qs ++ qs') where
  nonneg := h'.nonneg
  ge := h.ge.trans h'.ge
  le := by
    rw [exactSum_append]
    linarith [h.le, h'.le]
  error := fun c hc hle => by
    have h1 := h.error c hc (h'.ge.trans hle)
    have h2 := h'.error c hc hle
    rw [exactSum_append, List.length_append, Nat.cast_add, add_mul]
    rw [abs_le] at h1 h2 ⊢
    constructor
    · linarith [h1.1, h2.1]
    · linarith [h1.2, h2.2]
  length_le := by
    rw [List.length_append]
    linarith [h.length_le, h'.length_le]

/-- Where there are no shares, issuing nothing leaves none. -/
theorem issue_zero_empty (h : Shares.empty.issue holder 0 = .ok r) : r = .empty := by
  simp only [issue, Accounts.credit, bind_eq_ok, pure_eq_ok] at h
  obtain ⟨credited, ⟨new, hnew, rfl⟩, rfl⟩ := h
  obtain rfl : (0 : Decimal) = new := Except.ok.inj ((add_zero_eq_ok 0).symm.trans hnew)
  rfl

/-! ### What an account can give -/

theorem toRat_movable (r : Shares) (a : AgentId) (q : Decimal) :
    (r.movable a q).toRat = max (min q.toRat (r.held a).toRat) 0 := by
  rw [movable, toRat_max, toRat_min, toRat_zero]

theorem movable_nonneg (r : Shares) (a : AgentId) (q : Decimal) : 0 ≤ (r.movable a q).toRat := by
  rw [toRat_movable]
  exact le_max_right _ _

/-- What is there is enough for what is given. -/
theorem movable_le_held (hr : r.holders.Nonneg) (a : AgentId) (q : Decimal) :
    (r.movable a q).toRat ≤ (r.held a).toRat := by
  rw [toRat_movable]
  exact max_le (min_le_right _ _) (Accounts.amount_nonneg hr a)

/-- Of what is wanted an account gives everything, or else all that it has. -/
theorem movable_eq_or (hr : r.holders.Nonneg) (a : AgentId) (hq : 0 ≤ q.toRat) :
    r.movable a q = q ∨ r.movable a q = r.held a := by
  have hheld : 0 ≤ (r.held a).toRat := Accounts.amount_nonneg hr a
  rcases le_total q.toRat (r.held a).toRat with hle | hle
  · refine Or.inl (toRat_injective ?_)
    rw [toRat_movable, min_eq_left hle, max_eq_left hq]
  · refine Or.inr (toRat_injective ?_)
    rw [toRat_movable, min_eq_right hle, max_eq_left hheld]

theorem movable_of_held_eq_zero (h : r.held a = 0) : r.movable a q = r.held a := by
  refine toRat_injective ?_
  rw [toRat_movable, h, toRat_zero]
  exact max_eq_right (min_le_right _ _)

theorem movable_le (r : Shares) (a : AgentId) (hq : 0 ≤ q.toRat) :
    (r.movable a q).toRat ≤ q.toRat := by
  rw [toRat_movable]
  exact max_le (min_le_left _ _) hq

/-! ### Retiring and moving -/

theorem nonneg_issue_neg_movable (h : r.issue holder (-r.movable holder q) = .ok r')
    (hr : r.holders.Nonneg) : r'.holders.Nonneg := by
  refine nonneg_issue_of_add_nonneg h hr ?_
  rw [toRat_neg]
  linarith [movable_le_held hr holder q]

/-- No account is below nothing after shares are retired, however many were to be. -/
theorem nonneg_retire (h : r.retire holder q = .ok (r', moved)) (hr : r.holders.Nonneg) :
    r'.holders.Nonneg := by
  simp only [retire, bind_eq_ok, pure_eq_ok, Prod.mk.injEq] at h
  obtain ⟨debited, hdebit, rfl, -⟩ := h
  exact nonneg_issue_neg_movable hdebit hr

/-- Shares moved are taken off one account and put on another. -/
theorem transfer_eq_ok (h : r.transfer source target q = .ok (r', moved)) :
    moved = r.movable source q ∧ ∃ debited, r.issue source (-moved) = .ok debited ∧
      debited.issue target moved = .ok r' := by
  simp only [transfer, bind_eq_ok, pure_eq_ok, Prod.mk.injEq] at h
  obtain ⟨debited, hdebit, credited, hcredit, rfl, rfl⟩ := h
  exact ⟨rfl, debited, hdebit, hcredit⟩

theorem held_transfer_target (h : r.transfer source target q = .ok (r', moved))
    (hne : source ≠ target) : (r.held target).add moved = .ok (r'.held target) := by
  obtain ⟨-, debited, hdebit, hcredit⟩ := transfer_eq_ok h
  rw [← held_issue_of_ne hdebit hne.symm]
  exact held_issue_self hcredit

/-- What moves is taken off the source. -/
theorem sub_held_transfer (h : r.transfer source target q = .ok (r', moved))
    (hne : source ≠ target) : (r.held source).sub moved = .ok (r'.held source) := by
  obtain ⟨-, debited, hdebit, hcredit⟩ := transfer_eq_ok h
  rw [held_issue_of_ne hcredit hne]
  exact add_neg_eq_ok.mp (held_issue_self hdebit)

/-- Where all that there is moves, nothing is left. -/
theorem held_transfer_source (h : r.transfer source target q = .ok (r', moved))
    (hne : source ≠ target) (hall : moved = r.held source) : r'.held source = 0 := by
  obtain ⟨-, debited, hdebit, hcredit⟩ := transfer_eq_ok h
  have hdebited := held_issue_self hdebit
  rw [hall, add_neg_self_eq_ok] at hdebited
  rw [held_issue_of_ne hcredit hne]
  exact (Except.ok.inj hdebited).symm

theorem held_transfer_of_ne (h : r.transfer source target q = .ok (r', moved))
    (hsource : a ≠ source) (htarget : a ≠ target) : r'.held a = r.held a := by
  obtain ⟨-, debited, hdebit, hcredit⟩ := transfer_eq_ok h
  rw [held_issue_of_ne hcredit htarget, held_issue_of_ne hdebit hsource]

/-- No account is below nothing after shares are moved, however many were to be. -/
theorem nonneg_transfer (h : r.transfer source target q = .ok (r', moved))
    (hr : r.holders.Nonneg) : r'.holders.Nonneg := by
  obtain ⟨rfl, debited, hdebit, hcredit⟩ := transfer_eq_ok h
  exact nonneg_issue hcredit (nonneg_issue_neg_movable hdebit hr) (movable_nonneg r source q)

end Shares

end Insolvency
