/-
What the creditors get for their losses.

The losses of all creditors are credited to accounts by loser, one creditor's loan and
deposit to the same account, and each account is then allotted shares of its value.  So
the values of the allotments for write-downs add up to what was lost, but for the
rounding of the credits; the accounts of cancelled shares beside them do not count.
-/
import Insolvency.Proofs.Bailin.Stages
import Insolvency.Proofs.Episode.Allotment

namespace Insolvency

open Decimal

namespace Bailin

/-! ### Recording the losses -/

/-- What is booked for losers on one basis. -/
def basisTotal (basis : Entitlement) (losses : List (Loser × Decimal)) : ℚ :=
  exactSum ((losses.filter fun l => l.1.basis = basis).map Prod.snd)

/-- The losses of a list are recorded on top of what was lost before. -/
structure Recorded (e e' : Episode) (before after : Accounts Loser)
    (lost : List (AgentId × Decimal)) : Prop where
  books : e' = { e with claims := e'.claims }
  nonneg : after.Nonneg
  ge : before.exactTotal ≤ after.exactTotal
  le : after.exactTotal ≤ before.exactTotal + 11 * exactSum (lost.map Prod.snd)
  error : ∀ c, 1 ≤ c → after.exactTotal ≤ c →
    |after.exactTotal - (before.exactTotal + exactSum (lost.map Prod.snd))|
      ≤ lost.length * (2 / 3 * grain * c)
  basis : (∀ x ∈ before.entries, x.1.basis = .writeDown) →
    ∀ x ∈ after.entries, x.1.basis = .writeDown
  length_le : after.entries.length ≤ before.entries.length + lost.length

theorem recorded_of_foldlM {lost : List (AgentId × Decimal)} {e e' : Episode}
    {before after : Accounts Loser}
    (h : lost.foldlM recordWriteDown (e, before) = .ok (e', after)) (hnn : before.Nonneg)
    (hlost : AllNonneg (lost.map Prod.snd)) : Recorded e e' before after lost := by
  induction lost generalizing e before with
  | nil =>
      obtain ⟨rfl, rfl⟩ := Prod.mk.inj (pure_eq_ok.mp h)
      exact ⟨rfl, hnn, le_rfl, by simp, by simp, id, le_rfl⟩
  | cons loss rest ih =>
      rw [List.foldlM_cons, bind_eq_ok] at h
      obtain ⟨⟨e1, mid⟩, hstep, h⟩ := h
      simp only [recordWriteDown, Episode.writeDownClaim, bind_eq_ok, pure_eq_ok] at hstep
      obtain ⟨_, ⟨claims, -, rfl⟩, mid', hmid, heq⟩ := hstep
      obtain ⟨rfl, rfl⟩ := Prod.mk.inj heq
      obtain ⟨hloss, hrest⟩ := allNonneg_cons.mp hlost
      have hcredit := Accounts.credited_of_credit hmid hnn hloss
      have hrec := ih h hcredit.nonneg hrest
      refine ⟨?_, hrec.nonneg, hcredit.ge.trans hrec.ge, ?_, fun c hc hle => ?_, fun hall => ?_, ?_⟩
      · rw [hrec.books]
      · rw [List.map_cons, exactSum_cons]
        linarith [hrec.le, hcredit.le]
      · have h1 := hcredit.error c hc (hrec.ge.trans hle)
        have h2 := hrec.error c hc hle
        rw [List.map_cons, exactSum_cons, List.length_cons, Nat.cast_add_one]
        rw [abs_le] at h1 h2 ⊢
        constructor
        · linarith [h1.1, h2.1]
        · linarith [h1.2, h2.2]
      · refine hrec.basis fun x hx => ?_
        simp only [Accounts.credit, bind_eq_ok, pure_eq_ok] at hmid
        obtain ⟨new, -, rfl⟩ := hmid
        rcases Table.mem_insertEntry hx with rfl | hx
        · rfl
        · exact hall x hx
      · have hone : mid'.entries.length ≤ before.entries.length + 1 := by
          simp only [Accounts.credit, bind_eq_ok, pure_eq_ok] at hmid
          obtain ⟨new, -, rfl⟩ := hmid
          exact Table.length_insert_le ..
        have hrest := hrec.length_le
        rw [List.length_cons]
        omega

/-- An account for a loser on another basis does not count. -/
theorem basisTotal_insertEntry {basis : Entitlement} {l : Loser} (hl : l.basis ≠ basis)
    (v : Decimal) (es : List (Loser × Decimal)) :
    basisTotal basis (Table.insertEntry l v es) = basisTotal basis es := by
  unfold basisTotal
  induction es with
  | nil => simp [Table.insertEntry, hl]
  | cons x rest ih =>
      obtain ⟨l', v'⟩ := x
      unfold Table.insertEntry
      split
      · simp [hl]
      · rename_i heq
        obtain rfl := Std.LawfulEqCmp.eq_of_compare heq
        simp [hl]
      · by_cases hb : l'.basis = basis
        · simp [hb, ih]
        · simp [hb, ih]

/-- Recording the cancelled shares changes nothing for the write-downs. -/
theorem recordCancellations_keeps (before : Institution) (cancelled : List CancelledAccount)
    {losses : Accounts Loser} (hnn : losses.Nonneg) :
    basisTotal .writeDown (cancelled.foldl (recordCancellation before) losses).entries
        = basisTotal .writeDown losses.entries ∧
      (cancelled.foldl (recordCancellation before) losses).Nonneg := by
  induction cancelled generalizing losses with
  | nil => exact ⟨rfl, hnn⟩
  | cons x rest ih =>
      rw [List.foldl_cons]
      unfold recordCancellation
      split
      · rename_i hcount
        have hvalue : 0 ≤ x.lostValue.toRat := by
          simp only [compensated, Bool.and_eq_true, decide_eq_true_eq] at hcount
          exact (toRat_pos_of_epsilon_lt hcount.2).le
        obtain ⟨hsum, hnn'⟩ := ih (hnn.insert ⟨x.holder, .cancelledShares⟩ hvalue)
        refine ⟨hsum.trans ?_, hnn'⟩
        exact basisTotal_insertEntry (by simp) _ _
      · exact ih hnn

theorem length_recordCancellations_le (before : Institution) (cancelled : List CancelledAccount)
    (losses : Accounts Loser) :
    (cancelled.foldl (recordCancellation before) losses).entries.length
      ≤ losses.entries.length + cancelled.length := by
  induction cancelled generalizing losses with
  | nil => exact le_rfl
  | cons x rest ih =>
      have hone : (recordCancellation before losses x).entries.length
          ≤ losses.entries.length + 1 := by
        unfold recordCancellation
        split
        · exact Table.length_insert_le ..
        · exact Nat.le_succ _
      have hrest := ih (recordCancellation before losses x)
      rw [List.foldl_cons, List.length_cons]
      omega

/-! ### Handing out the shares -/

/-- What the allotments on one basis are worth together. -/
def allotmentValue (basis : Entitlement) (as : List Allotment) : ℚ :=
  exactSum ((as.filter fun a => a.basis = basis).map Allotment.value)

theorem compensate_eq_ok {base totalLoss : Decimal} {ctx : Context} {e e' : Episode}
    {loss : Loser × Decimal} (h : compensate base totalLoss ctx e loss = .ok e')
    (hloss : 0 ≤ loss.2.toRat) (basis : Entitlement) :
    e.KeepsBooks e' ∧ allotmentValue basis e'.allotments
      = allotmentValue basis e.allotments + basisTotal basis [loss] := by
  unfold compensate at h
  split_ifs at h with hnone
  · obtain rfl := pure_eq_ok.mp h
    have hzero : loss.2 = 0 :=
      toRat_eq_zero.mp (le_antisymm (by simpa using le_iff_toRat.mp hnone) hloss)
    refine ⟨.refl e, ?_⟩
    by_cases hb : loss.1.basis = basis
    · simp [basisTotal, hb, hzero]
    · simp [basisTotal, hb]
  · simp only [bind_eq_ok] at h
    obtain ⟨p, -, quantity, -, h⟩ := h
    obtain ⟨hkeeps, holder, hallot⟩ := Episode.allot_eq_ok h
    refine ⟨hkeeps, ?_⟩
    rw [hallot]
    by_cases hb : loss.1.basis = basis
    · simp [allotmentValue, basisTotal, hb]
    · simp [allotmentValue, basisTotal, hb]

theorem compensate_fold {base totalLoss : Decimal} {ctx : Context} {losses : List (Loser × Decimal)}
    {e e' : Episode} (h : losses.foldlM (compensate base totalLoss ctx) e = .ok e')
    (hnn : AllNonneg (losses.map Prod.snd)) (basis : Entitlement) :
    e.KeepsBooks e' ∧ allotmentValue basis e'.allotments
      = allotmentValue basis e.allotments + basisTotal basis losses := by
  induction losses generalizing e with
  | nil =>
      obtain rfl := pure_eq_ok.mp h
      exact ⟨.refl e, by simp [basisTotal]⟩
  | cons loss rest ih =>
      rw [List.foldlM_cons, bind_eq_ok] at h
      obtain ⟨mid, hmid, h⟩ := h
      obtain ⟨hloss, hrest⟩ := allNonneg_cons.mp hnn
      obtain ⟨hkeeps, hvalue⟩ := compensate_eq_ok hmid hloss basis
      obtain ⟨hkeeps', hvalue'⟩ := ih h hrest
      refine ⟨hkeeps.trans hkeeps', ?_⟩
      rw [hvalue', hvalue, add_assoc]
      by_cases hb : loss.1.basis = basis
      · simp [basisTotal, hb]
      · simp [basisTotal, hb]

/-- **The allotments for write-downs are worth what was written down**, but for one rounding for
each loss, and the books are kept. -/
theorem compensateAll_eq_ok {before : Institution} {base : Decimal}
    {lost : List (AgentId × Decimal)} {e e' : Episode} {ctx ctx' : Context}
    (h : compensateAll before base lost e ctx = .ok (e', ctx'))
    (hlost : AllNonneg (lost.map Prod.snd)) (hallotments : e.allotments = []) :
    e.KeepsBooks e' ∧ ∀ c, 1 ≤ c → 11 * exactSum (lost.map Prod.snd) ≤ c →
      |allotmentValue .writeDown e'.allotments - exactSum (lost.map Prod.snd)|
        ≤ lost.length * (2 / 3 * grain * c) := by
  simp only [compensateAll, bind_eq_ok, pure_eq_ok] at h
  obtain ⟨⟨e1, writeDowns⟩, hrecord, total, -, e2, hfold, price, -, h⟩ := h
  have hrec := recorded_of_foldlM hrecord Accounts.nonneg_empty hlost
  obtain ⟨hbasis, hnn⟩ := recordCancellations_keeps before e1.cancelled hrec.nonneg
  obtain ⟨hkeeps, hvalue⟩ := compensate_fold hfold hnn .writeDown
  have hbooks : e.KeepsBooks e1 := by
    rw [hrec.books]
    exact ⟨rfl, rfl, rfl, rfl, rfl⟩
  have hend : e' = (((e2.reach .sharesIssued).publishPrice price ctx).1.conclude .resolved
      ((e2.reach .sharesIssued).publishPrice price ctx).2).1 := by
    rw [show ((e2.reach .sharesIssued).publishPrice price ctx).1.conclude .resolved
      ((e2.reach .sharesIssued).publishPrice price ctx).2 = (e', ctx') from h]
  have hlast : e2.KeepsBooks e' := by
    rw [hend]
    exact (Episode.keepsBooks_reach e2 _).trans
      ((Episode.keepsBooks_publishPrice _ _ ctx).trans (Episode.keepsBooks_conclude _ _ _))
  have hallot : e'.allotments = e2.allotments := by
    rw [hend]
    rfl
  refine ⟨(hbooks.trans hkeeps).trans hlast, fun c hc hle => ?_⟩
  -- Nothing was allotted before, and all accounts of write-downs count.
  have hstart : allotmentValue .writeDown e1.allotments = 0 := by
    rw [hrec.books, hallotments]
    rfl
  have hall : basisTotal .writeDown writeDowns.entries = writeDowns.exactTotal := by
    have hbasis := hrec.basis fun x hx => by cases hx
    rw [basisTotal, List.filter_eq_self.mpr fun x hx => by simpa using hbasis x hx]
    rfl
  have hle' := hrec.le
  have herror := hrec.error c hc (by simpa using hle'.trans (by simpa using hle))
  rw [hallot, hvalue, hstart, zero_add, hbasis, hall]
  simpa using herror

/-- No share account is below nothing once the creditors have their shares. -/
theorem nonneg_shares_compensateAll {before : Institution} {base : Decimal}
    {lost : List (AgentId × Decimal)} {e e' : Episode} {ctx ctx' : Context}
    (h : compensateAll before base lost e ctx = .ok (e', ctx'))
    (hlost : AllNonneg (lost.map Prod.snd)) (hbase : 0 ≤ base.toRat)
    (hshares : e.shares.holders.Nonneg) : e'.shares.holders.Nonneg := by
  simp only [compensateAll, bind_eq_ok, pure_eq_ok] at h
  obtain ⟨⟨e1, writeDowns⟩, hrecord, total, -, e2, hfold, price, -, h⟩ := h
  have hrec := recorded_of_foldlM hrecord Accounts.nonneg_empty hlost
  have hrecorded : e1.shares.holders.Nonneg := by
    rw [hrec.books]
    exact hshares
  have hallotted : e2.shares.holders.Nonneg := by
    refine foldlM_induction (P := fun e : Episode => e.shares.holders.Nonneg) hfold hrecorded ?_
    intro loss _ e e' he hstep
    unfold compensate at hstep
    split_ifs at hstep
    · exact pure_eq_ok.mp hstep ▸ he
    · simp only [bind_eq_ok] at hstep
      obtain ⟨p, hp, quantity, hquantity, hstep⟩ := hstep
      exact Episode.nonneg_shares_allot hstep he
        ((rounds_mul hquantity).nonneg (mul_nonneg hbase (proportion_nonneg hp)))
  obtain ⟨rfl, -⟩ := Prod.mk.inj h
  exact hallotted

end Bailin

end Insolvency
