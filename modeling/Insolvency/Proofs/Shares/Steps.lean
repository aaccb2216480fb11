/-
What an episode can do to the shares.

Whatever the policy, shares are dealt with in three ways: all accounts are cancelled,
shares are allotted, and shares are handed over.  `ShareStep` lists them, each with what
is known of the parties, beside the steps that leave the shares alone.  That every policy
goes by these steps is shown once, so whatever a step preserves holds of all episodes.

Two such facts are proved here.  No account falls below nothing.  And everything is on
record: `replay` makes the accounts of before into those of after.
-/
import Insolvency.Proofs.Episode.Allotment
import Insolvency.Proofs.Episode.SameShares
import Insolvency.Proofs.Ledger.Creditors
import Insolvency.Proofs.Ledger.Shares
import Mathlib.Logic.Relation

namespace Insolvency.Episode

/-- One step of an episode of an institution, as far as shares are concerned. -/
inductive ShareStep (i : Institution) (newId : Nat → IntermediaryId) (e : Episode) :
    Episode → Prop
  /-- Something happens that is not about shares. -/
  | aside {e' : Episode} (h : e.SameShares e') : ShareStep i newId e e'
  /-- All accounts are cancelled, before anything else happens to them. -/
  | cancel {e' : Episode} {shortfall price : Decimal} (h : e.cancelShares price = .ok e')
      (huntouched : (opening i shortfall).SameShares e) : ShareStep i newId e e'
  /-- Shares are allotted to a party of the books or to the government. -/
  | allot {e' : Episode} {creditor : AgentId} {quantity value : Decimal} {basis : Entitlement}
      {ctx : Context} (h : e.allot creditor quantity value basis ctx = .ok e')
      (hnew : ctx.newId = newId) (hq : 0 ≤ quantity.toRat)
      (hknown : i.sheet.names creditor = true ∨ creditor.kind = .government)
      (hkept : e.handovers = []) : ShareStep i newId e e'
  /-- Shares are handed over by a holder that is no creditor to one that is. -/
  | handOver {e' assigned : Episode} {source creditor holder : AgentId}
      {quantity moved value : Decimal} {shares : Shares} {ctx : Context}
      (hassign : e.assignHolder creditor quantity ctx = .ok (assigned, holder))
      (hmove : assigned.shares.transfer source holder quantity = .ok (shares, moved))
      (hrecord : SameShares { assigned.withShares shares with
        handovers := assigned.handovers ++ [⟨source, creditor, holder, moved, value⟩] } e')
      (hnew : ctx.newId = newId) (hq : 0 ≤ quantity.toRat)
      (hsource : source ∈ i.sheet.shares.holders.keys)
      (houtside : source ∉ i.sheet.liabilities.byCreditor.keys)
      (hcreditor : creditor ∈ i.sheet.liabilities.byCreditor.keys)
      (hkept : e.cancelled = [] ∧ e.allotments = []) : ShareStep i newId e e'

/-- Any number of steps. -/
abbrev ShareSteps (i : Institution) (newId : Nat → IntermediaryId) : Episode → Episode → Prop :=
  Relation.ReflTransGen (ShareStep i newId)

variable {i : Institution} {newId : Nat → IntermediaryId} {e e' : Episode}

theorem ShareSteps.aside (h : e.SameShares e') : ShareSteps i newId e e' :=
  .single (.aside h)

/-- What every step keeps true is true of an episode if it is true of its opening. -/
theorem ShareSteps.preserves {P : Episode → Prop} (h : ShareSteps i newId e e') (he : P e)
    (hstep : ∀ e e', ShareStep i newId e e' → P e → P e') : P e' := by
  induction h with
  | refl => exact he
  | tail _ hlast ih => exact hstep _ _ hlast ih

/-! ### No account falls below nothing -/

theorem ShareStep.nonneg (h : ShareStep i newId e e') (he : e.shares.holders.Nonneg) :
    e'.shares.holders.Nonneg := by
  cases h with
  | aside h => exact h.shares ▸ he
  | cancel h =>
      obtain ⟨lost, -, rfl⟩ := Episode.cancelShares_eq_ok.mp h
      exact Accounts.nonneg_empty
  | allot h _ hq => exact nonneg_shares_allot h he hq
  | handOver hassign hmove hrecord =>
      rw [hrecord.shares]
      rw [assignHolder_eq_ok hassign] at hmove
      exact Shares.nonneg_transfer hmove he

theorem ShareSteps.nonneg {shortfall : Decimal} (h : ShareSteps i newId (opening i shortfall) e)
    (hi : i.sheet.shares.holders.Nonneg) : e.shares.holders.Nonneg :=
  h.preserves (P := fun e : Episode => e.shares.holders.Nonneg) hi
    fun _ _ hstep he => hstep.nonneg he

/-! ### Everything is on record -/

end Episode

/-- A handover played back: off the one account and onto the other. -/
def Handover.apply (r : Shares) (h : Handover) : Except Decimal.Fault Shares := do
  (← r.issue h.source (-h.quantity)).issue h.holder h.quantity

/-- An allotment played back. -/
def Allotment.apply (r : Shares) (a : Allotment) : Except Decimal.Fault Shares :=
  r.issue a.holder a.quantity

namespace Episode

/-- The share accounts that the record of an episode makes of those of before. -/
def replay (e : Episode) (before : Shares) : Except Decimal.Fault Shares := do
  let kept := if e.cancelled = [] then before else .empty
  e.allotments.foldlM Allotment.apply (← e.handovers.foldlM Handover.apply kept)

variable {i : Institution} {newId : Nat → IntermediaryId} {e e' : Episode} {before : Shares}

theorem replay_of_sameShares (h : e.SameShares e') : e'.replay before = e.replay before := by
  rw [replay, replay, h.cancelled, h.handovers, h.allotments]

theorem replay_opening (i : Institution) (shortfall : Decimal) :
    (opening i shortfall).replay i.sheet.shares = .ok i.sheet.shares := rfl

/-- Books without share accounts have nothing to cancel; of all others the record tells. -/
theorem replay_cancelShares {shortfall price : Decimal} (h : e.cancelShares price = .ok e')
    (huntouched : (opening i shortfall).SameShares e) :
    e'.replay i.sheet.shares = .ok e'.shares := by
  have hcancelled : e.cancelled = [] := huntouched.cancelled
  have hallotments : e.allotments = [] := huntouched.allotments
  have hhandovers : e.handovers = [] := huntouched.handovers
  have hshares : e.shares = i.sheet.shares := huntouched.shares
  obtain ⟨lost, hlost, rfl⟩ := cancelShares_eq_ok.mp h
  unfold replay
  show (do
    let kept := if e.cancelled ++ lost = [] then i.sheet.shares else Shares.empty
    e.allotments.foldlM Allotment.apply (← e.handovers.foldlM Handover.apply kept)) = .ok .empty
  rw [hcancelled, hallotments, hhandovers, List.nil_append]
  have hlen := (mapM_eq_ok.mp hlost).length_eq
  split_ifs with hnone
  · rw [hnone, List.length_nil, List.length_eq_zero_iff, hshares] at hlen
    have hempty : i.sheet.shares = .empty :=
      congrArg Shares.mk (Table.ext_entries (t := Table.empty) hlen)
    rw [hempty]
    rfl
  · rfl

theorem replay_allot {creditor : AgentId} {quantity value : Decimal} {basis : Entitlement}
    {ctx : Context} (h : e.allot creditor quantity value basis ctx = .ok e')
    (he : e.replay before = .ok e.shares) : e'.replay before = .ok e'.shares := by
  simp only [allot, bind_eq_ok, pure_eq_ok] at h
  obtain ⟨⟨assigned, holder⟩, hassign, shares, hissue, issued, -, rfl⟩ := h
  rw [assignHolder_eq_ok hassign] at hissue ⊢
  simp only [replay, bind_eq_ok] at he ⊢
  obtain ⟨moved, hmoved, hfold⟩ := he
  refine ⟨moved, hmoved, ?_⟩
  show (e.allotments ++ [_]).foldlM Allotment.apply moved = .ok shares
  rw [List.foldlM_append, hfold]
  show (do Allotment.apply e.shares _ >>= pure) = _
  rw [bind_pure]
  exact hissue

theorem replay_handOver {assigned : Episode} {source creditor holder : AgentId}
    {quantity moved value : Decimal} {shares : Shares} {ctx : Context}
    (hassign : e.assignHolder creditor quantity ctx = .ok (assigned, holder))
    (hmove : assigned.shares.transfer source holder quantity = .ok (shares, moved))
    (hrecord : SameShares { assigned.withShares shares with
      handovers := assigned.handovers ++ [⟨source, creditor, holder, moved, value⟩] } e')
    (hallotments : e.allotments = []) (he : e.replay before = .ok e.shares) :
    e'.replay before = .ok e'.shares := by
  rw [replay_of_sameShares hrecord, hrecord.shares]
  rw [assignHolder_eq_ok hassign] at hmove ⊢
  obtain ⟨-, debited, hdebit, hcredit⟩ := Shares.transfer_eq_ok hmove
  simp only [replay, bind_eq_ok, hallotments, List.foldlM_nil, pure_eq_ok] at he ⊢
  obtain ⟨_, hfold, rfl⟩ := he
  refine ⟨shares, ?_, rfl⟩
  show (e.handovers ++ [_]).foldlM Handover.apply
    (if e.cancelled = [] then before else .empty) = .ok shares
  rw [List.foldlM_append, hfold]
  show (do Handover.apply e.shares _ >>= pure) = _
  rw [bind_pure, Handover.apply, bind_eq_ok]
  exact ⟨debited, hdebit, hcredit⟩

/-- **The record of an episode accounts for all that has become of the shares.** -/
theorem ShareSteps.replay_eq_ok {shortfall : Decimal}
    (h : ShareSteps i newId (opening i shortfall) e) :
    e.replay i.sheet.shares = .ok e.shares := by
  refine h.preserves (P := fun e : Episode => e.replay i.sheet.shares = .ok e.shares)
    (replay_opening i shortfall) fun e e' hstep he => ?_
  cases hstep with
  | aside h => rw [replay_of_sameShares h, he, h.shares]
  | cancel h huntouched => exact replay_cancelShares h huntouched
  | allot h => exact replay_allot h he
  | handOver hassign hmove hrecord _ _ _ _ _ hkept =>
      exact replay_handOver hassign hmove hrecord hkept.2 he

theorem ShareSteps.institution_id {shortfall : Decimal}
    (h : ShareSteps i newId (opening i shortfall) e) : e.institution.id = i.id := by
  refine h.preserves (P := fun e : Episode => e.institution.id = i.id) rfl fun e e' hstep he => ?_
  cases hstep with
  | aside h => exact h.id.trans he
  | cancel h =>
      obtain ⟨lost, -, rfl⟩ := cancelShares_eq_ok.mp h
      exact he
  | allot h =>
      simp only [allot, bind_eq_ok, pure_eq_ok] at h
      obtain ⟨⟨assigned, holder⟩, hassign, shares, -, issued, -, rfl⟩ := h
      rw [assignHolder_eq_ok hassign]
      exact he
  | handOver hassign _ hrecord =>
      rw [hrecord.id, assignHolder_eq_ok hassign]
      exact he

end Insolvency.Episode
