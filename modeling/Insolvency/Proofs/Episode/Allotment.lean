/-
Handing out shares leaves the books alone.

New shares change who owns an institution and nothing of what it owns and owes.
`KeepsBooks` is that frame, and the steps that come after the write-downs are all within
it: allotting, noting the price, concluding.
-/
import Insolvency.Proofs.Episode.Ending

namespace Insolvency.Episode

/-- Of the institution only its share accounts, its status and its times may differ, and of the
totals only the shares issued and the new price. -/
structure KeepsBooks (e e' : Episode) : Prop where
  assets : e'.assets = e.assets
  liabilities : e'.liabilities = e.liabilities
  agentId : e'.institution.agentId = e.institution.agentId
  cancelled : e'.cancelled = e.cancelled
  totals : e'.totals = { e.totals with
    sharesIssued := e'.totals.sharesIssued, newSharePrice := e'.totals.newSharePrice }

theorem KeepsBooks.refl (e : Episode) : KeepsBooks e e := ⟨rfl, rfl, rfl, rfl, rfl⟩

theorem KeepsBooks.trans {e e' e'' : Episode} (h : KeepsBooks e e') (h' : KeepsBooks e' e'') :
    KeepsBooks e e'' where
  assets := h'.assets.trans h.assets
  liabilities := h'.liabilities.trans h.liabilities
  agentId := h'.agentId.trans h.agentId
  cancelled := h'.cancelled.trans h.cancelled
  totals := by
    rw [h'.totals, h.totals]

theorem keepsBooks_reach (e : Episode) (stage : Stage) : KeepsBooks e (e.reach stage) :=
  ⟨rfl, rfl, rfl, rfl, rfl⟩

theorem keepsBooks_publishPrice (e : Episode) (price : Decimal) (ctx : Context) :
    KeepsBooks e (e.publishPrice price ctx).1 :=
  ⟨rfl, rfl, rfl, rfl, rfl⟩

theorem keepsBooks_conclude (e : Episode) (o : Outcome) (ctx : Context) :
    KeepsBooks e (e.conclude o ctx).1 :=
  ⟨rfl, rfl, rfl, rfl, rfl⟩

/-- Only the intermediaries can change when a holder is found. -/
theorem assignHolder_eq_ok {e e' : Episode} {creditor holder : AgentId} {quantity : Decimal}
    {ctx : Context} (h : e.assignHolder creditor quantity ctx = .ok (e', holder)) :
    e' = { e with intermediaries := e'.intermediaries } := by
  unfold assignHolder at h
  split_ifs at h
  · obtain ⟨rfl, -⟩ := Prod.mk.inj (pure_eq_ok.mp h)
    rfl
  · simp only [bind_eq_ok] at h
    obtain ⟨found, -, h⟩ := h
    cases found with
    | some x =>
        obtain ⟨rfl, -⟩ := Prod.mk.inj (pure_eq_ok.mp h)
        rfl
    | none =>
        obtain ⟨rfl, -⟩ := Prod.mk.inj (pure_eq_ok.mp h)
        rfl

/-- An allotment is recorded and the books are kept. -/
theorem allot_eq_ok {e e' : Episode} {creditor : AgentId} {quantity value : Decimal}
    {basis : Entitlement} {ctx : Context} (h : e.allot creditor quantity value basis ctx = .ok e') :
    KeepsBooks e e' ∧
      ∃ holder, e'.allotments = e.allotments ++ [⟨creditor, holder, quantity, value, basis⟩] := by
  simp only [allot, bind_eq_ok, pure_eq_ok] at h
  obtain ⟨⟨assigned, holder⟩, hassign, shares, -, issued, -, rfl⟩ := h
  have hassigned := assignHolder_eq_ok hassign
  rw [hassigned]
  exact ⟨⟨rfl, rfl, rfl, rfl, rfl⟩, holder, rfl⟩

/-! ### Who owns the institution -/

/-- What is allotted is issued, be it to the creditor or to an intermediary. -/
theorem issue_of_allot {e e' : Episode} {creditor : AgentId} {quantity value : Decimal}
    {basis : Entitlement} {ctx : Context} (h : e.allot creditor quantity value basis ctx = .ok e') :
    ∃ holder, e.shares.issue holder quantity = .ok e'.shares := by
  simp only [allot, bind_eq_ok, pure_eq_ok] at h
  obtain ⟨⟨assigned, holder⟩, hassign, shares, hissue, issued, -, rfl⟩ := h
  rw [assignHolder_eq_ok hassign] at hissue
  exact ⟨holder, hissue⟩

/-- As long as no quantity is below nothing, no share account is. -/
theorem nonneg_shares_allot {e e' : Episode} {creditor : AgentId} {quantity value : Decimal}
    {basis : Entitlement} {ctx : Context} (h : e.allot creditor quantity value basis ctx = .ok e')
    (hshares : e.shares.holders.Nonneg) (hq : 0 ≤ quantity.toRat) : e'.shares.holders.Nonneg := by
  obtain ⟨holder, hissue⟩ := issue_of_allot h
  exact Shares.nonneg_issue hissue hshares hq

/-- New equity is never split into less than nothing. -/
theorem nonneg_of_shareCount {e : Episode} {base : Decimal} (h : e.shareCount = .ok base) :
    0 ≤ base.toRat := by
  simp only [shareCount, bind_eq_ok, pure_eq_ok] at h
  obtain ⟨outstanding, -, rfl⟩ := h
  unfold normalizedCount
  split_ifs with hnone
  · rw [Decimal.toRat_one]
    exact zero_le_one
  · exact (Decimal.toRat_pos_of_epsilon_lt (Decimal.not_le_iff.mp hnone)).le

end Insolvency.Episode
