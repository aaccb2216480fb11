/-
Episodes that come to the same.

Two episodes agree when all that they have done is the same: the stages, what was allotted,
moved and paid, who was spawned, and every figure.  Their institutions agree in every amount,
and their lists of claims and of cancelled accounts differ in nothing but claims on nothing and
accounts of nothing, which are on file for entries of nothing.

Every step that episodes of any policy share keeps them so.
-/
import Insolvency.Episode.Context
import Insolvency.Proofs.Decimal.Overflow
import Insolvency.Proofs.Episode.SameShares
import Insolvency.Proofs.Ledger.Agreement

namespace Insolvency

open Decimal

/-! ### Claims -/

namespace Claim

/-- The claim is not one on nothing. -/
def counts (c : Claim) : Bool := c.amount != 0

variable {c d : Claim} {v left : Decimal}

theorem writeDown_eq_self (hleft : c.remaining = .ok left) (hzero : min (max v 0) left = 0) :
    c.writeDown v = .ok c := by
  rw [writeDown, hleft]
  show (do
      let down ← c.writtenDown.add (min (max v 0) left)
      pure { c with writtenDown := down }) = _
  rw [hzero, add_zero_eq_ok]
  rfl

theorem writeDown_of_nothing (hamount : c.amount = 0) (hdown : c.writtenDown = 0) :
    c.writeDown v = .ok c := by
  have hremaining : c.remaining = .ok 0 := by rw [remaining, hamount, hdown, sub_zero_eq_ok]
  refine writeDown_eq_self hremaining (toRat_injective ?_)
  rw [toRat_min, toRat_max, toRat_zero]
  exact min_eq_right (le_max_right _ _)

/-- A claim written down by nothing stays as it is, unless more than the claim was written down
before. -/
theorem writeDown_nothing (hdown : 0 ≤ c.writtenDown.toRat)
    (hle : c.writtenDown.toRat ≤ c.amount.toRat) : c.writeDown 0 = .ok c := by
  obtain ⟨left, hleft⟩ := exists_sub_of_le hdown hle
  refine writeDown_eq_self hleft ?_
  have hleft0 : 0 ≤ left.toRat := (rounds_sub hleft).nonneg (sub_nonneg.mpr hle)
  refine toRat_injective ?_
  rw [toRat_min, toRat_max, toRat_zero, max_self]
  exact min_eq_left hleft0

theorem writeDown_eq_ok (h : c.writeDown v = .ok d) :
    d.creditor = c.creditor ∧ d.amount = c.amount := by
  simp only [writeDown, bind_eq_ok, pure_eq_ok] at h
  obtain ⟨_, -, _, -, rfl⟩ := h
  exact ⟨rfl, rfl⟩

end Claim

namespace Episode

/-- No creditor has two claims, and of a claim on nothing, nothing is written down. -/
structure WellFiled (cs : List Claim) : Prop where
  distinct : (cs.map Claim.creditor).Nodup
  hollow : ∀ c ∈ cs, c.amount = 0 → c.writtenDown = 0

variable {cs ds : List Claim} {creditor : AgentId} {v : Decimal}

theorem WellFiled.tail {c : Claim} (h : WellFiled (c :: cs)) : WellFiled cs where
  distinct := (List.nodup_cons.mp h.distinct).2
  hollow := (List.forall_mem_cons.mp h.hollow).2

theorem writeDownIn_of_notMem (h : creditor ∉ cs.map Claim.creditor) :
    writeDownIn creditor v cs = .ok cs := by
  induction cs with
  | nil => rfl
  | cons c rest ih =>
      rw [List.map_cons, List.mem_cons, not_or] at h
      rw [writeDownIn, if_neg (Ne.symm h.1), ih h.2]
      rfl

/-- Whatever is on file after a write-down was so before, or is the creditor's claim written
down. -/
theorem mem_of_writeDownIn (h : writeDownIn creditor v cs = .ok ds) :
    ∀ d ∈ ds, d ∈ cs ∨ ∃ c ∈ cs, c.creditor = creditor ∧ c.writeDown v = .ok d := by
  induction cs generalizing ds with
  | nil =>
      obtain rfl := Except.ok.inj h
      exact List.forall_mem_nil _
  | cons c rest ih =>
      unfold writeDownIn at h
      split_ifs at h with hc
      · simp only [bind_eq_ok, pure_eq_ok] at h
        obtain ⟨d, hd, rfl⟩ := h
        refine List.forall_mem_cons.mpr
          ⟨Or.inr ⟨c, List.mem_cons_self .., hc, hd⟩, fun d' hd' => ?_⟩
        exact Or.inl (List.mem_cons_of_mem _ hd')
      · simp only [bind_eq_ok, pure_eq_ok] at h
        obtain ⟨ds', hds', rfl⟩ := h
        refine List.forall_mem_cons.mpr ⟨Or.inl (List.mem_cons_self ..), fun d hd => ?_⟩
        rcases ih hds' d hd with hmem | ⟨c', hc', hdown⟩
        · exact Or.inl (List.mem_cons_of_mem _ hmem)
        · exact Or.inr ⟨c', List.mem_cons_of_mem _ hc', hdown⟩

theorem WellFiled.writeDownIn (h : WellFiled cs) (hdown : writeDownIn creditor v cs = .ok ds) :
    WellFiled ds where
  distinct := by
    rw [creditors_of_writeDownIn hdown]
    exact h.distinct
  hollow d hd hamount := by
    rcases mem_of_writeDownIn hdown d hd with hmem | ⟨c, hc, -, hcd⟩
    · exact h.hollow d hmem hamount
    · have hc0 : c.amount = 0 := (Claim.writeDown_eq_ok hcd).2.symm.trans hamount
      have hsame := Claim.writeDown_of_nothing (v := v) hc0 (h.hollow c hc hc0)
      obtain rfl := Except.ok.inj (hsame.symm.trans hcd)
      exact h.hollow c hc hc0

/-- The claims on nothing do not matter to a write-down. -/
theorem parallel_writeDownIn_filter (h : WellFiled cs) (creditor : AgentId) (v : Decimal) :
    Parallel (SameKept Claim.counts) (writeDownIn creditor v (cs.filter Claim.counts))
      (writeDownIn creditor v cs) := by
  induction cs with
  | nil => exact .ok rfl
  | cons c rest ih =>
      have hrest := ih h.tail
      cases hcounts : c.counts with
      | true =>
          rw [List.filter_cons_of_pos hcounts]
          unfold writeDownIn
          split_ifs
          · exact parallel_bind rfl fun d _ => .ok ((sameKept_filter _ rest).cons d)
          · exact hrest.bind fun xs ys hsame => .ok (hsame.cons c)
      | false =>
          rw [List.filter_cons_of_neg (by simp [hcounts])]
          by_cases hc : c.creditor = creditor
          · -- The creditor has no other claim, so nothing is written down on either side.
            have hamount : c.amount = 0 := by simpa [Claim.counts] using hcounts
            have hnone : creditor ∉ (rest.filter Claim.counts).map Claim.creditor := by
              intro hmem
              refine (List.nodup_cons.mp h.distinct).1 (hc ▸ ?_)
              exact (List.filter_sublist.map _).subset hmem
            rw [writeDownIn_of_notMem hnone, writeDownIn, if_pos hc,
              Claim.writeDown_of_nothing hamount (h.hollow c (List.mem_cons_self ..) hamount)]
            exact .ok ((sameKept_filter _ rest).skip hcounts)
          · rw [writeDownIn, if_neg hc, ← bind_pure (writeDownIn creditor v _)]
            exact hrest.bind fun xs ys hsame => .ok (hsame.skip hcounts)

/-- The same claims are on file, claims on nothing aside. -/
structure ClaimsAgree (cs ds : List Claim) : Prop where
  same : SameKept Claim.counts cs ds
  left : WellFiled cs
  right : WellFiled ds

theorem ClaimsAgree.writeDownIn (h : ClaimsAgree cs ds) (creditor : AgentId) (v : Decimal) :
    Parallel ClaimsAgree (writeDownIn creditor v cs) (writeDownIn creditor v ds) := by
  have hleft := parallel_writeDownIn_filter h.left creditor v
  have hright := parallel_writeDownIn_filter h.right creditor v
  rw [h.same] at hleft
  refine (hleft.symm.trans hright).with_results.imp fun cs' ds' hboth => ?_
  obtain ⟨⟨bs, hcs, hds⟩, hcs', hds'⟩ := hboth
  exact ⟨hcs.symm.trans hds, h.left.writeDownIn hcs', h.right.writeDownIn hds'⟩

theorem wellFiled_nil : WellFiled [] := ⟨List.nodup_nil, List.forall_mem_nil _⟩

theorem wellFiled_of_claimsOf {l : Liabilities} (h : claimsOf l = .ok cs) : WellFiled cs := by
  have hfresh := freshClaims_of_claimsOf h
  refine ⟨?_, forall_mem_of_forall₂ hfresh fun _ c hc _ => hc.2.2⟩
  have hcreditors : cs.map Claim.creditor = l.byCreditor.keys :=
    map_eq_map_of_forall₂ (hfresh.imp fun _ _ hc => hc.1)
  rw [hcreditors]
  exact Table.nodup_keys _

/-- Claims are filed alike for all that are owed something. -/
theorem claimsAgree_claimsOf {l m : Liabilities} (h : l.Agree m) :
    Parallel ClaimsAgree (claimsOf l) (claimsOf m) := by
  have hboth : Parallel (SameKept Claim.counts) (claimsOf l) (claimsOf m) := by
    refine parallel_mapM h.byCreditor fun x _ hx => ⟨.fresh x.1 0, ?_, rfl⟩
    have hnothing : x.2 = ⟨0, 0⟩ := by simpa [Liabilities.owes] using hx
    rw [hnothing, Owed.total, add_zero_eq_ok]
    rfl
  refine hboth.with_results.imp fun cs ds h => ?_
  exact ⟨h.1, wellFiled_of_claimsOf h.2.1, wellFiled_of_claimsOf h.2.2⟩

end Episode

/-! ### Episodes -/

/-- The account was not one of nothing. -/
def CancelledAccount.counts (c : CancelledAccount) : Bool := c.quantity != 0 || c.lostValue != 0

namespace Episode

/-- The episodes have done the same. -/
structure Agree (e e' : Episode) : Prop where
  outcome : e.outcome = e'.outcome
  trace : e.trace = e'.trace
  institution : e.institution.Agree e'.institution
  claims : ClaimsAgree e.claims e'.claims
  cancelled : SameKept CancelledAccount.counts e.cancelled e'.cancelled
  allotments : e.allotments = e'.allotments
  handovers : e.handovers = e'.handovers
  payments : e.payments = e'.payments
  intermediaries : e.intermediaries = e'.intermediaries
  totals : e.totals = e'.totals

/-- Episodes that have done the same, and what comes with each is the same. -/
def AgreeBeside {α : Type} (r r' : Episode × α) : Prop := r.1.Agree r'.1 ∧ r.2 = r'.2

variable {i j : Institution} {e e' : Episode} {ctx : Context}

theorem agree_opening (h : i.Agree j) (shortfall : Decimal) :
    (opening i shortfall).Agree (opening j shortfall) where
  outcome := rfl
  trace := rfl
  institution := h
  claims := ⟨rfl, wellFiled_nil, wellFiled_nil⟩
  cancelled := rfl
  allotments := rfl
  handovers := rfl
  payments := rfl
  intermediaries := rfl
  totals := rfl

theorem ClaimsAgree.symm {cs ds : List Claim} (h : ClaimsAgree cs ds) : ClaimsAgree ds cs :=
  ⟨h.same.symm, h.right, h.left⟩

namespace Agree

theorem symm (h : e.Agree e') : e'.Agree e where
  outcome := h.outcome.symm
  trace := h.trace.symm
  institution := h.institution.symm
  claims := h.claims.symm
  cancelled := h.cancelled.symm
  allotments := h.allotments.symm
  handovers := h.handovers.symm
  payments := h.payments.symm
  intermediaries := h.intermediaries.symm
  totals := h.totals.symm

theorem assets (h : e.Agree e') : e.assets.holdings.Agree e'.assets.holdings :=
  h.institution.sheet.assets

theorem liabilities (h : e.Agree e') : e.liabilities.Agree e'.liabilities :=
  h.institution.sheet.liabilities

theorem shares (h : e.Agree e') : e.shares.holders.Agree e'.shares.holders :=
  h.institution.sheet.shares

theorem reach (h : e.Agree e') (stage : Stage) : (e.reach stage).Agree (e'.reach stage) :=
  { h with trace := congrArg (· ++ [stage]) h.trace }

theorem withTotals (h : e.Agree e') (totals : Totals) :
    Agree { e with totals } { e' with totals } :=
  { h with totals := rfl }

theorem withAssets {a b : Assets} (h : e.Agree e') (hab : a.holdings.Agree b.holdings) :
    (e.withAssets a).Agree (e'.withAssets b) :=
  { h with institution := h.institution.withSheet { h.institution.sheet with assets := hab } }

theorem withLiabilities {l m : Liabilities} (h : e.Agree e') (hlm : l.Agree m) :
    (e.withLiabilities l).Agree (e'.withLiabilities m) :=
  { h with institution := h.institution.withSheet { h.institution.sheet with liabilities := hlm } }

theorem withShares {r s : Shares} (h : e.Agree e') (hrs : r.holders.Agree s.holders) :
    (e.withShares r).Agree (e'.withShares s) :=
  { h with institution := h.institution.withSheet { h.institution.sheet with shares := hrs } }

/-! ### Claims and cancelled accounts -/

theorem fileClaims (h : e.Agree e') : Parallel Agree e.fileClaims e'.fileClaims :=
  (claimsAgree_claimsOf h.liabilities).bind fun _ _ hclaims =>
    parallel_pure { h with claims := hclaims }

theorem writeDownClaim (h : e.Agree e') (creditor : AgentId) (v : Decimal) :
    Parallel Agree (e.writeDownClaim creditor v) (e'.writeDownClaim creditor v) :=
  (h.claims.writeDownIn creditor v).bind fun _ _ hclaims =>
    parallel_pure { h with claims := hclaims }

theorem cancelShares (h : e.Agree e') (price : Decimal) :
    Parallel Agree (e.cancelShares price) (e'.cancelShares price) := by
  have hlost : Parallel (SameKept CancelledAccount.counts)
      (e.shares.holders.entries.mapM fun x => cancelledAccount price x.1 x.2)
      (e'.shares.holders.entries.mapM fun x => cancelledAccount price x.1 x.2) := by
    refine parallel_mapM (Accounts.agree_iff.mp h.shares) fun x _ hx => ⟨⟨x.1, 0, 0⟩, ?_, rfl⟩
    have hnothing : x.2 = 0 := by simpa [Accounts.counts] using hx
    rw [hnothing, cancelledAccount, zero_mul_eq_ok]
    rfl
  refine hlost.bind fun lost lost' hsame => parallel_pure ?_
  exact { h.withShares (.refl Shares.empty.holders) with cancelled := h.cancelled.append hsame }

/-! ### Figures -/

theorem equity (h : e.Agree e') : e.institution.equity = e'.institution.equity :=
  h.institution.sheet.equity

theorem shareCount (h : e.Agree e') : e.shareCount = e'.shareCount := by
  rw [Episode.shareCount, Episode.shareCount, Shares.total, Shares.total, h.shares.total]

theorem sharePrice (h : e.Agree e') (count : Decimal) :
    e.sharePrice count = e'.sharePrice count := by
  rw [Episode.sharePrice, Episode.sharePrice, h.equity]

/-! ### Ending an episode -/

theorem conclude {ctx ctx' : Context} (h : e.Agree e') (o : Outcome) (hctx : ctx = ctx') :
    AgreeBeside (e.conclude o ctx) (e'.conclude o ctx') := by
  subst hctx
  refine ⟨?_, congrArg (ctx.schedule · o) h.institution.id⟩
  exact { h with
    outcome := rfl
    trace := congrArg (· ++ o.lastStage?.toList) h.trace
    institution := h.institution.standing o.status ctx.now }

theorem giveUp (h : e.Agree e') (hij : i.Agree j) (ctx : Context) :
    Parallel AgreeBeside (e.giveUp i ctx) (e'.giveUp j ctx) := by
  unfold Episode.giveUp
  rw [h.totals, h.trace]
  have hblank : Agree
      { opening i e'.totals.shortfall with
        trace := e'.trace
        totals := {
          shortfall := e'.totals.shortfall, remainingShortfall := e'.totals.remainingShortfall } }
      { opening j e'.totals.shortfall with
        trace := e'.trace
        totals := {
          shortfall := e'.totals.shortfall,
          remainingShortfall := e'.totals.remainingShortfall } } :=
    { agree_opening hij e'.totals.shortfall with trace := rfl, totals := rfl }
  exact hblank.fileClaims.bind fun _ _ hfiled => parallel_pure (hfiled.conclude _ rfl)

theorem publishPrice (h : e.Agree e') (price : Decimal) (ctx : Context) :
    AgreeBeside (e.publishPrice price ctx) (e'.publishPrice price ctx) where
  left := { h with totals := congrArg ({ · with newSharePrice := some price }) h.totals }
  right := congrArg (ctx.publish · price) h.institution.id

/-! ### Shares for creditors -/

theorem assignHolder (h : e.Agree e') (creditor : AgentId) (quantity : Decimal) (ctx : Context) :
    Parallel AgreeBeside (e.assignHolder creditor quantity ctx)
      (e'.assignHolder creditor quantity ctx) := by
  unfold Episode.assignHolder
  rw [h.intermediaries, h.institution.id]
  split_ifs
  · exact parallel_pure ⟨h, rfl⟩
  refine parallel_bind rfl fun found _ => ?_
  cases found with
  | none => exact parallel_pure ⟨{ h with intermediaries := rfl }, rfl⟩
  | some r => exact parallel_pure ⟨{ h with intermediaries := rfl }, rfl⟩

theorem allot (h : e.Agree e') (creditor : AgentId) (quantity value : Decimal)
    (basis : Entitlement) (ctx : Context) :
    Parallel Agree (e.allot creditor quantity value basis ctx)
      (e'.allot creditor quantity value basis ctx) := by
  refine (h.assignHolder creditor quantity ctx).bind fun r r' hassigned => ?_
  obtain ⟨assigned, holder⟩ := r
  obtain ⟨assigned', holder'⟩ := r'
  obtain ⟨hagree, rfl⟩ := hassigned
  refine (Shares.agree_issue hagree.shares holder quantity).bind fun shares _ hshares => ?_
  subst hshares
  refine parallel_bind (by rw [hagree.totals]) fun issued _ => parallel_pure ?_
  exact {
    hagree.withShares (.refl shares.holders) with
    totals := congrArg ({ · with sharesIssued := issued }) hagree.totals
    allotments := congrArg (· ++ [_]) hagree.allotments }

end Agree

end Episode

end Insolvency
