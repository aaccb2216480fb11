/-
New shares in the place of cancelled ones.

Four policies cancel all share accounts and issue new shares instead: a bail-in to those
who lost something, a bail-out to the government, a swap to the lenders, and an asset
threshold that ends in liquidation to those who are still owed something.  The new shares
stand for a whole, which is the losses, the funding, the loans or the unpaid debts, and
everybody gets the part of them that it has in that whole.  So there are as many as there
were, but for the rounding.

There is an exception, and a swap and a bail-in can come to it: a whole that is dust has no
parts.  Then nobody gets anything, and the institution is left without a single share.
-/
import Insolvency.Proofs.Episode.GivingShares
import Insolvency.Proofs.Shares.Policies
import Insolvency.Proofs.Shares.Split

namespace Insolvency

open Decimal

/-! ### As many shares as there were -/

/-- Shares that stand for a whole: as many as the count, but for rounding at the size of the
figures, and none where the whole is dust. -/
structure Shares.Replaces (r : Shares) (count whole : Decimal) (size : ℚ) (n : Nat) : Prop where
  dust : whole ≤ .epsilon → r = .empty
  exact : .epsilon < whole → |r.holders.exactTotal - count.toRat| ≤ (n + 1) * size / 10 ^ 26
  /-- The total as the books add it up, short of absurdly many entries. -/
  counted : .epsilon < whole → n ≤ 10 ^ 27 → ∀ t, r.total = .ok t →
    |t.toRat - count.toRat| ≤ (n + 1) * size / 10 ^ 26

namespace Shares

variable {r : Shares} {count whole : Decimal} {size : ℚ} {n : Nat}

theorem replaces_of_dust (hdust : whole ≤ .epsilon) (h : r = .empty) :
    r.Replaces count whole size n where
  dust _ := h
  exact hdue := absurd hdust (not_le_iff.mpr hdue)
  counted hdue := absurd hdust (not_le_iff.mpr hdue)

theorem Issued.replaces {amounts parts : List Decimal} (h : Issued .empty r parts)
    (hparts : List.Forall₂ (IsPart count.toRat size whole) amounts parts)
    (hamounts : AllNonneg amounts) (hsum : sum amounts = .ok whole) (hdue : .epsilon < whole)
    (hcount : 0 ≤ count.toRat) (hsize : 1 ≤ size) (hbound : count.toRat ≤ size)
    (hn : amounts.length ≤ n + 1) : r.Replaces count whole size n := by
  have herror := parts_error hparts hamounts hsum (toRat_pos_of_epsilon_lt hdue) hcount hbound
  have hlength : (parts.length : ℚ) ≤ n + 1 := by exact_mod_cast hparts.length_eq ▸ hn
  have hgrain := grain_mul_nonneg (by linarith : 0 ≤ size)
  have hhundred : parts.length * (100 * grain * size) ≤ (n + 1) * size / 10 ^ 26 := by
    calc parts.length * (100 * grain * size) ≤ (n + 1) * (100 * grain * size) := by
          have : 0 ≤ 100 * grain * size := by linarith
          gcongr
      _ = (n + 1) * size / 10 ^ 26 := by
          unfold grain maxPlaces
          ring
  refine ⟨fun hdust => absurd hdust (not_le_iff.mpr hdue), fun _ => ?_, fun _ hfew t ht => ?_⟩
  · have hsixty : parts.length * (60 * grain * size) ≤ parts.length * (100 * grain * size) := by
      have : 60 * grain * size ≤ 100 * grain * size := by linarith
      gcongr
    exact (h.total_error herror hsize hbound).trans (hsixty.trans hhundred)
  · refine (h.rounded_total_error ht herror hsize hbound ?_).trans hhundred
    have hn27 : (n : ℚ) ≤ 10 ^ 27 := by exact_mod_cast hfew
    unfold grain maxPlaces
    linarith

end Shares

/-! ### Issuing to everybody in turn -/

namespace Episode

variable {e e' : Episode} {creditor : AgentId} {quantity value : Decimal} {basis : Entitlement}
  {ctx : Context}

theorem issued_of_allot (h : e.allot creditor quantity value basis ctx = .ok e')
    (he : e.shares.holders.Nonneg) (hq : 0 ≤ quantity.toRat) :
    Shares.Issued e.shares e'.shares [quantity] := by
  obtain ⟨holder, hissue⟩ := issue_of_allot h
  exact Shares.issued_of_issue hissue he hq

/-- A loop that issues to each of a list its part of the count has issued all the parts. -/
theorem issued_of_foldlM {α : Type} {f : Episode → α → Except Decimal.Fault Episode} {xs : List α}
    (amount : α → Decimal) {count size : ℚ} {whole : Decimal} (h : xs.foldlM f e = .ok e')
    (he : e.shares.holders.Nonneg)
    (hstep : ∀ x ∈ xs, ∀ mid mid', f mid x = .ok mid' → mid.shares.holders.Nonneg →
      ∃ part, Shares.Issued mid.shares mid'.shares [part] ∧
        Shares.IsPart count size whole (amount x) part) :
    ∃ parts, Shares.Issued e.shares e'.shares parts ∧
      List.Forall₂ (Shares.IsPart count size whole) (xs.map amount) parts := by
  induction xs generalizing e with
  | nil =>
      obtain rfl := pure_eq_ok.mp h
      exact ⟨[], .nil he, .nil⟩
  | cons x rest ih =>
      rw [List.foldlM_cons, bind_eq_ok] at h
      obtain ⟨mid, hmid, h⟩ := h
      obtain ⟨hx, hrest⟩ := List.forall_mem_cons.mp hstep
      obtain ⟨part, hissued, hpart⟩ := hx e mid hmid he
      obtain ⟨parts, hissued', hparts⟩ := ih h hissued.nonneg hrest
      exact ⟨part :: parts, hissued.append hissued', .cons hpart hparts⟩

theorem shareCount_eq_ok {count : Decimal} (h : e.shareCount = .ok count) :
    ∃ outstanding, e.shares.total = .ok outstanding ∧ normalizedCount outstanding = count := by
  simp only [shareCount, bind_eq_ok, pure_eq_ok] at h
  exact h

/-- A step of a loop that takes the proportion first: somebody gets its part of the count, or has
an amount of nothing and is passed over. -/
def IssuesPart (count whole amount : Decimal) (e e' : Episode) : Prop :=
  amount = 0 ∧ e'.shares = e.shares ∨
    ∃ p part holder, proportion amount whole = .ok p ∧ count.mul p = .ok part ∧
      e.shares.issue holder part = .ok e'.shares

variable {count whole amount : Decimal}

/-- Of a whole that is dust nobody has a part. -/
theorem IssuesPart.empty (h : IssuesPart count whole amount e e') (hdust : whole ≤ .epsilon)
    (he : e.shares = .empty) : e'.shares = .empty := by
  rcases h with ⟨-, hsame⟩ | ⟨p, part, holder, hp, hpart, hissue⟩
  · exact hsame.trans he
  · rcases proportion_eq_ok hp with ⟨-, rfl⟩ | ⟨hdue, -⟩
    · obtain rfl : part = 0 := Except.ok.inj (hpart.symm.trans (mul_zero_eq_ok count))
      rw [he] at hissue
      exact Shares.issue_zero_empty hissue
    · exact absurd hdust (not_le_iff.mpr hdue)

theorem IssuesPart.issued (h : IssuesPart count whole amount e e') (hdue : .epsilon < whole)
    (hamount : 0 ≤ amount.toRat) (hle : amount.toRat ≤ whole.toRat) (hcount : 0 ≤ count.toRat)
    (he : e.shares.holders.Nonneg) :
    ∃ part, Shares.Issued e.shares e'.shares [part] ∧
      Shares.IsPart count.toRat (max 1 count.toRat) whole amount part := by
  rcases h with ⟨rfl, hsame⟩ | ⟨p, part, holder, hp, hpart, hissue⟩
  · rw [hsame]
    exact ⟨0, .skip he, Shares.isPart_zero (le_max_left _ _)⟩
  · have hpart' := Shares.isPart_of_proportion hp hpart hdue hamount hle hcount
      (le_max_left 1 count.toRat) (le_max_right 1 count.toRat)
    exact ⟨part, Shares.issued_of_issue hissue he hpart'.nonneg, hpart'⟩

/-- A loop of such steps replaces the shares by as many as there were. -/
theorem replaces_of_proportions {α : Type} {f : Episode → α → Except Decimal.Fault Episode}
    {xs : List α} {amount : α → Decimal} {n : Nat} (h : xs.foldlM f e = .ok e')
    (hstep : ∀ x ∈ xs, ∀ mid mid', f mid x = .ok mid' →
      IssuesPart count whole (amount x) mid mid')
    (hamounts : AllNonneg (xs.map amount)) (hsum : sum (xs.map amount) = .ok whole)
    (hcount : 0 ≤ count.toRat) (he : e.shares = .empty) (hn : xs.length ≤ n + 1) :
    e'.shares.Replaces count whole (max 1 count.toRat) n := by
  by_cases hdust : whole ≤ .epsilon
  · refine Shares.replaces_of_dust hdust ?_
    exact foldlM_induction (P := fun mid : Episode => mid.shares = .empty) h he
      fun x hx mid mid' hmid hf => (hstep x hx mid mid' hf).empty hdust hmid
  · have hdue := not_le_iff.mp hdust
    obtain ⟨parts, hissued, hparts⟩ := issued_of_foldlM amount h (he ▸ Accounts.nonneg_empty)
      fun x hx mid mid' hf hmid => by
        have hmem : amount x ∈ xs.map amount := List.mem_map_of_mem hx
        exact (hstep x hx mid mid' hf).issued hdue (hamounts _ hmem)
          (le_foldlM_add hamounts hsum toRat_zero.ge hmem) hcount hmid
    rw [he] at hissued
    exact hissued.replaces hparts hamounts hsum hdue hcount (le_max_left _ _) (le_max_right _ _)
      ((List.length_map ..).trans_le hn)

/-! ### What the new shares stand for -/

/-- The share accounts were cancelled and the episode has gone through with it. -/
def ReplacesShares (e : Episode) : Prop :=
  e.outcome = .liquidated ∨ e.outcome = .resolved ∧ .stocksTerminated ∈ e.trace

theorem not_replacesShares_compliant (i : Institution) : ¬ (compliant i).ReplacesShares := by
  rintro (hout | ⟨hout, -⟩)
  all_goals cases hout

theorem not_replacesShares_of_giveUp {before : Institution} {r : Episode × Context}
    (h : e.giveUp before ctx = .ok r) : ¬ r.1.ReplacesShares := by
  have hflagged := outcome_of_giveUp h
  rintro (hout | ⟨hout, -⟩)
  all_goals cases hflagged.symm.trans hout

theorem not_replacesShares_resolved (h : .stocksTerminated ∉ e.trace) :
    ¬ (e.conclude .resolved ctx).1.ReplacesShares := by
  rintro (hout | ⟨-, hterminated⟩)
  · cases hout
  · rcases List.mem_append.mp hterminated with hterminated | hlast
    · exact h hterminated
    · cases List.mem_singleton.mp hlast

end Episode

namespace Policy

/-- What the new shares stand for: everything that somebody is credited with in a bail-in or a
bail-out, the loans in a swap, and the debts that the cash did not cover otherwise. -/
def whole (p : Policy) (i : Institution) (shortfall : Decimal) (e : Episode) :
    Except Decimal.Fault Decimal :=
  match p with
  | bailin | bailout => Decimal.sum (e.allotments.map Allotment.value)
  | debtEquitySwap => i.sheet.liabilities.loans.total
  | assetThreshold cash => AssetThreshold.unpaidDebt cash i shortfall
  | liquidate => .ok 0

/-- The size of the figures that the parts are worked out with.  Where the division comes last, a
small whole makes for large figures. -/
def figureSize (p : Policy) (count whole : Decimal) : ℚ :=
  match p with
  | assetThreshold _ => max (max 1 count.toRat) (1 / whole.toRat)
  | _ => max 1 count.toRat

/-- New shares are in the place of those that an institution had. -/
def Reissued (p : Policy) (i : Institution) (shortfall : Decimal) (e : Episode) : Prop :=
  ∃ outstanding whole, i.sheet.shares.total = .ok outstanding ∧ p.whole i shortfall e = .ok whole ∧
    e.shares.Replaces (Episode.normalizedCount outstanding) whole
      (p.figureSize (Episode.normalizedCount outstanding) whole) i.sheet.entryCount

end Policy

open Episode

variable {i : Institution} {shortfall : Decimal} {ctx ctx' : Context} {e e' : Episode}

/-! ### Bail-in -/

namespace Bailin

variable {base totalLoss : Decimal} {losses : List (Loser × Decimal)}

theorem issuesPart_compensate {loss : Loser × Decimal}
    (h : compensate base totalLoss ctx e loss = .ok e') (hloss : 0 ≤ loss.2.toRat) :
    IssuesPart base totalLoss loss.2 e e' := by
  unfold compensate at h
  split_ifs at h with hnone
  · obtain rfl := pure_eq_ok.mp h
    rw [le_iff_toRat, toRat_zero] at hnone
    exact Or.inl ⟨toRat_eq_zero.mp (le_antisymm hnone hloss), rfl⟩
  · simp only [bind_eq_ok] at h
    obtain ⟨p, hp, quantity, hquantity, hallot⟩ := h
    obtain ⟨holder, hissue⟩ := issue_of_allot hallot
    exact Or.inr ⟨p, quantity, holder, hp, hquantity, hissue⟩

/-- What is allotted for are the losses, other than those of nothing. -/
theorem values_of_compensate (h : losses.foldlM (compensate base totalLoss ctx) e = .ok e')
    (hlosses : AllNonneg (losses.map Prod.snd)) :
    e'.allotments.map Allotment.value
      = e.allotments.map Allotment.value ++ (losses.map Prod.snd).filter (· != 0) := by
  induction losses generalizing e with
  | nil =>
      obtain rfl := pure_eq_ok.mp h
      exact (List.append_nil _).symm
  | cons loss rest ih =>
      rw [List.foldlM_cons, bind_eq_ok] at h
      obtain ⟨mid, hmid, h⟩ := h
      obtain ⟨hloss, hrest⟩ := allNonneg_cons.mp hlosses
      rw [ih h hrest]
      unfold compensate at hmid
      split_ifs at hmid with hnone
      · obtain rfl := pure_eq_ok.mp hmid
        rw [le_iff_toRat, toRat_zero] at hnone
        have hzero := toRat_eq_zero.mp (le_antisymm hnone hloss)
        rw [List.map_cons, List.filter_cons_of_neg (by simp [hzero])]
      · simp only [bind_eq_ok] at hmid
        obtain ⟨p, -, quantity, -, hallot⟩ := hmid
        obtain ⟨-, holder, hallotments⟩ := allot_eq_ok hallot
        have hne : loss.2 ≠ 0 := by
          intro hzero
          rw [le_iff_toRat, hzero] at hnone
          exact hnone le_rfl
        rw [List.map_cons, List.filter_cons_of_pos (by simp [hne]), hallotments, List.map_append,
          List.append_assoc]
        rfl

/-- The losses are no more than the entries of the books that they are on. -/
theorem Course.Leaves.length_losses_le {c : Course} {recorded : Episode}
    {writeDowns : Accounts Loser} (h : c.Leaves i shortfall ctx)
    (hrecord : c.lost.foldlM recordWriteDown (c.depositsDown, ∅) = .ok (recorded, writeDowns)) :
    (recorded.cancelled.foldl (recordCancellation i) writeDowns).entries.length
      ≤ i.sheet.entryCount := by
  obtain ⟨filed, gone, hfiled, hgone, hdown⟩ := h.cancelling
  have hcancelled : recorded.cancelled.length = i.sheet.shares.holders.entries.length := by
    have hkeys := congrArg List.length (keys_of_cancelShares hgone)
    rw [hfiled.cancelled, hfiled.shares, List.length_map, List.length_append, Table.keys,
      List.length_map, List.length_map] at hkeys
    rw [(recordWriteDowns_sameShares hrecord).cancelled, hdown.cancelled, hkeys]
    exact Nat.zero_add _
  have hlosses := length_recordCancellations_le i recorded.cancelled writeDowns
  have hwriteDowns := (recorded_of_foldlM hrecord Accounts.nonneg_empty h.lost_nonneg).length_le
  have hnone : (∅ : Accounts Loser).entries.length = 0 := rfl
  have hlost := h.lost_length
  unfold BalanceSheet.entryCount
  omega

theorem reissued_of_run {r : Episode × Context} (h : run i shortfall ctx = .ok r)
    (hsheet : i.sheet.Nonneg) (hreplaces : r.1.ReplacesShares) :
    Policy.bailin.Reissued i shortfall r.1 := by
  rcases run_cases h with ⟨-, rfl⟩ | ⟨c, hc, ⟨-, hr⟩ | ⟨-, hr⟩⟩
  · exact absurd hreplaces (not_replacesShares_compliant i)
  · exact absurd hreplaces (not_replacesShares_of_giveUp hr)
  · have hleaves := hc.leaves hsheet
    obtain ⟨filed, gone, hfiled, hgone, hdown⟩ := hleaves.cancelling
    simp only [compensateAll, bind_eq_ok, pure_eq_ok] at hr
    obtain ⟨⟨recorded, writeDowns⟩, hrecord, total, htotal, handed, hfold, price, -, rfl⟩ := hr
    have hrecorded := recordWriteDowns_sameShares hrecord
    have hnone : recorded.shares = .empty := by
      rw [hrecorded.shares, hdown.shares, shares_cancelShares hgone]
    have hallotments : recorded.allotments = [] := by
      rw [hrecorded.allotments, hdown.allotments, allotments_cancelShares hgone, hfiled.allotments]
      rfl
    have hrec := recorded_of_foldlM hrecord Accounts.nonneg_empty hleaves.lost_nonneg
    obtain ⟨-, hlosses⟩ := recordCancellations_keeps i recorded.cancelled hrec.nonneg
    obtain ⟨outstanding, houtstanding, hcount⟩ := shareCount_eq_ok hc.count
    refine ⟨outstanding, total, houtstanding, ?_, ?_⟩
    · show Decimal.sum (handed.allotments.map Allotment.value) = .ok total
      rw [values_of_compensate hfold hlosses, hallotments]
      exact (foldlM_add_filter _ 0).trans htotal
    · rw [hcount]
      show handed.shares.Replaces _ _ _ _
      refine replaces_of_proportions hfold (fun loss hloss mid mid' hstep => ?_) hlosses htotal
        (nonneg_of_shareCount hc.count) hnone
        ((hleaves.length_losses_le hrecord).trans (Nat.le_succ _))
      exact issuesPart_compensate hstep (hlosses _ (List.mem_map_of_mem hloss))

end Bailin

/-! ### Bail-out -/

theorem Bailout.reissued_of_run {r : Episode × Context} (h : Bailout.run i shortfall ctx = .ok r)
    (hreplaces : r.1.ReplacesShares) : Policy.bailout.Reissued i shortfall r.1 := by
  rcases Bailout.run_course h with ⟨-, rfl⟩ |
    ⟨hdue, base, filed, cancelled, hbase, hfiled, hcancel, h⟩
  · exact absurd hreplaces (not_replacesShares_compliant i)
  · rcases h with ⟨-, h⟩ |
      ⟨government, paid, injected, allotted, newPrice, -, hinject, hallot, -, rfl⟩
    · exact absurd hreplaces (not_replacesShares_of_giveUp h)
    · have hopened := (sameShares_fileClaims hfiled).trans (sameShares_reach filed .start)
      simp only [Bailout.inject, bind_eq_ok, pure_eq_ok] at hinject
      obtain ⟨assets, -, rfl⟩ := hinject
      obtain ⟨-, holder, hallotments⟩ := allot_eq_ok hallot
      have hnothing : cancelled.allotments = [] := by
        rw [allotments_cancelShares hcancel, hopened.allotments]
        rfl
      have hnone : cancelled.shares = .empty := shares_cancelShares hcancel
      have hbase0 := nonneg_of_shareCount hbase
      have hissued := issued_of_allot hallot (show cancelled.shares.holders.Nonneg from
        hnone ▸ Accounts.nonneg_empty) hbase0
      change Shares.Issued cancelled.shares _ _ at hissued
      rw [hnone] at hissued
      obtain ⟨outstanding, houtstanding, hcount⟩ := shareCount_eq_ok hbase
      have hwhole : Decimal.sum [shortfall] = .ok shortfall := sum_singleton_eq_ok shortfall
      have hpart : Shares.IsPart base.toRat (max 1 base.toRat) shortfall shortfall base :=
        Shares.isPart_whole hdue hbase0 (le_max_left _ _)
      refine ⟨outstanding, shortfall, houtstanding, ?_, ?_⟩
      · show Decimal.sum (allotted.allotments.map Allotment.value) = .ok shortfall
        rw [hallotments]
        show Decimal.sum ((cancelled.allotments ++ [_]).map Allotment.value) = .ok shortfall
        rw [hnothing]
        exact hwhole
      · rw [hcount]
        refine hissued.replaces (.cons hpart .nil) ?_ hwhole hdue hbase0 (le_max_left _ _)
          (le_max_right _ _) (Nat.le_add_left 1 _)
        intro d hd
        obtain rfl := List.mem_singleton.mp hd
        exact (toRat_pos_of_epsilon_lt hdue).le

/-! ### Debt-for-equity swap -/

namespace DebtEquitySwap

theorem issuesPart_exchangeLoan {count totalLoans price : Decimal} {loan : AgentId × Decimal}
    (h : exchangeLoan count totalLoans price ctx e loan = .ok e') :
    IssuesPart count totalLoans loan.2 e e' := by
  simp only [exchangeLoan, bind_eq_ok, pure_eq_ok] at h
  obtain ⟨p, hp, quantity, hquantity, value, -, allotted, hallot, down, hclaim, totals, -, rfl⟩ := h
  obtain ⟨holder, hissue⟩ := issue_of_allot hallot
  have hshares : down.shares = allotted.shares := (paysOut_writeDownClaim hclaim).same.shares
  exact Or.inr ⟨p, quantity, holder, hp, hquantity, hissue.trans (congrArg Except.ok hshares.symm)⟩

theorem reissued_of_run {r : Episode × Context} (h : run i shortfall ctx = .ok r)
    (hsheet : i.sheet.Nonneg) (hreplaces : r.1.ReplacesShares) :
    Policy.debtEquitySwap.Reissued i shortfall r.1 := by
  rcases run_cases h with rfl | ⟨e, hr⟩ | hsettled
  · exact absurd hreplaces (not_replacesShares_compliant i)
  · exact absurd hreplaces (not_replacesShares_of_giveUp hr)
  · cases hsettled with
    | @paid _ e _ hopened _ _ hrepay =>
        -- Paying the loans off cancels no shares.
        refine absurd hreplaces (not_replacesShares_resolved ?_)
        show .stocksTerminated ∉ e.trace
        rw [trace_of_repay hrepay, hopened.trace]
        decide
    | @swapped opened _ _ totalLoans hopened htotal hexchange =>
        obtain ⟨count, cancelled, price, exchanged, hcount, hcancel, -, hfold, hr⟩ :=
          exchange_eq_ok hexchange
        obtain ⟨rfl, rfl⟩ := Prod.mk.inj hr
        have hfirm := hopened.institution
        obtain ⟨outstanding, houtstanding, hbase⟩ := shareCount_eq_ok hcount
        rw [shares, hfirm] at houtstanding
        rw [liabilities, hfirm] at hfold
        refine ⟨outstanding, totalLoans, houtstanding, htotal, ?_⟩
        rw [hbase]
        have hnone : cancelled.shares = .empty := shares_cancelShares hcancel
        show exchanged.shares.Replaces _ _ _ _
        refine replaces_of_proportions hfold (fun _ _ _ _ hstep => issuesPart_exchangeLoan hstep)
          hsheet.loans htotal (nonneg_of_shareCount hcount) hnone ?_
        unfold BalanceSheet.entryCount Liabilities.entryCount
        omega

end DebtEquitySwap

/-! ### Asset threshold -/

namespace AssetThreshold

variable {count equity remainingDebt : Decimal} {debts : List (AgentId × Decimal)}

theorem issued_of_handOverParts
    (h : debts.foldlM (handOverPart count equity remainingDebt ctx) e = .ok e')
    (hdue : .epsilon < remainingDebt) (hdebts : AllNonneg (debts.map Prod.snd))
    (htotal : sum (debts.map Prod.snd) = .ok remainingDebt) (hcount : 0 ≤ count.toRat)
    (he : e.shares.holders.Nonneg) :
    ∃ parts, Shares.Issued e.shares e'.shares parts ∧
      List.Forall₂ (Shares.IsPart count.toRat (max (max 1 count.toRat) (1 / remainingDebt.toRat))
        remainingDebt) (debts.map Prod.snd) parts := by
  refine issued_of_foldlM Prod.snd h he fun debt hdebt mid mid' hstep hmid => ?_
  have hmem : debt.2 ∈ debts.map Prod.snd := List.mem_map_of_mem hdebt
  simp only [handOverPart, bind_eq_ok, pure_eq_ok] at hstep
  obtain ⟨product, hproduct, quantity, hquantity, worth, -, value, -, allotted, hallot, down,
    hclaim, totals, -, rfl⟩ := hstep
  have hpart := Shares.isPart_of_div hproduct hquantity (toRat_pos_of_epsilon_lt hdue)
    (hdebts _ hmem) (le_foldlM_add hdebts htotal toRat_zero.ge hmem) hcount
    ((le_max_left 1 count.toRat).trans (le_max_left _ (1 / remainingDebt.toRat)))
    ((le_max_right 1 count.toRat).trans (le_max_left _ _)) (le_max_right _ _)
  have hshares : down.shares = allotted.shares := (paysOut_writeDownClaim hclaim).same.shares
  refine ⟨quantity, ?_, hpart⟩
  show Shares.Issued mid.shares down.shares [quantity]
  rw [hshares]
  exact issued_of_allot hallot hmid hpart.nonneg

/-- Shares that are handed out are none that were cancelled. -/
theorem trace_of_handOutShares {holdings : List (AgentId × Decimal)} {value price : Decimal}
    (h : handOutShares e debts holdings remainingDebt value price ctx = .ok e') :
    e'.trace = e.trace ++ [.stockRedistributed] := by
  obtain ⟨given, settled, hgiven, rfl⟩ := handOutShares_eq_ok h
  show given.trace ++ [.stockRedistributed] = _
  rw [hgiven.trace]

theorem reissued_of_run {cash : CashRule} {r : Episode × Context}
    (h : run cash i shortfall ctx = .ok r) (hreplaces : r.1.ReplacesShares) :
    (Policy.assetThreshold cash).Reissued i shortfall r.1 := by
  rcases run_cases h with rfl | ⟨c, hc, ⟨-, rfl⟩ | ⟨hdue, hrest⟩⟩
  · exact absurd hreplaces (not_replacesShares_compliant i)
  · refine absurd hreplaces (not_replacesShares_resolved ?_)
    show .stocksTerminated ∉ c.paid.trace
    rw [hc.trace]
    decide
  · rcases settleRest_cases hrest with ⟨value, handed, -, hhand, rfl⟩ | ⟨handed, ctx'', hhand, rfl⟩
    · refine absurd hreplaces (not_replacesShares_resolved ?_)
      rw [trace_of_handOutShares hhand, hc.trace]
      decide
    · simp only [handOverFirm, bind_eq_ok, pure_eq_ok, Prod.mk.injEq] at hhand
      obtain ⟨count, hcount, cancelled, hcancel, equity, -, price, -, allotted, hfold, rfl,
        -⟩ := hhand
      have hgone : cancelled.shares = .empty := shares_cancelShares hcancel
      have hnone : ((withoutDebts cancelled).publishPrice price ctx).1.shares = .empty := hgone
      have hdebts : AllNonneg (c.debts.map Prod.snd) := by
        intro d hd
        obtain ⟨debt, hdebt, rfl⟩ := List.mem_map.mp hd
        exact (hc.debtsLeft.pos debt hdebt).le
      have hcount0 := nonneg_of_shareCount hcount
      obtain ⟨parts, hissued, hparts⟩ := issued_of_handOverParts hfold hdue hdebts hc.remaining
        hcount0 (hnone ▸ Accounts.nonneg_empty)
      rw [hnone] at hissued
      obtain ⟨outstanding, houtstanding, hbase⟩ := shareCount_eq_ok hcount
      rw [hc.sameShares.shares] at houtstanding
      refine ⟨outstanding, c.remainingDebt, houtstanding, hc.unpaidDebt_eq_ok, ?_⟩
      rw [hbase]
      refine hissued.replaces hparts hdebts hc.remaining hdue hcount0
        ((le_max_left 1 count.toRat).trans (le_max_left _ _))
        ((le_max_right 1 count.toRat).trans (le_max_left _ _)) ?_
      have := hc.length_debts_le
      rw [List.length_map]
      unfold BalanceSheet.entryCount
      omega

end AssetThreshold

/-! ### All policies -/

/-- **Cancelled shares are replaced**, whatever the policy and the price: there are as many as there
were, but for the rounding, or as many as none where what they stand for is dust. -/
theorem Policy.reissued_of_resolve {p : Policy} (h : p.resolve i shortfall ctx = .ok (e, ctx'))
    (hreplaces : e.ReplacesShares) :
    ∃ outstanding whole, i.sheet.shares.total = .ok outstanding ∧
      p.whole i shortfall e = .ok whole ∧
      e.shares.Replaces (normalizedCount outstanding) whole
        (p.figureSize (normalizedCount outstanding) whole) i.sheet.entryCount := by
  obtain ⟨hnone, hrun⟩ := resolve_eq_ok.mp h
  obtain ⟨hsheet, -⟩ := inOrder_of_objection? hnone
  cases p with
  | bailin => exact Bailin.reissued_of_run hrun hsheet hreplaces
  | assetThreshold cash => exact AssetThreshold.reissued_of_run hrun hreplaces
  | bailout => exact Bailout.reissued_of_run hrun hreplaces
  | debtEquitySwap => exact DebtEquitySwap.reissued_of_run hrun hsheet hreplaces
  | liquidate =>
      simp only [run, flag] at hrun
      split_ifs at hrun
      · obtain ⟨rfl, -⟩ := Prod.mk.inj (pure_eq_ok.mp hrun)
        exact absurd hreplaces (not_replacesShares_compliant i)
      · simp only [bind_eq_ok, pure_eq_ok] at hrun
        obtain ⟨filed, -, hconclude⟩ := hrun
        have hflagged := outcome_of_conclude hconclude
        rcases hreplaces with hout | ⟨hout, -⟩
        all_goals cases hflagged.symm.trans hout

theorem Policy.reissued_of_resolve_sampleBank :
    ∃ e ctx', Policy.bailin.resolve sampleBank 700.0 sampleContext = .ok (e, ctx') ∧
      e.ReplacesShares ∧ ∃ outstanding whole, sampleBank.sheet.shares.total = .ok outstanding ∧
        Policy.bailin.whole sampleBank 700.0 e = .ok whole ∧
        e.shares.Replaces (normalizedCount outstanding) whole
          (Policy.bailin.figureSize (normalizedCount outstanding) whole)
          sampleBank.sheet.entryCount := by
  obtain ⟨e, ctx', h, hreplaces⟩ : ∃ e ctx',
      Policy.bailin.resolve sampleBank 700.0 sampleContext = .ok (e, ctx') ∧ e.ReplacesShares :=
    ⟨_, _, rfl, Or.inr ⟨rfl, by decide⟩⟩
  exact ⟨e, ctx', h, hreplaces, Policy.reissued_of_resolve h hreplaces⟩

/-- A firm whose only loan is dust and who owes as much as it owns without it. -/
def dustFirm : Institution where
  id := "north"
  name := "North"
  kind := .macroFirm
  sheet := {
    assets := ⟨Table.ofList [(.other, 100.0)]⟩
    liabilities := ⟨Table.ofList [(⟨.fund, "lender"⟩, .epsilon)],
      Table.ofList [(⟨.household, "smith"⟩, 100.0)]⟩
    shares := ⟨Table.ofList [(⟨.fund, "owner"⟩, 100.0)]⟩ }
  status := .operating
  active := true
  created := ⟨2024, 1, 1, 0, 0, 0⟩
  updated := ⟨2024, 1, 1, 0, 0, 0⟩
  deleted := none

/-- The firm is insolvent by its loan and solvent without it, so its shares are cancelled; but a
proportion of dust is nothing, and its lender gets none. -/
theorem Policy.noShares_dustFirm :
    ∃ e ctx', Policy.debtEquitySwap.resolve dustFirm 1 { sampleContext with
        book := ⟨Table.ofList [("north", 1.0)]⟩ } = .ok (e, ctx') ∧
      e.ReplacesShares ∧ dustFirm.sheet.shares.total = .ok 100.0 ∧ e.shares = .empty :=
  ⟨_, _, rfl, Or.inr ⟨rfl, by decide⟩, by decide, by decide⟩

/-- A third of a share for a small debt comes back with half of its figures: the product of the two
is rounded, and the division brings the rounding up. -/
example : ∃ e ctx', (Policy.assetThreshold .allCash).resolve { dustFirm with
      sheet := {
        assets := ⟨∅⟩
        liabilities := ⟨Table.ofList [(⟨.fund, "lender"⟩, 0.00000000001)], ∅⟩
        shares := ⟨Table.ofList [(⟨.fund, "owner"⟩, 0.3333333333333333333333333333)]⟩ } } 1
      { sampleContext with book := ⟨∅⟩ } = .ok (e, ctx') ∧
    e.outcome = .liquidated ∧ e.shares.total = .ok 0.33333333333333333 :=
  ⟨_, _, rfl, rfl, by decide⟩

end Insolvency
