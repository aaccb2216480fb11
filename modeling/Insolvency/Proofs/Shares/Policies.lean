/-
Every policy goes by share steps.

Each policy is gone through once, from its opening to each of its ends, and only as far as
shares are concerned.  What is to be checked on the way is who deals with whom: new shares
go to losers, and those are creditors and holders of cancelled accounts; shares handed over
come from holders without a claim and go to claimants.
-/
import Insolvency.Proofs.AssetThreshold.Course
import Insolvency.Proofs.Bailin.Books
import Insolvency.Proofs.Episode.DebtEquitySwap
import Insolvency.Proofs.Episode.Flagged
import Insolvency.Proofs.Shares.Steps

namespace Insolvency

open Decimal

variable {i : Institution} {shortfall : Decimal} {ctx ctx' : Context} {e e' : Episode}

namespace Episode

theorem shareSteps_compliant (i : Institution) (newId : Nat → IntermediaryId) :
    ∃ s, ShareSteps i newId (opening i s) (compliant i) :=
  ⟨0, .refl⟩

/-- Giving up is the same as never having begun. -/
theorem shareSteps_giveUp {r : Episode × Context} (h : e.giveUp i ctx = .ok r)
    (newId : Nat → IntermediaryId) : ∃ s, ShareSteps i newId (opening i s) r.1 :=
  ⟨0, .aside (sameShares_giveUp h 0)⟩

theorem sameShares_conclude_publishPrice (e : Episode) (stage : Stage) (price : Decimal)
    (o : Outcome) (ctx : Context) : SameShares e
      (((e.reach stage).publishPrice price ctx).1.conclude o
        ((e.reach stage).publishPrice price ctx).2).1 :=
  ((sameShares_reach e stage).trans (sameShares_publishPrice _ price ctx)).trans
    (sameShares_conclude _ o _)

theorem handovers_allot {creditor : AgentId} {quantity value : Decimal} {basis : Entitlement}
    (h : e.allot creditor quantity value basis ctx = .ok e') : e'.handovers = e.handovers := by
  simp only [allot, bind_eq_ok, pure_eq_ok] at h
  obtain ⟨⟨assigned, holder⟩, hassign, shares, -, issued, -, rfl⟩ := h
  rw [assignHolder_eq_ok hassign]
  rfl

theorem handovers_cancelShares {price : Decimal} (h : e.cancelShares price = .ok e') :
    e'.handovers = e.handovers := by
  obtain ⟨lost, -, rfl⟩ := cancelShares_eq_ok.mp h
  rfl

end Episode

open Episode

/-! ### Bail-in -/

namespace Bailin

theorem recordWriteDowns_sameShares {lost : List (AgentId × Decimal)}
    {losses losses' : Accounts Loser}
    (h : lost.foldlM recordWriteDown (e, losses) = .ok (e', losses')) : e.SameShares e' := by
  refine foldlM_related (R := fun b b' => b.1.SameShares b'.1) (fun _ => .refl _) .trans h
    fun loss _ state state' hstep => ?_
  simp only [recordWriteDown, bind_eq_ok, pure_eq_ok] at hstep
  obtain ⟨down, hclaim, _, -, rfl⟩ := hstep
  exact (paysOut_writeDownClaim hclaim).same

/-- Whoever is on the list of losers is named in the books. -/
theorem names_of_recordWriteDowns {lost : List (AgentId × Decimal)} {losses : Accounts Loser}
    (h : lost.foldlM recordWriteDown (e, ∅) = .ok (e', losses))
    (hlost : ∀ x ∈ lost, i.sheet.liabilities.isCreditor x.1 = true) :
    ∀ x ∈ losses.entries, i.sheet.names x.1.party = true := by
  refine foldlM_induction
    (P := fun state : Episode × Accounts Loser =>
      ∀ x ∈ state.2.entries, i.sheet.names x.1.party = true)
    h (fun x hx => by cases hx) fun loss hloss state state' hstate hstep => ?_
  simp only [recordWriteDown, Accounts.credit, bind_eq_ok, pure_eq_ok] at hstep
  obtain ⟨down, -, _, ⟨new, -, rfl⟩, rfl⟩ := hstep
  intro x hx
  rcases Table.mem_insertEntry hx with rfl | hx
  · exact BalanceSheet.names_of_isCreditor (hlost loss hloss)
  · exact hstate x hx

theorem names_of_recordCancellations {cancelled : List CancelledAccount} {losses : Accounts Loser}
    (hcancelled : ∀ x ∈ cancelled, i.sheet.names x.holder = true)
    (hlosses : ∀ x ∈ losses.entries, i.sheet.names x.1.party = true) :
    ∀ x ∈ (cancelled.foldl (recordCancellation i) losses).entries,
      i.sheet.names x.1.party = true := by
  induction cancelled generalizing losses with
  | nil => exact hlosses
  | cons account rest ih =>
      obtain ⟨haccount, hrest⟩ := List.forall_mem_cons.mp hcancelled
      refine ih hrest ?_
      unfold recordCancellation
      split_ifs
      · intro x hx
        rcases Table.mem_insertEntry hx with rfl | hx
        · exact haccount
        · exact hlosses x hx
      · exact hlosses

theorem shareSteps_compensate {losses : List (Loser × Decimal)} {base totalLoss : Decimal}
    (h : losses.foldlM (compensate base totalLoss ctx) e = .ok e') (hbase : 0 ≤ base.toRat)
    (hnames : ∀ x ∈ losses, i.sheet.names x.1.party = true) (hkept : e.handovers = []) :
    ShareSteps i ctx.newId e e' := by
  refine (foldlM_induction
    (P := fun mid : Episode => ShareSteps i ctx.newId e mid ∧ mid.handovers = []) h
    ⟨.refl, hkept⟩ fun loss hloss mid mid' hmid hstep => ?_).1
  unfold compensate at hstep
  split_ifs at hstep
  · exact pure_eq_ok.mp hstep ▸ hmid
  · simp only [bind_eq_ok] at hstep
    obtain ⟨p, hp, quantity, hquantity, hstep⟩ := hstep
    have hq := (rounds_mul hquantity).nonneg (mul_nonneg hbase (proportion_nonneg hp))
    exact ⟨hmid.1.tail (.allot hstep rfl hq (Or.inl (hnames loss hloss)) hmid.2),
      (handovers_allot hstep).trans hmid.2⟩

theorem shareSteps_of_run {r : Episode × Context} (h : run i shortfall ctx = .ok r)
    (hsheet : i.sheet.Nonneg) : ∃ s, ShareSteps i ctx.newId (opening i s) r.1 := by
  rcases run_cases h with ⟨-, rfl⟩ | ⟨c, hc, ⟨-, hr⟩ | ⟨-, hr⟩⟩
  · exact shareSteps_compliant i ctx.newId
  · exact shareSteps_giveUp hr ctx.newId
  · refine ⟨shortfall, ?_⟩
    have hleaves := hc.leaves hsheet
    obtain ⟨filed, gone, hfiled, hgone, hdown⟩ := hleaves.cancelling
    have hstart : ShareSteps i ctx.newId (opening i shortfall) c.depositsDown :=
      ((ShareSteps.aside hfiled).tail (.cancel hgone hfiled)).tail (.aside hdown)
    simp only [compensateAll, bind_eq_ok, pure_eq_ok] at hr
    obtain ⟨⟨recorded, writeDowns⟩, hrecord, total, -, handed, hfold, price, -, rfl⟩ := hr
    have hrecorded := recordWriteDowns_sameShares hrecord
    have hcancelled : ∀ x ∈ recorded.cancelled, i.sheet.names x.holder = true := by
      intro x hx
      rw [hrecorded.cancelled, hdown.cancelled] at hx
      have hholder : x.holder ∈ gone.cancelled.map CancelledAccount.holder :=
        List.mem_map_of_mem hx
      rw [keys_of_cancelShares hgone, hfiled.cancelled, hfiled.shares] at hholder
      exact BalanceSheet.names_of_mem_holders hholder
    have hkept : recorded.handovers = [] := by
      rw [hrecorded.handovers, hdown.handovers, handovers_cancelShares hgone, hfiled.handovers]
      rfl
    have hhanded := shareSteps_compensate hfold (nonneg_of_shareCount hc.count)
      (names_of_recordCancellations hcancelled
        (names_of_recordWriteDowns hrecord hleaves.lost_creditor)) hkept
    exact ((hstart.tail (.aside hrecorded)).trans hhanded).tail
      (.aside (sameShares_conclude_publishPrice handed _ _ _ ctx))

end Bailin

/-! ### Bail-out -/

theorem Bailout.shareSteps_of_run {r : Episode × Context}
    (h : Bailout.run i shortfall ctx = .ok r) :
    ∃ s, ShareSteps i ctx.newId (opening i s) r.1 := by
  rcases Bailout.run_course h with ⟨-, rfl⟩ | ⟨-, base, filed, cancelled, hbase, hfiled, hcancel, h⟩
  · exact shareSteps_compliant i ctx.newId
  · rcases h with ⟨-, h⟩ |
      ⟨government, paid, injected, allotted, newPrice, -, hinject, hallot, -, rfl⟩
    · exact shareSteps_giveUp h ctx.newId
    · refine ⟨shortfall, ?_⟩
      have hopened := (sameShares_fileClaims hfiled).trans (sameShares_reach filed .start)
      have hpaid : cancelled.SameShares injected := by
        simp only [Bailout.inject, bind_eq_ok, pure_eq_ok] at hinject
        obtain ⟨assets, -, rfl⟩ := hinject
        exact ⟨rfl, rfl, rfl, rfl, rfl, rfl⟩
      have hkept : injected.handovers = [] := by
        rw [hpaid.handovers, handovers_cancelShares hcancel, hopened.handovers]
        rfl
      exact ((((ShareSteps.aside hopened).tail (.cancel hcancel hopened)).tail (.aside hpaid)).tail
        (.allot hallot rfl (nonneg_of_shareCount hbase) (Or.inr rfl) hkept)).tail
        (.aside (sameShares_conclude_publishPrice allotted _ _ _ _))

/-! ### Debt-for-equity swap -/

namespace DebtEquitySwap

theorem shareSteps_exchangeLoans {loans : List (AgentId × Decimal)}
    {count totalLoans price : Decimal}
    (h : loans.foldlM (exchangeLoan count totalLoans price ctx) e = .ok e')
    (hcount : 0 ≤ count.toRat) (hnames : ∀ x ∈ loans, i.sheet.names x.1 = true)
    (hkept : e.handovers = []) : ShareSteps i ctx.newId e e' := by
  refine (foldlM_induction
    (P := fun mid : Episode => ShareSteps i ctx.newId e mid ∧ mid.handovers = []) h
    ⟨.refl, hkept⟩ fun loan hloan mid mid' hmid hstep => ?_).1
  simp only [exchangeLoan, bind_eq_ok, pure_eq_ok] at hstep
  obtain ⟨p, hp, quantity, hquantity, value, -, allotted, hallot, down, hclaim, totals, -,
    rfl⟩ := hstep
  have hq := (rounds_mul hquantity).nonneg (mul_nonneg hcount (proportion_nonneg hp))
  have hdown := (paysOut_writeDownClaim hclaim).same
  refine ⟨(hmid.1.tail (.allot hallot rfl hq (Or.inl (hnames loan hloan)) hmid.2)).tail
    (.aside (hdown.trans ⟨rfl, rfl, rfl, rfl, rfl, rfl⟩)), ?_⟩
  exact hdown.handovers.trans ((handovers_allot hallot).trans hmid.2)

theorem shareSteps_of_run {r : Episode × Context} (h : run i shortfall ctx = .ok r) :
    ∃ s, ShareSteps i ctx.newId (opening i s) r.1 := by
  rcases run_cases h with rfl | ⟨e, hr⟩ | hsettled
  · exact shareSteps_compliant i ctx.newId
  · exact shareSteps_giveUp hr ctx.newId
  · refine ⟨shortfall, ?_⟩
    cases hsettled with
    | paid hopened htotal _ hrepay =>
        obtain ⟨hsame, -⟩ := repaid_of_repay hrepay hopened.institution htotal
        have hend := hopened.sameShares.trans hsame
        exact .aside (hend.trans ⟨rfl, rfl, rfl, rfl, rfl, rfl⟩)
    | @swapped opened _ _ totalLoans hopened _ hexchange =>
        obtain ⟨count, cancelled, price, exchanged, hcount, hcancel, -, hfold, hr⟩ :=
          exchange_eq_ok hexchange
        obtain ⟨rfl, rfl⟩ := Prod.mk.inj hr
        have hforgiven := hopened.sameShares.trans (sameShares_forgiven opened totalLoans)
        have hkept : cancelled.handovers = [] := by
          rw [handovers_cancelShares hcancel, hforgiven.handovers]
          rfl
        have hnames : ∀ x ∈ i.sheet.liabilities.loans.entries, i.sheet.names x.1 = true :=
          fun x hx => BalanceSheet.names_of_isCreditor
            (Liabilities.isCreditor_of_mem_loans (List.mem_map_of_mem hx))
        have hloans := congrArg (fun j => j.sheet.liabilities.loans.entries) hopened.institution
        have hexchanged := shareSteps_exchangeLoans hfold (nonneg_of_shareCount hcount)
          (fun x hx => hnames x (hloans ▸ hx)) hkept
        have hstart : ShareSteps i ctx.newId (opening i shortfall)
            ((cancelled.reach .stocksTerminated).publishPrice price ctx).1 :=
          ((ShareSteps.aside hforgiven).tail (.cancel hcancel hforgiven)).tail
            (.aside ⟨rfl, rfl, rfl, rfl, rfl, rfl⟩)
        exact (hstart.trans hexchanged).tail (.aside ⟨rfl, rfl, rfl, rfl, rfl, rfl⟩)

end DebtEquitySwap

/-! ### Asset threshold -/

namespace AssetThreshold

theorem surrendered_nonneg {held remainingDebt value give : Decimal}
    (h : surrendered held remainingDebt value = .ok give) (hheld : 0 ≤ held.toRat)
    (hdebt : 0 ≤ remainingDebt.toRat) (hvalue : 0 ≤ value.toRat) : 0 ≤ give.toRat := by
  simp only [surrendered, bind_eq_ok, pure_eq_ok] at h
  obtain ⟨product, hproduct, part, hpart, rfl⟩ := h
  rw [toRat_min]
  have hproduct' := (rounds_mul hproduct).nonneg (mul_nonneg hheld hdebt)
  exact le_min ((rounds_div hpart).2.nonneg (div_nonneg hproduct' hvalue)) hheld

/-- Shares are given by holders without a claim to claimants, in parts not below nothing. -/
theorem shareSteps_giveTo {source : AgentId} {give remainingDebt price : Decimal}
    {debts : List (AgentId × Decimal)}
    (h : debts.foldlM (giveTo source give remainingDebt price ctx) e = .ok e')
    (hgive : 0 ≤ give.toRat) (hremaining : 0 ≤ remainingDebt.toRat)
    (hdebts : ∀ d ∈ debts, 0 < d.2.toRat ∧ d.1 ∈ i.sheet.liabilities.byCreditor.keys)
    (hsource : source ∈ i.sheet.shares.holders.keys)
    (houtside : source ∉ i.sheet.liabilities.byCreditor.keys)
    (hkept : e.cancelled = [] ∧ e.allotments = []) :
    ShareSteps i ctx.newId e e' ∧ e'.cancelled = [] ∧ e'.allotments = [] := by
  refine foldlM_induction
    (P := fun mid : Episode => ShareSteps i ctx.newId e mid ∧ mid.cancelled = [] ∧
      mid.allotments = []) h ⟨.refl, hkept⟩ fun debt hdebt mid mid' hmid hstep => ?_
  simp only [giveTo, bind_eq_ok] at hstep
  obtain ⟨product, hproduct, quantity, hquantity, hstep⟩ := hstep
  split_ifs at hstep
  · exact pure_eq_ok.mp hstep ▸ hmid
  · simp only [bind_eq_ok, pure_eq_ok] at hstep
    obtain ⟨⟨assigned, holder⟩, hassign, ⟨shares, moved⟩, hmove, value, -, delivered, -,
      rfl⟩ := hstep
    obtain ⟨hpos, hcreditor⟩ := hdebts debt hdebt
    have hproduct' := (rounds_mul hproduct).nonneg (mul_nonneg hgive hpos.le)
    have hq := (rounds_div hquantity).2.nonneg (div_nonneg hproduct' hremaining)
    have hframe := assignHolder_eq_ok hassign
    refine ⟨hmid.1.tail (.handOver hassign hmove ⟨rfl, rfl, rfl, rfl, rfl, rfl⟩ rfl hq hsource
      houtside hcreditor hmid.2), ?_, ?_⟩
    · show assigned.cancelled = []
      rw [hframe]
      exact hmid.2.1
    · show assigned.allotments = []
      rw [hframe]
      exact hmid.2.2

theorem mem_outsiders {holding : AgentId × Decimal} (h : holding ∈ outsiders e) :
    holding ∈ e.shares.holders.entries ∧ holding.1 ∉ e.claimants := by
  obtain ⟨hmem, hnone⟩ := List.mem_filter.mp h
  refine ⟨hmem, fun hclaim => ?_⟩
  obtain ⟨c, hc, heq⟩ := List.mem_map.mp hclaim
  have hany : e.claims.any (·.creditor == holding.1) = true :=
    List.any_eq_true.mpr ⟨c, hc, beq_iff_eq.mpr heq⟩
  rw [hany] at hnone
  cases hnone

theorem shareSteps_handOutShares {debts : List (AgentId × Decimal)}
    {remainingDebt value price : Decimal}
    (h : handOutShares e debts (outsiders e) remainingDebt value price ctx = .ok e')
    (hopened : (opening i shortfall).SameShares e)
    (hclaimants : e.claimants = i.sheet.liabilities.byCreditor.keys)
    (hshares : i.sheet.shares.holders.Nonneg) (hremaining : 0 ≤ remainingDebt.toRat)
    (hvalue : 0 ≤ value.toRat)
    (hdebts : ∀ d ∈ debts, 0 < d.2.toRat ∧ d.1 ∈ i.sheet.liabilities.byCreditor.keys) :
    ShareSteps i ctx.newId e e' := by
  simp only [handOutShares, bind_eq_ok, pure_eq_ok] at h
  obtain ⟨handed, hhand, down, hdown, settled, -, rfl⟩ := h
  have hholders : e.shares.holders = i.sheet.shares.holders :=
    congrArg Shares.holders hopened.shares
  have hhanded : ShareSteps i ctx.newId e handed := by
    refine (foldlM_induction
      (P := fun mid : Episode => ShareSteps i ctx.newId e mid ∧ mid.cancelled = [] ∧
        mid.allotments = []) hhand ⟨.refl, hopened.cancelled, hopened.allotments⟩
      fun holding hholding mid mid' hmid hstep => ?_).1
    simp only [handOutFrom, bind_eq_ok] at hstep
    obtain ⟨give, hgive, hstep⟩ := hstep
    obtain ⟨hmem, houtside⟩ := mem_outsiders hholding
    rw [hholders] at hmem
    rw [hclaimants] at houtside
    have hheld : 0 ≤ holding.2.toRat := hshares _ (List.mem_map_of_mem hmem)
    obtain ⟨hsteps, hnone⟩ := shareSteps_giveTo hstep
      (surrendered_nonneg hgive hheld hremaining hvalue) hremaining hdebts
      (List.mem_map_of_mem hmem) houtside hmid.2
    exact ⟨hmid.1.trans hsteps, hnone⟩
  have hout := (foldlM_related PaysOut.refl .trans hdown fun _ _ _ _ => paysOut_writeDownClaim).same
  exact hhanded.tail (.aside (hout.trans ⟨rfl, rfl, rfl, rfl, rfl, rfl⟩))

theorem shareSteps_handOverFirm {debts : List (AgentId × Decimal)} {remainingDebt : Decimal}
    (h : handOverFirm e debts remainingDebt ctx = .ok (e', ctx'))
    (hopened : (opening i shortfall).SameShares e) (hremaining : 0 ≤ remainingDebt.toRat)
    (hdebts : ∀ d ∈ debts, 0 < d.2.toRat ∧ d.1 ∈ i.sheet.liabilities.byCreditor.keys) :
    ShareSteps i ctx.newId e e' := by
  simp only [handOverFirm, bind_eq_ok, pure_eq_ok, Prod.mk.injEq] at h
  obtain ⟨count, hcount, cancelled, hcancel, equity, -, price, -, handed, hfold, rfl, -⟩ := h
  have hcount0 := nonneg_of_shareCount hcount
  have hgone : ShareSteps i ctx.newId e cancelled := .single (.cancel hcancel hopened)
  have hstart : ShareSteps i ctx.newId e ((withoutDebts cancelled).publishPrice price ctx).1 :=
    hgone.tail (.aside ⟨rfl, rfl, rfl, rfl, rfl, rfl⟩)
  have hkept : cancelled.handovers = [] := by
    rw [handovers_cancelShares hcancel, hopened.handovers]
    rfl
  refine (foldlM_induction
    (P := fun mid : Episode => ShareSteps i ctx.newId e mid ∧ mid.handovers = []) hfold
    ⟨hstart, hkept⟩ fun debt hdebt mid mid' hmid hstep => ?_).1
  simp only [handOverPart, bind_eq_ok, pure_eq_ok] at hstep
  obtain ⟨product, hproduct, quantity, hquantity, worth, -, value, -, allotted, hallot, down,
    hclaim, totals, -, rfl⟩ := hstep
  obtain ⟨hpos, hcreditor⟩ := hdebts debt hdebt
  have hproduct' := (rounds_mul hproduct).nonneg (mul_nonneg hcount0 hpos.le)
  have hq := (rounds_div hquantity).2.nonneg (div_nonneg hproduct' hremaining)
  have hdown := (paysOut_writeDownClaim hclaim).same
  refine ⟨(hmid.1.tail (.allot hallot rfl hq (Or.inl (BalanceSheet.names_of_isCreditor
    (Liabilities.isCreditor_of_mem_byCreditor hcreditor))) hmid.2)).tail
    (.aside (hdown.trans ⟨rfl, rfl, rfl, rfl, rfl, rfl⟩)), ?_⟩
  exact hdown.handovers.trans ((handovers_allot hallot).trans hmid.2)

theorem shareSteps_of_run {cash : CashRule} {r : Episode × Context}
    (h : run cash i shortfall ctx = .ok r) (hshares : i.sheet.shares.holders.Nonneg) :
    ∃ s, ShareSteps i ctx.newId (opening i s) r.1 := by
  rcases run_cases h with rfl | ⟨c, hc, ⟨-, rfl⟩ | ⟨hdue, hrest⟩⟩
  · exact shareSteps_compliant i ctx.newId
  · have hpaid := hc.sameShares
    exact ⟨shortfall, .aside (hpaid.trans ⟨rfl, rfl, rfl, rfl, rfl, rfl⟩)⟩
  · have hdebts : ∀ d ∈ c.debts, 0 < d.2.toRat ∧ d.1 ∈ i.sheet.liabilities.byCreditor.keys :=
      fun d hd => ⟨hc.debtsLeft.pos d hd, hc.claimants ▸ hc.debtsLeft.claimant d hd⟩
    have hremaining := (toRat_pos_of_epsilon_lt hdue).le
    refine ⟨shortfall, (ShareSteps.aside hc.sameShares).trans ?_⟩
    rcases settleRest_cases hrest with ⟨value, handed, hvalue, hhand, rfl⟩ |
      ⟨handed, ctx'', hhand, rfl⟩
    · exact (shareSteps_handOutShares hhand hc.sameShares hc.claimants hshares hremaining
        (toRat_pos_of_epsilon_lt hvalue).le hdebts).tail (.aside (sameShares_conclude handed _ ctx))
    · exact (shareSteps_handOverFirm hhand hc.sameShares hremaining hdebts).tail
        (.aside (sameShares_conclude handed _ ctx''))

end AssetThreshold

/-! ### All policies -/

namespace Policy

/-- **Whatever policy is run, the shares go by share steps.** -/
theorem shareSteps_of_run {p : Policy} {r : Episode × Context} (h : p.run i shortfall ctx = .ok r)
    (hsheet : i.sheet.Nonneg) : ∃ s, ShareSteps i ctx.newId (opening i s) r.1 := by
  cases p with
  | bailin => exact Bailin.shareSteps_of_run h hsheet
  | assetThreshold cash => exact AssetThreshold.shareSteps_of_run h hsheet.shares
  | bailout => exact Bailout.shareSteps_of_run h
  | debtEquitySwap => exact DebtEquitySwap.shareSteps_of_run h
  | liquidate =>
      rcases flag_cases h with ⟨-, rfl⟩ | ⟨-, filed, hfiled, rfl⟩
      · exact shareSteps_compliant i ctx.newId
      · have hopened := sameShares_fileClaims hfiled
        exact ⟨shortfall, .aside (hopened.trans ⟨rfl, rfl, rfl, rfl, rfl, rfl⟩)⟩

theorem shareSteps_of_resolve {p : Policy} (h : p.resolve i shortfall ctx = .ok (e, ctx')) :
    ∃ s, ShareSteps i ctx.newId (opening i s) e := by
  obtain ⟨hnone, hrun⟩ := resolve_eq_ok.mp h
  exact shareSteps_of_run hrun (inOrder_of_objection? hnone).1

end Policy

end Insolvency
