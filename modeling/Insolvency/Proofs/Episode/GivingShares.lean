/-
What it does to an episode that creditors are given shares.

Four loops give shares to creditors: for losses in a bail-in, for loans in a swap, and for
debts when outsiders' shares are handed out or the firm is.  Each step finds a holder, issues
or moves shares, writes the claim down and adds to the figures.  `GivesShares` is the frame
of all of them, and of their loops; what an invariant needs of such a loop it takes from here.
Where outsiders' shares are handed out nothing is issued either, and the claims are not touched
before all of it is done (`Redistributes`).
-/
import Insolvency.Proofs.AssetThreshold.Course
import Insolvency.Proofs.Episode.Allotment
import Insolvency.Proofs.Episode.DebtEquitySwap

namespace Insolvency

variable {ctx ctx' : Context} {e e' : Episode}

namespace Episode

/-- Of the institution only the share accounts have changed, and of the figures only those about
what creditors got. -/
structure GivesShares (e e' : Episode) : Prop where
  trace : e'.trace = e.trace
  institution : e'.institution = e.institution.withShares e'.shares
  cancelled : e'.cancelled = e.cancelled
  totals : e'.totals = { e.totals with
    equityValueDelivered := e'.totals.equityValueDelivered
    claimsSettled := e'.totals.claimsSettled
    debtForgiven := e'.totals.debtForgiven
    surplusToCreditors := e'.totals.surplusToCreditors
    sharesIssued := e'.totals.sharesIssued }

namespace GivesShares

theorem refl (e : Episode) : GivesShares e e := ⟨rfl, rfl, rfl, rfl⟩

theorem trans {e'' : Episode} (h : GivesShares e e') (h' : GivesShares e' e'') :
    GivesShares e e'' where
  trace := h'.trace.trans h.trace
  institution := by
    rw [h'.institution, h.institution]
    rfl
  cancelled := h'.cancelled.trans h.cancelled
  totals := by rw [h'.totals, h.totals]

/-- What the creditor gets is booked last. -/
theorem settle (h : GivesShares e e') {debt settled value : Decimal} {totals : Totals}
    (hsettle : e'.totals.settle debt settled value = .ok totals) :
    GivesShares e { e' with totals } where
  trace := h.trace
  institution := h.institution
  cancelled := h.cancelled
  totals := by
    simp only [Totals.settle, bind_eq_ok, pure_eq_ok] at hsettle
    obtain ⟨_, -, _, -, _, -, _, -, _, -, _, -, rfl⟩ := hsettle
    rw [h.totals]

theorem assets (h : GivesShares e e') : e'.assets = e.assets := by
  rw [Episode.assets, h.institution]
  rfl

theorem liabilities (h : GivesShares e e') : e'.liabilities = e.liabilities := by
  rw [Episode.liabilities, h.institution]
  rfl

end GivesShares

/-- Debt by debt the claims are written down, and nothing else happens. -/
theorem writeDownClaims_eq_ok {debts : List (AgentId × Decimal)}
    (h : debts.foldlM (fun e d => e.writeDownClaim d.1 d.2) e = .ok e') :
    ∃ claims, debts.foldlM (fun claims d => writeDownIn d.1 d.2 claims) e.claims = .ok claims ∧
      e' = { e with claims } := by
  induction debts generalizing e with
  | nil =>
      obtain rfl := pure_eq_ok.mp h
      exact ⟨e.claims, rfl, rfl⟩
  | cons d rest ih =>
      rw [List.foldlM_cons, bind_eq_ok] at h
      obtain ⟨mid, hmid, h⟩ := h
      obtain ⟨written, hwritten, rfl⟩ := writeDownClaim_eq_ok.mp hmid
      obtain ⟨claims, hclaims, rfl⟩ := ih h
      refine ⟨claims, ?_, rfl⟩
      rw [List.foldlM_cons, hwritten]
      exact hclaims

theorem givesShares_writeDownClaim {creditor : AgentId} {amount : Decimal}
    (h : e.writeDownClaim creditor amount = .ok e') : GivesShares e e' := by
  obtain ⟨claims, -, rfl⟩ := writeDownClaim_eq_ok.mp h
  exact ⟨rfl, rfl, rfl, rfl⟩

theorem givesShares_allot {creditor : AgentId} {quantity value : Decimal} {basis : Entitlement}
    (h : e.allot creditor quantity value basis ctx = .ok e') : GivesShares e e' := by
  simp only [allot, bind_eq_ok, pure_eq_ok] at h
  obtain ⟨⟨assigned, holder⟩, hassign, shares, -, issued, -, rfl⟩ := h
  rw [assignHolder_eq_ok hassign]
  exact ⟨rfl, rfl, rfl, rfl⟩

/-- Shares are handed out, and nothing is issued, paid or written down. -/
structure HandsOut (e e' : Episode) : Prop extends GivesShares e e' where
  claims : e'.claims = e.claims
  payments : e'.payments = e.payments
  allotments : e'.allotments = e.allotments
  issued : e'.totals.sharesIssued = e.totals.sharesIssued

namespace HandsOut

theorem refl (e : Episode) : HandsOut e e := ⟨.refl e, rfl, rfl, rfl, rfl⟩

theorem trans {e'' : Episode} (h : HandsOut e e') (h' : HandsOut e' e'') : HandsOut e e'' where
  toGivesShares := h.toGivesShares.trans h'.toGivesShares
  claims := h'.claims.trans h.claims
  payments := h'.payments.trans h.payments
  allotments := h'.allotments.trans h.allotments
  issued := h'.issued.trans h.issued

end HandsOut

end Episode

open Episode

/-! ### For losses -/

theorem Bailin.givesShares_compensate {base totalLoss : Decimal} {loss : Loser × Decimal}
    (h : compensate base totalLoss ctx e loss = .ok e') : GivesShares e e' := by
  unfold compensate at h
  split_ifs at h
  · exact pure_eq_ok.mp h ▸ .refl e
  · simp only [bind_eq_ok] at h
    obtain ⟨_, -, quantity, -, hallot⟩ := h
    exact givesShares_allot hallot

/-! ### For loans -/

namespace DebtEquitySwap

theorem givesShares_exchangeLoan {count totalLoans price : Decimal} {loan : AgentId × Decimal}
    (h : exchangeLoan count totalLoans price ctx e loan = .ok e') : GivesShares e e' := by
  simp only [exchangeLoan, bind_eq_ok, pure_eq_ok] at h
  obtain ⟨_, -, quantity, -, value, -, allotted, hallot, down, hclaim, totals, htotals, rfl⟩ := h
  exact ((givesShares_allot hallot).trans (givesShares_writeDownClaim hclaim)).settle htotals

theorem givesShares_exchangeLoans {count totalLoans price : Decimal}
    {loans : List (AgentId × Decimal)}
    (h : loans.foldlM (exchangeLoan count totalLoans price ctx) e = .ok e') : GivesShares e e' :=
  foldlM_related .refl .trans h fun _ _ _ _ => givesShares_exchangeLoan

end DebtEquitySwap

/-! ### For debts -/

namespace AssetThreshold

variable {debts holdings : List (AgentId × Decimal)} {remainingDebt value price : Decimal}

theorem handsOut_giveTo {source : AgentId} {give : Decimal} {debt : AgentId × Decimal}
    (h : giveTo source give remainingDebt price ctx e debt = .ok e') : HandsOut e e' := by
  simp only [giveTo, bind_eq_ok] at h
  obtain ⟨_, -, quantity, -, h⟩ := h
  split_ifs at h
  · exact pure_eq_ok.mp h ▸ .refl e
  · simp only [bind_eq_ok, pure_eq_ok] at h
    obtain ⟨⟨assigned, holder⟩, hassign, _, -, _, -, _, -, rfl⟩ := h
    rw [assignHolder_eq_ok hassign]
    exact ⟨⟨rfl, rfl, rfl, rfl⟩, rfl, rfl, rfl, rfl⟩

theorem handsOut_handOutFrom {holding : AgentId × Decimal}
    (h : handOutFrom debts remainingDebt value price ctx e holding = .ok e') : HandsOut e e' := by
  simp only [handOutFrom, bind_eq_ok] at h
  obtain ⟨give, -, h⟩ := h
  exact foldlM_related .refl .trans h fun _ _ _ _ => handsOut_giveTo

/-- The shares are handed out, then the claims are written down and the debts are off the books. -/
structure Redistributes (e : Episode) (debts holdings : List (AgentId × Decimal))
    (remainingDebt value price : Decimal) (ctx : Context) (handed : Episode) (claims : List Claim)
    (e' : Episode) : Prop where
  handing : holdings.foldlM (handOutFrom debts remainingDebt value price ctx) e = .ok handed
  frame : HandsOut e handed
  writing : debts.foldlM (fun claims d => writeDownIn d.1 d.2 claims) e.claims = .ok claims
  result : ∃ claimsSettled, e' = (withoutDebts { handed with
    claims := claims, totals := { handed.totals with claimsSettled } }).reach .stockRedistributed

theorem redistributes_of_handOutShares
    (h : handOutShares e debts holdings remainingDebt value price ctx = .ok e') :
    ∃ handed claims,
      Redistributes e debts holdings remainingDebt value price ctx handed claims e' := by
  simp only [handOutShares, bind_eq_ok, pure_eq_ok] at h
  obtain ⟨handed, hhand, down, hdown, settled, -, rfl⟩ := h
  have hframe := foldlM_related HandsOut.refl .trans hhand fun _ _ _ _ => handsOut_handOutFrom
  obtain ⟨claims, hclaims, rfl⟩ := writeDownClaims_eq_ok hdown
  exact ⟨handed, claims, hhand, hframe, hframe.claims ▸ hclaims, settled, rfl⟩

/-- Once the shares are handed out and the claims written down, the debts are off the books. -/
theorem handOutShares_eq_ok
    (h : handOutShares e debts holdings remainingDebt value price ctx = .ok e') :
    ∃ given settled, GivesShares e given ∧
      e' = (withoutDebts { given with
        totals := { given.totals with claimsSettled := settled } }).reach .stockRedistributed := by
  obtain ⟨handed, claims, hgives⟩ := redistributes_of_handOutShares h
  obtain ⟨settled, rfl⟩ := hgives.result
  exact ⟨{ handed with claims }, settled,
    hgives.frame.toGivesShares.trans ⟨rfl, rfl, rfl, rfl⟩, rfl⟩

theorem givesShares_handOverPart {count equity : Decimal} {debt : AgentId × Decimal}
    (h : handOverPart count equity remainingDebt ctx e debt = .ok e') : GivesShares e e' := by
  simp only [handOverPart, bind_eq_ok, pure_eq_ok] at h
  obtain ⟨_, -, quantity, -, _, -, value, -, allotted, hallot, down, hclaim, totals, htotals,
    rfl⟩ := h
  exact ((givesShares_allot hallot).trans (givesShares_writeDownClaim hclaim)).settle htotals

/-- The firm without its debts is worth what it owns, and that is the price of the shares that the
creditors get. -/
structure HandsOver (e : Episode) (ctx : Context) (count : Decimal) (cancelled : Episode)
    (equity price : Decimal) (e' : Episode) (ctx' : Context) : Prop where
  counted : e.shareCount = .ok count
  cancelling : e.cancelShares (ctx.book.value e.institution.id) = .ok cancelled
  valued : cancelled.assets.total = .ok equity
  priced : equity.div count = .ok price
  gives : GivesShares ((withoutDebts cancelled).publishPrice price ctx).1 e'
  context : ctx' = ((withoutDebts cancelled).publishPrice price ctx).2

theorem handsOver_of_handOverFirm (h : handOverFirm e debts remainingDebt ctx = .ok (e', ctx')) :
    ∃ count cancelled equity price, HandsOver e ctx count cancelled equity price e' ctx' := by
  simp only [handOverFirm, bind_eq_ok, pure_eq_ok, Prod.mk.injEq] at h
  obtain ⟨count, hcount, cancelled, hcancel, equity, hequity, price, hprice, handed, hfold, rfl,
    rfl⟩ := h
  exact ⟨count, cancelled, equity, price, hcount, hcancel, hequity, hprice,
    foldlM_related .refl .trans hfold fun _ _ _ _ => givesShares_handOverPart, rfl⟩

end AssetThreshold

end Insolvency
