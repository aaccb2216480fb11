/-
The parts of an episode that leave the shares alone.

Much of an episode happens beside the shares: claims are filed and written down, cash is
paid, figures are added up.  `SameShares` is the frame of all that, and what is proved
about shares goes through such steps unseen.  Paying creditors stays within the narrower
`PaysOut`, which keeps the assets and the list of claimants besides.
-/
import Insolvency.Proofs.Episode.Ending

namespace Insolvency.Episode

/-- Nothing that concerns shares has changed. -/
structure SameShares (e e' : Episode) : Prop where
  id : e'.institution.id = e.institution.id
  shares : e'.shares = e.shares
  cancelled : e'.cancelled = e.cancelled
  allotments : e'.allotments = e.allotments
  handovers : e'.handovers = e.handovers
  intermediaries : e'.intermediaries = e.intermediaries

theorem SameShares.refl (e : Episode) : SameShares e e := ⟨rfl, rfl, rfl, rfl, rfl, rfl⟩

theorem SameShares.trans {e e' e'' : Episode} (h : SameShares e e') (h' : SameShares e' e'') :
    SameShares e e'' where
  id := h'.id.trans h.id
  shares := h'.shares.trans h.shares
  cancelled := h'.cancelled.trans h.cancelled
  allotments := h'.allotments.trans h.allotments
  handovers := h'.handovers.trans h.handovers
  intermediaries := h'.intermediaries.trans h.intermediaries

theorem sameShares_reach (e : Episode) (stage : Stage) : SameShares e (e.reach stage) :=
  ⟨rfl, rfl, rfl, rfl, rfl, rfl⟩

theorem sameShares_publishPrice (e : Episode) (price : Decimal) (ctx : Context) :
    SameShares e (e.publishPrice price ctx).1 :=
  ⟨rfl, rfl, rfl, rfl, rfl, rfl⟩

theorem sameShares_conclude (e : Episode) (o : Outcome) (ctx : Context) :
    SameShares e (e.conclude o ctx).1 :=
  ⟨rfl, rfl, rfl, rfl, rfl, rfl⟩

theorem sameShares_fileClaims {e e' : Episode} (h : e.fileClaims = .ok e') : SameShares e e' := by
  obtain ⟨claims, -, rfl⟩ := Episode.fileClaims_eq_ok.mp h
  exact ⟨rfl, rfl, rfl, rfl, rfl, rfl⟩

/-- An episode given up is back where it began. -/
theorem sameShares_giveUp {e e' : Episode} {before : Institution} {ctx ctx' : Context}
    (h : e.giveUp before ctx = .ok (e', ctx')) (shortfall : Decimal) :
    SameShares (opening before shortfall) e' := by
  have hflagged := flagged_of_giveUp h
  exact {
    id := by
      rw [hflagged.institution]
      rfl
    shares := by
      rw [shares, hflagged.institution]
      rfl
    cancelled := hflagged.cancelled
    allotments := hflagged.allotments
    handovers := hflagged.handovers
    intermediaries := hflagged.intermediaries }

theorem shares_cancelShares {e e' : Episode} {price : Decimal} (h : e.cancelShares price = .ok e') :
    e'.shares = .empty := by
  obtain ⟨lost, -, rfl⟩ := Episode.cancelShares_eq_ok.mp h
  rfl

theorem allotments_cancelShares {e e' : Episode} {price : Decimal}
    (h : e.cancelShares price = .ok e') : e'.allotments = e.allotments := by
  obtain ⟨lost, -, rfl⟩ := Episode.cancelShares_eq_ok.mp h
  rfl

/-- All accounts are on record once they are cancelled. -/
theorem keys_of_cancelShares {e e' : Episode} {price : Decimal}
    (h : e.cancelShares price = .ok e') :
    e'.cancelled.map CancelledAccount.holder
      = e.cancelled.map CancelledAccount.holder ++ e.shares.holders.keys := by
  obtain ⟨lost, hlost, rfl⟩ := Episode.cancelShares_eq_ok.mp h
  have hall := mapM_eq_ok.mp hlost
  show (e.cancelled ++ lost).map CancelledAccount.holder = _
  rw [List.map_append]
  congr 1
  unfold Table.keys
  generalize e.shares.holders.entries = es at hall
  clear h hlost
  induction hall with
  | nil => rfl
  | cons haccount _ ih =>
      simp only [cancelledAccount, bind_eq_ok, pure_eq_ok] at haccount
      obtain ⟨_, -, rfl⟩ := haccount
      rw [List.map_cons, List.map_cons, ih]

/-! ### Claims written down -/

/-- Whoever has a claim on file, in order. -/
def claimants (e : Episode) : List AgentId := e.claims.map Claim.creditor

theorem creditors_of_writeDownIn {creditor : AgentId} {amount : Decimal}
    {claims claims' : List Claim} (h : writeDownIn creditor amount claims = .ok claims') :
    claims'.map Claim.creditor = claims.map Claim.creditor := by
  induction claims generalizing claims' with
  | nil =>
      obtain rfl := Except.ok.inj h
      rfl
  | cons c rest ih =>
      unfold writeDownIn at h
      split_ifs at h
      · simp only [Claim.writeDown, bind_eq_ok, pure_eq_ok] at h
        obtain ⟨_, ⟨_, -, _, -, rfl⟩, rfl⟩ := h
        rfl
      · simp only [bind_eq_ok, pure_eq_ok] at h
        obtain ⟨rest', hrest, rfl⟩ := h
        rw [List.map_cons, ih hrest, List.map_cons]

/-- A claim is filed for each creditor. -/
theorem claimants_of_fileClaims {e e' : Episode} (h : e.fileClaims = .ok e') :
    e'.claimants = e.liabilities.byCreditor.keys := by
  obtain ⟨claims, hclaims, rfl⟩ := Episode.fileClaims_eq_ok.mp h
  have hfresh := freshClaims_of_claimsOf hclaims
  show claims.map Claim.creditor = e.liabilities.byCreditor.entries.map Prod.fst
  clear h hclaims
  unfold FreshClaims at hfresh
  generalize e.liabilities.byCreditor.entries = owed at hfresh
  induction hfresh with
  | nil => rfl
  | cons hc _ ih => rw [List.map_cons, List.map_cons, ih, hc.1]

/-! ### Paying creditors -/

/-- Debts and claims have changed, and payments are recorded; nothing else. -/
structure PaysOut (e e' : Episode) : Prop where
  same : e.SameShares e'
  assets : e'.assets = e.assets
  claimants : e'.claimants = e.claimants
  trace : e'.trace = e.trace

theorem PaysOut.refl (e : Episode) : PaysOut e e := ⟨.refl e, rfl, rfl, rfl⟩

theorem PaysOut.trans {e e' e'' : Episode} (h : PaysOut e e') (h' : PaysOut e' e'') :
    PaysOut e e'' where
  same := h.same.trans h'.same
  assets := h'.assets.trans h.assets
  claimants := h'.claimants.trans h.claimants
  trace := h'.trace.trans h.trace

theorem paysOut_writeDownClaim {e e' : Episode} {creditor : AgentId} {amount : Decimal}
    (h : e.writeDownClaim creditor amount = .ok e') : PaysOut e e' := by
  obtain ⟨claims, hclaims, rfl⟩ := writeDownClaim_eq_ok.mp h
  exact ⟨⟨rfl, rfl, rfl, rfl, rfl, rfl⟩, rfl, creditors_of_writeDownIn hclaims, rfl⟩

theorem institution_writeDownClaim {e e' : Episode} {creditor : AgentId} {amount : Decimal}
    (h : e.writeDownClaim creditor amount = .ok e') : e'.institution = e.institution := by
  obtain ⟨claims, -, rfl⟩ := writeDownClaim_eq_ok.mp h
  rfl

end Insolvency.Episode
