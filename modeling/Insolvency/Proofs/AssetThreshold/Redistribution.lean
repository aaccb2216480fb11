/-
Redistribution only moves shares.

Each outsider gives up a part of its shares, and every creditor that is still owed something gets
a part of that, both rounded.  What the creditors get from one holder may come to more than it
gives up, and even to more than it has; but each handover moves what is there at most.  So the
loops are runs of moves between accounts (`Handing`), and what holds of such runs whatever is
moved holds of them.  For that a holder that gives must be none that gets, which is where ids for
new intermediaries have to be new.

Then each debt is written off its claim.  The debt was rounded when it was worked out, so a claim
may have a little left, or be written down by a little more than it was.
-/
import Insolvency.Proofs.AssetThreshold.CashPayments
import Insolvency.Proofs.Episode.GivingShares
import Insolvency.Proofs.Shares.Moves
import Insolvency.Proofs.Shares.Spawned

namespace Insolvency

open Decimal

/-- Whoever has a share account and is owed nothing. -/
def BalanceSheet.Outsider (s : BalanceSheet) (a : AgentId) : Prop :=
  a ∈ s.shares.holders.keys ∧ a ∉ s.liabilities.byCreditor.keys

namespace AssetThreshold

variable {firm : Institution} {newId : Nat → IntermediaryId} {ctx : Context} {e e' : Episode}
  {debts : List (AgentId × Decimal)} {remainingDebt value price : Decimal}

/-! ### Moving shares -/

/-- Shares are being handed out by the firm's outsiders, to others. -/
structure Handing (firm : Institution) (newId : Nat → IntermediaryId) (e : Episode) : Prop where
  moved : Handover.Moved firm.sheet.Outsider firm.sheet.shares e.handovers e.shares
  nonneg : e.shares.holders.Nonneg
  spawned : ∀ m ∈ e.intermediaries, ∃ k, m.agentId = spawnedAs newId k

theorem handing_opening (hnonneg : firm.sheet.shares.holders.Nonneg) (shortfall : Decimal) :
    Handing firm newId (Episode.opening firm shortfall) where
  moved := .nil
  nonneg := hnonneg
  spawned := List.forall_mem_nil _

theorem Handing.of_sameShares (he : Handing firm newId e) (h : e.SameShares e') :
    Handing firm newId e' where
  moved := by
    rw [h.handovers, h.shares]
    exact he.moved
  nonneg := h.shares ▸ he.nonneg
  spawned := h.intermediaries ▸ he.spawned

theorem Handing.giveTo {source : AgentId} {give : Decimal} {debt : AgentId × Decimal}
    (he : Handing firm ctx.newId e) (hfresh : FreshIds ctx.newId firm.sheet)
    (hsource : firm.sheet.Outsider source) (hdebt : debt.1 ∈ firm.sheet.liabilities.byCreditor.keys)
    (h : giveTo source give remainingDebt price ctx e debt = .ok e') :
    Handing firm ctx.newId e' := by
  simp only [AssetThreshold.giveTo, bind_eq_ok] at h
  obtain ⟨_, -, quantity, -, h⟩ := h
  split_ifs at h
  · exact pure_eq_ok.mp h ▸ he
  · simp only [bind_eq_ok, pure_eq_ok] at h
    obtain ⟨⟨assigned, holder⟩, hassign, ⟨shares, moved⟩, hmove, value, -, _, -, rfl⟩ := h
    obtain ⟨hholder, hspawned⟩ :=
      (Episode.assigned_of_assignHolder hassign).eq_or_spawnedAs he.spawned
    rw [Episode.assignHolder_eq_ok hassign] at hmove ⊢
    have hinside : ¬ firm.sheet.Outsider holder := by
      rintro ⟨hmem, hout⟩
      rcases hholder with rfl | ⟨k, rfl⟩
      · exact hout hdebt
      · exact hfresh.ne_of_names (BalanceSheet.names_of_mem_holders hmem) k rfl
    exact {
      moved := he.moved.snoc (Handover.moves_of_transfer hmove hsource hinside)
      nonneg := Shares.nonneg_transfer hmove he.nonneg
      spawned := hspawned }

theorem Handing.handOutFrom {holding : AgentId × Decimal} (he : Handing firm ctx.newId e)
    (hfresh : FreshIds ctx.newId firm.sheet) (hsource : firm.sheet.Outsider holding.1)
    (hdebts : ∀ d ∈ debts, d.1 ∈ firm.sheet.liabilities.byCreditor.keys)
    (h : handOutFrom debts remainingDebt value price ctx e holding = .ok e') :
    Handing firm ctx.newId e' := by
  simp only [AssetThreshold.handOutFrom, bind_eq_ok] at h
  obtain ⟨give, -, h⟩ := h
  exact foldlM_induction (P := Handing firm ctx.newId) h he fun d hd _ _ hmid hstep =>
    hmid.giveTo hfresh hsource (hdebts d hd) hstep

theorem Handing.redistributes {holdings : List (AgentId × Decimal)} {handed : Episode}
    {claims : List Claim} (he : Handing firm ctx.newId e) (hfresh : FreshIds ctx.newId firm.sheet)
    (hsources : ∀ x ∈ holdings, firm.sheet.Outsider x.1)
    (hdebts : ∀ d ∈ debts, d.1 ∈ firm.sheet.liabilities.byCreditor.keys)
    (h : Redistributes e debts holdings remainingDebt value price ctx handed claims e') :
    Handing firm ctx.newId handed :=
  foldlM_induction (P := Handing firm ctx.newId) h.handing he fun x hx _ _ hmid hstep =>
    hmid.handOutFrom hfresh (hsources x hx) hdebts hstep

/-! ### Writing claims off -/

/-- A claim of which no more is left than rounding makes of it. -/
structure PaidOff (owed : AgentId × Owed) (c : Claim) : Prop where
  creditor : c.creditor = owed.1
  amount : owed.2.total = .ok c.amount
  left : ∃ r, c.remaining = .ok r ∧ r.toRat ≤ max 1 c.amount.toRat / 10 ^ 27

variable {owed : AgentId × Owed} {c c' : Claim}

theorem PartlyPaid.paidOff_of_nothing (hc : PartlyPaid owed c) {r : Decimal}
    (hr : c.remaining = .ok r) (hnothing : r.toRat ≤ 0) : PaidOff owed c where
  creditor := hc.creditor
  amount := hc.amount
  left := ⟨r, hr, hnothing.trans (by positivity)⟩

/-- Written down by what is left of it, a claim has only roundings left. -/
theorem PartlyPaid.paidOff_of_writeDown (hc : PartlyPaid owed c) {r : Decimal}
    (hr : c.remaining = .ok r) (hpos : 0 < r.toRat) (h : c.writeDown r = .ok c') :
    PaidOff owed c' := by
  have hcapped : min (max r 0) r = r := by
    refine toRat_injective ?_
    rw [toRat_min, toRat_max, toRat_zero, max_eq_left hpos.le, min_self]
  simp only [Claim.writeDown, hr, bind_eq_ok, pure_eq_ok] at h
  obtain ⟨_, hsame, down, hdown, rfl⟩ := h
  obtain rfl := Except.ok.inj hsame
  rw [hcapped] at hdown
  suffices hleft : ∃ r', c.amount.sub down = .ok r' ∧ r'.toRat ≤ max 1 c.amount.toRat / 10 ^ 27 from
    ⟨hc.creditor, hc.amount, hleft⟩
  have hamount : 0 ≤ c.amount.toRat := hc.nonneg.trans hc.le
  have hsize : c.amount.toRat ≤ max 1 c.amount.toRat := le_max_right _ _
  have hone : (1 : ℚ) ≤ max 1 c.amount.toRat := le_max_left _ _
  generalize max 1 c.amount.toRat = size at hsize hone ⊢
  have hgrain := hundred_grains_le (by linarith : 0 ≤ size)
  -- Three roundings: of what is left, of what is written down with it, and of what is left then.
  have hfirst := abs_le.mp ((rounds_sub hr).abs_sub_le hone
    (by rw [abs_of_nonneg (sub_nonneg.mpr hc.le)]; linarith [hc.nonneg]))
  have hdown0 := (rounds_add hdown).nonneg (add_nonneg hc.nonneg hpos.le)
  have hsecond := abs_le.mp ((rounds_add hdown).abs_sub_le (by linarith : 1 ≤ 2 * size)
    (by rw [abs_of_nonneg (add_nonneg hc.nonneg hpos.le)]; linarith))
  obtain ⟨r', hr'⟩ : ∃ r', c.amount.sub down = .ok r' :=
    exists_sub (abs_sub_le_of_nonneg_of_le hamount (abs_le.mp (abs_toRat_le_largest _)).2 hdown0
      (abs_le.mp (abs_toRat_le_largest _)).2)
  have hthird :=
    abs_le.mp ((rounds_sub hr').abs_sub_le hone (abs_le.mpr ⟨by linarith, by linarith⟩))
  refine ⟨r', hr', ?_⟩
  unfold grain maxPlaces at hfirst hsecond hthird
  linarith

/-- The claims in turn: of those that have had their turn only roundings are left. -/
theorem paidOff_of_writeDownIn {owed : List (AgentId × Owed)} {todo done claims : List Claim}
    {left : List (AgentId × Decimal)} (hpartly : List.Forall₂ PartlyPaid owed todo)
    (hleft : List.Forall₂ (fun (c : Claim) d => d.1 = c.creditor ∧ c.remaining = .ok d.2) todo left)
    (hnodup : (done.map Claim.creditor ++ owed.map Prod.fst).Nodup)
    (h : (left.filter fun d => decide (0 < d.2)).foldlM
      (fun claims d => Episode.writeDownIn d.1 d.2 claims) (done ++ todo) = .ok claims) :
    ∃ settled, List.Forall₂ PaidOff owed settled ∧ claims = done ++ settled := by
  induction hpartly generalizing done left with
  | nil =>
      cases hleft
      obtain rfl := pure_eq_ok.mp h
      exact ⟨[], .nil, rfl⟩
  | @cons x c owed todo hc _ ih =>
      obtain ⟨d, rest, ⟨hcreditor, hremaining⟩, hrest, rfl⟩ := List.forall₂_cons_left_iff.mp hleft
      have hnew : d.1 ∉ done.map Claim.creditor := fun hmem =>
        (List.disjoint_of_nodup_append hnodup) hmem
          (List.mem_cons.mpr (Or.inl (hcreditor.trans hc.creditor)))
      obtain ⟨c', hoff, h⟩ : ∃ c', PaidOff x c' ∧ (rest.filter fun d => decide (0 < d.2)).foldlM
          (fun claims d => Episode.writeDownIn d.1 d.2 claims) ((done ++ [c']) ++ todo)
            = .ok claims := by
        rw [List.filter_cons] at h
        split_ifs at h with hpos
        · rw [decide_eq_true_eq, zero_lt_iff] at hpos
          rw [List.foldlM_cons, bind_eq_ok] at h
          obtain ⟨mid, hmid, h⟩ := h
          obtain ⟨written, hwritten, rfl⟩ := Episode.writeDownIn_append hmid hnew
          rw [Episode.writeDownIn, if_pos hcreditor.symm] at hwritten
          simp only [bind_eq_ok, pure_eq_ok] at hwritten
          obtain ⟨c', hc', rfl⟩ := hwritten
          refine ⟨c', hc.paidOff_of_writeDown hremaining hpos hc', ?_⟩
          rwa [List.append_assoc]
        · rw [decide_eq_true_eq, zero_lt_iff, not_lt] at hpos
          refine ⟨c, hc.paidOff_of_nothing hremaining hpos, ?_⟩
          rwa [List.append_assoc]
      have hnodup' : ((done ++ [c']).map Claim.creditor ++ owed.map Prod.fst).Nodup := by
        rwa [List.map_append, List.append_assoc, List.map_singleton, hoff.creditor]
      obtain ⟨settled, hsettled, rfl⟩ := ih hrest hnodup' h
      exact ⟨c' :: settled, .cons hoff hsettled, List.append_assoc ..⟩

/-- What is left of each claim is written off it, and what is still owed is what is left of it. -/
theorem paidOff_of_debtsOf {l : Liabilities} {claims written : List Claim}
    (hpartly : List.Forall₂ PartlyPaid l.byCreditor.entries claims)
    (hdebts : debtsOf claims = .ok debts)
    (h : debts.foldlM (fun claims d => Episode.writeDownIn d.1 d.2 claims) claims = .ok written) :
    List.Forall₂ PaidOff l.byCreditor.entries written := by
  simp only [debtsOf, bind_eq_ok, pure_eq_ok] at hdebts
  obtain ⟨left, hleft, rfl⟩ := hdebts
  have hremaining : List.Forall₂ (fun (c : Claim) (d : AgentId × Decimal) =>
      d.1 = c.creditor ∧ c.remaining = .ok d.2) claims left := by
    refine (mapM_eq_ok.mp hleft).imp fun c d hd => ?_
    simp only [bind_eq_ok, pure_eq_ok] at hd
    obtain ⟨r, hr, rfl⟩ := hd
    exact ⟨rfl, hr⟩
  have hnodup : (([] : List Claim).map Claim.creditor ++ l.byCreditor.keys).Nodup :=
    Table.nodup_keys l.byCreditor
  obtain ⟨settled, hsettled, rfl⟩ := paidOff_of_writeDownIn hpartly hremaining hnodup h
  exact hsettled

/-! ### The whole of it -/

/-- A redistribution has ended: shares have changed hands, claims are off the books, and that is
all. -/
structure OnlyMoves (s : BalanceSheet) (e : Episode) : Prop where
  allotments : e.allotments = []
  issued : e.totals.sharesIssued = 0
  cancelled : e.cancelled = []
  price : e.totals.newSharePrice = none
  /-- The number of shares is kept, but for the roundings. -/
  total : |e.shares.holders.exactTotal - s.shares.holders.exactTotal|
    ≤ (e.handovers.length + 1) * max 1 s.shares.holders.exactTotal / 10 ^ 27
  /-- Nobody without a claim has won any, and nobody with one has lost any. -/
  outsiders : ∀ a ∈ s.shares.holders.keys, a ∉ e.claimants →
    0 ≤ e.shares.held a ∧ e.shares.held a ≤ s.shares.held a
  claimants : ∀ a ∈ e.claimants, s.shares.held a ≤ e.shares.held a
  sources : ∀ h ∈ e.handovers, h.source ∈ s.shares.holders.keys ∧ h.source ∉ e.claimants
  /-- An account has given no more than it held, but for the roundings. -/
  taken : ∀ a, exactSum (Handover.quantities Handover.source a e.handovers)
    ≤ (s.shares.held a).toRat
      + (e.handovers.length + 1) * max 1 s.shares.holders.exactTotal / 10 ^ 27
  claims : List.Forall₂ PaidOff s.liabilities.byCreditor.entries e.claims

/-- What runs of handovers are off by is within a grain of the size for each. -/
theorem roundings_le (n : Nat) (size : ℚ) :
    n * (10 * (grain * max 1 size)) ≤ (n + 1) * max 1 size / 10 ^ 27 := by
  have hgrain := grain_mul_nonneg (zero_le_one.trans (le_max_left 1 size))
  unfold grain maxPlaces at hgrain ⊢
  linarith

theorem Handing.onlyMoves (he : Handing firm newId e) (hnonneg : firm.sheet.shares.holders.Nonneg)
    (hclaims : List.Forall₂ PaidOff firm.sheet.liabilities.byCreditor.entries e.claims)
    (hallotments : e.allotments = []) (hissued : e.totals.sharesIssued = 0)
    (hcancelled : e.cancelled = []) (hprice : e.totals.newSharePrice = none) :
    OnlyMoves firm.sheet e := by
  have hclaimants : e.claimants = firm.sheet.liabilities.byCreditor.keys :=
    map_eq_map_of_forall₂ (hclaims.imp fun _ _ hc => hc.creditor)
  refine ⟨hallotments, hissued, hcancelled, hprice, ?_, fun a ha hout => ?_, fun a ha => ?_, ?_,
    fun a => ?_, hclaims⟩
  · exact (he.moved.abs_total_sub_le hnonneg he.nonneg).trans (roundings_le _ _)
  · rw [hclaimants] at hout
    rw [le_iff_toRat, le_iff_toRat, toRat_zero]
    exact ⟨Accounts.amount_nonneg he.nonneg a, he.moved.held_le he.nonneg ⟨ha, hout⟩⟩
  · rw [hclaimants] at ha
    exact le_iff_toRat.mpr (he.moved.le_held fun hout => hout.2 ha)
  · rw [hclaimants]
    exact he.moved.sources
  · linarith [he.moved.taken_le hnonneg he.nonneg a,
      roundings_le e.handovers.length firm.sheet.shares.holders.exactTotal]

namespace Course.Of

variable {cash : CashRule} {shortfall : Decimal} {c : Course} {r : Episode × Context}

/-- An episode that has come to that stage has handed out shares. -/
theorem exists_handOutShares (hc : c.Of cash firm shortfall)
    (h : (c.remainingDebt ≤ .epsilon ∧ r = (withoutDebts c.paid).conclude .resolved ctx) ∨
      (.epsilon < c.remainingDebt ∧ settleRest c.paid c.debts c.remainingDebt ctx = .ok r))
    (hstage : .stockRedistributed ∈ r.1.trace) :
    ∃ value price e',
      handOutShares c.paid c.debts (outsiders c.paid) c.remainingDebt value price ctx
        = .ok e' ∧ r = e'.conclude .resolved ctx := by
  rcases h with ⟨-, rfl⟩ | ⟨-, hrest⟩
  · change .stockRedistributed ∈ c.paid.trace ++ [.resolved] at hstage
    rw [hc.trace] at hstage
    exact absurd hstage (by decide)
  rcases settleRest_cases hrest with ⟨value, e', -, hhand, rfl⟩ | ⟨e', ctx', hhand, rfl⟩
  · exact ⟨value, _, e', hhand, rfl⟩
  · obtain ⟨count, cancelled, equity, price, hands⟩ := handsOver_of_handOverFirm hhand
    obtain ⟨lost, -, rfl⟩ := Episode.cancelShares_eq_ok.mp hands.cancelling
    have htrace : e'.trace = c.paid.trace := hands.gives.trace
    change .stockRedistributed ∈ e'.trace ++ [.liquidated] at hstage
    rw [htrace, hc.trace] at hstage
    exact absurd hstage (by decide)

/-- What is handed out goes from the firm's outsiders to its creditors. -/
theorem handing (hc : c.Of cash firm shortfall) (hfresh : FreshIds ctx.newId firm.sheet)
    (hnonneg : firm.sheet.shares.holders.Nonneg) {handed : Episode} {claims : List Claim}
    (h : Redistributes c.paid c.debts (outsiders c.paid) c.remainingDebt value price ctx
      handed claims e') : Handing firm ctx.newId handed := by
  have hopened := hc.sameShares
  refine ((handing_opening hnonneg shortfall).of_sameShares hopened).redistributes hfresh
    (fun x hx => ?_) (fun d hd => ?_) h
  · obtain ⟨hmem, hout⟩ := mem_outsiders hx
    have hshares : c.paid.shares = firm.sheet.shares := hopened.shares
    rw [hshares] at hmem
    rw [hc.claimants] at hout
    exact ⟨List.mem_map_of_mem hmem, hout⟩
  · exact hc.claimants ▸ hc.debtsLeft.claimant d hd

end Course.Of

end AssetThreshold

namespace Policy

variable {cash : CashRule} {firm : Institution} {shortfall : Decimal} {ctx ctx' : Context}
  {e : Episode}

/-- **Redistribution only moves shares.**  In every episode that comes to that stage whoever has no
claim only gives, whoever has one only gets, the number of shares is kept and the claims are
written off; and no price is published, nor anything else changed around the firm. -/
theorem onlyMoves_of_resolve (h : (assetThreshold cash).resolve firm shortfall ctx = .ok (e, ctx'))
    (hstage : .stockRedistributed ∈ e.trace) (hfresh : FreshIds ctx.newId firm.sheet) :
    AssetThreshold.OnlyMoves firm.sheet e ∧ ctx' = ctx := by
  obtain ⟨hnone, hrun⟩ := resolve_eq_ok.mp h
  obtain ⟨hsheet, -⟩ := inOrder_of_objection? hnone
  rcases AssetThreshold.run_cases hrun with heq | ⟨c, hc, hend⟩
  · obtain ⟨rfl, rfl⟩ := Prod.mk.inj heq
    cases hstage
  obtain ⟨value, price, e', hhand, heq⟩ := hc.exists_handOutShares hend hstage
  obtain ⟨rfl, rfl⟩ := Prod.mk.inj heq
  obtain ⟨handed, claims, hgives⟩ := AssetThreshold.redistributes_of_handOutShares hhand
  obtain ⟨spent, hshared⟩ := hc.cashShared hsheet
  have hhanded := hc.handing hfresh hsheet.shares hgives
  have hopened := hc.sameShares
  have hclaims := AssetThreshold.paidOff_of_debtsOf hshared.claims hc.debts hgives.writing
  obtain ⟨settled, rfl⟩ := hgives.result
  refine ⟨AssetThreshold.Handing.onlyMoves (hhanded.of_sameShares ⟨rfl, rfl, rfl, rfl, rfl, rfl⟩)
    hsheet.shares hclaims ?_ ?_ ?_ ?_, rfl⟩
  · exact hgives.frame.allotments.trans hopened.allotments
  · exact hgives.frame.issued.trans (congrArg Totals.sharesIssued hshared.totals)
  · exact hgives.frame.cancelled.trans hopened.cancelled
  · show handed.totals.newSharePrice = none
    rw [hgives.frame.totals]
    exact congrArg Totals.newSharePrice hshared.totals

/-- Three creditors get a third of the only holder's shares each, rounded up; one of them gets what
is left, through an intermediary. -/
theorem onlyMoves_of_resolve_sharedFirm : FreshIds sampleContext.newId sharedFirm.sheet ∧
    ∃ e ctx', (assetThreshold .allCash).resolve sharedFirm 1
        { sampleContext with book := ⟨Table.ofList [("north", 0.3)]⟩ } = .ok (e, ctx') ∧
      .stockRedistributed ∈ e.trace ∧
      e.handovers.map (fun h => (h.holder, e.shares.held h.holder))
        = [(⟨.institution, "a"⟩, 6.6666666666666666666666666667),
          (⟨.institution, "b"⟩, 6.6666666666666666666666666667),
          (⟨.intermediary, "holder-0"⟩, 6.6666666666666666666666666663)] ∧
      AssetThreshold.OnlyMoves sharedFirm.sheet e := by
  have hfresh := freshIds_sampleContext (s := sharedFirm.sheet) fun _ => rfl
  obtain ⟨e, ctx', h, hstage, hheld⟩ : ∃ e ctx', (assetThreshold .allCash).resolve sharedFirm 1
      { sampleContext with book := ⟨Table.ofList [("north", 0.3)]⟩ } = .ok (e, ctx') ∧
        .stockRedistributed ∈ e.trace ∧
        e.handovers.map (fun h => (h.holder, e.shares.held h.holder))
          = [(⟨.institution, "a"⟩, 6.6666666666666666666666666667),
            (⟨.institution, "b"⟩, 6.6666666666666666666666666667),
            (⟨.intermediary, "holder-0"⟩, 6.6666666666666666666666666663)] :=
    ⟨_, _, rfl, by decide, by decide⟩
  exact ⟨hfresh, e, ctx', h, hstage, hheld, (onlyMoves_of_resolve h hstage hfresh).1⟩

end Policy

end Insolvency
