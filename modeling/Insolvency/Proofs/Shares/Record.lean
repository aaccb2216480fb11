/-
What an episode means for intermediaries of before.

An episode knows the intermediaries that it spawns and no others.  Shares held by one of
an earlier episode are cancelled, handed over and added to like anybody else's, and the
intermediary's own count is not brought up to date: the changes to store are the
institution and the new intermediaries.

So count and account part ways only where the record names the account, and what the
account then holds is what `replay` makes of the record.  Later selling goes by the count all
the same, and can be of shares that the episode has cancelled.
-/
import Insolvency.Proofs.SellOff.ByCount
import Insolvency.Proofs.Shares.Spawned

namespace Insolvency

namespace Episode

variable {i : Institution} {newId : Nat → IntermediaryId} {e e' : Episode} {a : AgentId}

/-! ### Accounts that are not on record -/

/-- The record of an episode names a share account: as cancelled, as allotted to, or at one end
of a handover. -/
def touches (e : Episode) (a : AgentId) : Bool :=
  e.cancelled.any (·.holder == a) || e.allotments.any (·.holder == a)
    || e.handovers.any fun h => h.source == a || h.holder == a

theorem touches_eq_false : e.touches a = false ↔ (∀ x ∈ e.cancelled, x.holder ≠ a) ∧
    (∀ x ∈ e.allotments, x.holder ≠ a) ∧ ∀ h ∈ e.handovers, h.source ≠ a ∧ h.holder ≠ a := by
  simp [touches, and_assoc]

theorem touches_of_sameShares (h : e.SameShares e') (a : AgentId) : e'.touches a = e.touches a := by
  rw [touches, touches, h.cancelled, h.allotments, h.handovers]

/-- Cancelling names all accounts. -/
theorem held_of_cancelShares {price : Decimal} (h : e.cancelShares price = .ok e')
    (ha : e'.touches a = false) : e'.shares.held a = e.shares.held a := by
  have hkeys := keys_of_cancelShares h
  obtain ⟨lost, -, rfl⟩ := cancelShares_eq_ok.mp h
  have hnone : a ∉ e.shares.holders.keys := by
    intro hmem
    have hlost : a ∈ (e.cancelled ++ lost).map CancelledAccount.holder :=
      hkeys ▸ List.mem_append_right _ hmem
    obtain ⟨x, hx, hholder⟩ := List.mem_map.mp hlost
    exact (touches_eq_false.mp ha).1 x hx hholder
  have hheld : e.shares.held a = 0 := by
    unfold Shares.held Accounts.amount Table.get?
    rw [Table.lookup_eq_none hnone]
    rfl
  exact hheld.symm

theorem held_of_allot {creditor : AgentId} {quantity value : Decimal} {basis : Entitlement}
    {ctx : Context} (h : e.allot creditor quantity value basis ctx = .ok e')
    (ha : e'.touches a = false) : e.touches a = false ∧ e'.shares.held a = e.shares.held a := by
  simp only [allot, bind_eq_ok, pure_eq_ok] at h
  obtain ⟨⟨assigned, holder⟩, hassign, shares, hissue, issued, -, rfl⟩ := h
  rw [assignHolder_eq_ok hassign] at ha hissue
  obtain ⟨hcancelled, hallotments, hhandovers⟩ := touches_eq_false.mp ha
  obtain ⟨hbefore, hlast⟩ := List.forall_mem_append.mp hallotments
  refine ⟨touches_eq_false.mpr ⟨hcancelled, hbefore, hhandovers⟩, ?_⟩
  exact Shares.held_issue_of_ne hissue (hlast _ (List.mem_singleton_self _)).symm

theorem held_of_handOver {assigned : Episode} {source creditor holder : AgentId}
    {quantity moved value : Decimal} {shares : Shares} {ctx : Context}
    (hassign : e.assignHolder creditor quantity ctx = .ok (assigned, holder))
    (hmove : assigned.shares.transfer source holder quantity = .ok (shares, moved))
    (hrecord : SameShares { assigned.withShares shares with
      handovers := assigned.handovers ++ [⟨source, creditor, holder, moved, value⟩] } e')
    (ha : e'.touches a = false) : e.touches a = false ∧ e'.shares.held a = e.shares.held a := by
  rw [touches_of_sameShares hrecord] at ha
  rw [hrecord.shares]
  rw [assignHolder_eq_ok hassign] at ha hmove
  obtain ⟨hcancelled, hallotments, hhandovers⟩ := touches_eq_false.mp ha
  obtain ⟨hbefore, hlast⟩ := List.forall_mem_append.mp hhandovers
  obtain ⟨hsource, hholder⟩ := hlast _ (List.mem_singleton_self _)
  refine ⟨touches_eq_false.mpr ⟨hcancelled, hallotments, hbefore⟩, ?_⟩
  exact Shares.held_transfer_of_ne hmove hsource.symm hholder.symm

/-- An account that the record does not name holds what it held before. -/
theorem ShareSteps.held_eq {shortfall : Decimal} (h : ShareSteps i newId (opening i shortfall) e)
    (ha : e.touches a = false) : e.shares.held a = i.sheet.shares.held a := by
  refine h.preserves (P := fun e : Episode => e.touches a = false →
    e.shares.held a = i.sheet.shares.held a) (fun _ => rfl) (fun e e' hstep he ha => ?_) ha
  cases hstep with
  | aside h =>
      rw [touches_of_sameShares h] at ha
      rw [h.shares]
      exact he ha
  | cancel h huntouched =>
      rw [held_of_cancelShares h ha, huntouched.shares]
      rfl
  | allot h =>
      obtain ⟨ha, hheld⟩ := held_of_allot h ha
      exact hheld.trans (he ha)
  | handOver hassign hmove hrecord =>
      obtain ⟨ha, hheld⟩ := held_of_handOver hassign hmove hrecord ha
      exact hheld.trans (he ha)

/-! ### The intermediaries it spawns -/

theorem ids_of_assignHolder {creditor holder : AgentId} {quantity : Decimal} {ctx : Context}
    (h : e.assignHolder creditor quantity ctx = .ok (e', holder))
    (he : ∀ m ∈ e.intermediaries, ∃ k, m.id = ctx.newId k) :
    ∀ m ∈ e'.intermediaries, ∃ k, m.id = ctx.newId k := by
  have hassigned := assigned_of_assignHolder h
  generalize e'.intermediaries = ms at hassigned
  cases hassigned with
  | itself => exact he
  | @again before after m shares hsplit hadd =>
      rw [hsplit, List.forall_mem_append, List.forall_mem_cons] at he
      obtain ⟨hbefore, hm, hafter⟩ := he
      exact List.forall_mem_append.mpr ⟨hbefore, List.forall_mem_cons.mpr ⟨hm, hafter⟩⟩
  | spawned hagent =>
      refine List.forall_mem_append.mpr ⟨he, fun m hm => ?_⟩
      obtain rfl := List.mem_singleton.mp hm
      exact ⟨_, congrArg AgentId.id hagent⟩

/-- All intermediaries of an episode have new ids. -/
theorem ShareSteps.exists_newId {shortfall : Decimal}
    (hsteps : ShareSteps i newId (opening i shortfall) e) :
    ∀ m ∈ e.intermediaries, ∃ k, m.id = newId k := by
  refine hsteps.preserves (P := fun e : Episode => ∀ m ∈ e.intermediaries, ∃ k, m.id = newId k)
    (fun m hm => by cases hm) fun e e' hstep he => ?_
  cases hstep with
  | aside h => exact h.intermediaries ▸ he
  | cancel h =>
      obtain ⟨lost, -, rfl⟩ := cancelShares_eq_ok.mp h
      exact he
  | allot h hnew =>
      subst hnew
      simp only [allot, bind_eq_ok, pure_eq_ok] at h
      obtain ⟨⟨assigned, holder⟩, hassign, shares, -, issued, -, rfl⟩ := h
      have hids := ids_of_assignHolder hassign he
      exact hids
  | handOver hassign _ hrecord hnew =>
      subst hnew
      rw [hrecord.intermediaries]
      have hids := ids_of_assignHolder hassign he
      exact hids

end Episode

/-! ### An institution that needs nothing -/

/-- Only where an institution needs nothing is an episode compliant, and it is the empty one. -/
theorem Policy.eq_compliant_of_resolve {p : Policy} {i : Institution} {shortfall : Decimal}
    {ctx ctx' : Context} {e : Episode} (h : p.resolve i shortfall ctx = .ok (e, ctx'))
    (hout : e.outcome = .compliant) : e = .compliant i := by
  obtain ⟨-, hrun⟩ := resolve_eq_ok.mp h
  cases p with
  | bailin =>
      rcases Bailin.run_cases hrun with ⟨-, hr⟩ | ⟨c, -, ⟨-, hr⟩ | ⟨-, hr⟩⟩
      · exact (Prod.mk.inj hr).1
      · cases hout.symm.trans (Episode.outcome_of_giveUp hr)
      · cases hout.symm.trans (Bailin.compensateAll_outcome hr)
  | assetThreshold cash =>
      rcases AssetThreshold.run_cases hrun with hr | ⟨c, -, ⟨-, hr⟩ | ⟨-, hr⟩⟩
      · exact (Prod.mk.inj hr).1
      · cases hout.symm.trans (Episode.outcome_of_conclude hr.symm)
      · rcases AssetThreshold.settleRest_outcome hr with hother | hother
        · cases hout.symm.trans hother
        · cases hout.symm.trans hother
  | bailout =>
      rcases Bailout.run_cases hrun with ⟨-, hr⟩ | ⟨cancelled, hr⟩ | hfunded
      · exact (Prod.mk.inj hr).1
      · cases hout.symm.trans (Episode.outcome_of_giveUp hr)
      · cases hout.symm.trans hfunded.outcome
  | debtEquitySwap =>
      rcases DebtEquitySwap.run_cases hrun with hr | ⟨opened, hr⟩ | hsettled
      · exact (Prod.mk.inj hr).1
      · cases hout.symm.trans (Episode.outcome_of_giveUp hr)
      · generalize hr : (e, ctx') = r at hsettled
        cases hsettled with
        | paid => cases hout.symm.trans (Episode.outcome_of_conclude hr.symm)
        | swapped => cases hout.symm.trans (Episode.outcome_of_conclude hr.symm)
  | liquidate =>
      rcases flag_cases hrun with ⟨-, hr⟩ | ⟨-, filed, -, hr⟩
      · exact (Prod.mk.inj hr).1
      · cases hout.symm.trans (Episode.outcome_of_conclude hr.symm)

/-! ### What is stored -/

namespace World

variable {w : World} {p : Policy} {i : Institution} {shortfall : Decimal} {ctx ctx' : Context}
  {e : Episode} {m : Intermediary}

theorem storeAll_create (w : World) {spawned : List Intermediary} {id : IntermediaryId}
    (h : ∀ m ∈ spawned, m.id ≠ id) :
    (w.storeAll (spawned.map fun m => ⟨.create, .intermediary m⟩)).institutions = w.institutions ∧
    (w.storeAll (spawned.map fun m => ⟨.create, .intermediary m⟩)).intermediaries.get? id
      = w.intermediaries.get? id := by
  induction spawned generalizing w with
  | nil => exact ⟨rfl, rfl⟩
  | cons m rest ih =>
      obtain ⟨hm, hrest⟩ := List.forall_mem_cons.mp h
      obtain ⟨hinstitutions, hget⟩ := ih (w.store (.intermediary m)) hrest
      refine ⟨hinstitutions, hget.trans ?_⟩
      show (w.intermediaries.insert m.id m).get? id = _
      rw [Table.get?_insert, if_neg hm.symm]

/-- An intermediary that is not one of the episode's own is stored as it was, and the institution
is stored as the episode leaves it. -/
theorem get?_storeAll_changes (h : p.resolve i shortfall ctx = .ok (e, ctx'))
    (hi : w.institutions.get? i.id = some i) (hnew : ∀ k, ctx.newId k ≠ m.id) :
    (w.storeAll e.changes).institutions.get? i.id = some e.institution ∧
    (w.storeAll e.changes).intermediaries.get? m.id = w.intermediaries.get? m.id := by
  unfold Episode.changes
  by_cases hout : e.outcome = .compliant
  · rw [if_pos hout, Policy.eq_compliant_of_resolve h hout]
    exact ⟨hi, rfl⟩
  · rw [if_neg hout]
    obtain ⟨s, hsteps⟩ := Policy.shareSteps_of_resolve h
    have hothers : ∀ x ∈ e.intermediaries, x.id ≠ m.id := by
      intro x hx
      obtain ⟨k, hk⟩ := hsteps.exists_newId x hx
      exact hk ▸ hnew k
    obtain ⟨hinstitutions, hget⟩ := storeAll_create (w.store (.institution e.institution)) hothers
    refine ⟨?_, hget⟩
    show (storeAll _ (e.intermediaries.map _)).institutions.get? i.id = _
    rw [hinstitutions]
    show (w.institutions.insert e.institution.id e.institution).get? i.id = _
    rw [Table.get?_insert, hsteps.institution_id, if_pos rfl]

/-- **An intermediary of before after an episode of its issuer.**  It is stored unchanged, and
the accounts that are stored are those that the record of the episode makes of the old ones.
So its count still agrees with its account unless the record names that account, and always
does after an episode that has done nothing or has only flagged the institution.

A later period of its selling makes the sale that it would have made on the accounts of
before, by the count.  What it sells is on the account unless the record of the episode names
the account; and no more comes off the account than is on it, so where the episode has
emptied it, the proceeds are forwarded of shares that nobody gives up. -/
theorem intermediary_storeAll_of_resolve (h : p.resolve i shortfall ctx = .ok (e, ctx'))
    (hi : w.institutions.get? i.id = some i) (hm : w.intermediaries.get? m.id = some m)
    (hnew : ∀ k, ctx.newId k ≠ m.id) (hagree : i.sheet.shares.held m.agentId = m.shares) :
    (w.storeAll e.changes).intermediaries.get? m.id = some m ∧
    ∃ j, (w.storeAll e.changes).institutions.get? i.id = some j ∧
      e.replay i.sheet.shares = .ok j.sheet.shares ∧
      (j.sheet.shares.held m.agentId = m.shares ∨ e.touches m.agentId = true) ∧
      (e.outcome = .compliant ∨ e.outcome = .flaggedForLiquidation →
        j.sheet.shares.held m.agentId = m.shares) ∧
      ∀ market now,
        (∀ s₀ s, SellOff.review m i market now = .ok s₀ → SellOff.review m j market now = .ok s →
          SellOff.SameSale s₀ s) ∧
        (∀ s₀ s, SellOff.disband m i market now = .ok s₀ → SellOff.disband m j market now = .ok s →
          SellOff.SameSale s₀ s) ∧
        (m.Sound → ∀ s, SellOff.Calls m j market now s →
          (market.Sound →
            (∃ fills, SellOff.Sells m market fills s) ∧
            (SellOff.OnAccount m j market s ∨ e.touches m.agentId = true) ∧
            (e.outcome = .compliant ∨ e.outcome = .flaggedForLiquidation →
              SellOff.OnAccount m j market s)) ∧
          (market.buyer ≠ some m.agentId → 0 ≤ j.sheet.shares.held m.agentId →
            SellOff.OffAccount m.agentId j.sheet.shares s.issuer.sheet.shares)) := by
  obtain ⟨hinstitution, hintermediary⟩ := get?_storeAll_changes h hi hnew
  obtain ⟨s, hsteps⟩ := Policy.shareSteps_of_resolve h
  have hkept : e.institution.sheet.shares.held m.agentId = m.shares ∨
      e.touches m.agentId = true := by
    cases ha : e.touches m.agentId with
    | true => exact Or.inr rfl
    | false => exact Or.inl ((hsteps.held_eq ha).trans hagree)
  have hspared : e.outcome = .compliant ∨ e.outcome = .flaggedForLiquidation →
      e.institution.sheet.shares.held m.agentId = m.shares := by
    rintro (hout | hout)
    · rw [Policy.eq_compliant_of_resolve h hout]
      exact hagree
    · obtain ⟨-, hrun⟩ := Policy.resolve_eq_ok.mp h
      rw [(Policy.flagged_of_run hrun hout).institution]
      exact hagree
  refine ⟨hintermediary.trans hm, e.institution, hinstitution, hsteps.replay_eq_ok, hkept, hspared,
    fun market now => ⟨fun _ _ => SellOff.sameSale_of_review,
      fun _ _ => SellOff.sameSale_of_disband, fun hsound s hcall => ⟨fun hmarket => ?_,
        fun hbuyer hheld => hcall.offAccount hsound hbuyer (Decimal.zero_le_iff.mp hheld)⟩⟩⟩
  obtain ⟨fills, hsells⟩ := hcall.exists_sells hmarket hsound
  exact ⟨⟨fills, hsells⟩, hkept.imp_left hsells.onAccount,
    fun hout => hsells.onAccount (hspared hout)⟩

end World

/-! ### A bank with an intermediary among its shareholders -/

/-- An intermediary of an earlier episode. -/
def steward : Intermediary :=
  .spawn "steward" ⟨.household, "smith"⟩ "north" 40.0 .standard ⟨2024, 1, 1, 0, 0, 0⟩

/-- A bank that owes a fund, and two fifths of which the intermediary holds. -/
def stewardedBank : Institution where
  id := "north"
  name := "North"
  kind := .bank
  sheet := {
    assets := ⟨Table.ofList [(.cash, 100.0)]⟩
    liabilities := ⟨Table.ofList [(⟨.fund, "alpha"⟩, 100.0)], ∅⟩
    shares := ⟨Table.ofList [(⟨.intermediary, "steward"⟩, 40.0), (⟨.fund, "owner"⟩, 60.0)]⟩ }
  status := .operating
  active := true
  created := ⟨2024, 1, 1, 0, 0, 0⟩
  updated := ⟨2024, 1, 1, 0, 0, 0⟩
  deleted := none

/-- Both are stored, at a market that lists the bank or does not. -/
def stewardedWorld (price : Option Decimal) : World :=
  { sampleWorld with
    institutions := Table.ofList [("north", stewardedBank)]
    intermediaries := Table.ofList [("steward", steward)]
    market := ⟨⟨Table.ofList (price.toList.map fun p => ("north", p))⟩, none, none, []⟩ }

theorem newId_stewardedWorld (price : Option Decimal) (k : Nat) :
    ((stewardedWorld price).context .standard).newId k ≠ steward.id := by
  intro h
  have hchars := congrArg String.toList h
  simp [stewardedWorld, sampleWorld, World.context, World.countedId, steward, Intermediary.spawn,
    String.toList_append] at hchars

theorem steward_sound : steward.Sound where
  shares := Decimal.zero_le_iff.mp (by decide)
  ratePos := Decimal.zero_lt_iff.mp (by decide)
  rateLe := Decimal.le_one_iff.mp (by decide)

/-- A bail-in cancels all shares and gives the intermediary some of them back, and the end of its
selling is the sale of forty all the same; one that cannot succeed leaves it its shares. -/
theorem World.intermediary_storeAll_of_resolve_stewardedBank :
    (∃ e ctx' j s, Policy.bailin.resolve stewardedBank 10.0
        ((stewardedWorld (some 2.0)).context .standard) = .ok (e, ctx') ∧
      e.outcome = .resolved ∧ e.touches steward.agentId = true ∧
      ((stewardedWorld (some 2.0)).storeAll e.changes).intermediaries.get? "steward"
        = some steward ∧
      ((stewardedWorld (some 2.0)).storeAll e.changes).institutions.get? "north" = some j ∧
      j.sheet.shares.held steward.agentId = 38.0952380952380952380952381 ∧
      SellOff.disband steward j (stewardedWorld (some 2.0)).market sampleContext.now = .ok s ∧
      s.period.sold = 40.0 ∧
      (∃ fills, SellOff.Sells steward (stewardedWorld (some 2.0)).market fills s) ∧
      SellOff.OffAccount steward.agentId j.sheet.shares s.issuer.sheet.shares) ∧
    (∃ e ctx' j, Policy.bailin.resolve stewardedBank 2000.0
        ((stewardedWorld (some 2.0)).context .standard) = .ok (e, ctx') ∧
      e.outcome = .flaggedForLiquidation ∧
      ((stewardedWorld (some 2.0)).storeAll e.changes).institutions.get? "north" = some j ∧
      j.sheet.shares.held steward.agentId = 40.0) ∧
    (stewardedWorld (some 2.0)).institutions.get? stewardedBank.id = some stewardedBank ∧
    (stewardedWorld (some 2.0)).intermediaries.get? steward.id = some steward ∧
    (∀ k, ((stewardedWorld (some 2.0)).context .standard).newId k ≠ steward.id) ∧
    stewardedBank.sheet.shares.held steward.agentId = steward.shares := by
  have hnew := newId_stewardedWorld (some 2.0)
  have hmarket : (stewardedWorld (some 2.0)).market.Sound := Market.sound_of_found
    (show Market.found _ none none = .ok (stewardedWorld (some 2.0)).market from rfl)
  refine ⟨?cancelled, ?flagged, rfl, rfl, hnew, rfl⟩
  case cancelled =>
    obtain ⟨e, ctx', h, hout, htouches, j, hj, hheld, s, hs, hsold⟩ : ∃ e ctx',
        Policy.bailin.resolve stewardedBank 10.0 ((stewardedWorld (some 2.0)).context .standard)
          = .ok (e, ctx') ∧ e.outcome = .resolved ∧ e.touches steward.agentId = true ∧
        ∃ j, ((stewardedWorld (some 2.0)).storeAll e.changes).institutions.get? "north" = some j ∧
          j.sheet.shares.held steward.agentId = 38.0952380952380952380952381 ∧
          ∃ s, SellOff.disband steward j (stewardedWorld (some 2.0)).market sampleContext.now
              = .ok s ∧ s.period.sold = 40.0 :=
      ⟨_, _, rfl, rfl, by decide, _, rfl, by decide, _, rfl, by decide⟩
    obtain ⟨hm, j', hj', -, -, -, hselling⟩ := World.intermediary_storeAll_of_resolve
      (w := stewardedWorld (some 2.0)) h rfl rfl hnew rfl
    obtain rfl := Option.some.inj (hj.symm.trans hj')
    obtain ⟨hsale, haccount⟩ := (hselling (stewardedWorld (some 2.0)).market
      sampleContext.now).2.2 steward_sound s (Or.inr hs)
    exact ⟨e, ctx', j, s, h, hout, htouches, hm, hj, hheld, hs, hsold, (hsale hmarket).1,
      haccount (by decide) (hheld ▸ by decide)⟩
  case flagged =>
    obtain ⟨e, ctx', h, hout⟩ : ∃ e ctx', Policy.bailin.resolve stewardedBank 2000.0
        ((stewardedWorld (some 2.0)).context .standard) = .ok (e, ctx') ∧
          e.outcome = .flaggedForLiquidation := ⟨_, _, rfl, rfl⟩
    obtain ⟨-, j, hj, -, -, hflagged, -⟩ := World.intermediary_storeAll_of_resolve
      (w := stewardedWorld (some 2.0)) h rfl rfl hnew rfl
    exact ⟨e, ctx', j, h, hout, hj, hflagged (Or.inr hout)⟩

/-- A bail-in of the bank that is not listed cancels the intermediary's shares for nothing, and it
still counts forty.  At the price that the episode publishes, the next period forwards eight
tenths for eight of them, and nobody's account changes. -/
theorem World.intermediary_strands_stewardedBank :
    stewardedBank.sheet.shares.held steward.agentId = steward.shares ∧ steward.isActive = true ∧
    steward.stock = stewardedBank.id ∧
    ∃ e ctx', Policy.bailin.resolve stewardedBank 10.0 ((stewardedWorld none).context .standard)
        = .ok (e, ctx') ∧
      ∃ j m, ((stewardedWorld none).storeAll e.changes).institutions.get? "north" = some j ∧
        ((stewardedWorld none).storeAll e.changes).intermediaries.get? "steward" = some m ∧
        j.sheet.shares.held m.agentId = 0 ∧ m.shares = 40.0 ∧
        ∃ market w' s, market = { (stewardedWorld none).market with book := ctx'.book } ∧
          ((stewardedWorld none).afterEpisode e ctx').sellOff "steward" none SellOff.review
            = .ok (w', s) ∧
          SellOff.review m j market (stewardedWorld none).now = .ok s ∧
          s.period.sold = 8.0 ∧ s.period.proceeds = 0.8 ∧ s.subject.forwarded = 0.8 ∧
          s.issuer.sheet.shares = j.sheet.shares ∧ ¬ SellOff.OnAccount m j market s := by
  refine ⟨rfl, rfl, rfl, _, _, rfl, _, _, rfl, rfl, by decide, rfl, _, _, _, rfl, rfl, rfl,
    by decide, by decide, by decide, by decide, fun hon => ?_⟩
  -- The one fill is for eight shares of an account that holds none.
  exact absurd (hon.first_le rfl _ rfl) (by decide)

end Insolvency
