/-
Who ends up with the shares.

Shares reach creditors on many ways, but all of them go through `assignHolder`: a creditor
that may hold shares gets them itself, and any other gets an intermediary, one for the
whole episode however often it is served.  An intermediary's count changes with every lot,
the rest of it never does.  That rest is its post, and all that is proved here is about the
list of posts, which only ever grows at its end.

Once the old accounts are cancelled, the accounts that there are have been opened by
allotments, so whoever may not hold shares has none, even if it had some before.
-/
import Insolvency.Proofs.Capital.Recapitalization
import Insolvency.Proofs.Shares.Reissue
import Insolvency.Proofs.Shares.Spawned

namespace Insolvency

open Decimal

/-- An intermediary but for its count of shares. -/
def Intermediary.post (m : Intermediary) : Intermediary := { m with shares := 0 }

namespace Episode

variable {i : Institution} {newId : Nat → IntermediaryId} {e e' : Episode} {terms : SellOffTerms}
  {creditor holder : AgentId} {quantity value : Decimal} {ctx : Context}

/-- The posts of the intermediaries spawned, in order. -/
def posts (e : Episode) : List Intermediary := e.intermediaries.map Intermediary.post

/-- Who holds for a creditor: itself if it may, else whoever has the post for it. -/
inductive HeldFor (stock : InstitutionId) (posts : List Intermediary) (creditor : AgentId) :
    AgentId → Prop
  | itself (h : creditor.canHoldEquity = true) : HeldFor stock posts creditor creditor
  | through {m : Intermediary} (h : creditor.canHoldEquity = false) (hm : m ∈ posts)
      (hbeneficiary : m.beneficiary = creditor) (hstock : m.stock = stock) :
      HeldFor stock posts creditor m.agentId

theorem HeldFor.mono {stock : InstitutionId} {posts posts' : List Intermediary}
    (h : HeldFor stock posts creditor holder) (hsub : posts ⊆ posts') :
    HeldFor stock posts' creditor holder := by
  cases h with
  | itself h => exact .itself h
  | through h hm hbeneficiary hstock => exact .through h (hsub hm) hbeneficiary hstock

/-! ### Finding a holder -/

/-- What finding a holder for a creditor makes of the posts. -/
inductive Posted (stock : InstitutionId) (creditor : AgentId) (terms : SellOffTerms)
    (posts : List Intermediary) : AgentId → List Intermediary → Prop
  /-- The creditor may hold the shares itself. -/
  | itself (h : creditor.canHoldEquity = true) : Posted stock creditor terms posts creditor posts
  /-- There is a post for it already. -/
  | again {m : Intermediary} (h : creditor.canHoldEquity = false) (hm : m ∈ posts)
      (hbeneficiary : m.beneficiary = creditor) (hstock : m.stock = stock) :
      Posted stock creditor terms posts m.agentId posts
  /-- There was none, and there is one now. -/
  | spawned {m : Intermediary} (h : creditor.canHoldEquity = false)
      (hnew : ∀ x ∈ posts, ¬ (x.beneficiary = creditor ∧ x.stock = stock))
      (hbeneficiary : m.beneficiary = creditor) (hstock : m.stock = stock)
      (hterms : m.terms = terms) : Posted stock creditor terms posts m.agentId (posts ++ [m])

/-- The intermediary that is found is one of the list, and only its count has changed. -/
theorem post_of_addToHolding {stock : InstitutionId} {ms ms' : List Intermediary}
    {found : Intermediary} (h : addToHolding creditor stock quantity ms = .ok (some (ms', found))) :
    found.post ∈ ms.map Intermediary.post ∧ found.beneficiary = creditor ∧ found.stock = stock ∧
      ms'.map Intermediary.post = ms.map Intermediary.post := by
  induction ms generalizing ms' with
  | nil => cases h
  | cons m rest ih =>
      unfold addToHolding at h
      split_ifs at h with hm
      · simp only [bind_eq_ok, pure_eq_ok, Option.some.injEq, Prod.mk.injEq] at h
        obtain ⟨shares, -, rfl, rfl⟩ := h
        exact ⟨List.mem_cons_self .., hm.1, hm.2, rfl⟩
      · simp only [bind_eq_ok] at h
        obtain ⟨result, hrest, h⟩ := h
        cases result with
        | none => cases h
        | some x =>
            simp only [pure_eq_ok, Option.some.injEq, Prod.mk.injEq] at h
            obtain ⟨rfl, rfl⟩ := h
            obtain ⟨hmem, hbeneficiary, hstock, hposts⟩ := ih hrest
            refine ⟨List.mem_cons_of_mem _ hmem, hbeneficiary, hstock, ?_⟩
            rw [List.map_cons, List.map_cons, hposts]

theorem forall_of_addToHolding_eq_none {stock : InstitutionId} {ms : List Intermediary}
    (h : addToHolding creditor stock quantity ms = .ok none) :
    ∀ m ∈ ms, ¬ (m.beneficiary = creditor ∧ m.stock = stock) := by
  induction ms with
  | nil => exact List.forall_mem_nil _
  | cons m rest ih =>
      unfold addToHolding at h
      split_ifs at h with hm
      · simp only [bind_eq_ok, pure_eq_ok] at h
        obtain ⟨_, -, hnone⟩ := h
        cases hnone
      · simp only [bind_eq_ok] at h
        obtain ⟨result, hrest, h⟩ := h
        cases result with
        | none => exact List.forall_mem_cons.mpr ⟨hm, ih hrest⟩
        | some x => cases pure_eq_ok.mp h

theorem posted_of_assignHolder (h : e.assignHolder creditor quantity ctx = .ok (e', holder)) :
    Posted e.institution.id creditor ctx.terms e.posts holder e'.posts := by
  unfold assignHolder at h
  split_ifs at h with hmay
  · obtain ⟨rfl, rfl⟩ := Prod.mk.inj (pure_eq_ok.mp h)
    exact .itself hmay
  · have hnot := Bool.not_eq_true _ ▸ hmay
    simp only [bind_eq_ok] at h
    obtain ⟨result, hresult, h⟩ := h
    cases result with
    | some x =>
        obtain ⟨rfl, rfl⟩ := Prod.mk.inj (pure_eq_ok.mp h)
        obtain ⟨hmem, hbeneficiary, hstock, hposts⟩ := post_of_addToHolding hresult
        show Posted _ creditor ctx.terms e.posts x.2.post.agentId (x.1.map Intermediary.post)
        rw [hposts]
        exact .again hnot hmem hbeneficiary hstock
    | none =>
        obtain ⟨rfl, rfl⟩ := Prod.mk.inj (pure_eq_ok.mp h)
        have hnew : ∀ m ∈ e.posts, ¬ (m.beneficiary = creditor ∧ m.stock = e.institution.id) := by
          intro x hx
          obtain ⟨m, hm, rfl⟩ := List.mem_map.mp hx
          exact forall_of_addToHolding_eq_none hresult m hm
        let fresh := Intermediary.spawn (ctx.newId e.intermediaries.length) creditor
          e.institution.id quantity ctx.terms ctx.now
        show Posted _ creditor ctx.terms e.posts fresh.post.agentId
          ((e.intermediaries ++ [fresh]).map Intermediary.post)
        rw [List.map_append]
        exact .spawned hnot hnew rfl rfl rfl

/-! ### One post for each beneficiary -/

/-- Which creditor was served through which holder, be it with new shares or with old ones. -/
def served (e : Episode) : List (AgentId × AgentId) :=
  e.allotments.map (fun a => (a.creditor, a.holder))
    ++ e.handovers.map fun h => (h.creditor, h.holder)

/-- All that creditors have got is held by whoever may hold it. -/
structure Placed (i : Institution) (e : Episode) : Prop where
  stock : e.institution.id = i.id
  served : ∀ x ∈ e.served, HeldFor i.id e.posts x.1 x.2
  ownStock : ∀ m ∈ e.posts, m.stock = i.id
  distinct : (e.posts.map Intermediary.beneficiary).Nodup
  used : ∀ m ∈ e.posts, (m.beneficiary, m.agentId) ∈ e.served

theorem served_of_sameShares (h : e.SameShares e') : e'.served = e.served := by
  rw [served, served, h.allotments, h.handovers]

theorem Placed.of_sameShares (h : Placed i e) (hsame : e.SameShares e') : Placed i e' := by
  have hposts : e'.posts = e.posts := congrArg (List.map _) hsame.intermediaries
  have hserved := served_of_sameShares hsame
  exact {
    stock := hsame.id.trans h.stock
    served := hserved ▸ hposts ▸ h.served
    ownStock := hposts ▸ h.ownStock
    distinct := hposts ▸ h.distinct
    used := hserved ▸ hposts ▸ h.used }

/-- The holder that is found holds for the creditor, and no post is lost. -/
theorem Posted.heldFor {stock : InstitutionId} {posts posts' : List Intermediary}
    (h : Posted stock creditor terms posts holder posts') :
    HeldFor stock posts' creditor holder ∧ posts ⊆ posts' := by
  cases h with
  | itself h => exact ⟨.itself h, List.Subset.refl _⟩
  | again h hm hbeneficiary hstock =>
      exact ⟨.through h hm hbeneficiary hstock, List.Subset.refl _⟩
  | spawned h _ hbeneficiary hstock =>
      exact ⟨.through h (List.mem_append_right _ (List.mem_singleton_self _)) hbeneficiary hstock,
        List.subset_append_left _ _⟩

/-- Everything is in its place after one more creditor was served through the holder that was
found for it. -/
theorem Placed.serve (h : Placed i e)
    (hposted : Posted i.id creditor terms e.posts holder e'.posts)
    (hstock : e'.institution.id = i.id)
    (hserved : ∀ x, x ∈ e'.served ↔ x ∈ e.served ∨ x = (creditor, holder)) : Placed i e' := by
  obtain ⟨hheld, hsub⟩ := hposted.heldFor
  have hused : ∀ m ∈ e.posts, (m.beneficiary, m.agentId) ∈ e'.served := fun m hm =>
    (hserved _).mpr (Or.inl (h.used m hm))
  refine ⟨hstock, fun x hx => ?_, ?_, ?_, ?_⟩
  · rcases (hserved x).mp hx with hx | rfl
    · exact (h.served x hx).mono hsub
    · exact hheld
  all_goals generalize e'.posts = posts at hposted
  · cases hposted with
    | itself => exact h.ownStock
    | again => exact h.ownStock
    | spawned _ _ _ hown =>
        exact List.forall_mem_append.mpr ⟨h.ownStock, List.forall_mem_singleton.mpr hown⟩
  · cases hposted with
    | itself => exact h.distinct
    | again => exact h.distinct
    | @spawned m _ hfirst hbeneficiary =>
        have hother : m.beneficiary ∉ e.posts.map Intermediary.beneficiary := by
          intro hmem
          obtain ⟨x, hx, hsame⟩ := List.mem_map.mp hmem
          exact hfirst x hx ⟨hsame.trans hbeneficiary, h.ownStock x hx⟩
        rw [List.map_append, List.map_singleton, List.nodup_append_comm]
        exact List.nodup_cons.mpr ⟨hother, h.distinct⟩
  · cases hposted with
    | itself => exact hused
    | again => exact hused
    | @spawned m _ _ hbeneficiary =>
        refine List.forall_mem_append.mpr ⟨hused, List.forall_mem_singleton.mpr ?_⟩
        rw [hbeneficiary]
        exact (hserved _).mpr (Or.inr rfl)

theorem Placed.cancelShares {price : Decimal} (h : Placed i e)
    (hcancel : e.cancelShares price = .ok e') : Placed i e' := by
  obtain ⟨lost, -, rfl⟩ := cancelShares_eq_ok.mp hcancel
  exact ⟨h.stock, h.served, h.ownStock, h.distinct, h.used⟩

theorem Placed.allot {basis : Entitlement} (h : Placed i e)
    (hallot : e.allot creditor quantity value basis ctx = .ok e') : Placed i e' := by
  simp only [Episode.allot, bind_eq_ok, pure_eq_ok] at hallot
  obtain ⟨⟨assigned, holder⟩, hassign, shares, -, issued, -, rfl⟩ := hallot
  have hposted : Posted _ creditor ctx.terms _ _ _ := posted_of_assignHolder hassign
  have hframe := assignHolder_eq_ok hassign
  rw [h.stock] at hposted
  refine h.serve hposted ?_ fun x => ?_
  · show assigned.institution.id = i.id
    rw [hframe]
    exact h.stock
  · show x ∈ (assigned.allotments ++ [_]).map _ ++ assigned.handovers.map _ ↔ _
    rw [hframe]
    simp only [Episode.served, List.map_append, List.map_singleton, List.mem_append,
      List.mem_singleton]
    tauto

theorem Placed.handOver {assigned : Episode} {source : AgentId} {moved : Decimal} {shares : Shares}
    (h : Placed i e) (hassign : e.assignHolder creditor quantity ctx = .ok (assigned, holder))
    (hrecord : SameShares { assigned.withShares shares with
      handovers := assigned.handovers ++ [⟨source, creditor, holder, moved, value⟩] } e') :
    Placed i e' := by
  refine Placed.of_sameShares ?_ hrecord
  have hposted : Posted _ creditor ctx.terms _ _ _ := posted_of_assignHolder hassign
  have hframe := assignHolder_eq_ok hassign
  rw [h.stock] at hposted
  refine h.serve hposted ?_ fun x => ?_
  · show assigned.institution.id = i.id
    rw [hframe]
    exact h.stock
  · show x ∈ assigned.allotments.map _ ++ (assigned.handovers ++ [_]).map _ ↔ _
    rw [hframe]
    simp only [Episode.served, List.map_append, List.map_singleton, List.mem_append,
      List.mem_singleton]
    tauto

theorem ShareStep.placed (h : ShareStep i newId e e') (he : Placed i e) : Placed i e' := by
  cases h with
  | aside hsame => exact he.of_sameShares hsame
  | cancel h => exact he.cancelShares h
  | allot h => exact he.allot h
  | handOver hassign _ hrecord => exact he.handOver hassign hrecord

theorem placed_opening (i : Institution) (shortfall : Decimal) :
    Placed i (opening i shortfall) where
  stock := rfl
  served := List.forall_mem_nil _
  ownStock := List.forall_mem_nil _
  distinct := List.nodup_nil
  used := List.forall_mem_nil _

theorem ShareSteps.placed {shortfall : Decimal} (h : ShareSteps i newId (opening i shortfall) e) :
    Placed i e :=
  h.preserves (P := Placed i) (placed_opening i shortfall) fun _ _ hstep he => hstep.placed he

/-! ### Accounts opened anew -/

/-- An account that is there after an issue was there before or is the one issued to. -/
theorem mem_keys_issue {r r' : Shares} {a : AgentId} (h : r.issue holder quantity = .ok r')
    (ha : a ∈ r'.holders.keys) : a = holder ∨ a ∈ r.holders.keys := by
  simp only [Shares.issue, Accounts.credit, bind_eq_ok, pure_eq_ok] at h
  obtain ⟨_, ⟨total, -, rfl⟩, rfl⟩ := h
  exact Table.mem_keys_insertEntry (Accounts.mem_keys_of_mem_keys_swept ha)

/-- Every account has been opened by an allotment. -/
def Renewed (e : Episode) : Prop := ∀ a ∈ e.shares.holders.keys, ∃ x ∈ e.allotments, x.holder = a

theorem Renewed.allot {basis : Entitlement} (h : e.Renewed)
    (hallot : e.allot creditor quantity value basis ctx = .ok e') : e'.Renewed := by
  simp only [Episode.allot, bind_eq_ok, pure_eq_ok] at hallot
  obtain ⟨⟨assigned, holder⟩, hassign, shares, hissue, issued, -, rfl⟩ := hallot
  rw [assignHolder_eq_ok hassign] at hissue ⊢
  intro a ha
  rcases mem_keys_issue hissue ha with rfl | ha
  · exact ⟨_, List.mem_append_right _ (List.mem_singleton_self _), rfl⟩
  · obtain ⟨x, hx, hholder⟩ := h a ha
    exact ⟨x, List.mem_append_left _ hx, hholder⟩

/-- Shares are only handed over where none were cancelled, and by a holder of before. -/
theorem ShareSteps.renewed {shortfall : Decimal} (h : ShareSteps i newId (opening i shortfall) e)
    (hgone : e.cancelled.map CancelledAccount.holder = i.sheet.shares.holders.keys) :
    e.Renewed := by
  refine h.preserves (P := fun e : Episode =>
    e.cancelled.map CancelledAccount.holder = i.sheet.shares.holders.keys → e.Renewed)
    (fun hnone a ha => ?_) (fun e e' hstep he hgone => ?_) hgone
  · change [] = i.sheet.shares.holders.keys at hnone
    change a ∈ i.sheet.shares.holders.keys at ha
    rw [← hnone] at ha
    cases ha
  · cases hstep with
    | aside hsame =>
        rw [hsame.cancelled] at hgone
        unfold Renewed
        rw [hsame.shares, hsame.allotments]
        exact he hgone
    | cancel h =>
        intro a ha
        rw [shares_cancelShares h] at ha
        cases ha
    | allot h =>
        obtain ⟨hbooks, -⟩ := allot_eq_ok h
        exact (he (hbooks.cancelled ▸ hgone)).allot h
    | @handOver assigned _ _ _ _ _ _ _ _ hassign _ hrecord _ _ hsource _ _ hkept =>
        have hcancelled : e'.cancelled = assigned.cancelled := hrecord.cancelled
        rw [hcancelled, assignHolder_eq_ok hassign] at hgone
        change e.cancelled.map _ = _ at hgone
        rw [← hgone, hkept.1] at hsource
        cases hsource

/-! ### On whose terms -/

/-- Creditors have been served: no account is cancelled on the way, and whoever is spawned is on
the given terms. -/
structure Serving (terms : SellOffTerms) (e e' : Episode) : Prop where
  cancelled : e'.cancelled = e.cancelled
  terms : (∀ m ∈ e.intermediaries, m.terms = terms) → ∀ m ∈ e'.intermediaries, m.terms = terms

theorem Serving.refl (e : Episode) : Serving terms e e := ⟨rfl, id⟩

theorem Serving.trans {e'' : Episode} (h : Serving terms e e') (h' : Serving terms e' e'') :
    Serving terms e e'' :=
  ⟨h'.cancelled.trans h.cancelled, h'.terms ∘ h.terms⟩

theorem Serving.aside (h : e.SameShares e') : Serving terms e e' :=
  ⟨h.cancelled, fun hterms => h.intermediaries ▸ hterms⟩

theorem serving_of_assignHolder (h : e.assignHolder creditor quantity ctx = .ok (e', holder)) :
    Serving ctx.terms e e' := by
  have hposted := posted_of_assignHolder h
  refine ⟨by rw [assignHolder_eq_ok h], fun hterms m hm => ?_⟩
  have hm' : m.post ∈ e'.posts := List.mem_map_of_mem hm
  have hposts : ∀ x ∈ e.posts, x.terms = ctx.terms := by
    intro x hx
    obtain ⟨m, hm, rfl⟩ := List.mem_map.mp hx
    exact hterms m hm
  show m.post.terms = ctx.terms
  generalize e'.posts = posts at hposted hm'
  cases hposted with
  | itself => exact hposts _ hm'
  | again => exact hposts _ hm'
  | spawned _ _ _ _ hown =>
      rcases List.mem_append.mp hm' with hm' | hm'
      · exact hposts _ hm'
      · exact List.mem_singleton.mp hm' ▸ hown

theorem serving_of_allot {basis : Entitlement}
    (h : e.allot creditor quantity value basis ctx = .ok e') : Serving ctx.terms e e' := by
  simp only [Episode.allot, bind_eq_ok, pure_eq_ok] at h
  obtain ⟨⟨assigned, holder⟩, hassign, shares, -, issued, -, rfl⟩ := h
  have hserving := serving_of_assignHolder hassign
  exact ⟨hserving.cancelled, hserving.terms⟩

/-- What an episode of an institution comes to: creditors are served in the place of cancelled
accounts, or beside the old ones. -/
inductive Dealt (i : Institution) (terms : SellOffTerms) (e : Episode) : Prop
  | beside {shortfall : Decimal} (h : Serving terms (opening i shortfall) e)
      (hnot : ¬ e.ReplacesShares)
  | replaced {filed gone : Episode} {shortfall price : Decimal}
      (hfiled : (opening i shortfall).SameShares filed)
      (hcancel : filed.cancelShares price = .ok gone)
      (h : Serving terms gone e)

theorem Dealt.onTerms (h : Dealt i terms e) : ∀ m ∈ e.intermediaries, m.terms = terms := by
  cases h with
  | beside h => exact h.terms (List.forall_mem_nil _)
  | @replaced filed gone _ _ hfiled hcancel h =>
      have hgone : gone.intermediaries = [] := by
        obtain ⟨lost, -, rfl⟩ := cancelShares_eq_ok.mp hcancel
        exact hfiled.intermediaries
      refine h.terms ?_
      rw [hgone]
      exact List.forall_mem_nil _

/-- Where the shares were replaced, all accounts of before are on record as cancelled. -/
theorem Dealt.cancelled (h : Dealt i terms e) (hreplaces : e.ReplacesShares) :
    e.cancelled.map CancelledAccount.holder = i.sheet.shares.holders.keys := by
  cases h with
  | beside _ hnot => exact absurd hreplaces hnot
  | replaced hfiled hcancel h =>
      rw [h.cancelled, keys_of_cancelShares hcancel, hfiled.cancelled, hfiled.shares]
      rfl

end Episode

open Episode

variable {i : Institution} {shortfall : Decimal} {ctx ctx' : Context} {e e' : Episode}

theorem Episode.dealt_compliant (i : Institution) (terms : SellOffTerms) :
    Dealt i terms (.compliant i) :=
  .beside (.refl _) (not_replacesShares_compliant i)

theorem Episode.dealt_giveUp {before : Episode} {r : Episode × Context}
    (h : before.giveUp i ctx = .ok r) (terms : SellOffTerms) : Dealt i terms r.1 :=
  .beside (.aside (sameShares_giveUp h 0)) (not_replacesShares_of_giveUp h)

theorem Bailin.dealt_of_run {r : Episode × Context} (h : run i shortfall ctx = .ok r)
    (hsheet : i.sheet.Nonneg) : Dealt i ctx.terms r.1 := by
  rcases run_cases h with ⟨-, rfl⟩ | ⟨c, hc, ⟨-, hr⟩ | ⟨-, hr⟩⟩
  · exact dealt_compliant i ctx.terms
  · exact dealt_giveUp hr ctx.terms
  · obtain ⟨filed, gone, hfiled, hgone, hdown⟩ := (hc.leaves hsheet).cancelling
    simp only [compensateAll, bind_eq_ok, pure_eq_ok] at hr
    obtain ⟨⟨recorded, writeDowns⟩, hrecord, total, -, handed, hfold, price, -, rfl⟩ := hr
    have hhanded : Serving ctx.terms recorded handed := by
      refine foldlM_related .refl .trans hfold fun loss _ mid mid' hstep => ?_
      unfold compensate at hstep
      split_ifs at hstep
      · exact pure_eq_ok.mp hstep ▸ .refl mid
      · simp only [bind_eq_ok] at hstep
        obtain ⟨p, -, quantity, -, hallot⟩ := hstep
        exact serving_of_allot hallot
    refine .replaced hfiled hgone ?_
    have hrecorded := hdown.trans (recordWriteDowns_sameShares hrecord)
    exact ((Serving.aside hrecorded).trans hhanded).trans
      (.aside (sameShares_conclude_publishPrice handed _ _ _ ctx))

theorem Bailout.dealt_of_run {r : Episode × Context} (h : Bailout.run i shortfall ctx = .ok r) :
    Dealt i ctx.terms r.1 := by
  rcases Bailout.run_course h with ⟨-, rfl⟩ | ⟨-, base, filed, cancelled, -, hfiled, hcancel, h⟩
  · exact dealt_compliant i ctx.terms
  · rcases h with ⟨-, h⟩ |
      ⟨government, paid, injected, allotted, newPrice, -, hinject, hallot, -, rfl⟩
    · exact dealt_giveUp h ctx.terms
    · have hpaid : cancelled.SameShares injected := by
        simp only [Bailout.inject, bind_eq_ok, pure_eq_ok] at hinject
        obtain ⟨assets, -, rfl⟩ := hinject
        exact ⟨rfl, rfl, rfl, rfl, rfl, rfl⟩
      refine .replaced
        ((sameShares_fileClaims hfiled).trans (sameShares_reach filed .start)) hcancel ?_
      exact ((Serving.aside hpaid).trans (serving_of_allot hallot)).trans
        (.aside (sameShares_conclude_publishPrice allotted _ _ _ _))

theorem DebtEquitySwap.serving_exchangeLoans {loans : List (AgentId × Decimal)}
    {count totalLoans price : Decimal}
    (h : loans.foldlM (exchangeLoan count totalLoans price ctx) e = .ok e') :
    Serving ctx.terms e e' := by
  refine foldlM_related .refl .trans h fun loan _ mid mid' hstep => ?_
  simp only [exchangeLoan, bind_eq_ok, pure_eq_ok] at hstep
  obtain ⟨p, -, quantity, -, value, -, allotted, hallot, down, hclaim, totals, -, rfl⟩ := hstep
  have hdown := (paysOut_writeDownClaim hclaim).same
  exact (serving_of_allot hallot).trans (.aside (hdown.trans ⟨rfl, rfl, rfl, rfl, rfl, rfl⟩))

theorem DebtEquitySwap.dealt_of_run {r : Episode × Context} (h : run i shortfall ctx = .ok r) :
    Dealt i ctx.terms r.1 := by
  rcases run_cases h with rfl | ⟨e, hr⟩ | hsettled
  · exact dealt_compliant i ctx.terms
  · exact dealt_giveUp hr ctx.terms
  · cases hsettled with
    | @paid _ e _ hopened htotal _ hrepay =>
        obtain ⟨hsame, -⟩ := repaid_of_repay hrepay hopened.institution htotal
        refine @Dealt.beside _ _ _ shortfall (.aside ?_) (not_replacesShares_resolved ?_)
        · exact (hopened.sameShares.trans hsame).trans ⟨rfl, rfl, rfl, rfl, rfl, rfl⟩
        · show .stocksTerminated ∉ e.trace
          rw [trace_of_repay hrepay, hopened.trace]
          decide
    | @swapped opened _ _ totalLoans hopened _ hexchange =>
        obtain ⟨count, cancelled, price, exchanged, -, hcancel, -, hfold, hr⟩ :=
          exchange_eq_ok hexchange
        obtain ⟨rfl, rfl⟩ := Prod.mk.inj hr
        have hexchanged : Serving ctx.terms _ exchanged := serving_exchangeLoans hfold
        have hstart : cancelled.SameShares
            ((cancelled.reach .stocksTerminated).publishPrice price ctx).1 :=
          ⟨rfl, rfl, rfl, rfl, rfl, rfl⟩
        have hend : exchanged.SameShares ((covered (exchanged.reach .sharesIssued)).conclude
            .resolved (ctx.publish cancelled.institution.id price)).1 :=
          ⟨rfl, rfl, rfl, rfl, rfl, rfl⟩
        exact .replaced (hopened.sameShares.trans (sameShares_forgiven opened totalLoans)) hcancel
          (((Serving.aside hstart).trans hexchanged).trans (.aside hend))

namespace AssetThreshold

theorem serving_handOutShares {debts holdings : List (AgentId × Decimal)}
    {remainingDebt value price : Decimal}
    (h : handOutShares e debts holdings remainingDebt value price ctx = .ok e') :
    Serving ctx.terms e e' := by
  simp only [handOutShares, bind_eq_ok, pure_eq_ok] at h
  obtain ⟨handed, hhand, down, hdown, settled, -, rfl⟩ := h
  have hhanded : Serving ctx.terms e handed := by
    refine foldlM_related .refl .trans hhand fun holding _ mid mid' hstep => ?_
    simp only [handOutFrom, bind_eq_ok] at hstep
    obtain ⟨give, -, hstep⟩ := hstep
    refine foldlM_related .refl .trans hstep fun debt _ mid mid' hstep => ?_
    simp only [giveTo, bind_eq_ok] at hstep
    obtain ⟨product, -, quantity, -, hstep⟩ := hstep
    split_ifs at hstep
    · exact pure_eq_ok.mp hstep ▸ .refl mid
    · simp only [bind_eq_ok, pure_eq_ok] at hstep
      obtain ⟨⟨assigned, holder⟩, hassign, ⟨shares, moved⟩, -, value, -, delivered, -, rfl⟩ := hstep
      have hserving := serving_of_assignHolder hassign
      exact ⟨hserving.cancelled, hserving.terms⟩
  have hout := (foldlM_related PaysOut.refl .trans hdown fun _ _ _ _ => paysOut_writeDownClaim).same
  exact hhanded.trans (.aside (hout.trans ⟨rfl, rfl, rfl, rfl, rfl, rfl⟩))

theorem serving_handOverFirm {debts : List (AgentId × Decimal)} {remainingDebt : Decimal}
    (h : handOverFirm e debts remainingDebt ctx = .ok (e', ctx')) :
    ∃ gone price, e.cancelShares price = .ok gone ∧ Serving ctx.terms gone e' := by
  simp only [handOverFirm, bind_eq_ok, pure_eq_ok, Prod.mk.injEq] at h
  obtain ⟨count, -, cancelled, hcancel, equity, -, price, -, handed, hfold, rfl, -⟩ := h
  have hstart : cancelled.SameShares ((withoutDebts cancelled).publishPrice price ctx).1 :=
    ⟨rfl, rfl, rfl, rfl, rfl, rfl⟩
  refine ⟨cancelled, _, hcancel, (Serving.aside hstart).trans ?_⟩
  refine foldlM_related .refl .trans hfold fun debt _ mid mid' hstep => ?_
  simp only [handOverPart, bind_eq_ok, pure_eq_ok] at hstep
  obtain ⟨product, -, quantity, -, worth, -, value, -, allotted, hallot, down, hclaim, totals, -,
    rfl⟩ := hstep
  have hdown := (paysOut_writeDownClaim hclaim).same
  exact (serving_of_allot hallot).trans (.aside (hdown.trans ⟨rfl, rfl, rfl, rfl, rfl, rfl⟩))

theorem dealt_of_run {cash : CashRule} {r : Episode × Context}
    (h : run cash i shortfall ctx = .ok r) : Dealt i ctx.terms r.1 := by
  rcases run_cases h with rfl | ⟨c, hc, ⟨-, rfl⟩ | ⟨-, hrest⟩⟩
  · exact dealt_compliant i ctx.terms
  · have hpaid : c.paid.SameShares ((withoutDebts c.paid).conclude .resolved ctx).1 :=
      ⟨rfl, rfl, rfl, rfl, rfl, rfl⟩
    refine .beside (.aside (hc.sameShares.trans hpaid)) (not_replacesShares_resolved ?_)
    show .stocksTerminated ∉ c.paid.trace
    rw [hc.trace]
    decide
  · rcases settleRest_cases hrest with ⟨value, handed, -, hhand, rfl⟩ | ⟨handed, ctx'', hhand, rfl⟩
    · refine .beside (((Serving.aside hc.sameShares).trans (serving_handOutShares hhand)).trans
        (.aside (sameShares_conclude handed _ ctx))) (not_replacesShares_resolved ?_)
      rw [trace_of_handOutShares hhand, hc.trace]
      decide
    · obtain ⟨gone, price, hcancel, hserving⟩ := serving_handOverFirm hhand
      exact .replaced hc.sameShares hcancel
        (hserving.trans (.aside (sameShares_conclude handed _ ctx'')))

end AssetThreshold

theorem Policy.dealt_of_run {p : Policy} {r : Episode × Context} (h : p.run i shortfall ctx = .ok r)
    (hsheet : i.sheet.Nonneg) : Dealt i ctx.terms r.1 := by
  cases p with
  | bailin => exact Bailin.dealt_of_run h hsheet
  | assetThreshold cash => exact AssetThreshold.dealt_of_run h
  | bailout => exact Bailout.dealt_of_run h
  | debtEquitySwap => exact DebtEquitySwap.dealt_of_run h
  | liquidate =>
      rcases flag_cases h with ⟨-, rfl⟩ | ⟨-, filed, hfiled, rfl⟩
      · exact dealt_compliant i ctx.terms
      · refine @Dealt.beside _ _ _ shortfall (.aside ?_) ?_
        · exact (sameShares_fileClaims hfiled).trans ⟨rfl, rfl, rfl, rfl, rfl, rfl⟩
        · rintro (hout | ⟨hout, -⟩)
          all_goals cases hout

/-! ### All policies -/

/-- Equity has only reached those who may hold it. -/
structure Episode.ReachesHolders (i : Institution) (terms : SellOffTerms) (e : Episode) : Prop where
  /-- Whoever got shares holds them itself if it may, else an intermediary of this episode's
  does. -/
  held : ∀ x ∈ e.served, HeldFor i.id e.intermediaries x.1 x.2
  terms : ∀ m ∈ e.intermediaries, m.terms = terms
  /-- No beneficiary has two intermediaries. -/
  distinct : (e.intermediaries.map Intermediary.beneficiary).Nodup
  /-- No intermediary is spawned in vain. -/
  used : ∀ m ∈ e.intermediaries, (m.beneficiary, m.agentId) ∈ e.served
  /-- Where the shares were replaced, all accounts have been opened by allotments. -/
  renewed : e.ReplacesShares → ∀ a ∈ e.shares.holders.keys,
    (∃ x ∈ e.allotments, x.holder = a) ∧ a.kind ≠ .household ∧ a.kind ≠ .centralBank

theorem AgentId.canHoldEquity_iff {a : AgentId} :
    a.canHoldEquity = true ↔ a.kind ≠ .household ∧ a.kind ≠ .centralBank := by
  unfold AgentId.canHoldEquity AgentKind.canHoldEquity
  cases a.kind <;> decide

theorem Episode.HeldFor.canHoldEquity {stock : InstitutionId} {posts : List Intermediary}
    {creditor holder : AgentId} (h : HeldFor stock posts creditor holder) :
    holder.canHoldEquity = true := by
  cases h with
  | itself h => exact h
  | through => rfl

theorem Episode.HeldFor.of_posts {stock : InstitutionId} {creditor holder : AgentId}
    (h : HeldFor stock e.posts creditor holder) :
    HeldFor stock e.intermediaries creditor holder := by
  cases h with
  | itself h => exact .itself h
  | @through x h hx hbeneficiary hstock =>
      obtain ⟨m, hm, rfl⟩ := List.mem_map.mp hx
      exact .through (m := m) h hm hbeneficiary hstock

theorem Policy.reachesHolders_of_run {p : Policy} {r : Episode × Context}
    (h : p.run i shortfall ctx = .ok r) (hsheet : i.sheet.Nonneg) :
    r.1.ReachesHolders i ctx.terms := by
  obtain ⟨s, hsteps⟩ := shareSteps_of_run h hsheet
  have hdealt := dealt_of_run h hsheet
  have hplaced := hsteps.placed
  have hheld : ∀ x ∈ r.1.served, HeldFor i.id r.1.intermediaries x.1 x.2 := fun x hx =>
    (hplaced.served x hx).of_posts
  refine ⟨hheld, hdealt.onTerms, ?_, fun m hm => ?_, fun hreplaces a ha => ?_⟩
  · have hdistinct := hplaced.distinct
    rwa [Episode.posts, List.map_map] at hdistinct
  · exact hplaced.used m.post (List.mem_map_of_mem hm)
  · obtain ⟨x, hx, rfl⟩ := hsteps.renewed (hdealt.cancelled hreplaces) a ha
    have hserved : (x.creditor, x.holder) ∈ r.1.served :=
      List.mem_append_left _ (List.mem_map_of_mem hx)
    exact ⟨⟨x, hx, rfl⟩, AgentId.canHoldEquity_iff.mp (hheld _ hserved).canHoldEquity⟩

theorem reachesHolders_compliant (i : Institution) (terms : SellOffTerms) :
    (Episode.compliant i).ReachesHolders i terms where
  held := List.forall_mem_nil _
  terms := List.forall_mem_nil _
  distinct := List.nodup_nil
  used := List.forall_mem_nil _
  renewed := fun hreplaces => absurd hreplaces (not_replacesShares_compliant i)

namespace Authority

variable {a : Authority}

/-- The intermediaries of an authority's are on terms in range. -/
theorem terms_inRange (a : Authority) : a.rulebook.terms.fault? = none := by
  obtain ⟨-, -, hterms, -⟩ := Rulebook.fault?_eq_none.mp a.inRange
  exact hterms

/-- Either there is nothing to do, or the policy does it, on the rulebook's terms. -/
theorem policy_of_resolve (h : a.resolve i ctx = .ok (e, ctx')) :
    e = .compliant i ∨ ∃ shortfall, a.rulebook.policy.resolve i shortfall
      { ctx with terms := a.rulebook.terms } = .ok (e, ctx') := by
  simp only [resolve, bind_eq_ok] at h
  obtain ⟨x, -, h⟩ := h
  split_ifs at h
  · exact Or.inl (Prod.mk.inj (pure_eq_ok.mp h)).1.symm
  · exact Or.inr ⟨x.shortfall, h⟩

end Authority

/-- **Equity only reaches those who may hold it**, whatever the policy, and where an authority
resolves, on the terms of its rulebook, which are in range. -/
theorem reachesHolders_of_resolve :
    (∀ (p : Policy) (i : Institution) (shortfall : Decimal) (ctx ctx' : Context) (e : Episode),
      p.resolve i shortfall ctx = .ok (e, ctx') → e.ReachesHolders i ctx.terms) ∧
    ∀ (a : Authority) (i : Institution) (ctx ctx' : Context) (e : Episode),
      a.resolve i ctx = .ok (e, ctx') →
        e.ReachesHolders i a.rulebook.terms ∧ a.rulebook.terms.fault? = none := by
  have hpolicy : ∀ (p : Policy) (i : Institution) (shortfall : Decimal) (ctx ctx' : Context)
      (e : Episode), p.resolve i shortfall ctx = .ok (e, ctx') → e.ReachesHolders i ctx.terms := by
    intro p i shortfall ctx ctx' e h
    obtain ⟨hnone, hrun⟩ := Policy.resolve_eq_ok.mp h
    exact Policy.reachesHolders_of_run hrun (Policy.inOrder_of_objection? hnone).1
  refine ⟨hpolicy, fun a i ctx ctx' e h => ⟨?_, a.terms_inRange⟩⟩
  rcases Authority.policy_of_resolve h with rfl | ⟨shortfall, h⟩
  · exact reachesHolders_compliant i a.rulebook.terms
  · exact hpolicy _ i shortfall _ ctx' e h

/-- The sample bank owes a household and is bailed in; the household's shares are with the one
intermediary that is spawned, and all who are served have shares in the end. -/
theorem reachesHolders_of_resolve_sampleBank :
    (∃ e ctx', Policy.bailin.resolve sampleBank 700.0 sampleContext = .ok (e, ctx') ∧
      e.ReplacesShares ∧ e.intermediaries.length = 1 ∧
      (∀ m ∈ e.intermediaries, 0 < e.shares.held m.agentId) ∧
      (∀ x ∈ e.served, 0 < e.shares.held x.2) ∧
      e.ReachesHolders sampleBank sampleContext.terms) ∧
    ∃ e ctx', Authority.strictAuthority.resolve sampleBank sampleContext = .ok (e, ctx') ∧
      e.ReachesHolders sampleBank Authority.strictAuthority.rulebook.terms ∧
      Authority.strictAuthority.rulebook.terms.fault? = none := by
  constructor
  · obtain ⟨e, ctx', h, hreplaces, hspawned, hcounts, hserved⟩ : ∃ e ctx',
        Policy.bailin.resolve sampleBank 700.0 sampleContext = .ok (e, ctx') ∧
        e.ReplacesShares ∧ e.intermediaries.length = 1 ∧
        (∀ m ∈ e.intermediaries, 0 < e.shares.held m.agentId) ∧
        ∀ x ∈ e.served, 0 < e.shares.held x.2 :=
      ⟨_, _, rfl, Or.inr ⟨rfl, by decide⟩, rfl, by decide, by decide⟩
    exact ⟨e, ctx', h, hreplaces, hspawned, hcounts, hserved,
      reachesHolders_of_resolve.1 _ _ _ _ _ _ h⟩
  · obtain ⟨e, ctx', h⟩ : ∃ e ctx', Authority.strictAuthority.resolve sampleBank sampleContext
      = .ok (e, ctx') := ⟨_, _, rfl⟩
    exact ⟨e, ctx', h, reachesHolders_of_resolve.2 _ _ _ _ _ h⟩

end Insolvency
