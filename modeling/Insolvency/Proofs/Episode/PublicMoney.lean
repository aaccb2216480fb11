/-
Public money over a sequence of bail-outs.

One government hears the appeals of any number of banks, one after the other.  Each is granted
in full or refused, and which it is hangs on the budget at that moment and on nothing else.
What a hearing does to the bank and to the government is said once for each of the two
(`Granted`, `Refused`), and a whole sequence is taken from that step by step.

The budget is never overdrawn, whatever the figures are.  That none of it gets lost by rounding
takes figures that are multiples of one power of ten and a budget that is within bounds for it
(`InBalance`).
-/
import Insolvency.Proofs.Decimal.Grid
import Insolvency.Proofs.Episode.Flagged
import Insolvency.Proofs.Episode.Overflow

namespace Insolvency

open Decimal

/-- Shares issued by an institution that has none are all there are. -/
theorem Shares.issue_empty {r : Shares} {holder : AgentId} {q : Decimal}
    (h : Shares.empty.issue holder q = .ok r) (hq : q ≠ 0) : r.holders.entries = [(holder, q)] := by
  simp only [issue, Accounts.credit, bind_eq_ok, pure_eq_ok] at h
  obtain ⟨credited, ⟨new, hnew, rfl⟩, rfl⟩ := h
  obtain rfl : q = new := Except.ok.inj ((zero_add_eq_ok q).symm.trans hnew)
  show [(holder, q)].filter (fun e => e.2 != 0) = [(holder, q)]
  simp [hq]

/-! ### One bail-out -/

namespace Bailout

variable {bank : Institution} {shortfall : Decimal} {ctx ctx' : Context} {e : Episode}
  {government paid : Government}

/-- The government has paid the shortfall and owns the bank. -/
structure Granted (bank : Institution) (shortfall : Decimal) (before after : Government)
    (e : Episode) : Prop where
  outcome : e.outcome = .resolved
  funding : e.totals.governmentFunding = shortfall
  government : before.disburse shortfall = .ok after
  cash : bank.sheet.assets.cash.add shortfall = .ok e.assets.cash
  assets : ∀ cls ≠ .cash, e.assets.holding cls = bank.sheet.assets.holding cls
  liabilities : e.liabilities = bank.sheet.liabilities
  /-- There is one share account, over as many shares as there were before. -/
  shares : ∃ outstanding, bank.sheet.shares.total = .ok outstanding ∧
    e.shares.holders.entries = [(before.agentId, Episode.normalizedCount outstanding)]

/-- The bank is flagged, and neither its books nor the government have changed. -/
structure Refused (bank : Institution) (before after : Government) (e : Episode) : Prop where
  outcome : e.outcome = .flaggedForLiquidation
  funding : e.totals.governmentFunding = 0
  sheet : e.institution.sheet = bank.sheet
  government : after = before

theorem funder?_eq (hgovernment : ctx.government = some government) (amount : Decimal) :
    funder? ctx amount = if amount ≤ government.budget then some government else none := by
  unfold funder?
  rw [hgovernment, Option.filter_some]
  simp only [decide_eq_true_eq]

/-- A government may hold shares itself, so those it is allotted are its own. -/
theorem shares_of_allot {base value : Decimal} {injected allotted : Episode}
    (h : injected.allot government.agentId base value .funding ctx = .ok allotted)
    (hnone : injected.shares = .empty) (hbase : base ≠ 0) :
    allotted.shares.holders.entries = [(government.agentId, base)] := by
  simp only [Episode.allot, bind_eq_ok, pure_eq_ok] at h
  obtain ⟨⟨assigned, holder⟩, hassign, shares, hissue, issued, -, rfl⟩ := h
  obtain ⟨rfl, rfl⟩ := Prod.mk.inj (Except.ok.inj hassign)
  rw [hnone] at hissue
  exact Shares.issue_empty hissue hbase

/-- What has been paid in is in the bank's cash, and there is nobody else who owns shares. -/
theorem granted_of_paid {base price : Decimal} {filed cancelled injected allotted : Episode}
    (hbase : (Episode.opening bank shortfall).shareCount = .ok base)
    (hfiled : (Episode.opening bank shortfall).fileClaims = .ok filed)
    (hcancel : (filed.reach .start).cancelShares (ctx.book.value bank.id) = .ok cancelled)
    (hpaid : government.disburse shortfall = .ok paid)
    (hinject : inject (cancelled.reach .stocksTerminated) shortfall = .ok injected)
    (hallot : injected.allot government.agentId base shortfall .funding ctx' = .ok allotted) :
    Granted bank shortfall government paid (rescued allotted price ctx').1 := by
  have hbase0 := Episode.nonneg_of_shareCount hbase
  have hnonzero := Episode.ne_zero_of_shareCount _ hbase
  simp only [Episode.shareCount, bind_eq_ok, pure_eq_ok] at hbase
  obtain ⟨outstanding, houtstanding, rfl⟩ := hbase
  obtain ⟨claims, -, rfl⟩ := Episode.fileClaims_eq_ok.mp hfiled
  obtain ⟨lost, -, rfl⟩ := Episode.cancelShares_eq_ok.mp hcancel
  have hfunded : Funded bank shortfall (rescued allotted price ctx').1 :=
    funded_of_inject hinject hallot rfl rfl rfl hbase0
  obtain ⟨hcash, hassets⟩ := Assets.add_of_creditHolding hfunded.assets
  simp only [inject, bind_eq_ok, pure_eq_ok] at hinject
  obtain ⟨assets, -, rfl⟩ := hinject
  have hregistry := shares_of_allot hallot rfl hnonzero
  exact {
    outcome := rfl
    funding := by
      show allotted.totals.governmentFunding = shortfall
      rw [(Episode.allot_eq_ok hallot).1.totals]
      rfl
    government := hpaid
    cash := hcash
    assets := hassets
    liabilities := hfunded.liabilities
    shares := ⟨outstanding, houtstanding, hregistry⟩ }

/-- All that a bail-out comes to for a bank with a shortfall, once there is a government. -/
theorem granted_or_refused (h : run bank shortfall ctx = .ok (e, ctx'))
    (hdue : .epsilon < shortfall) (hgovernment : ctx.government = some government) :
    (shortfall ≤ government.budget ∧ ∃ paid, ctx'.government = some paid ∧
      Granted bank shortfall government paid e) ∨
    (¬ shortfall ≤ government.budget ∧ ctx'.government = some government ∧
      Refused bank government government e) := by
  rcases run_course h with ⟨hdust, -⟩ | ⟨-, base, filed, cancelled, hbase, hfiled, hcancel, h⟩
  · exact absurd hdust (not_le_iff.mpr hdue)
  rcases h with ⟨hnone, h⟩ |
    ⟨funder, paid, injected, allotted, price, hpaid, hinject, hallot, -, hr⟩
  · rw [funder?_eq hgovernment] at hnone
    have hflagged := Episode.flagged_of_giveUp h
    refine Or.inr ⟨?_, ?_, ?_⟩
    · intro hbudget
      rw [if_pos hbudget] at hnone
      cases hnone
    · rw [hflagged.context]
      exact hgovernment
    · exact {
        outcome := Episode.outcome_of_giveUp h
        funding := by rw [hflagged.totals]
        sheet := by rw [hflagged.institution]
        government := rfl }
  · obtain ⟨rfl, rfl⟩ := Prod.mk.inj hr
    have hfunder := hpaid.funder
    rw [funder?_eq hgovernment] at hfunder
    by_cases hbudget : shortfall ≤ government.budget
    · rw [if_pos hbudget] at hfunder
      obtain rfl := Option.some.inj hfunder
      exact Or.inl ⟨hbudget, paid, rfl,
        granted_of_paid hbase hfiled hcancel hpaid.disbursed hinject hallot⟩
    · rw [if_neg hbudget] at hfunder
      cases hfunder

end Bailout

/-! ### One appeal after the other -/

/-- A bank that asks for its shortfall to be paid, and the context it does so in. -/
structure Appeal where
  bank : Institution
  shortfall : Decimal
  surroundings : Context

/-- An appeal that has been heard. -/
structure Hearing where
  appeal : Appeal
  /-- The government that heard it. -/
  before : Government
  episode : Episode
  /-- The context that the episode left. -/
  left : Context

/-- The government after the hearing. -/
def Hearing.after (h : Hearing) : Government := h.left.government.getD h.before

/-- Nothing speaks against the bank, and what it lacks is not dust. -/
structure Appeal.InOrder (a : Appeal) : Prop where
  deleted : a.bank.isDeleted = false
  kind : a.bank.kind = .bank
  sheet : a.bank.sheet.Nonneg
  due : .epsilon < a.shortfall

/-- A bail-out before a government. -/
def Appeal.hear (a : Appeal) (g : Government) : Except Error Hearing := do
  let (episode, left) ← Policy.bailout.resolve a.bank a.shortfall
    { a.surroundings with government := some g }
  return ⟨a, g, episode, left⟩

/-- Any number of appeals, each before the government that the one before has left. -/
def Government.hearAll (g : Government) : List Appeal → Except Error (List Hearing × Government)
  | [] => .ok ([], g)
  | a :: rest => do
    let h ← a.hear g
    let (hearings, final) ← h.after.hearAll rest
    return (h :: hearings, final)

/-- A hearing has granted the appeal or refused it, by the budget alone, and has not overdrawn
it. -/
structure Hearing.Decided (h : Hearing) : Prop where
  left : h.left.government = some h.after
  budget : 0 ≤ h.after.budget
  resolved_iff : h.episode.outcome = .resolved ↔ h.appeal.shortfall ≤ h.before.budget
  granted : h.appeal.shortfall ≤ h.before.budget →
    Bailout.Granted h.appeal.bank h.appeal.shortfall h.before h.after h.episode
  refused : ¬ h.appeal.shortfall ≤ h.before.budget →
    Bailout.Refused h.appeal.bank h.before h.after h.episode

namespace Appeal

variable {a : Appeal} {g : Government} {h : Hearing}

theorem InOrder.objection? (horder : a.InOrder) :
    Policy.bailout.objection? a.bank a.shortfall = none := by
  have hshortfall : ¬ a.shortfall < 0 := by
    rw [lt_iff_toRat, toRat_zero, not_lt]
    exact (toRat_pos_of_epsilon_lt horder.due).le
  unfold Policy.objection?
  rw [horder.deleted, if_neg Bool.false_ne_true, if_neg hshortfall,
    BalanceSheet.nonneg_iff.mp horder.sheet, Policy.appliesTo, Policy.requiredKind?, horder.kind]
  rfl

/-- A hearing fails by an overflow if at all. -/
theorem InOrder.failsOnlyBy_hear (horder : a.InOrder) (g : Government) :
    FailsOnlyBy Error.IsOverflow (a.hear g) := by
  unfold hear Policy.resolve
  rw [horder.objection?]
  exact (Policy.failsOnlyBy_run .bailout _ _ _).lift.bind fun _ _ => failsOnlyBy_pure _

theorem InOrder.decided_of_hear (horder : a.InOrder) (hheard : a.hear g = .ok h)
    (hbudget : 0 ≤ g.budget) : h.appeal = a ∧ h.before = g ∧ h.Decided := by
  simp only [hear, bind_eq_ok, pure_eq_ok] at hheard
  obtain ⟨⟨episode, left⟩, hresolve, rfl⟩ := hheard
  obtain ⟨-, hrun⟩ := Policy.resolve_eq_ok.mp hresolve
  refine ⟨rfl, rfl, ?_⟩
  rcases Bailout.granted_or_refused hrun horder.due rfl with
    ⟨hwithin, paid, hleft, hgranted⟩ | ⟨hbeyond, hleft, hrefused⟩
  · have hafter : (⟨a, g, episode, left⟩ : Hearing).after = paid := by
      rw [Hearing.after, hleft]
      rfl
    exact {
      left := by rw [hafter]; exact hleft
      budget := by
        rw [hafter]
        have hpaid := hgranted.government
        simp only [Government.disburse, bind_eq_ok, pure_eq_ok] at hpaid
        obtain ⟨budget, hsub, disbursed, -, rfl⟩ := hpaid
        have hrest := sub_nonneg.mpr (le_iff_toRat.mp hwithin)
        exact zero_le_iff.mpr ((rounds_sub hsub).nonneg hrest)
      resolved_iff := iff_of_true hgranted.outcome hwithin
      granted := by
        intro _
        rw [hafter]
        exact hgranted
      refused := fun hbeyond => absurd hwithin hbeyond }
  · have hafter : (⟨a, g, episode, left⟩ : Hearing).after = g := by rw [Hearing.after, hleft]; rfl
    have hflagged : ¬ episode.outcome = .resolved := by
      rw [hrefused.outcome]
      decide
    exact {
      left := by rw [hafter]; exact hleft
      budget := by
        rw [hafter]
        exact hbudget
      resolved_iff := iff_of_false hflagged hbeyond
      granted := fun hwithin => absurd hwithin hbeyond
      refused := by
        intro _
        rw [hafter]
        exact hrefused }

end Appeal

namespace Government

/-! ### A whole sequence -/

variable {g final : Government} {appeals : List Appeal} {hearings : List Hearing}

theorem failsOnlyBy_hearAll (g : Government) (horder : ∀ a ∈ appeals, a.InOrder) :
    FailsOnlyBy Error.IsOverflow (g.hearAll appeals) := by
  induction appeals generalizing g with
  | nil => exact failsOnlyBy_ok _
  | cons a rest ih =>
      obtain ⟨ha, hrest⟩ := List.forall_mem_cons.mp horder
      exact (ha.failsOnlyBy_hear g).bind fun h _ => (ih h.after hrest).bind fun _ _ =>
        failsOnlyBy_pure _

theorem hearAll_cons {a : Appeal} {rest : List Appeal}
    (h : g.hearAll (a :: rest) = .ok (hearings, final)) :
    ∃ first later, a.hear g = .ok first ∧ first.after.hearAll rest = .ok (later, final) ∧
      hearings = first :: later := by
  simp only [hearAll, bind_eq_ok, pure_eq_ok, Prod.mk.injEq] at h
  obtain ⟨first, hfirst, ⟨later, final'⟩, hlater, rfl, rfl⟩ := h
  exact ⟨first, later, hfirst, hlater, rfl⟩

/-- All appeals are heard in turn, and each is decided. -/
theorem decided_of_hearAll (h : g.hearAll appeals = .ok (hearings, final))
    (horder : ∀ a ∈ appeals, a.InOrder) (hbudget : 0 ≤ g.budget) :
    hearings.map Hearing.appeal = appeals ∧ (∀ h ∈ hearings, h.Decided) ∧ 0 ≤ final.budget := by
  induction appeals generalizing g hearings with
  | nil =>
      obtain ⟨rfl, rfl⟩ := Prod.mk.inj (Except.ok.inj h)
      exact ⟨rfl, List.forall_mem_nil _, hbudget⟩
  | cons a rest ih =>
      obtain ⟨ha, hrest⟩ := List.forall_mem_cons.mp horder
      obtain ⟨first, later, hfirst, hlater, rfl⟩ := hearAll_cons h
      obtain ⟨happeal, -, hdecided⟩ := ha.decided_of_hear hfirst hbudget
      obtain ⟨happeals, hall, hfinal⟩ := ih hlater hrest hdecided.budget
      refine ⟨?_, List.forall_mem_cons.mpr ⟨hdecided, hall⟩, hfinal⟩
      rw [List.map_cons, happeal, happeals]

/-! ### Nothing gets lost -/

/-- Budget and disbursements are multiples of `10⁻ᵏ` that come to the total. -/
structure InBalance (k : Nat) (total : ℚ) (g : Government) : Prop where
  budget_onGrid : OnGrid k g.budget.toRat
  disbursed_onGrid : OnGrid k g.disbursed.toRat
  budget_nonneg : 0 ≤ g.budget.toRat
  disbursed_nonneg : 0 ≤ g.disbursed.toRat
  total : g.budget.toRat + g.disbursed.toRat = total

variable {k : Nat} {total : ℚ}

/-- An amount that the budget allows is moved over without rounding. -/
theorem InBalance.disburse {after : Government} {amount : Decimal} (hg : g.InBalance k total)
    (hbound : total < gridBound k) (hgrid : OnGrid k amount.toRat) (hamount : 0 ≤ amount.toRat)
    (hle : amount ≤ g.budget) (h : g.disburse amount = .ok after) :
    after.InBalance k total ∧ after.disbursed.toRat = g.disbursed.toRat + amount.toRat := by
  have hwithin : amount.toRat ≤ g.budget.toRat := le_iff_toRat.mp hle
  have htotal := hg.total
  have hdisbursed0 := hg.disbursed_nonneg
  simp only [Government.disburse, bind_eq_ok, pure_eq_ok] at h
  obtain ⟨budget, hbudget, disbursed, hdisbursed, rfl⟩ := h
  have hrest : |g.budget.toRat - amount.toRat| < gridBound k := by
    rw [abs_of_nonneg (sub_nonneg.mpr hwithin)]
    linarith
  have hgiven : |g.disbursed.toRat + amount.toRat| < gridBound k := by
    rw [abs_of_nonneg (add_nonneg hdisbursed0 hamount)]
    linarith
  obtain ⟨b, hb, hbeq⟩ := exists_sub_of_onGrid hg.budget_onGrid hgrid hrest
  obtain ⟨d, hd, hdeq⟩ := exists_add_of_onGrid hg.disbursed_onGrid hgrid hgiven
  obtain rfl : b = budget := Except.ok.inj (hb.symm.trans hbudget)
  obtain rfl : d = disbursed := Except.ok.inj (hd.symm.trans hdisbursed)
  refine ⟨?_, hdeq⟩
  exact {
    budget_onGrid := hbeq ▸ hg.budget_onGrid.sub hgrid
    disbursed_onGrid := hdeq ▸ hg.disbursed_onGrid.add hgrid
    budget_nonneg := by
      show 0 ≤ b.toRat
      rw [hbeq]
      exact sub_nonneg.mpr hwithin
    disbursed_nonneg := by
      show 0 ≤ d.toRat
      rw [hdeq]
      exact add_nonneg hdisbursed0 hamount
    total := by
      show b.toRat + d.toRat = total
      rw [hbeq, hdeq, ← htotal]
      ring }

/-- One hearing keeps the balance, and what it adds to the disbursements is what it funds. -/
theorem InBalance.of_decided {h : Hearing} (hbefore : h.before.InBalance k total)
    (hdecided : h.Decided) (hbound : total < gridBound k)
    (hgrid : OnGrid k h.appeal.shortfall.toRat) (hdue : 0 ≤ h.appeal.shortfall.toRat) :
    h.after.InBalance k total ∧ h.after.disbursed.toRat
      = h.before.disbursed.toRat + h.episode.totals.governmentFunding.toRat := by
  by_cases hwithin : h.appeal.shortfall ≤ h.before.budget
  · have hgranted := hdecided.granted hwithin
    rw [hgranted.funding]
    exact hbefore.disburse hbound hgrid hdue hwithin hgranted.government
  · have hrefused := hdecided.refused hwithin
    rw [hrefused.government, hrefused.funding, toRat_zero, add_zero]
    exact ⟨hbefore, rfl⟩

theorem inBalance_of_hearAll (h : g.hearAll appeals = .ok (hearings, final))
    (horder : ∀ a ∈ appeals, a.InOrder) (hgrid : ∀ a ∈ appeals, OnGrid k a.shortfall.toRat)
    (hbound : total < gridBound k) (hg : g.InBalance k total) :
    (∀ h ∈ hearings, h.after.InBalance k total) ∧ final.InBalance k total ∧
      final.disbursed.toRat = g.disbursed.toRat
        + exactSum (hearings.map fun h => h.episode.totals.governmentFunding) := by
  induction appeals generalizing g hearings with
  | nil =>
      obtain ⟨rfl, rfl⟩ := Prod.mk.inj (Except.ok.inj h)
      exact ⟨List.forall_mem_nil _, hg, (add_zero _).symm⟩
  | cons a rest ih =>
      obtain ⟨ha, hrest⟩ := List.forall_mem_cons.mp horder
      obtain ⟨hga, hgrest⟩ := List.forall_mem_cons.mp hgrid
      obtain ⟨first, later, hfirst, hlater, rfl⟩ := hearAll_cons h
      obtain ⟨happeal, hbefore, hdecided⟩ :=
        ha.decided_of_hear hfirst (zero_le_iff.mpr hg.budget_nonneg)
      have hdue := (toRat_pos_of_epsilon_lt ha.due).le
      rw [← happeal] at hga hdue
      rw [← hbefore] at hg
      obtain ⟨hafter, hgiven⟩ := hg.of_decided hdecided hbound hga hdue
      obtain ⟨hall, hfinal, hsum⟩ := ih hlater hrest hgrest hafter
      refine ⟨List.forall_mem_cons.mpr ⟨hafter, hall⟩, hfinal, ?_⟩
      rw [hsum, hgiven, hbefore, List.map_cons, exactSum_cons, add_assoc]

theorem eq_of_found {name : String} {budget : Decimal} (h : found name budget = .ok g) :
    0 ≤ budget ∧ g = ⟨name, budget, 0⟩ := by
  simp only [found, bind_eq_ok, pure_eq_ok] at h
  obtain ⟨_, hrefuse, rfl⟩ := h
  refine ⟨?_, rfl⟩
  split_ifs at hrefuse with hnegative
  · cases hrefuse
  · rwa [lt_iff_toRat, not_lt, ← le_iff_toRat] at hnegative

/-- **Bail-out money is accounted for**, over any number of appeals to one government.  They fail
by an overflow if at all.  Otherwise each is granted in full or refused, by the budget at that
moment, and the budget is never overdrawn.  And if all figures are multiples of one power of ten
and the budget is within its bounds, then nothing gets lost: budget and disbursements always come to
the budget at first, and the disbursements are what the episodes report. -/
theorem bailouts_accounted {name : String} {budget : Decimal} {g : Government}
    {appeals : List Appeal} (hfound : Government.found name budget = .ok g)
    (horder : ∀ a ∈ appeals, a.InOrder) :
    FailsOnlyBy Error.IsOverflow (g.hearAll appeals) ∧
    ∀ hearings final, g.hearAll appeals = .ok (hearings, final) →
      hearings.map Hearing.appeal = appeals ∧ (∀ h ∈ hearings, h.Decided) ∧
      ∀ k, OnGrid k budget.toRat → (∀ a ∈ appeals, OnGrid k a.shortfall.toRat) →
        budget.toRat < gridBound k →
        (∀ h ∈ hearings, h.after.budget.toRat + h.after.disbursed.toRat = budget.toRat) ∧
        final.budget.toRat + final.disbursed.toRat = budget.toRat ∧
        final.disbursed.toRat
          = exactSum (hearings.map fun h => h.episode.totals.governmentFunding) := by
  obtain ⟨hbudget, rfl⟩ := eq_of_found hfound
  refine ⟨failsOnlyBy_hearAll _ horder, fun hearings final hheard => ?_⟩
  obtain ⟨happeals, hdecided, -⟩ := decided_of_hearAll hheard horder hbudget
  refine ⟨happeals, hdecided, fun k hgrid hgrids hbound => ?_⟩
  have hstart : InBalance k budget.toRat ⟨name, budget, 0⟩ := {
    budget_onGrid := hgrid
    disbursed_onGrid := by
      rw [toRat_zero]
      exact onGrid_zero k
    budget_nonneg := zero_le_iff.mp hbudget
    disbursed_nonneg := toRat_zero.ge
    total := by rw [toRat_zero, add_zero] }
  obtain ⟨hall, hfinal, hsum⟩ := inBalance_of_hearAll hheard horder hgrids hbound hstart
  refine ⟨fun h hh => (hall h hh).total, hfinal.total, ?_⟩
  rw [hsum, toRat_zero, zero_add]

/-- The first of two appeals takes most of the budget, and the second is refused. -/
def sampleAppeals : List Appeal :=
  [⟨sampleBank, 100.0, sampleContext⟩, ⟨sampleBank, 50.0, sampleContext⟩]

theorem sampleAppeals_inOrder : ∀ a ∈ sampleAppeals, a.InOrder := by
  have hsheet : sampleBank.sheet.Nonneg := BalanceSheet.nonneg_iff.mpr rfl
  intro a ha
  simp only [sampleAppeals, List.mem_cons, List.not_mem_nil, or_false] at ha
  rcases ha with rfl | rfl
  · exact ⟨rfl, rfl, hsheet, by decide⟩
  · exact ⟨rfl, rfl, hsheet, by decide⟩

theorem bailouts_accounted_sampleAppeals : ∃ g hearings final,
    Government.found "treasury" 120.0 = .ok g ∧ (∀ a ∈ sampleAppeals, a.InOrder) ∧
      g.hearAll sampleAppeals = .ok (hearings, final) ∧
      (hearings.map fun h => h.episode.outcome) = [.resolved, .flaggedForLiquidation] ∧
      (∀ h ∈ hearings, h.Decided) ∧ OnGrid 0 (120.0 : Decimal).toRat ∧
      (∀ a ∈ sampleAppeals, OnGrid 0 a.shortfall.toRat) ∧
      (120.0 : Decimal).toRat < gridBound 0 ∧
      final.budget.toRat + final.disbursed.toRat = (120.0 : Decimal).toRat ∧
      final.disbursed.toRat
        = exactSum (hearings.map fun h => h.episode.totals.governmentFunding) := by
  obtain ⟨g, hearings, final, hfound, hheard, houtcomes⟩ : ∃ g hearings final,
      Government.found "treasury" 120.0 = .ok g ∧
        g.hearAll sampleAppeals = .ok (hearings, final) ∧
        (hearings.map fun h => h.episode.outcome) = [.resolved, .flaggedForLiquidation] :=
    ⟨_, _, _, rfl, rfl, rfl⟩
  have hbudget : (120.0 : Decimal).toRat = (120 : Int) := toRat_of_whole (by decide)
  have hwhole : OnGrid 0 (120.0 : Decimal).toRat := hbudget ▸ onGrid_intCast 120
  have hbound : (120.0 : Decimal).toRat < gridBound 0 := by
    rw [hbudget, gridBound_zero]
    norm_num [mantissaBound]
  have hwholes : ∀ a ∈ sampleAppeals, OnGrid 0 a.shortfall.toRat := by
    intro a ha
    simp only [sampleAppeals, List.mem_cons, List.not_mem_nil, or_false] at ha
    rcases ha with rfl | rfl
    · rw [toRat_of_whole (n := 100) (by decide)]
      exact onGrid_intCast 100
    · rw [toRat_of_whole (n := 50) (by decide)]
      exact onGrid_intCast 50
  obtain ⟨-, hall⟩ := bailouts_accounted hfound sampleAppeals_inOrder
  obtain ⟨-, hdecided, hbalance⟩ := hall hearings final hheard
  obtain ⟨-, hfinal⟩ := hbalance 0 hwhole hwholes hbound
  exact ⟨g, hearings, final, hfound, sampleAppeals_inOrder, hheard, houtcomes, hdecided, hwhole,
    hwholes, hbound, hfinal⟩

end Government

end Insolvency
