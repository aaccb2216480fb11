/-
What a resolution authority refuses.

Books that hold anything negative are refused first, whatever else is wrong.  Books in order
are measured, and one that complies is left alone, deleted or not.  What falls short is
refused if it is deleted, and else if the policy is not for its kind; past that there is an
episode.  The parameters of an authority are in range, so no check of parameters can fail,
and neither can any check of an amount: what is lacking is more than dust, and a government
without the means is an outcome of the episode.

All this is decided before anything is done (`Answers.performed`).
-/
import Insolvency.Proofs.Capital.Recapitalization
import Insolvency.Proofs.Episode.Performance

namespace Insolvency

open Decimal

/-! ### Entries below nothing -/

/-- Some account is below nothing. -/
def Accounts.Overdrawn {κ : Type} [Ord κ] (a : Accounts κ) : Prop := ∃ x ∈ a.entries, x.2 < 0

theorem Accounts.overdrawn_iff {κ : Type} [Ord κ] {a : Accounts κ} :
    a.Overdrawn ↔ a.hasNegative = true := by
  unfold Overdrawn hasNegative Table.values
  simp

/-- What books are refused for: assets count before liabilities, and these before shares. -/
def BalanceSheet.FirstNegative (s : BalanceSheet) : LedgerFault → Prop
  | .negativeAsset => s.assets.holdings.Overdrawn
  | .negativeLiability => ¬ s.assets.holdings.Overdrawn ∧
      (s.liabilities.loans.Overdrawn ∨ s.liabilities.deposits.Overdrawn)
  | .negativeShares => ¬ s.assets.holdings.Overdrawn ∧
      ¬ (s.liabilities.loans.Overdrawn ∨ s.liabilities.deposits.Overdrawn) ∧
      s.shares.holders.Overdrawn
  | .negativeRiskWeightedAssets => False

theorem BalanceSheet.firstNegative_iff {s : BalanceSheet} {fault : LedgerFault} :
    s.FirstNegative fault ↔ s.fault? = some fault := by
  have hassets : s.assets.holdings.Overdrawn ↔ s.assets.hasNegative = true := Accounts.overdrawn_iff
  have hliabilities : (s.liabilities.loans.Overdrawn ∨ s.liabilities.deposits.Overdrawn)
      ↔ s.liabilities.hasNegative = true := by
    rw [Accounts.overdrawn_iff, Accounts.overdrawn_iff, Liabilities.hasNegative, Bool.or_eq_true]
  have hshares : s.shares.holders.Overdrawn ↔ s.shares.hasNegative = true := Accounts.overdrawn_iff
  unfold fault?
  cases fault with
  | negativeAsset => simp only [FirstNegative, hassets]; grind
  | negativeLiability => simp only [FirstNegative, hassets, hliabilities]; grind
  | negativeShares => simp only [FirstNegative, hassets, hliabilities, hshares]; grind
  | negativeRiskWeightedAssets => simp only [FirstNegative]; grind

/-! ### Kinds of institutions -/

/-- The policy is not for institutions of this kind: bail-ins and bail-outs are for banks, asset
thresholds and debt-for-equity swaps for firms. -/
def Policy.Unsupported (p : Policy) (kind : InstitutionKind) : Prop :=
  ((p = .bailin ∨ p = .bailout) ∧ kind ≠ .bank) ∨
    (((∃ cash, p = .assetThreshold cash) ∨ p = .debtEquitySwap) ∧ kind ≠ .macroFirm)

theorem Policy.unsupported_iff {p : Policy} {kind : InstitutionKind} :
    p.Unsupported kind ↔ p.appliesTo kind = false := by
  unfold Unsupported appliesTo
  cases p <;> cases kind <;> simp [requiredKind?]

/-! ### Intermediaries -/

/-- All that is filled in for an intermediary that is to hold shares for a creditor. -/
def Intermediary.Draft.holding (id : IntermediaryId) (beneficiary : AgentId)
    (stock : InstitutionId) (shares : Decimal) (terms : SellOffTerms) (now : Timestamp) :
    Intermediary.Draft where
  id := id
  beneficiary := beneficiary
  stock := stock
  shares := shares
  valueThreshold := terms.valueThreshold
  sellRate := terms.sellRate
  sellAllBelow := terms.sellAllBelow
  active := true
  created := now
  updated := now

/-- Nothing is missing from it, so an intermediary is spawned without fail. -/
theorem Intermediary.Draft.build_holding (id : IntermediaryId) (beneficiary : AgentId)
    (stock : InstitutionId) (shares : Decimal) (terms : SellOffTerms) (now : Timestamp) :
    (holding id beneficiary stock shares terms now).build
      = .ok (.spawn id beneficiary stock shares terms now) := rfl

/-! ### Measuring -/

namespace Authority

variable {a : Authority} {i : Institution} {ctx : Context} {x : Assessment}

theorem assess_of_fault {fault : LedgerFault} (h : i.sheet.fault? = some fault) :
    a.assess i = .error (.corruptLedger fault) := by
  unfold assess BalanceSheet.check
  rw [h]
  rfl

/-- Books in order are measured unless an amount becomes too large. -/
theorem failsOnlyBy_assess (a : Authority) (hs : i.sheet.Nonneg) :
    FailsOnlyBy Error.IsOverflow (a.assess i) := by
  have hcheck : i.sheet.check = .ok () := by
    unfold BalanceSheet.check
    rw [BalanceSheet.nonneg_iff.mp hs]
  have hassets : ¬ i.sheet.assets.hasNegative = true := by
    rw [Bool.not_eq_true]
    exact Accounts.nonneg_iff.mp hs.assets
  unfold assess RiskWeights.riskWeightedAssets
  rw [hcheck, if_neg hassets]
  refine FailsOnlyBy.bind (failsOnlyBy_ok ()) fun _ _ => ?_
  refine FailsOnlyBy.bind (BalanceSheet.failsOnlyBy_equity _).lift fun equity _ => ?_
  refine FailsOnlyBy.bind (FailsOnlyBy.lift ?_) fun weighted hweighted => ?_
  · exact failsOnlyBy_foldlM (fun _ _ _ => (failsOnlyBy_mul _ _).bind fun _ _ =>
      failsOnlyBy_add _ _) _
  have hpos := RiskWeights.weighted_nonneg (Rulebook.inRange_of_fault? a.inRange).1 hs.assets
    (liftM_eq_ok.mp hweighted)
  have hshortfall : ¬ weighted < 0 := by
    rw [lt_iff_toRat, toRat_zero]
    exact not_lt.mpr hpos
  unfold CapitalTarget.shortfall
  rw [if_neg hshortfall]
  refine FailsOnlyBy.bind ?_ fun _ _ => failsOnlyBy_pure _
  refine FailsOnlyBy.bind (failsOnlyBy_mul _ _).lift fun required _ => ?_
  exact FailsOnlyBy.bind (failsOnlyBy_sub _ _).lift fun lacking _ => failsOnlyBy_pure _

/-- The policy of an authority has its own parameters in range. -/
theorem policy_fault? (a : Authority) : a.rulebook.policy.fault? = none := by
  obtain ⟨-, -, -, -, hpolicy⟩ := Rulebook.fault?_eq_none.mp a.inRange
  exact hpolicy

/-- What becomes of an institution once it is measured, in the order in which it is decided. -/
theorem resolve_of_assess (h : a.assess i = .ok x) (ctx : Context) :
    a.resolve i ctx =
      if x.shortfall = 0 then .ok (.compliant i, ctx)
      else if i.isDeleted then .error (.objectIsDeleted .institution)
      else if a.rulebook.policy.appliesTo i.kind = false then .error (.unsupportedDebtor i.kind)
      else liftM (a.rulebook.policy.run i x.shortfall { ctx with terms := a.rulebook.terms }) := by
  have hx := assessed_of_assess h
  have hshortfall : ¬ x.shortfall < 0 := by
    rw [lt_iff_toRat, toRat_zero]
    exact not_lt.mpr hx.shortfall_nonneg
  have hstep : a.resolve i ctx = if x.isCompliant then .ok (.compliant i, ctx)
      else a.rulebook.policy.resolve i x.shortfall { ctx with terms := a.rulebook.terms } := by
    unfold resolve
    rw [h]
    rfl
  rw [hstep]
  unfold Assessment.isCompliant Policy.resolve Policy.objection?
  rw [if_neg hshortfall, BalanceSheet.nonneg_iff.mp hx.sheet, a.policy_fault?]
  cases a.rulebook.policy.appliesTo i.kind with
  | true => grind
  | false => grind

/-- Everything that an authority answers about an institution. -/
structure Answers (a : Authority) (i : Institution) (ctx : Context) : Prop where
  /-- Books are refused just for the first kind of entry that is below nothing. -/
  corrupt : ∀ fault, a.resolve i ctx = .error (.corruptLedger fault) ↔ i.sheet.FirstNegative fault
  /-- All other books can be measured. -/
  assessed : (∀ fault, ¬ i.sheet.FirstNegative fault) → ∃ x, a.assess i = .ok x
  /-- What complies is left alone. -/
  compliant : ∀ x, a.assess i = .ok x → x.shortfall = 0 → a.resolve i ctx = .ok (.compliant i, ctx)
  /-- What falls short is refused just if it is deleted, -/
  deleted : ∀ x, a.assess i = .ok x →
    (a.resolve i ctx = .error (.objectIsDeleted .institution) ↔
      x.shortfall ≠ 0 ∧ i.isDeleted = true)
  /-- or else if the policy is not for its kind; -/
  unsupported : ∀ x, a.assess i = .ok x →
    (a.resolve i ctx = .error (.unsupportedDebtor i.kind) ↔
      x.shortfall ≠ 0 ∧ i.isDeleted = false ∧ a.rulebook.policy.Unsupported i.kind)
  /-- and in every other case there is an episode. -/
  resolved : ∀ x, a.assess i = .ok x →
    ((∃ r, a.resolve i ctx = .ok r) ↔
      (x.shortfall ≠ 0 → i.isDeleted = false ∧ ¬ a.rulebook.policy.Unsupported i.kind))
  /-- Nothing is refused for any other reason. -/
  refusals : ∀ err, a.resolve i ctx = .error err →
    (∃ fault, err = .corruptLedger fault) ∨ err = .objectIsDeleted .institution ∨
      err = .unsupportedDebtor i.kind
  /-- A shortfall is only ever worked out from assets that do not weigh less than nothing. -/
  weighted : ∀ w, a.rulebook.riskWeights.riskWeightedAssets i.sheet.assets = .ok w → 0 ≤ w
  /-- Every intermediary there is to be can be built. -/
  built : ∀ (id : IntermediaryId) (beneficiary : AgentId) (shares : Decimal) (now : Timestamp),
    (Intermediary.Draft.holding id beneficiary i.id shares a.rulebook.terms now).build
      = .ok (.spawn id beneficiary i.id shares a.rulebook.terms now)
  /-- On a context that others hold the answer is the same, -/
  performed : ∀ r, a.resolve i ctx = .ok r ↔ a.perform i ctx = (.ok r.1, r.2)
  /-- and a refusal leaves prices, queue and government as they were. -/
  untouched : ∀ err left, a.perform i ctx = (.error err, left) →
    a.resolve i ctx = .error err ∧ ctx.Untouched left

/-- Assets that are weighed at all do not weigh less than nothing. -/
theorem nonneg_of_riskWeightedAssets {w : Decimal}
    (h : a.rulebook.riskWeights.riskWeightedAssets i.sheet.assets = .ok w) : 0 ≤ w := by
  unfold RiskWeights.riskWeightedAssets at h
  split_ifs at h with hnegative
  exact zero_le_iff.mpr (RiskWeights.weighted_nonneg (Rulebook.inRange_of_fault? a.inRange).1
    (Accounts.nonneg_iff.mpr (Bool.not_eq_true _ ▸ hnegative)) (liftM_eq_ok.mp h))

/-- On a context that others hold there is an episode just where there is one, and it is the
same. -/
theorem resolve_eq_ok_iff_perform {r : Episode × Context} :
    a.resolve i ctx = .ok r ↔ a.perform i ctx = (.ok r.1, r.2) := by
  have hagree := a.agrees_resolve i ctx
  refine ⟨hagree.ok r, fun hperform => ?_⟩
  cases hresolve : a.resolve i ctx with
  | ok r' =>
      have hsame := (hagree.ok r' hresolve).symm.trans hperform
      obtain ⟨hepisode, hcontext⟩ := Prod.mk.inj hsame
      rw [Prod.ext (Except.ok.inj hepisode) hcontext]
  | error err =>
      obtain ⟨left, hleft, -⟩ := hagree.error err hresolve
      cases (Prod.mk.inj (hleft.symm.trans hperform)).1

/-- An error on a context that others hold is the same error, and one that is no overflow leaves
the context untouched. -/
theorem untouched_of_perform_eq_error {err : Error} {left : Context}
    (hroom : ∀ err, a.resolve i ctx = .error err → ¬ err.IsOverflow)
    (h : a.perform i ctx = (.error err, left)) :
    a.resolve i ctx = .error err ∧ ctx.Untouched left := by
  cases hresolve : a.resolve i ctx with
  | ok r =>
      cases (Prod.mk.inj ((resolve_eq_ok_iff_perform.mp hresolve).symm.trans h)).1
  | error err' =>
      obtain ⟨left', hleft, huntouched⟩ := (a.agrees_resolve i ctx).error err' hresolve
      obtain ⟨herr, rfl⟩ := Prod.mk.inj (hleft.symm.trans h)
      exact ⟨congrArg Except.error (Except.error.inj herr), huntouched (hroom err' hresolve)⟩

/-- Books that hold something negative are refused. -/
theorem answers_of_fault {fault : LedgerFault} (h : i.sheet.fault? = some fault)
    (hroom : ∀ err, a.resolve i ctx = .error err → ¬ err.IsOverflow) : a.Answers i ctx := by
  have hassess : a.assess i = .error (.corruptLedger fault) := assess_of_fault h
  have hresolve : a.resolve i ctx = .error (.corruptLedger fault) := by
    unfold resolve
    rw [hassess]
    rfl
  have hnone : ∀ x, a.assess i ≠ .ok x := fun x hx => by
    rw [hassess] at hx
    cases hx
  exact {
    corrupt := fun fault' => by
      rw [BalanceSheet.firstNegative_iff, h, hresolve, Option.some_inj, Except.error.injEq,
        Error.corruptLedger.injEq]
    assessed := fun hno => absurd (BalanceSheet.firstNegative_iff.mpr h) (hno fault)
    compliant := fun x hx => absurd hx (hnone x)
    deleted := fun x hx => absurd hx (hnone x)
    unsupported := fun x hx => absurd hx (hnone x)
    resolved := fun x hx => absurd hx (hnone x)
    refusals := fun err herr => Or.inl ⟨fault, Except.error.inj (herr.symm.trans hresolve)⟩
    weighted := fun _ => nonneg_of_riskWeightedAssets
    built := fun id beneficiary shares now => Intermediary.Draft.build_holding id beneficiary i.id
      shares a.rulebook.terms now
    performed := fun _ => resolve_eq_ok_iff_perform
    untouched := fun _ _ => untouched_of_perform_eq_error hroom }

/-- What is measured is left alone, refused or resolved. -/
theorem resolve_cases (h : a.assess i = .ok x)
    (hroom : ∀ err, a.resolve i ctx = .error err → ¬ err.IsOverflow) :
    (x.shortfall = 0 ∧ a.resolve i ctx = .ok (.compliant i, ctx)) ∨
    (x.shortfall ≠ 0 ∧ i.isDeleted = true ∧
      a.resolve i ctx = .error (.objectIsDeleted .institution)) ∨
    (x.shortfall ≠ 0 ∧ i.isDeleted = false ∧ a.rulebook.policy.Unsupported i.kind ∧
      a.resolve i ctx = .error (.unsupportedDebtor i.kind)) ∨
    (x.shortfall ≠ 0 ∧ i.isDeleted = false ∧ ¬ a.rulebook.policy.Unsupported i.kind ∧
      ∃ r, a.resolve i ctx = .ok r) := by
  have hresolve := resolve_of_assess h ctx
  rw [Policy.unsupported_iff]
  split_ifs at hresolve with hnone hdeleted hkind
  · exact Or.inl ⟨hnone, hresolve⟩
  · exact Or.inr (Or.inl ⟨hnone, hdeleted, hresolve⟩)
  · exact Or.inr (Or.inr (Or.inl ⟨hnone, Bool.not_eq_true _ ▸ hdeleted, hkind, hresolve⟩))
  · refine Or.inr (Or.inr (Or.inr ⟨hnone, Bool.not_eq_true _ ▸ hdeleted, hkind, ?_⟩))
    rw [hresolve] at hroom ⊢
    cases hrun : (liftM (a.rulebook.policy.run i x.shortfall
        { ctx with terms := a.rulebook.terms }) : Except Error (Episode × Context)) with
    | ok r => exact ⟨r, rfl⟩
    | error err =>
        have hoverflow := (a.rulebook.policy.failsOnlyBy_run i x.shortfall
          { ctx with terms := a.rulebook.terms }).lift err hrun
        exact absurd hoverflow (hroom err hrun)

/-- Books in order are answered by what is measured of them. -/
theorem answers_of_assess (h : a.assess i = .ok x)
    (hroom : ∀ err, a.resolve i ctx = .error err → ¬ err.IsOverflow) : a.Answers i ctx := by
  have hsheet : i.sheet.fault? = none := BalanceSheet.nonneg_iff.mp (assessed_of_assess h).sheet
  have hcases := resolve_cases h hroom
  have hsame : ∀ x', a.assess i = .ok x' → x' = x := fun x' hx' =>
    Except.ok.inj (hx'.symm.trans h)
  exact {
    corrupt := fun fault => by
      rw [BalanceSheet.firstNegative_iff, hsheet]
      grind
    assessed := fun _ => ⟨x, h⟩
    compliant := by grind
    deleted := by grind
    unsupported := by grind
    resolved := by grind
    refusals := by grind
    weighted := fun _ => nonneg_of_riskWeightedAssets
    built := fun id beneficiary shares now => Intermediary.Draft.build_holding id beneficiary i.id
      shares a.rulebook.terms now
    performed := fun _ => resolve_eq_ok_iff_perform
    untouched := fun _ _ => untouched_of_perform_eq_error hroom }

end Authority

/-- **What an authority answers, if no amount becomes too large**: books below nothing are refused
first, then what falls short and is deleted, then what falls short and is of the wrong kind.
Everything else is resolved or left alone. -/
theorem Authority.answers_of_no_overflow (a : Authority) (i : Institution) (ctx : Context)
    (hroom : ∀ err, a.resolve i ctx = .error err → ¬ err.IsOverflow) : a.Answers i ctx := by
  cases hfault : i.sheet.fault? with
  | some fault => exact answers_of_fault hfault hroom
  | none =>
      cases hassess : a.assess i with
      | ok x => exact answers_of_assess hassess hroom
      | error err =>
          have hresolve : a.resolve i ctx = .error err := by
            unfold resolve
            rw [hassess]
            rfl
          have hoverflow := a.failsOnlyBy_assess (BalanceSheet.nonneg_iff.mpr hfault) err hassess
          exact absurd hoverflow (hroom err hresolve)

/-- The sample bank falls short and is resolved; if it is deleted, it is refused for that. -/
theorem Authority.answers_of_no_overflow_sampleBank :
    (∃ r, strictAuthority.resolve sampleBank sampleContext = .ok r) ∧
    strictAuthority.Answers sampleBank sampleContext ∧
    strictAuthority.resolve { sampleBank with deleted := some sampleBank.updated } sampleContext
      = .error (.objectIsDeleted .institution) ∧
    strictAuthority.Answers { sampleBank with deleted := some sampleBank.updated }
      sampleContext := by
  have hresolved : ∃ r, strictAuthority.resolve sampleBank sampleContext = .ok r := ⟨_, rfl⟩
  have hrefused : strictAuthority.resolve { sampleBank with deleted := some sampleBank.updated }
      sampleContext = .error (.objectIsDeleted .institution) := rfl
  refine ⟨hresolved, answers_of_no_overflow _ _ _ fun err herr => ?_, hrefused,
    answers_of_no_overflow _ _ _ fun err herr => ?_⟩
  · obtain ⟨r, hr⟩ := hresolved
    cases hr.symm.trans herr
  · obtain rfl := Except.error.inj (hrefused.symm.trans herr)
    rintro ⟨fault, hfault, -⟩
    cases hfault

end Insolvency
