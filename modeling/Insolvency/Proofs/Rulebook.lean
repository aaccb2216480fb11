/-
The checks of a rulebook agree.

The same parameters are checked in three places: in a rulebook, one after the other; in a
draft, those that are set; and by what an authority is put together from, the weights and
the target ratio a second time, the approval rule when a central bank is founded, the
policy's own when it is run.  The standard parameters are in range (`fault?_standard`), so
leaving a parameter open is as good as setting it to its standard value
(`Draft.fault?_filled`), and a check that has passed passes again.
-/
import Insolvency.Proofs.Capital.Refusals

namespace Insolvency

/-! ### One check after the other -/

/-- Of two faults the first is refused, so checks can be made one after the other. -/
theorem ConfigFault.refuse_orElse (x y : Option ConfigFault) :
    refuse (x <|> y) = (do refuse x; refuse y) := by
  cases x <;> rfl

theorem ConfigFault.refuse_eq_ok {x : Option ConfigFault} {u : Unit} :
    refuse x = .ok u ↔ x = none := by
  cases x <;> simp [refuse]

namespace Rulebook

/-- The check of a rulebook is the checks of its parameters, in the order of the fields. -/
theorem check_eq (b : Rulebook) : b.check = (do
    b.riskWeights.check
    ConfigFault.refuse b.target.fault?
    ConfigFault.refuse b.terms.fault?
    ConfigFault.refuse b.loanApproval.fault?
    ConfigFault.refuse b.policy.fault?) := by
  simp only [check, fault?, RiskWeights.check, ConfigFault.refuse_orElse]

theorem check_eq_ok {b : Rulebook} {u : Unit} : b.check = .ok u ↔ b.fault? = none :=
  ConfigFault.refuse_eq_ok

/-- Nothing is out of range in the standard rulebook. -/
theorem fault?_standard : standard.fault? = none := by decide

namespace Draft

/-- A check for each parameter that a draft may set, in the order of the fields. -/
def checks (d : Draft) : List (Option (Except Error Unit)) :=
  [d.riskWeights.map fun w => ConfigFault.refuse w.fault?,
    d.target.map fun t => ConfigFault.refuse t.fault?,
    d.terms.map fun t => ConfigFault.refuse t.fault?,
    d.loanApproval.map fun approval => ConfigFault.refuse approval.fault?,
    d.policy.map fun p => ConfigFault.refuse p.fault?]

theorem forM_checks_cons {α : Type} (x : Option α) (f : α → Option ConfigFault)
    (rest : List (Option (Except Error Unit))) :
    (((x.map fun a => ConfigFault.refuse (f a)) :: rest).filterMap id).forM id
      = (do ConfigFault.refuse (x.bind f); (rest.filterMap id).forM id) := by
  cases x <;> rfl

/-- A draft is built once the checks of what is set have all passed. -/
theorem build_eq_checks (d : Draft) :
    d.build = (do (d.checks.filterMap id).forM id; return d.filled) := by
  have hchecks : ConfigFault.refuse d.fault? = (d.checks.filterMap id).forM id := by
    simp only [fault?, ConfigFault.refuse_orElse, checks, forM_checks_cons, List.filterMap_nil,
      List.forM, bind_pure_unit]
  rw [build, hchecks]

/-- A parameter left open is as good as one set to a standard value that is in range. -/
theorem fault?_getD {α : Type} {fault? : α → Option ConfigFault} {standard : α}
    (h : fault? standard = none) (x : Option α) : fault? (x.getD standard) = x.bind fault? := by
  cases x with
  | none => exact h
  | some _ => rfl

/-- A draft has the same first fault as the rulebook it stands for. -/
theorem fault?_filled (d : Draft) : d.filled.fault? = d.fault? := by
  obtain ⟨hweights, htarget, hterms, happroval, hpolicy⟩ := fault?_eq_none.mp fault?_standard
  simp only [Rulebook.fault?, fault?, filled, fault?_getD hweights, fault?_getD htarget,
    fault?_getD hterms, fault?_getD happroval, fault?_getD hpolicy]

theorem build_eq (d : Draft) : d.build = (do d.filled.check; return d.filled) := by
  rw [build, check, fault?_filled]

end Draft

end Rulebook

/-! ### Past the checks -/

namespace Policy

variable {p : Policy} {i : Institution} {shortfall : Decimal} {ctx : Context}

/-- A policy with its parameters in range is never refused for them. -/
theorem resolve_ne_invalidConfiguration (hp : p.fault? = none) (fault : ConfigFault) :
    p.resolve i shortfall ctx ≠ .error (.invalidConfiguration fault) := by
  intro h
  rcases resolve_eq_error h with hobjection | ⟨_, -, hfault⟩
  · cases objection_of_objection? hobjection with
    | parameter hparameter => cases hp.symm.trans hparameter
  · cases hfault

end Policy

namespace Authority

/-- An authority put together with every check made on the way: that of the rulebook, and
once more those of the weights and of the target ratio that it measures with. -/
def assemble (b : Rulebook) : Except Error Authority := do
  b.check
  b.riskWeights.check
  ConfigFault.refuse b.target.fault?
  found b

theorem found_eq_ok_iff {b : Rulebook} {a : Authority} : found b = .ok a ↔ a.rulebook = b := by
  unfold found
  split
  next h =>
    rw [Except.ok.injEq]
    constructor
    · rintro rfl
      rfl
    · intro hb
      cases a
      cases hb
      rfl
  next fault h =>
    constructor
    · intro hok
      cases hok
    · rintro rfl
      cases h.symm.trans a.inRange

theorem found_eq_error_iff {b : Rulebook} {err : Error} :
    found b = .error err ↔ b.check = .error err := by
  unfold found Rulebook.check
  split
  next h => simp [h, ConfigFault.refuse]
  next fault h => simp [h, ConfigFault.refuse]

/-- The checks made a second time find nothing that the first have not. -/
theorem assemble_eq_found (b : Rulebook) : assemble b = found b := by
  unfold assemble
  cases hcheck : b.check with
  | error err => exact (found_eq_error_iff.mpr hcheck).symm
  | ok _ =>
      obtain ⟨hweights, htarget, -⟩ := Rulebook.fault?_eq_none.mp (Rulebook.check_eq_ok.mp hcheck)
      rw [RiskWeights.check, hweights, htarget]
      rfl

variable {a : Authority} {i : Institution} {ctx : Context}

/-- An authority has a central bank, which lends by its rulebook and has lent nothing yet. -/
theorem centralBank_eq (a : Authority) (id : String) :
    a.centralBank id = .ok ⟨id, a.rulebook.loanApproval, a.rulebook.riskMeasure, ∅⟩ := by
  obtain ⟨-, -, -, happroval, -⟩ := Rulebook.fault?_eq_none.mp a.inRange
  rw [centralBank, CentralBank.found, happroval]
  rfl

/-- Measuring an institution is refused for its books or fails in the arithmetic. -/
theorem assess_ne_invalidConfiguration (a : Authority) (i : Institution) (fault : ConfigFault) :
    a.assess i ≠ .error (.invalidConfiguration fault) := by
  intro h
  cases hfault : i.sheet.fault? with
  | some negative => cases (assess_of_fault hfault).symm.trans h
  | none =>
      obtain ⟨_, herr⟩ := assess_eq_error h (BalanceSheet.nonneg_iff.mpr hfault)
      cases herr

theorem resolve_ne_invalidConfiguration (a : Authority) (i : Institution) (ctx : Context)
    (fault : ConfigFault) : a.resolve i ctx ≠ .error (.invalidConfiguration fault) := by
  intro h
  simp only [resolve, bind_eq_error] at h
  rcases h with hassess | ⟨x, -, h⟩
  · exact a.assess_ne_invalidConfiguration i fault hassess
  split_ifs at h
  · cases h
  · exact Policy.resolve_ne_invalidConfiguration a.policy_fault? fault h

end Authority

/-- **All checks of a rulebook agree.**  A draft is built once the checks of what is set in it
have passed.  They pass just if the rulebook it stands for passes its own check, and the draft
is refused for the same fault else.  That check is the checks of the parameters, one after the
other.  It decides too whether an authority is founded, also where the checks of what it
measures with are made again.  The authority then has a central bank, and neither its policy nor the
authority itself ever refuses an institution for a parameter. -/
theorem Rulebook.checks_agree (d : Rulebook.Draft) (b : Rulebook) :
    d.build = (do (d.checks.filterMap id).forM id; return d.filled) ∧
    (∀ built, d.build = .ok built ↔ d.filled.check = .ok () ∧ built = d.filled) ∧
    (∀ err, d.build = .error err ↔ d.filled.check = .error err) ∧
    b.check = (do
      b.riskWeights.check
      ConfigFault.refuse b.target.fault?
      ConfigFault.refuse b.terms.fault?
      ConfigFault.refuse b.loanApproval.fault?
      ConfigFault.refuse b.policy.fault?) ∧
    ((∃ a, Authority.found b = .ok a) ↔ b.check = .ok ()) ∧
    (∀ err, Authority.found b = .error err ↔ b.check = .error err) ∧
    Authority.assemble b = Authority.found b ∧
    ∀ a, Authority.found b = .ok a → a.rulebook = b ∧
      (∀ id, a.centralBank id = .ok ⟨id, b.loanApproval, b.riskMeasure, ∅⟩) ∧
      b.policy.fault? = none ∧
      (∀ i shortfall ctx fault,
        b.policy.resolve i shortfall ctx ≠ .error (.invalidConfiguration fault)) ∧
      ∀ i ctx fault, a.resolve i ctx ≠ .error (.invalidConfiguration fault) := by
  refine ⟨d.build_eq_checks, ?_⟩
  rw [Draft.build_eq]
  refine ⟨fun built => ?_, fun err => ?_, b.check_eq, ?_, fun err => Authority.found_eq_error_iff,
    Authority.assemble_eq_found b, ?_⟩
  · rw [bind_eq_ok]
    constructor
    · rintro ⟨_, hcheck, hbuilt⟩
      exact ⟨hcheck, (pure_eq_ok.mp hbuilt).symm⟩
    · rintro ⟨hcheck, rfl⟩
      exact ⟨(), hcheck, rfl⟩
  · simp only [bind_eq_error, reduceCtorEq, and_false, exists_const, or_false, pure, Except.pure]
  · simp only [Authority.found_eq_ok_iff, check_eq_ok]
    refine ⟨?_, fun h => ⟨⟨b, h⟩, rfl⟩⟩
    rintro ⟨a, rfl⟩
    exact a.inRange
  · intro a hfound
    obtain rfl := Authority.found_eq_ok_iff.mp hfound
    exact ⟨rfl, a.centralBank_eq, a.policy_fault?,
      fun _ _ _ fault => Policy.resolve_ne_invalidConfiguration a.policy_fault? fault,
      a.resolve_ne_invalidConfiguration⟩

/-- A draft that sets a target, an approval rule and a policy. -/
def sampleDraft : Rulebook.Draft where
  target := some ⟨0.12⟩
  loanApproval := some (.riskBased 5.0)
  policy := some (.assetThreshold (.cashFraction 0.5))

/-- It is built with the other parameters at their standard values, and the authority founded on it
lends and resolves by what it sets. -/
theorem Rulebook.checks_agree_sampleDraft :
    (∃ b, sampleDraft.build = .ok b ∧ b.target = ⟨0.12⟩ ∧ b.riskWeights = .standard) ∧
    ∃ a, Authority.found sampleDraft.filled = .ok a ∧
      a.centralBank "cb" = .ok ⟨"cb", .riskBased 5.0, .simpleLeverage, ∅⟩ ∧
      ∀ i shortfall ctx fault, (Policy.assetThreshold (.cashFraction 0.5)).resolve i shortfall ctx
        ≠ .error (.invalidConfiguration fault) := by
  have hcheck : sampleDraft.filled.check = .ok () := by decide
  obtain ⟨-, hbuilt, -, -, hfounded, -, -, haccepted⟩ :=
    Rulebook.checks_agree sampleDraft sampleDraft.filled
  obtain ⟨a, ha⟩ := hfounded.mpr hcheck
  obtain ⟨-, hbank, -, hpolicy, -⟩ := haccepted a ha
  exact ⟨⟨_, (hbuilt _).mpr ⟨hcheck, rfl⟩, rfl, rfl⟩, a, ha, hbank "cb", hpolicy⟩

/-- Of two faults the one of the earlier field is told, wherever it is looked for. -/
example :
    let d : Rulebook.Draft :=
      { policy := some (.assetThreshold (.cashFraction 2.0)), target := some ⟨-1⟩ }
    d.build = .error (.invalidConfiguration .negativeTargetRatio)
      ∧ d.filled.check = .error (.invalidConfiguration .negativeTargetRatio) := by
  decide

end Insolvency
