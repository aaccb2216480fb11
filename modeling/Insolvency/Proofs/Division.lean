/-
Nothing is divided by nothing.

The amounts divided by are share counts, debts, values of shares, losses and equity.  Each is
seen to be more than dust, or more than nothing, on the way to its division: a share count by
being normalised, the others by a test whose other branch does not divide.  That holds of any
books and prices, checked or not, since no such test looks at where its amount comes from.

`Episode.Overflow` follows the episodes; here are the other operations, and the steps of an
economy, in which all of them meet.
-/
import Insolvency.Proofs.Episode.Ending
import Insolvency.Proofs.Episode.Overflow
import Insolvency.Proofs.SellOff.Course
import Insolvency.World.Step

namespace Insolvency

open Decimal

/-- An operation's refusal that is not a division by nothing. -/
def Error.NoDivision (err : Error) : Prop := err ≠ .arithmetic .divisionByZero

/-- A step's failure that is not such a refusal passed on. -/
def StepError.NoDivision (err : StepError) : Prop := err ≠ .refused (.arithmetic .divisionByZero)

section Passing

variable {α : Type}

theorem FailsOnlyBy.noDivision {x : Except Fault α} (h : FailsOnlyBy Fault.IsOverflow x) :
    FailsOnlyBy Error.NoDivision (liftM x : Except Error α) := by
  intro err herr hdivision
  obtain ⟨fault, rfl, hfault⟩ := h.lift err herr
  exact hfault (Error.arithmetic.inj hdivision)

theorem FailsOnlyBy.inStep {x : Except Error α} (h : FailsOnlyBy Error.NoDivision x) :
    FailsOnlyBy StepError.NoDivision (liftM x : Except StepError α) := by
  cases x with
  | ok a => exact failsOnlyBy_ok a
  | error err =>
      rintro _ ⟨⟩ hdivision
      exact h err rfl (StepError.refused.inj hdivision)

theorem noDivision_error {err : Error} (h : err.NoDivision) :
    FailsOnlyBy Error.NoDivision (.error err : Except Error α) := by
  rintro _ ⟨⟩
  exact h

theorem noDivision_noSuchModel :
    FailsOnlyBy StepError.NoDivision (.error .noSuchModel : Except StepError α) := by
  rintro _ ⟨⟩
  exact nofun

/-- A guard that refuses, or else what it guards. -/
theorem noDivision_guard {β : Type} {c : Prop} [Decidable c] {err : Error} {f : β → Except Error α}
    {x : Except Error α} (h : err.NoDivision) (hx : FailsOnlyBy Error.NoDivision x) :
    FailsOnlyBy Error.NoDivision (if c then throw err >>= f else x) := by
  split_ifs
  · exact noDivision_error h
  · exact hx

theorem ConfigFault.noDivision_refuse (fault? : Option ConfigFault) :
    FailsOnlyBy Error.NoDivision (refuse fault?) := by
  cases fault? with
  | none => exact failsOnlyBy_ok ()
  | some fault => exact noDivision_error nofun

end Passing

/-! ### Dividing -/

/-- Dividing fails in this way just where it has to. -/
theorem Decimal.div_eq_divisionByZero_iff {a b : Decimal} :
    a.div b = .error .divisionByZero ↔ b = 0 := by
  refine ⟨fun h => ?_, fun h => by rw [div, if_pos h]⟩
  by_contra hb
  exact failsOnlyBy_div a hb _ h rfl

/-! ### Measuring -/

/-- Equity is divided by only where there is some. -/
theorem RiskMeasure.failsOnlyBy_risk (m : RiskMeasure) (s : BalanceSheet) :
    FailsOnlyBy Fault.IsOverflow (m.risk s) := by
  cases m
  refine s.failsOnlyBy_equity.bind fun equity _ => ?_
  split_ifs with hequity
  · exact failsOnlyBy_pure _
  · have hne : equity ≠ 0 := by
      rintro rfl
      exact hequity (by decide)
    exact (failsOnlyBy_sum _).bind fun _ _ => failsOnlyBy_div _ hne

theorem BalanceSheet.noDivision_check (s : BalanceSheet) :
    FailsOnlyBy Error.NoDivision s.check := by
  unfold check
  cases s.fault? with
  | none => exact failsOnlyBy_ok ()
  | some fault => exact noDivision_error nofun

theorem RiskWeights.noDivision_riskWeightedAssets (w : RiskWeights) (assets : Assets) :
    FailsOnlyBy Error.NoDivision (w.riskWeightedAssets assets) := by
  unfold riskWeightedAssets
  split_ifs
  · exact noDivision_error nofun
  · exact (failsOnlyBy_foldlM (fun _ _ _ => (failsOnlyBy_mul _ _).bind fun _ _ =>
      failsOnlyBy_add _ _) _).noDivision

theorem CapitalTarget.noDivision_shortfall (t : CapitalTarget) (equity weighted : Decimal) :
    FailsOnlyBy Error.NoDivision (t.shortfall equity weighted) := by
  refine noDivision_guard (by exact nofun) ?_
  exact (failsOnlyBy_mul _ _).noDivision.bind fun _ _ => (failsOnlyBy_sub _ _).noDivision.bind
    fun _ _ => failsOnlyBy_pure _

namespace Authority

theorem noDivision_assess (a : Authority) (i : Institution) :
    FailsOnlyBy Error.NoDivision (a.assess i) :=
  i.sheet.noDivision_check.bind fun _ _ =>
    i.sheet.failsOnlyBy_equity.noDivision.bind fun _ _ =>
      (a.rulebook.riskWeights.noDivision_riskWeightedAssets _).bind fun _ _ =>
        (a.rulebook.target.noDivision_shortfall _ _).bind fun _ _ => failsOnlyBy_pure _

end Authority

/-! ### Resolving -/

theorem Policy.noDivision_resolve (p : Policy) (i : Institution) (shortfall : Decimal)
    (ctx : Context) : FailsOnlyBy Error.NoDivision (p.resolve i shortfall ctx) := by
  intro err herr
  rcases Policy.resolve_eq_error herr with hobjection | ⟨fault, hrun, rfl⟩
  · cases Policy.objection_of_objection? hobjection <;> exact nofun
  · exact fun hdivision =>
      p.failsOnlyBy_run i shortfall ctx fault hrun (Error.arithmetic.inj hdivision)

theorem Authority.noDivision_resolve (a : Authority) (i : Institution) (ctx : Context) :
    FailsOnlyBy Error.NoDivision (a.resolve i ctx) := by
  refine (a.noDivision_assess i).bind fun x _ => ?_
  split_ifs
  · exact failsOnlyBy_pure _
  · exact Policy.noDivision_resolve _ _ _ _

/-! ### Lending -/

namespace CentralBank

variable (b : CentralBank) (i : Institution)

theorem failsOnlyBy_assess : FailsOnlyBy Fault.IsOverflow (b.assess i) := by
  unfold assess
  split_ifs
  · exact failsOnlyBy_pure _
  · exact (b.measure.failsOnlyBy_risk _).bind fun _ _ => failsOnlyBy_pure _

theorem failsOnlyBy_book (amount : Decimal) (now : Timestamp) :
    FailsOnlyBy Fault.IsOverflow (b.book i amount now) :=
  (Assets.failsOnlyBy_creditHolding _ _ _).bind fun _ _ =>
    FailsOnlyBy.bind ((Accounts.failsOnlyBy_credit _ _ _).bind fun _ _ => failsOnlyBy_pure _)
      fun _ _ => failsOnlyBy_pure _

theorem noDivision_request (amount : Decimal) (now : Timestamp) :
    FailsOnlyBy Error.NoDivision (b.request i amount now) := by
  refine noDivision_guard (by exact nofun) (noDivision_guard (by exact nofun) ?_)
  refine (b.failsOnlyBy_assess i).noDivision.bind fun decision _ => ?_
  cases decision with
  | error denial => exact failsOnlyBy_pure _
  | ok risk => exact (b.failsOnlyBy_book i amount now).noDivision.bind fun _ _ => failsOnlyBy_pure _

end CentralBank

theorem Government.noDivision_fund (g : Government) (amount : Decimal) :
    FailsOnlyBy Error.NoDivision (g.fund amount) := by
  exact noDivision_guard (by exact nofun) (noDivision_guard (by exact nofun)
    (g.failsOnlyBy_disburse amount).noDivision)

/-! ### Selling -/

theorem Market.noDivision_sell (m : Market) (seller : IntermediaryId)
    (stock : InstitutionId) (quantity : Decimal) :
    FailsOnlyBy Error.NoDivision (m.sell seller stock quantity) := by
  refine noDivision_guard (by exact nofun) ?_
  cases m.book.price? stock with
  | none => exact failsOnlyBy_pure _
  | some price => exact (failsOnlyBy_mul _ _).noDivision.bind fun _ _ => failsOnlyBy_pure _

namespace SellOff

variable (subject : Intermediary) (issuer : Institution) (market : Market) (now : Timestamp)

theorem noDivision_check : FailsOnlyBy Error.NoDivision (check subject issuer) := by
  unfold check
  split_ifs
  · exact noDivision_error nofun
  · exact noDivision_error nofun
  · exact failsOnlyBy_ok ()

theorem noDivision_disband : FailsOnlyBy Error.NoDivision (disband subject issuer market now) := by
  refine (noDivision_check _ _).bind fun _ _ => ?_
  refine FailsOnlyBy.bind ?_ fun order _ => ?_
  · unfold sellAll
    split_ifs
    · exact market.noDivision_sell _ _ _
    · exact failsOnlyBy_pure _
  refine (failsOnlyBy_deliver _ _ _ _).noDivision.bind fun delivered _ => ?_
  refine FailsOnlyBy.bind (FailsOnlyBy.noDivision ?_) fun _ _ => ?_
  · exact (delivered.failsOnlyBy_issue _ _).bind fun _ _ => failsOnlyBy_pure _
  · exact (failsOnlyBy_add _ _).noDivision.bind fun _ _ => failsOnlyBy_pure _

theorem noDivision_sellPart :
    FailsOnlyBy Error.NoDivision (sellPart subject issuer market now) := by
  refine FailsOnlyBy.bind (FailsOnlyBy.noDivision ?_) fun offered _ => ?_
  · unfold onOffer
    split_ifs
    · exact failsOnlyBy_ok _
    · exact failsOnlyBy_mul _ _
  refine (market.noDivision_sell _ _ _).bind fun order _ => ?_
  refine (failsOnlyBy_deliver _ _ _ _).noDivision.bind fun delivered _ => ?_
  exact (failsOnlyBy_sub _ _).noDivision.bind fun _ _ => (failsOnlyBy_add _ _).noDivision.bind
    fun _ _ => (failsOnlyBy_mul _ _).noDivision.bind fun _ _ => failsOnlyBy_pure _

theorem noDivision_review : FailsOnlyBy Error.NoDivision (review subject issuer market now) := by
  refine (noDivision_check _ _).bind fun _ _ => ?_
  refine FailsOnlyBy.bind (failsOnlyBy_mul _ _).noDivision fun value _ => ?_
  split_ifs
  · exact noDivision_disband _ _ _ _
  refine (noDivision_sellPart _ _ _ _).bind fun part _ => ?_
  split_ifs
  · exact (noDivision_disband _ _ _ _).bind fun _ _ => (failsOnlyBy_add _ _).noDivision.bind
      fun _ _ => (failsOnlyBy_add _ _).noDivision.bind fun _ _ => failsOnlyBy_pure _
  · exact failsOnlyBy_pure _

end SellOff

/-! ### Steps of an economy -/

/-- Setting an account cannot fail, and crediting one only adds. -/
theorem BalanceSheet.failsOnlyBy_edit (s : BalanceSheet) (kind : EditKind) (amount : Decimal)
    (account : AccountName) : FailsOnlyBy Fault.IsOverflow (s.edit kind amount account) := by
  cases kind with
  | setTo => cases account <;> exact failsOnlyBy_pure _
  | credit =>
      cases account with
      | asset cls =>
          exact (s.assets.failsOnlyBy_creditHolding cls amount).bind fun _ _ => failsOnlyBy_pure _
      | loan creditor =>
          exact ((Accounts.failsOnlyBy_credit _ _ _).bind fun _ _ => failsOnlyBy_pure _).bind
            fun _ _ => failsOnlyBy_pure _
      | deposit creditor =>
          exact ((Accounts.failsOnlyBy_credit _ _ _).bind fun _ _ => failsOnlyBy_pure _).bind
            fun _ _ => failsOnlyBy_pure _
      | shares holder =>
          exact (s.shares.failsOnlyBy_issue holder amount).bind fun _ _ => failsOnlyBy_pure _

namespace World

variable (w : World)

theorem noDivision_institution (id : InstitutionId) :
    FailsOnlyBy StepError.NoDivision (w.institution id) := by
  unfold institution
  split
  · exact failsOnlyBy_ok _
  · exact noDivision_noSuchModel

theorem noDivision_intermediary (id : IntermediaryId) :
    FailsOnlyBy StepError.NoDivision (w.intermediary id) := by
  unfold intermediary
  split
  · exact failsOnlyBy_ok _
  · exact noDivision_noSuchModel

theorem noDivision_model (id : String) : FailsOnlyBy StepError.NoDivision (w.model id) := by
  unfold model
  split
  · exact failsOnlyBy_ok _
  · exact failsOnlyBy_ok _
  · exact noDivision_noSuchModel

theorem noDivision_theGovernment : FailsOnlyBy StepError.NoDivision w.theGovernment := by
  unfold theGovernment
  split
  · exact failsOnlyBy_ok _
  · exact noDivision_noSuchModel

theorem noDivision_runEpisode (id : InstitutionId) (terms : SellOffTerms)
    {run : Institution → Context → Except Error (Episode × Context)}
    (hrun : ∀ i ctx, FailsOnlyBy Error.NoDivision (run i ctx)) :
    FailsOnlyBy StepError.NoDivision (w.runEpisode id terms run) := by
  refine (w.noDivision_institution id).bind fun i _ => ?_
  exact (hrun i _).inStep.bind fun _ _ => failsOnlyBy_pure _

theorem noDivision_sellOff (id : IntermediaryId) (issuer : Option InstitutionId)
    {run : Intermediary → Institution → Market → Timestamp → Except Error SellOff}
    (hrun : ∀ subject issuer market now,
      FailsOnlyBy Error.NoDivision (run subject issuer market now)) :
    FailsOnlyBy StepError.NoDivision (w.sellOff id issuer run) :=
  (w.noDivision_intermediary id).bind fun _ _ => (w.noDivision_institution _).bind fun _ _ =>
    (hrun _ _ _ _).inStep.bind fun _ _ => failsOnlyBy_pure _

theorem noDivision_windDown (id : IntermediaryId) (periods : Nat) :
    FailsOnlyBy StepError.NoDivision (w.windDown id periods) := by
  induction periods generalizing w with
  | zero => exact failsOnlyBy_ok _
  | succ periods ih =>
      refine (w.noDivision_sellOff id none SellOff.noDivision_review).bind fun ⟨next, s⟩ _ => ?_
      dsimp only
      split_ifs
      · exact failsOnlyBy_pure _
      · exact (ih _).bind fun _ _ => failsOnlyBy_pure _

theorem noDivision_inject (id : InstitutionId) (amount : Decimal) :
    FailsOnlyBy StepError.NoDivision (w.inject id amount) := by
  refine (w.noDivision_institution id).bind fun i _ => ?_
  refine (w.centralBank.noDivision_request i amount w.now).inStep.bind fun answer _ => ?_
  obtain ⟨left, _ | _⟩ := answer <;> exact failsOnlyBy_pure _

theorem noDivision_create (beneficiary : AgentId) (stock : InstitutionId) (shares : Decimal)
    (terms : SellOffTerms) :
    FailsOnlyBy StepError.NoDivision (w.create beneficiary stock shares terms) := by
  refine FailsOnlyBy.bind (FailsOnlyBy.inStep ?_) fun _ _ => failsOnlyBy_pure _
  exact noDivision_guard (by exact nofun)
    ((ConfigFault.noDivision_refuse _).bind fun _ _ => failsOnlyBy_pure _)

theorem noDivision_fund (amount : Decimal) : FailsOnlyBy StepError.NoDivision (w.fund amount) :=
  w.noDivision_theGovernment.bind fun g _ => (g.noDivision_fund amount).inStep.bind fun _ _ =>
    failsOnlyBy_pure _

/-- No step divides by nothing, whatever the books and the prices. -/
theorem noDivision_step (s : Step) : FailsOnlyBy StepError.NoDivision (w.step s) := by
  cases s with
  | assess id =>
      exact (w.noDivision_institution id).bind fun i _ =>
        (w.authority.noDivision_assess i).inStep.bind fun _ _ => failsOnlyBy_pure _
  | resolve id terms => exact w.noDivision_runEpisode id terms w.authority.noDivision_resolve
  | applyPolicy id policy shortfall terms =>
      exact w.noDivision_runEpisode id terms fun i => policy.noDivision_resolve i shortfall
  | inject id amount => exact w.noDivision_inject id amount
  | assessLoan id =>
      exact (w.noDivision_institution id).bind fun i _ =>
        (w.centralBank.failsOnlyBy_assess i).noDivision.inStep.bind fun _ _ => failsOnlyBy_pure _
  | settle id => exact failsOnlyBy_pure _
  | create beneficiary stock shares terms => exact w.noDivision_create _ _ _ _
  | review id issuer =>
      exact (w.noDivision_sellOff id issuer SellOff.noDivision_review).bind fun _ _ =>
        failsOnlyBy_pure _
  | disband id issuer =>
      exact (w.noDivision_sellOff id issuer SellOff.noDivision_disband).bind fun _ _ =>
        failsOnlyBy_pure _
  | windDown id periods =>
      exact (w.noDivision_intermediary id).bind fun _ _ =>
        (w.noDivision_windDown id periods).bind fun _ _ => failsOnlyBy_pure _
  | sell seller stock quantity =>
      exact (w.market.noDivision_sell seller stock quantity).inStep.bind fun _ _ =>
        failsOnlyBy_pure _
  | setPrice stock price => exact failsOnlyBy_pure _
  | fund amount => exact w.noDivision_fund amount
  | edit id account kind amount =>
      exact (w.noDivision_institution id).bind fun i _ =>
        (i.sheet.failsOnlyBy_edit kind amount account).noDivision.inStep.bind fun _ _ =>
          failsOnlyBy_pure _
  | delete id => exact (w.noDivision_model id).bind fun _ _ => failsOnlyBy_pure _
  | setClock now => exact failsOnlyBy_pure _
  | drain => exact failsOnlyBy_pure _
  | showModel id => exact (w.noDivision_model id).bind fun _ _ => failsOnlyBy_pure _

end World

/-- **Nothing is divided by nothing.**  Doing so is a failure of its own, and no operation ever
ends with it: not the policies, nor an authority, a risk measure, a central bank, an
intermediary selling, nor a step of an economy, whatever books, prices and amounts they get. -/
theorem never_divisionByZero :
    (∀ a b : Decimal, a.div b = .error .divisionByZero ↔ b = 0) ∧
    (∀ part whole, proportion part whole ≠ .error .divisionByZero) ∧
    (∀ (m : RiskMeasure) s, m.risk s ≠ .error .divisionByZero) ∧
    (∀ (p : Policy) i shortfall ctx, p.run i shortfall ctx ≠ .error .divisionByZero ∧
      p.resolve i shortfall ctx ≠ .error (.arithmetic .divisionByZero)) ∧
    (∀ t : Totals, t.writtenDown ≠ .error .divisionByZero) ∧
    (∀ (a : Authority) i, a.assess i ≠ .error (.arithmetic .divisionByZero)) ∧
    (∀ (a : Authority) i ctx, a.resolve i ctx ≠ .error (.arithmetic .divisionByZero)) ∧
    (∀ (b : CentralBank) i, b.assess i ≠ .error .divisionByZero) ∧
    (∀ (b : CentralBank) i amount now,
      b.request i amount now ≠ .error (.arithmetic .divisionByZero)) ∧
    (∀ subject issuer market now,
      SellOff.review subject issuer market now ≠ .error (.arithmetic .divisionByZero) ∧
      SellOff.disband subject issuer market now ≠ .error (.arithmetic .divisionByZero)) ∧
    ∀ (w : World) s, w.step s ≠ .error (.refused (.arithmetic .divisionByZero)) := by
  refine ⟨fun a b => div_eq_divisionByZero_iff, fun part whole h => ?_, fun m s h => ?_,
    fun p i shortfall ctx => ⟨fun h => ?_, fun h => ?_⟩, fun t h => ?_, fun a i h => ?_,
    fun a i ctx h => ?_, fun b i h => ?_, fun b i amount now h => ?_,
    fun subject issuer market now => ⟨fun h => ?_, fun h => ?_⟩, fun w s h => ?_⟩
  · exact failsOnlyBy_proportion part whole _ h rfl
  · exact m.failsOnlyBy_risk s _ h rfl
  · exact p.failsOnlyBy_run i shortfall ctx _ h rfl
  · exact p.noDivision_resolve i shortfall ctx _ h rfl
  · exact failsOnlyBy_add t.loansWrittenDown t.depositsWrittenDown _ h rfl
  · exact a.noDivision_assess i _ h rfl
  · exact a.noDivision_resolve i ctx _ h rfl
  · exact b.failsOnlyBy_assess i _ h rfl
  · exact b.noDivision_request i amount now _ h rfl
  · exact SellOff.noDivision_review subject issuer market now _ h rfl
  · exact SellOff.noDivision_disband subject issuer market now _ h rfl
  · exact w.noDivision_step s _ h rfl

end Insolvency
