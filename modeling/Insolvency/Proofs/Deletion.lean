/-
What becomes of deleted models.

A call that is given something deleted refuses it, unless another check fails first or there is
nothing to do: in no case does a change come back.  There is one gap.  Selling looks at the
deletion of the intermediary, not at that of the issuer, so it goes through beside a deleted
issuer just as beside a live one, and answers with a change of a deleted institution
(`updates_deletedIssuer`).
-/
import Insolvency.Proofs.Capital.Refusals
import Insolvency.Proofs.SellOff.InStep
import Insolvency.Proofs.SellOff.Proceeds

namespace Insolvency

open Decimal

/-! ### Calls that answer with changes -/

/-- When the model was deleted, if it is. -/
def Model.deleted : Model → Option Timestamp
  | institution i => i.deleted
  | intermediary m => m.deleted

/-- A call on an intermediary's selling. -/
inductive SellingCall
  | review
  | disband

/-- What the call does. -/
def SellingCall.run :
    SellingCall → Intermediary → Institution → Market → Timestamp → Except Error SellOff
  | review => SellOff.review
  | disband => SellOff.disband

/-- A call that answers with changes to store, and all that it is given. -/
inductive Operation
  | resolve (a : Authority) (i : Institution) (ctx : Context)
  | applyPolicy (p : Policy) (i : Institution) (shortfall : Decimal) (ctx : Context)
  | lend (b : CentralBank) (i : Institution) (amount : Decimal) (now : Timestamp)
  | sell (call : SellingCall) (subject : Intermediary) (issuer : Institution) (market : Market)
      (now : Timestamp)

namespace Operation

/-- The models it is given. -/
def given : Operation → List Model
  | resolve _ i _ | applyPolicy _ i _ _ | lend _ i _ _ => [.institution i]
  | sell _ subject issuer _ _ => [.intermediary subject, .institution issuer]

/-- A decision on a loan as changes: a denied one changes nothing. -/
def loanChanges : Except Denial Institution → List Change
  | .ok borrower => [⟨.update, .institution borrower⟩]
  | .error _ => []

/-- The changes it answers with. -/
def changes : Operation → Except Error (List Change)
  | resolve a i ctx => return (← a.resolve i ctx).1.changes
  | applyPolicy p i shortfall ctx => return (← p.resolve i shortfall ctx).1.changes
  | lend b i amount now => return loanChanges (← b.request i amount now).2
  | sell call subject issuer market now => return (← call.run subject issuer market now).changes

/-- What can be wrong with a call before it looks at whether anything is deleted.  Selling looks
at the intermediary first. -/
def EarlierError (err : Error) : Operation → Prop
  | resolve a i _ => a.assess i = .error err
  | applyPolicy .. => False
  | lend _ _ amount _ => amount ≤ 0 ∧ err = .invalidAmount amount
  | sell _ subject issuer _ _ => SellOff.check subject issuer = .error err

/-- There is nothing to do. -/
def NothingToDo : Operation → Prop
  | resolve a i _ => ∃ x, a.assess i = .ok x ∧ x.isCompliant = true
  | _ => False

/-- The model is the issuer of the stock that a live intermediary sells. -/
def Overlooks (m : Model) : Operation → Prop
  | sell _ subject issuer _ _ => m = .institution issuer ∧ SellOff.check subject issuer = .ok ()
  | _ => False

/-- The call with a live issuer in place of a deleted one. -/
def withLiveIssuer : Operation → Operation
  | sell call subject issuer market now =>
    sell call subject { issuer with deleted := none } market now
  | op => op

end Operation

/-- A change of an institution, with a date of deletion put on it. -/
def Change.stamped (date : Option Timestamp) : Change → Change
  | ⟨kind, .institution i⟩ => ⟨kind, .institution { i with deleted := date }⟩
  | c => c

/-! ### Refusals -/

theorem Policy.resolve_of_deleted (p : Policy) {i : Institution} (h : i.isDeleted = true)
    (shortfall : Decimal) (ctx : Context) :
    p.resolve i shortfall ctx = .error (.objectIsDeleted .institution) := by
  rw [resolve, objection?, if_pos h]

theorem Authority.resolve_of_deleted (a : Authority) {i : Institution} (h : i.isDeleted = true)
    (ctx : Context) : a.resolve i ctx =
      match a.assess i with
      | .error err => .error err
      | .ok x => if x.isCompliant then .ok (.compliant i, ctx)
          else .error (.objectIsDeleted .institution) := by
  unfold resolve
  cases a.assess i with
  | error err => rfl
  | ok x =>
      show (if x.isCompliant then _ else Policy.resolve _ _ _ _) = _
      rw [Policy.resolve_of_deleted _ h]
      rfl

theorem CentralBank.request_of_deleted (b : CentralBank) {i : Institution}
    (h : i.isDeleted = true) (amount : Decimal) (now : Timestamp) :
    b.request i amount now =
      if amount ≤ 0 then .error (.invalidAmount amount)
      else .error (.objectIsDeleted .institution) := by
  unfold request
  rw [if_pos h]
  split_ifs <;> rfl

/-! ### Selling -/

namespace SellOff

variable (subject : Intermediary) (issuer : Institution) (market : Market) (now : Timestamp)
  (date : Option Timestamp)

/-- The period's result, with a date of deletion put on the issuer. -/
def stamped (s : SellOff) : SellOff := { s with issuer := { s.issuer with deleted := date } }

theorem disband_stamped :
    disband subject { issuer with deleted := date } market now
      = (do return stamped date (← disband subject issuer market now)) := by
  simp only [disband, bind_assoc, pure_bind]
  rfl

theorem sellPart_stamped :
    sellPart subject { issuer with deleted := date } market now
      = (do return stamped date (← sellPart subject issuer market now)) := by
  simp only [sellPart, bind_assoc, pure_bind]
  rfl

theorem review_stamped :
    review subject { issuer with deleted := date } market now
      = (do return stamped date (← review subject issuer market now)) := by
  simp only [review, bind_assoc]
  refine bind_congr fun _ => bind_congr fun value => ?_
  split_ifs
  · exact disband_stamped subject issuer market now date
  rw [sellPart_stamped, bind_assoc, bind_assoc]
  refine bind_congr fun part => ?_
  rw [pure_bind]
  show (if part.period.residualValue ≤ subject.terms.valueThreshold then _ else _) = _
  split_ifs
  · show (disband part.subject { part.issuer with deleted := date } part.market now >>= _) = _
    rw [disband_stamped, bind_assoc, bind_assoc]
    simp only [bind_assoc, pure_bind]
    rfl
  · rfl

variable {subject issuer market now} {s : SellOff}

theorem issuer_of_disband (h : disband subject issuer market now = .ok s) :
    s.issuer = { issuer.withShares s.issuer.sheet.shares with updated := now } := by
  obtain ⟨-, _, _, _, _, _, _, -, -, -, -, rfl⟩ := disband_eq_ok.mp h
  rfl

theorem issuer_of_sellPart (h : sellPart subject issuer market now = .ok s) :
    s.issuer = { issuer.withShares s.issuer.sheet.shares with updated := now } := by
  obtain ⟨_, _, _, _, _, _, _, -, -, -, -, -, -, rfl⟩ := sellPart_eq_ok.mp h
  rfl

/-- Selling changes nothing of the issuer but its share accounts. -/
theorem issuer_of_run {call : SellingCall} (h : call.run subject issuer market now = .ok s) :
    s.issuer = { issuer.withShares s.issuer.sheet.shares with updated := now } := by
  cases call with
  | disband => exact issuer_of_disband h
  | review =>
      obtain ⟨-, hcourse⟩ := review_eq_ok.mp h
      cases hcourse with
      | ends _ _ hlast => exact issuer_of_disband hlast
      | goesOn _ _ hpart _ => exact issuer_of_sellPart hpart
      | endsAfter _ _ hpart _ hlast _ _ =>
          have hend := issuer_of_disband hlast
          rw [issuer_of_sellPart hpart] at hend
          exact hend

theorem run_of_check {call : SellingCall} {err : Error} (h : check subject issuer = .error err) :
    call.run subject issuer market now = .error err := by
  cases call with
  | review => exact World.review_of_check h
  | disband => exact World.disband_of_check h

theorem run_stamped (subject : Intermediary) (issuer : Institution) (market : Market)
    (now : Timestamp) (call : SellingCall) (date : Option Timestamp) :
    call.run subject { issuer with deleted := date } market now
      = (do return stamped date (← call.run subject issuer market now)) := by
  cases call with
  | review => exact review_stamped subject issuer market now date
  | disband => exact disband_stamped subject issuer market now date

end SellOff

/-! ### Deleted models -/

namespace Operation

/-- What a call answers that is given something deleted: nothing is changed, or it looks away. -/
structure Spares (op : Operation) (m : Model) : Prop where
  /-- It refuses, if nothing else is wrong first, or has nothing to do. -/
  unchanged : ¬ op.Overlooks m → (op.NothingToDo ∧ op.changes = .ok []) ∨
    ∃ err, op.changes = .error err ∧ (err = .objectIsDeleted m.kind ∨ op.EarlierError err)
  /-- A deleted issuer is treated as a live one, and so is changed whenever a live one is. -/
  overlooked : op.Overlooks m →
    op.changes = (do return (← op.withLiveIssuer.changes).map (Change.stamped m.deleted)) ∧
    ∀ cs, op.changes = .ok cs → ∃ i : Institution, ⟨.update, .institution i⟩ ∈ cs ∧ i.id = m.id ∧
      i.deleted = m.deleted

theorem spares_resolve (a : Authority) {i : Institution} (h : i.isDeleted = true) (ctx : Context) :
    (resolve a i ctx).Spares (.institution i) where
  overlooked := nofun
  unchanged _ := by
    simp only [changes, a.resolve_of_deleted h]
    cases hassess : a.assess i with
    | error err => exact Or.inr ⟨err, rfl, Or.inr hassess⟩
    | ok x =>
        by_cases hcompliant : x.isCompliant = true
        · simp only [hcompliant, if_true]
          exact Or.inl ⟨⟨x, hassess, hcompliant⟩, rfl⟩
        · simp only [if_neg hcompliant]
          exact Or.inr ⟨_, rfl, Or.inl rfl⟩

theorem spares_applyPolicy (p : Policy) {i : Institution} (h : i.isDeleted = true)
    (shortfall : Decimal) (ctx : Context) :
    (applyPolicy p i shortfall ctx).Spares (.institution i) where
  overlooked := nofun
  unchanged _ := by
    simp only [changes, p.resolve_of_deleted h]
    exact Or.inr ⟨_, rfl, Or.inl rfl⟩

theorem spares_lend (b : CentralBank) {i : Institution} (h : i.isDeleted = true)
    (amount : Decimal) (now : Timestamp) :
    (lend b i amount now).Spares (.institution i) where
  overlooked := nofun
  unchanged _ := by
    simp only [changes, b.request_of_deleted h]
    split_ifs with hamount
    · exact Or.inr ⟨_, rfl, Or.inr ⟨hamount, rfl⟩⟩
    · exact Or.inr ⟨_, rfl, Or.inl rfl⟩

theorem spares_sell (call : SellingCall) (subject : Intermediary) (issuer : Institution)
    (market : Market) (now : Timestamp) {m : Model}
    (hm : m ∈ (sell call subject issuer market now).given) (hdeleted : m.deleted.isSome = true) :
    (sell call subject issuer market now).Spares m where
  unchanged hseen := by
    cases hcheck : SellOff.check subject issuer with
    | error err =>
        simp only [changes, SellOff.run_of_check hcheck]
        exact Or.inr ⟨err, rfl, Or.inr hcheck⟩
    | ok _ =>
        obtain ⟨hlive, -⟩ := SellOff.check_eq_ok_iff.mp hcheck
        rcases List.mem_pair.mp hm with rfl | rfl
        · cases hlive.symm.trans hdeleted
        · exact absurd ⟨rfl, hcheck⟩ hseen
  overlooked := by
    rintro ⟨rfl, hcheck⟩
    constructor
    · have hrun : call.run subject issuer market now = _ :=
        SellOff.run_stamped subject { issuer with deleted := none } market now call issuer.deleted
      simp only [changes, withLiveIssuer, hrun, bind_assoc, pure_bind]
      rfl
    · intro cs hcs
      simp only [changes, bind_eq_ok, pure_eq_ok] at hcs
      obtain ⟨s, hs, rfl⟩ := hcs
      have hissuer := SellOff.issuer_of_run hs
      refine ⟨s.issuer, List.mem_cons_of_mem _ (List.mem_singleton_self _), ?_, ?_⟩
      · rw [hissuer]; rfl
      · rw [hissuer]; rfl

/-- **Nothing deleted is changed**, except that an intermediary sells beside a deleted issuer as
if it were there. -/
theorem spares_deleted (op : Operation) {m : Model} (hm : m ∈ op.given)
    (hdeleted : m.deleted.isSome = true) : op.Spares m := by
  cases op with
  | resolve a i ctx =>
      obtain rfl := List.mem_singleton.mp hm
      exact spares_resolve a hdeleted ctx
  | applyPolicy p i shortfall ctx =>
      obtain rfl := List.mem_singleton.mp hm
      exact spares_applyPolicy p hdeleted shortfall ctx
  | lend b i amount now =>
      obtain rfl := List.mem_singleton.mp hm
      exact spares_lend b hdeleted amount now
  | sell call subject issuer market now =>
      exact spares_sell call subject issuer market now hm hdeleted

/-- The sample bank, deleted. -/
def deletedBank : Institution := { sampleBank with deleted := some sampleContext.now }

/-- A deleted bank is not bailed in. -/
theorem spares_deleted_deletedBank :
    (applyPolicy .bailin deletedBank 10.0 sampleContext).Spares (.institution deletedBank) ∧
      (applyPolicy .bailin deletedBank 10.0 sampleContext).changes
        = .error (.objectIsDeleted .institution) := by
  have hspares := spares_deleted (applyPolicy .bailin deletedBank 10.0 sampleContext)
    (m := .institution deletedBank) (List.mem_singleton_self _) rfl
  refine ⟨hspares, ?_⟩
  obtain ⟨hnothing, -⟩ | ⟨err, herr, rfl | hearlier⟩ := hspares.unchanged id
  · cases hnothing
  · exact herr
  · cases hearlier

/-- The issuer of a hundred shares for sale, deleted. -/
def deletedIssuer : Institution := { sampleIssuer 100.0 with deleted := some sampleContext.now }

/-- A fifth of the shares is sold beside it, and it comes back for an update. -/
theorem updates_deletedIssuer :
    Model.institution deletedIssuer ∈ (sell .review (sampleSeller 100.0 .standard) deletedIssuer
      (sampleMarket 2.0 none none) sampleContext.now).given ∧
    (Model.institution deletedIssuer).deleted.isSome = true ∧
    ∃ cs, (sell .review (sampleSeller 100.0 .standard) deletedIssuer
        (sampleMarket 2.0 none none) sampleContext.now).changes = .ok cs ∧
      ∃ i : Institution, ⟨.update, .institution i⟩ ∈ cs ∧ i.id = deletedIssuer.id ∧
        i.deleted = deletedIssuer.deleted ∧ i.sheet.shares ≠ deletedIssuer.sheet.shares := by
  refine ⟨List.mem_cons_of_mem _ (List.mem_singleton_self _), rfl, _, rfl, _,
    List.mem_cons_of_mem _ (List.mem_singleton_self _), rfl, rfl, by decide⟩

end Operation

end Insolvency
