/-
What a call leaves of the economy.

`World.step` is taken apart here once, one case for each kind of call.  A call that goes
through stores the models that the operation has changed, and of the rest of the world it
replaces what the operation answers with.  One that fails leaves the world as it was.
-/
import Insolvency.Proofs.Computation
import Insolvency.World.Step

namespace Insolvency

/-- What an operation answers is passed on as it is, so only a result comes out as one. -/
theorem liftM_step_eq_ok {α : Type} {x : Except Error α} {a : α} :
    (liftM x : Except StepError α) = .ok a ↔ x = .ok a := by
  cases x with
  | error _ => simp [liftM, monadLift, MonadLift.monadLift]
  | ok _ => simp [liftM, monadLift, MonadLift.monadLift]

namespace World

variable {w w' : World}

/-! ### Selling -/

section Selling

variable {id : IntermediaryId} {issuer : Option InstitutionId}
  {run : Intermediary → Institution → Market → Timestamp → Except Error SellOff} {s : SellOff}

theorem sellOff_eq_ok (h : w.sellOff id issuer run = .ok (w', s)) : ∃ subject i,
    w.intermediary id = .ok subject ∧ w.institution (issuer.getD subject.stock) = .ok i ∧
      run subject i w.market w.now = .ok s ∧ w' = w.afterSellOff s := by
  simp only [sellOff, bind_eq_ok, pure_eq_ok, liftM_step_eq_ok, Prod.mk.injEq] at h
  obtain ⟨subject, hsubject, i, hi, s', hs, rfl, rfl⟩ := h
  exact ⟨subject, i, hsubject, hi, hs, rfl⟩

/-- What every period of selling preserves, all of them preserve. -/
theorem windDown_induction {P : World → Prop} {periods : Nat} {ps : List Period}
    (h : w.windDown id periods = .ok (w', ps)) (hw : P w)
    (hperiod : ∀ {v v' s}, P v → v.sellOff id none SellOff.review = .ok (v', s) → P v') : P w' := by
  induction periods generalizing w ps with
  | zero =>
      obtain ⟨rfl, -⟩ := Prod.mk.inj (Except.ok.inj h)
      exact hw
  | succ periods ih =>
      simp only [windDown, bind_eq_ok] at h
      obtain ⟨⟨mid, s⟩, hsell, h⟩ := h
      have hmid := hperiod hw hsell
      split_ifs at h
      · obtain ⟨rfl, -⟩ := Prod.mk.inj (pure_eq_ok.mp h)
        exact hmid
      · simp only [bind_eq_ok, pure_eq_ok, Prod.mk.injEq] at h
        obtain ⟨⟨last, rest⟩, hrest, rfl, -⟩ := h
        exact ih hrest hmid

end Selling

/-! ### One call -/

/-- What calls that go through lead to. -/
inductive Moves (w : World) : Step → World → Prop
  | assess {id} : Moves w (.assess id) w
  | resolve {id terms i e ctx} (hi : w.institution id = .ok i)
      (hrun : w.authority.resolve i (w.context terms) = .ok (e, ctx)) :
      Moves w (.resolve id terms) (w.afterEpisode e ctx)
  | applyPolicy {id p shortfall terms i e ctx} (hi : w.institution id = .ok i)
      (hrun : p.resolve i shortfall (w.context terms) = .ok (e, ctx)) :
      Moves w (.applyPolicy id p shortfall terms) (w.afterEpisode e ctx)
  | denied {id amount} : Moves w (.inject id amount) w
  | lent {id amount i b borrower} (hi : w.institution id = .ok i)
      (hrequest : w.centralBank.request i amount w.now = .ok (b, .ok borrower)) :
      Moves w (.inject id amount) { w.store (.institution borrower) with centralBank := b }
  | assessLoan {id} : Moves w (.assessLoan id) w
  | settle {id} : Moves w (.settle id) { w with centralBank := (w.centralBank.settle id).1 }
  | create {beneficiary stock shares terms m}
      (hm : SellOff.create (w.newId 0) beneficiary stock shares terms w.now = .ok m) :
      Moves w (.create beneficiary stock shares terms)
        { w.store (.intermediary m) with newId := fun k => w.newId (1 + k) }
  | review {id issuer w' s} (hsell : w.sellOff id issuer SellOff.review = .ok (w', s)) :
      Moves w (.review id issuer) w'
  | disband {id issuer w' s} (hsell : w.sellOff id issuer SellOff.disband = .ok (w', s)) :
      Moves w (.disband id issuer) w'
  | windDown {id periods w' ps} (hsell : w.windDown id periods = .ok (w', ps)) :
      Moves w (.windDown id periods) w'
  | sell {seller stock quantity market sale}
      (hsell : w.market.sell seller stock quantity = .ok (market, sale)) :
      Moves w (.sell seller stock quantity) { w with market }
  | setPrice {stock price} : Moves w (.setPrice stock price)
      { w with market := { w.market with book := w.market.book.publish stock price } }
  | fund {amount g government} (hg : w.theGovernment = .ok g)
      (hfund : g.fund amount = .ok government) :
      Moves w (.fund amount) { w with government := some government }
  | edit {id account kind amount i sheet} (hi : w.institution id = .ok i)
      (hsheet : i.sheet.edit kind amount account = .ok sheet) :
      Moves w (.edit id account kind amount) (w.store (.institution { i with sheet }))
  | delete {id m} (hm : w.model id = .ok m) : Moves w (.delete id) (w.store (m.markDeleted w.now))
  | setClock {time} : Moves w (.setClock time) { w with now := time }
  | drain : Moves w .drain { w with queue := [] }
  | showModel {id} : Moves w (.showModel id) w

theorem runEpisode_eq_ok {id : InstitutionId} {terms : SellOffTerms} {answer : Answer}
    {run : Institution → Context → Except Error (Episode × Context)}
    (h : w.runEpisode id terms run = .ok (w', answer)) : ∃ i e ctx, w.institution id = .ok i ∧
      run i (w.context terms) = .ok (e, ctx) ∧ w' = w.afterEpisode e ctx := by
  simp only [runEpisode, bind_eq_ok, pure_eq_ok, liftM_step_eq_ok, Prod.mk.injEq] at h
  obtain ⟨i, hi, ⟨e, ctx⟩, he, rfl, -⟩ := h
  exact ⟨i, e, ctx, hi, he, rfl⟩

theorem moves_inject {id : InstitutionId} {amount : Decimal} {answer : Answer}
    (h : w.inject id amount = .ok (w', answer)) : w.Moves (.inject id amount) w' := by
  simp only [inject, bind_eq_ok, liftM_step_eq_ok] at h
  obtain ⟨i, hi, ⟨b, decision⟩, hrequest, h⟩ := h
  cases decision with
  | error denial =>
      obtain ⟨rfl, -⟩ := Prod.mk.inj (pure_eq_ok.mp h)
      exact .denied
  | ok borrower =>
      obtain ⟨rfl, -⟩ := Prod.mk.inj (pure_eq_ok.mp h)
      exact .lent hi hrequest

/-- One case for each kind of call. -/
theorem moves_of_step {s : Step} {answer : Answer} (h : w.step s = .ok (w', answer)) :
    w.Moves s w' := by
  cases s with
  | resolve id terms =>
      obtain ⟨i, e, ctx, hi, hrun, rfl⟩ := runEpisode_eq_ok h
      exact .resolve hi hrun
  | applyPolicy id policy shortfall terms =>
      obtain ⟨i, e, ctx, hi, hrun, rfl⟩ := runEpisode_eq_ok h
      exact .applyPolicy hi hrun
  | inject id amount => exact moves_inject h
  | create beneficiary stock shares terms =>
      simp only [step, create, bind_eq_ok, pure_eq_ok, liftM_step_eq_ok, Prod.mk.injEq] at h
      obtain ⟨m, hm, rfl, -⟩ := h
      exact .create hm
  | review id issuer =>
      simp only [step, bind_eq_ok, pure_eq_ok, Prod.mk.injEq] at h
      obtain ⟨⟨_, s⟩, hsell, rfl, -⟩ := h
      exact .review hsell
  | disband id issuer =>
      simp only [step, bind_eq_ok, pure_eq_ok, Prod.mk.injEq] at h
      obtain ⟨⟨_, s⟩, hsell, rfl, -⟩ := h
      exact .disband hsell
  | windDown id periods =>
      simp only [step, bind_eq_ok, pure_eq_ok, Prod.mk.injEq] at h
      obtain ⟨_, -, ⟨_, ps⟩, hsell, rfl, -⟩ := h
      exact .windDown hsell
  | sell seller stock quantity =>
      simp only [step, bind_eq_ok, pure_eq_ok, liftM_step_eq_ok, Prod.mk.injEq] at h
      obtain ⟨⟨market, sale⟩, hsell, rfl, -⟩ := h
      exact .sell hsell
  | fund amount =>
      simp only [step, fund, bind_eq_ok, pure_eq_ok, liftM_step_eq_ok, Prod.mk.injEq] at h
      obtain ⟨g, hg, government, hfund, rfl, -⟩ := h
      exact .fund hg hfund
  | edit id account kind amount =>
      simp only [step, bind_eq_ok, pure_eq_ok, liftM_step_eq_ok, liftM_eq_ok, Prod.mk.injEq] at h
      obtain ⟨i, hi, sheet, hsheet, rfl, -⟩ := h
      exact .edit hi hsheet
  | delete id =>
      simp only [step, bind_eq_ok, pure_eq_ok, Prod.mk.injEq] at h
      obtain ⟨m, hm, rfl, -⟩ := h
      exact .delete hm
  | assess id =>
      simp only [step, bind_eq_ok, pure_eq_ok, Prod.mk.injEq] at h
      obtain ⟨_, -, _, -, rfl, -⟩ := h
      exact .assess
  | assessLoan id =>
      simp only [step, bind_eq_ok, pure_eq_ok, Prod.mk.injEq] at h
      obtain ⟨_, -, _, -, rfl, -⟩ := h
      exact .assessLoan
  | showModel id =>
      simp only [step, bind_eq_ok, pure_eq_ok, Prod.mk.injEq] at h
      obtain ⟨_, -, rfl, -⟩ := h
      exact .showModel
  | settle id =>
      obtain ⟨rfl, -⟩ := Prod.mk.inj (pure_eq_ok.mp h)
      exact .settle
  | setPrice stock price =>
      obtain ⟨rfl, -⟩ := Prod.mk.inj (pure_eq_ok.mp h)
      exact .setPrice
  | setClock now =>
      obtain ⟨rfl, -⟩ := Prod.mk.inj (pure_eq_ok.mp h)
      exact .setClock
  | drain =>
      obtain ⟨rfl, -⟩ := Prod.mk.inj (pure_eq_ok.mp h)
      exact .drain

/-- A call fails and changes nothing, or goes through. -/
theorem next_cases (w : World) (s : Step) : w.next s = w ∨ w.Moves s (w.next s) := by
  unfold next
  split
  next hstep => exact Or.inr (moves_of_step hstep)
  next => exact Or.inl rfl

end World

end Insolvency
