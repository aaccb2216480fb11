/-
Books stay valid over whole runs.

Whatever is called, an institution is only ever stored with books that are valid: those
of an episode, those with a loan booked on both sides, those whose shares an intermediary
has sold.  So it is enough to look at one call, and at what the caller stores.

Editing an account by hand is no such call, for an entry can be edited to anything.
-/
import Insolvency.Proofs.Capital.Assessment
import Insolvency.Proofs.Credit.Lending
import Insolvency.Proofs.Episode.Validity
import Insolvency.Proofs.World.Course

namespace Insolvency

open Decimal

/-! ### The check -/

theorem BalanceSheet.check_eq_ok_iff {s : BalanceSheet} : s.check = .ok () ↔ s.Nonneg := by
  refine ⟨fun h => Authority.check_eq_ok h, fun h => ?_⟩
  rw [check, nonneg_iff.mp h]

theorem Authority.check_of_assess {a : Authority} {i : Institution} {x : Assessment}
    (h : a.assess i = .ok x) : i.sheet.check = .ok () := by
  simp only [assess, bind_eq_ok] at h
  obtain ⟨_, hcheck, -⟩ := h
  exact hcheck

/-- The authority leaves valid books, whether it runs its policy or has nothing to do. -/
theorem Authority.check_of_resolve {a : Authority} {i : Institution} {ctx ctx' : Context}
    {e : Episode} (h : a.resolve i ctx = .ok (e, ctx')) :
    e.institution.sheet.check = .ok () := by
  simp only [resolve, bind_eq_ok] at h
  obtain ⟨x, hassess, h⟩ := h
  split_ifs at h
  · obtain ⟨rfl, -⟩ := Prod.mk.inj (pure_eq_ok.mp h)
    exact check_of_assess hassess
  · exact Policy.check_of_resolve h

/-! ### Selling off -/

theorem BalanceSheet.Nonneg.withShares {i : Institution} {r : Shares} (h : i.sheet.Nonneg)
    (hr : r.holders.Nonneg) : (i.withShares r).sheet.Nonneg :=
  ⟨h.assets, h.loans, h.deposits, hr⟩

namespace SellOff

variable {subject : Intermediary} {issuer : Institution} {market : Market} {now : Timestamp}
  {s : SellOff}

theorem nonneg_deliver {buyer : Option AgentId} {holder : AgentId} {sold : Decimal} {r r' : Shares}
    (h : deliver buyer holder sold r = .ok r') (hr : r.holders.Nonneg) : r'.holders.Nonneg := by
  cases buyer with
  | some buyer =>
      simp only [deliver, bind_eq_ok, pure_eq_ok] at h
      obtain ⟨⟨moved, count⟩, hmove, rfl⟩ := h
      exact Shares.nonneg_transfer hmove hr
  | none =>
      simp only [deliver, bind_eq_ok, pure_eq_ok] at h
      obtain ⟨⟨left, count⟩, hretire, rfl⟩ := h
      exact Shares.nonneg_retire hretire hr

theorem nonneg_disband (h : disband subject issuer market now = .ok s)
    (hissuer : issuer.sheet.Nonneg) : s.issuer.sheet.Nonneg := by
  simp only [disband, bind_eq_ok, pure_eq_ok, liftM_eq_ok] at h
  obtain ⟨_, -, ⟨market', sale⟩, -, delivered, hdeliver, ⟨left, writtenOff⟩, hwrite, forwarded, -,
    rfl⟩ := h
  exact hissuer.withShares (Shares.nonneg_retire hwrite (nonneg_deliver hdeliver hissuer.shares))

theorem nonneg_sellPart (h : sellPart subject issuer market now = .ok s)
    (hissuer : issuer.sheet.Nonneg) : s.issuer.sheet.Nonneg := by
  simp only [sellPart, bind_eq_ok, pure_eq_ok, liftM_eq_ok] at h
  obtain ⟨offered, -, ⟨market', sale⟩, -, shares, hdeliver, left, -, forwarded, -, residual, -,
    rfl⟩ := h
  exact hissuer.withShares (nonneg_deliver hdeliver hissuer.shares)

/-- The issuer's books are as valid after a period of selling as before it. -/
theorem nonneg_review (h : review subject issuer market now = .ok s)
    (hissuer : issuer.sheet.Nonneg) : s.issuer.sheet.Nonneg := by
  simp only [review, bind_eq_ok, liftM_eq_ok] at h
  obtain ⟨_, -, value, -, h⟩ := h
  split_ifs at h
  · exact nonneg_disband h hissuer
  · simp only [bind_eq_ok] at h
    obtain ⟨part, hpart, h⟩ := h
    have hsold := nonneg_sellPart hpart hissuer
    split_ifs at h
    · simp only [bind_eq_ok, pure_eq_ok, liftM_eq_ok] at h
      obtain ⟨last, hlast, sold, -, proceeds, -, rfl⟩ := h
      have hend : last.issuer.sheet.Nonneg := nonneg_disband hlast hsold
      exact hend
    · exact pure_eq_ok.mp h ▸ hsold

end SellOff

/-! ### Emergency loans -/

/-- A loan is booked on both sides of the borrower's sheet, and is more than nothing. -/
theorem CentralBank.nonneg_request {b b' : CentralBank} {i borrower : Institution}
    {amount : Decimal} {now : Timestamp} (h : b.request i amount now = .ok (b', .ok borrower))
    (hi : i.sheet.Nonneg) : borrower.sheet.Nonneg := by
  rcases request_cases b i amount now with
    ⟨lent, heligible, hbook, hrequest⟩ | ⟨why, -, hrequest⟩ | ⟨err, -, hrequest⟩
  · obtain ⟨-, hlent⟩ := Prod.mk.inj (Except.ok.inj (h.symm.trans hrequest))
    obtain rfl := Except.ok.inj hlent
    have hpositive := zero_lt_iff.mp heligible.positive
    obtain ⟨hassets, hloans, hdeposits⟩ :=
      nonneg_book hbook hpositive.le hi.assets hi.loans hi.deposits
    exact ⟨hassets, hloans, hdeposits, (booked_of_book hbook).shares ▸ hi.shares⟩
  · cases h.symm.trans hrequest
  · cases h.symm.trans hrequest

/-! ### What is stored -/

namespace World

/-- All stored institutions have valid books. -/
def Valid (w : World) : Prop := ∀ i ∈ w.institutions.values, i.sheet.check = .ok ()

variable {w w' : World}

theorem Valid.congr (h : w.Valid) (hsame : w'.institutions = w.institutions) : w'.Valid := by
  unfold Valid
  rw [hsame]
  exact h

theorem Valid.nonneg_of_institution (h : w.Valid) {id : InstitutionId} {i : Institution}
    (hi : w.institution id = .ok i) : i.sheet.Nonneg := by
  unfold institution at hi
  cases hget : w.institutions.get? id with
  | none =>
      rw [hget] at hi
      cases hi
  | some j =>
      rw [hget] at hi
      obtain rfl := Except.ok.inj hi
      exact BalanceSheet.check_eq_ok_iff.mp (h j (Table.mem_values_of_get? hget))

/-- A model whose books, if it has any, are valid. -/
def ValidModel : Model → Prop
  | .institution i => i.sheet.check = .ok ()
  | .intermediary _ => True

theorem Valid.store (h : w.Valid) {m : Model} (hm : ValidModel m) : (w.store m).Valid := by
  cases m with
  | institution i =>
      intro j hj
      rcases Table.mem_values_insert hj with rfl | hj
      · exact hm
      · exact h j hj
  | intermediary m => exact h

theorem Valid.storeAll (h : w.Valid) {changes : List Change}
    (hchanges : ∀ c ∈ changes, ValidModel c.model) : (w.storeAll changes).Valid := by
  unfold World.storeAll
  induction changes generalizing w with
  | nil => exact h
  | cons c rest ih =>
      obtain ⟨hc, hrest⟩ := List.forall_mem_cons.mp hchanges
      exact ih (h.store hc) hrest

theorem Valid.afterEpisode (h : w.Valid) {e : Episode} (he : e.institution.sheet.check = .ok ())
    (ctx : Context) : (w.afterEpisode e ctx).Valid := by
  have hchanges : ∀ c ∈ e.changes, ValidModel c.model := by
    intro c hc
    unfold Episode.changes at hc
    split_ifs at hc
    · cases hc
    · rcases List.mem_cons.mp hc with rfl | hc
      · exact he
      · obtain ⟨m, -, rfl⟩ := List.mem_map.mp hc
        exact trivial
  exact (h.storeAll hchanges).congr rfl

theorem Valid.afterSellOff (h : w.Valid) {s : SellOff} (hs : s.issuer.sheet.Nonneg) :
    (w.afterSellOff s).Valid := by
  have hissuer := BalanceSheet.check_eq_ok_iff.mpr hs
  have hchanges : ∀ c ∈ s.changes, ValidModel c.model := by
    intro c hc
    rcases List.mem_cons.mp hc with rfl | hc
    · exact trivial
    · rw [List.mem_singleton.mp hc]
      exact hissuer
  exact (h.storeAll hchanges).congr rfl

/-! ### One call -/

theorem Valid.sellOff (h : w.Valid) {id : IntermediaryId} {issuer : Option InstitutionId}
    {run : Intermediary → Institution → Market → Timestamp → Except Error SellOff} {s : SellOff}
    (hsell : w.sellOff id issuer run = .ok (w', s))
    (hrun : ∀ {subject i market now s}, run subject i market now = .ok s → i.sheet.Nonneg →
      s.issuer.sheet.Nonneg) : w'.Valid := by
  obtain ⟨subject, i, -, hi, hs, rfl⟩ := sellOff_eq_ok hsell
  exact h.afterSellOff (hrun hs (h.nonneg_of_institution hi))

theorem Valid.markDeleted (h : w.Valid) {id : String} {m : Model} (hm : w.model id = .ok m)
    (now : Timestamp) : (w.store (m.markDeleted now)).Valid := by
  refine h.store ?_
  unfold World.model at hm
  cases hget : w.institutions.get? id with
  | some i =>
      rw [hget] at hm
      obtain rfl := Except.ok.inj hm
      exact h i (Table.mem_values_of_get? hget)
  | none =>
      rw [hget] at hm
      cases hother : w.intermediaries.get? id with
      | some subject =>
          rw [hother] at hm
          obtain rfl := Except.ok.inj hm
          exact trivial
      | none =>
          rw [hother] at hm
          cases hm

end World

/-- The step edits an account by hand. -/
def Step.isEdit : Step → Bool
  | .edit .. => true
  | _ => false

namespace World

variable {w w' : World}

/-- One case for each kind of call. -/
theorem Valid.moves (h : w.Valid) {s : Step} (hs : s.isEdit = false) (hmoves : w.Moves s w') :
    w'.Valid := by
  cases hmoves with
  | assess => exact h
  | assessLoan => exact h
  | denied => exact h
  | showModel => exact h
  | resolve _ hrun => exact h.afterEpisode (Authority.check_of_resolve hrun) _
  | applyPolicy _ hrun => exact h.afterEpisode (Policy.check_of_resolve hrun) _
  | @lent _ _ i b borrower hi hrequest =>
      have hborrower := CentralBank.nonneg_request hrequest (h.nonneg_of_institution hi)
      have hstored : (w.store (.institution borrower)).Valid :=
        h.store (BalanceSheet.check_eq_ok_iff.mpr hborrower)
      exact hstored.congr rfl
  | settle => exact h.congr rfl
  | create _ => exact h.congr rfl
  | review hsell => exact h.sellOff hsell SellOff.nonneg_review
  | disband hsell => exact h.sellOff hsell SellOff.nonneg_disband
  | windDown hsell =>
      exact windDown_induction hsell h fun hv hperiod => hv.sellOff hperiod SellOff.nonneg_review
  | sell _ => exact h.congr rfl
  | setPrice => exact h.congr rfl
  | fund _ _ => exact h.congr rfl
  | edit _ _ => cases hs
  | delete hm => exact h.markDeleted hm w.now
  | setClock => exact h.congr rfl
  | drain => exact h.congr rfl

/-- A call that fails changes nothing, so it leaves valid books as well. -/
theorem Valid.next (h : w.Valid) {s : Step} (hs : s.isEdit = false) : (w.next s).Valid := by
  rcases w.next_cases s with hsame | hmoves
  · rwa [hsame]
  · exact h.moves hs hmoves

/-! ### Whole runs -/

/-- The worlds that calls can come to.  Between two calls everything but the stored institutions
may be exchanged: the rulebook, the prices, the market and its buyer, the government, the central
bank and the intermediaries. -/
inductive Reachable (w : World) : World → Prop
  | start : Reachable w w
  | call {v : World} (h : Reachable w v) (s : Step) (hs : s.isEdit = false) : Reachable w (v.next s)
  | outside {v v' : World} (h : Reachable w v) (hkept : v'.institutions = v.institutions) :
      Reachable w v'

theorem reachable_after (w : World) {steps : List Step} (h : ∀ s ∈ steps, s.isEdit = false) :
    Reachable w (w.after steps) := by
  suffices hrun : ∀ v, Reachable w v → Reachable w (v.after steps) from hrun w .start
  induction steps with
  | nil => exact fun v hv => hv
  | cons s rest ih =>
      obtain ⟨hs, hrest⟩ := List.forall_mem_cons.mp h
      exact fun v hv => ih hrest (v.next s) (.call hv s hs)

/-- **Books stay valid over whole runs**: if all institutions pass the check at the start, they
pass it in every world that calls can come to. -/
theorem valid_of_reachable {v : World} (h : w.Valid) (hv : Reachable w v) : v.Valid := by
  induction hv with
  | start => exact h
  | call _ s hs ih => exact ih.next hs
  | outside _ hkept ih => exact ih.congr hkept

end World

/-! ### An economy with one bank -/

/-- The sample bank beside a central bank that lends to it. -/
def sampleWorld : World where
  authority := ⟨Rulebook.standard, by decide⟩
  institutions := Table.ofList [("north", sampleBank)]
  intermediaries := ∅
  market := ⟨sampleContext.book, none, none, []⟩
  queue := []
  government := none
  centralBank := ⟨"reserve", .riskBased 10.0, .simpleLeverage, ∅⟩
  now := sampleContext.now
  newId := World.countedId

/-- The bank borrows, is bailed in, and one of its new shareholders is sold off. -/
def sampleRun : List Step :=
  [.inject "north" 50.0, .applyPolicy "north" .bailin 700.0 .standard, .review "new-001" none,
    .disband "new-001" none]

theorem sampleWorld_valid : sampleWorld.Valid := by
  intro i hi
  obtain rfl := List.mem_singleton.mp hi
  rfl

theorem World.valid_of_reachable_sampleWorld : sampleWorld.Valid ∧
    World.Reachable sampleWorld (sampleWorld.after sampleRun) ∧
    ((sampleWorld.after sampleRun).institutions.get? "north").map Institution.status
      = some .resolved ∧
    (sampleWorld.after sampleRun).Valid := by
  have hcalls : ∀ s ∈ sampleRun, s.isEdit = false := by decide
  have hrun := World.reachable_after sampleWorld hcalls
  exact ⟨sampleWorld_valid, hrun, rfl, World.valid_of_reachable sampleWorld_valid hrun⟩

end Insolvency
