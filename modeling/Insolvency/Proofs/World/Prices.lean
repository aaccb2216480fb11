/-
The prices of an economy.

Nothing moves them but episodes and hands: a market fills its orders at the prices that are
listed, and whatever else happens does not touch them.  So as long as nobody lists a price by
hand, a run of the economy is a run of episodes to its prices, and what holds of such runs
holds of it.
-/
import Insolvency.Proofs.Episode.SharePrice
import Insolvency.Proofs.SellOff.Course
import Insolvency.Proofs.World.Validity

namespace Insolvency

/-! ### What leaves the prices alone -/

namespace SellOff

variable {subject : Intermediary} {issuer : Institution} {market : Market} {now : Timestamp}
  {s : SellOff}

theorem book_disband (h : disband subject issuer market now = .ok s) :
    s.market.book = market.book := by
  obtain ⟨-, market', sale, delivered, shares, writtenOff, forwarded, hsell, -, -, -, rfl⟩ :=
    disband_eq_ok.mp h
  unfold sellAll at hsell
  split_ifs at hsell
  · exact (Market.order_of_sell hsell).book
  · obtain ⟨rfl, -⟩ := Prod.mk.inj (pure_eq_ok.mp hsell)
    rfl

/-- A market fills orders at the prices that are listed, and lists none. -/
theorem book_review (h : review subject issuer market now = .ok s) :
    s.market.book = market.book := by
  obtain ⟨-, hreview⟩ := review_eq_ok.mp h
  cases hreview with
  | ends _ _ hlast => exact book_disband hlast
  | goesOn _ _ hpart _ => rw [(keeps_sellPart hpart).2]
  | endsAfter _ _ hpart _ hlast _ _ =>
      show _ = market.book
      rw [book_disband hlast, (keeps_sellPart hpart).2]

end SellOff

/-! ### One call -/

/-- The step lists a price by hand. -/
def Step.isListing : Step → Bool
  | .setPrice .. => true
  | _ => false

namespace World

variable {w w' : World}

theorem book_sellOff {id : IntermediaryId} {issuer : Option InstitutionId} {s : SellOff}
    {run : Intermediary → Institution → Market → Timestamp → Except Error SellOff}
    (hsell : w.sellOff id issuer run = .ok (w', s))
    (hrun : ∀ {subject i market now s}, run subject i market now = .ok s →
      s.market.book = market.book) : w'.market.book = w.market.book := by
  obtain ⟨subject, i, -, -, hs, rfl⟩ := sellOff_eq_ok hsell
  exact hrun hs

theorem market_store (w : World) (m : Model) : (w.store m).market = w.market := by
  cases m <;> rfl

/-- Only an episode moves prices, or a price listed by hand. -/
theorem reachable_of_moves {s : Step} (hs : s.isListing = false) (hmoves : w.Moves s w') :
    w.market.book.Reachable w'.market.book := by
  suffices hkept : w'.market.book = w.market.book ∨ w.market.book.Reachable w'.market.book by
    rcases hkept with hsame | hreached
    · rw [hsame]
      exact .start
    · exact hreached
  cases hmoves with
  | @resolve _ terms _ _ _ _ hrun =>
      have hstart : w.market.book.Reachable (w.context terms).book := .start
      exact Or.inr (.authority hstart hrun)
  | @applyPolicy _ _ _ terms _ _ _ _ hrun =>
      have hstart : w.market.book.Reachable (w.context terms).book := .start
      exact Or.inr (.policy hstart hrun)
  | setPrice => cases hs
  | review hsell => exact Or.inl (book_sellOff hsell SellOff.book_review)
  | disband hsell => exact Or.inl (book_sellOff hsell SellOff.book_disband)
  | windDown hsell =>
      exact Or.inl (windDown_induction (P := fun v => v.market.book = w.market.book) hsell rfl
        fun hv hperiod => (book_sellOff hperiod SellOff.book_review).trans hv)
  | sell hsell => exact Or.inl (Market.order_of_sell hsell).book
  | delete => exact Or.inl (congrArg Market.book (w.market_store _))
  | _ => exact Or.inl rfl

/-! ### Whole runs -/

/-- As long as no price is listed by hand, whatever happens in the economy is a run of episodes to
its prices. -/
theorem reachable_prices_after (w : World) {steps : List Step}
    (h : ∀ s ∈ steps, s.isListing = false) :
    w.market.book.Reachable (w.after steps).market.book := by
  induction steps generalizing w with
  | nil => exact .start
  | cons s rest ih =>
      obtain ⟨hs, hrest⟩ := List.forall_mem_cons.mp h
      have hnext : w.market.book.Reachable (w.next s).market.book := by
        rcases w.next_cases s with hsame | hmoves
        · rw [hsame]
          exact .start
        · exact reachable_of_moves hs hmoves
      exact hnext.trans (ih (w.next s) hrest)

end World

/-- **Published prices go with the books.**  An episode changes at most the price of its own
institution, and only to the price that it reports: not below nothing, and what the equity handed
back makes over the shares that there were before, up to a grain of the larger of the two.  So
runs of episodes that start from prices that are not below nothing list no others, and nor does an
economy in which no price is listed by hand. -/
theorem prices_consistent :
    (∀ {p : Policy} {i : Institution} {shortfall : Decimal} {ctx ctx' : Context} {e : Episode},
      p.resolve i shortfall ctx = .ok (e, ctx') → Reprices i ctx e ctx') ∧
    (∀ {a : Authority} {i : Institution} {ctx ctx' : Context} {e : Episode},
      a.resolve i ctx = .ok (e, ctx') → Reprices i ctx e ctx') ∧
    (∀ {start book : PriceBook}, start.Nonneg → start.Reachable book → book.Nonneg) ∧
    ∀ {w : World} {steps : List Step}, w.market.book.Nonneg →
      (∀ s ∈ steps, s.isListing = false) → (w.after steps).market.book.Nonneg := by
  refine ⟨Policy.reprices_of_resolve, Authority.reprices_of_resolve,
    fun hstart h => h.nonneg hstart, fun {w} _ hstart hsteps => ?_⟩
  exact (w.reachable_prices_after hsteps).nonneg hstart

/-- The sample bank is bailed in and gets a price of its own, alone and amid the sample economy. -/
theorem prices_consistent_sampleBank : ∃ e ctx' price,
    Policy.bailin.resolve sampleBank 700.0 sampleContext = .ok (e, ctx') ∧
      e.totals.newSharePrice = some price ∧ Reprices sampleBank sampleContext e ctx' ∧
      sampleContext.book.Nonneg ∧ sampleContext.book.Reachable ctx'.book ∧ ctx'.book.Nonneg ∧
      (∀ s ∈ sampleRun, s.isListing = false) ∧
      (sampleWorld.after sampleRun).market.book.price? "north" ≠ some 2.0 ∧
      (sampleWorld.after sampleRun).market.book.Nonneg := by
  obtain ⟨hpolicy, -, hrun, hworld⟩ := prices_consistent
  obtain ⟨e, ctx', price, h, hnote⟩ : ∃ e ctx' price,
      Policy.bailin.resolve sampleBank 700.0 sampleContext = .ok (e, ctx') ∧
        e.totals.newSharePrice = some price := ⟨_, _, _, rfl, rfl⟩
  have hstart : sampleContext.book.Nonneg := by
    intro stock listed hlisted
    have hentry := Table.mem_values_of_get? hlisted
    obtain rfl := List.mem_singleton.mp hentry
    decide
  have hreached : sampleContext.book.Reachable ctx'.book := .policy .start h
  have hsteps : ∀ s ∈ sampleRun, s.isListing = false := by decide
  exact ⟨e, ctx', price, h, hnote, hpolicy h, hstart, hreached, hrun hstart hreached, hsteps,
    by decide, hworld hstart hsteps⟩

end Insolvency
