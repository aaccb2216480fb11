/-
Selling keeps the share accounts in step with the holding.

An intermediary's shares are counted twice, in its own record and in the accounts of the
issuer.  A sale takes the same quantity off both and rounds the same difference, so the two
agree after it if they did before; and the end of the selling closes the account, whatever
the market has not taken.

What one sale sells is never more than there is.  A period that sells part of the holding
and then the rest reports the sum of both, and that can be more, because the rest is rounded
and so is the sum: by two grains of the size of the holding at most.
-/
import Insolvency.Proofs.Episode.Ending
import Insolvency.Proofs.SellOff.Completion

namespace Insolvency

open Decimal

namespace SellOff

variable {subject : Intermediary} {issuer : Institution} {market : Market} {now : Timestamp}
  {s : SellOff}

/-- A seller whose shares are those of its account with the issuer, and who is not the buyer. -/
structure InStep (subject : Intermediary) (issuer : Institution) (market : Market) : Prop
    extends Seller subject issuer market where
  held : issuer.sheet.shares.held subject.agentId = subject.shares
  buyer : market.buyer ≠ some subject.agentId

/-- What a period leaves of the share accounts. -/
structure StillInStep (subject : Intermediary) (issuer : Institution) (market : Market)
    (now : Timestamp) (s : SellOff) : Prop where
  held : s.issuer.sheet.shares.held s.subject.agentId = s.subject.shares
  others : ∀ a, a ≠ subject.agentId → market.buyer ≠ some a →
    s.issuer.sheet.shares.held a = issuer.sheet.shares.held a
  issuer : s.issuer = { issuer.withShares s.issuer.sheet.shares with updated := now }
  gone : s.period.disbanded = true →
    s.issuer.sheet.shares.holders.contains subject.agentId = false ∧
      s.subject.shares = 0 ∧ s.subject.active = false ∧ s.subject.deleted = some now

/-! ### One sale -/

/-- What is sold leaves the account, and the same is left of the account as of the holding. -/
theorem held_delivered {buyer : Option AgentId} {holder : AgentId} {sold : Decimal} {r r' : Shares}
    (h : deliver buyer holder sold r = .ok r') (hne : buyer ≠ some holder)
    (h0 : 0 ≤ sold.toRat) (h1 : sold.toRat ≤ (r.held holder).toRat) :
    (r.held holder).sub sold = .ok (r'.held holder) := by
  have hall : r.movable holder sold = sold := by
    refine toRat_injective ?_
    rw [Shares.toRat_movable, min_eq_left h1, max_eq_left h0]
  have hmoved := held_deliver_holder h hne
  rw [hall] at hmoved
  exact add_neg_eq_ok.mp hmoved

theorem InStep.after_sellPart (h : InStep subject issuer market)
    (hpart : sellPart subject issuer market now = .ok s) :
    InStep s.subject s.issuer s.market ∧ StillInStep subject issuer market now s := by
  have hseller := (h.toSeller.after_sellPart hpart).1
  obtain ⟨offered, market', sale, shares, left, forwarded, residual, hoffer, hsell, hdeliver, hleft,
    -, -, rfl⟩ := sellPart_eq_ok.mp hpart
  have horder := Market.order_of_sell hsell
  obtain ⟨h0, h1⟩ := h.sold_bounds horder (onOffer_bounds h.toSound hoffer).1
  rw [horder.buyer] at hdeliver
  have hheld : shares.held subject.agentId = left := by
    have hsame := held_delivered hdeliver h.buyer h0 (h.held ▸ h1)
    rw [h.held, hleft] at hsame
    exact (Except.ok.inj hsame).symm
  refine ⟨⟨hseller, hheld, ?_⟩, hheld, fun a ha hb => held_deliver_of_ne hdeliver ha hb, rfl,
    fun hdisbanded => by cases hdisbanded⟩
  show market'.buyer ≠ some subject.agentId
  rw [horder.buyer]
  exact h.buyer

theorem InStep.after_disband (h : InStep subject issuer market)
    (hlast : disband subject issuer market now = .ok s) :
    StillInStep subject issuer market now s ∧ s.period.disbanded = true ∧
      0 ≤ s.period.sold.toRat ∧ s.period.sold.toRat ≤ subject.shares.toRat := by
  obtain ⟨-, market', sale, delivered, shares, writtenOff, forwarded, hsell, hdeliver, hwrite, -,
    rfl⟩ := disband_eq_ok.mp hlast
  have horder := order_of_sellAll hsell h.shares
  obtain ⟨h0, h1⟩ := h.sold_bounds horder h.shares
  rw [horder.buyer] at hdeliver
  have hleft : 0 ≤ (delivered.held subject.agentId).toRat :=
    (rounds_sub (held_delivered hdeliver h.buyer h0 (h.held ▸ h1))).nonneg
      (sub_nonneg.mpr (h.held ▸ h1))
  obtain ⟨hnone, hgone, hothers⟩ := writeOff_eq_ok hwrite hleft
  exact ⟨⟨hnone, fun a ha hb => (hothers a ha).trans (held_deliver_of_ne hdeliver ha hb), rfl,
    fun _ => ⟨hgone, rfl, rfl, rfl⟩⟩, rfl, h0, h1⟩

/-! ### One period -/

theorem StillInStep.trans {part last : SellOff} (h : StillInStep subject issuer market now part)
    (hid : part.subject.id = subject.id) (hbuyer : part.market.buyer = market.buyer)
    (h' : StillInStep part.subject part.issuer part.market now last) :
    StillInStep subject issuer market now last := by
  have hagent : part.subject.agentId = subject.agentId := congrArg AgentId.ofIntermediary hid
  refine ⟨h'.held, fun a ha hb => ?_, ?_, ?_⟩
  · rw [h'.others a (hagent ▸ ha) (hbuyer ▸ hb)]
    exact h.others a ha hb
  · rw [h'.issuer, h.issuer]
    rfl
  · rw [← hagent]
    exact h'.gone

theorem InStep.after_review (h : InStep subject issuer market)
    (hreview : review subject issuer market now = .ok s) :
    StillInStep subject issuer market now s := by
  cases (review_eq_ok.mp hreview).2 with
  | ends _ _ hlast => exact (h.after_disband hlast).1
  | goesOn _ _ hpart _ => exact (h.after_sellPart hpart).2
  | endsAfter _ _ hpart _ hlast _ _ =>
      obtain ⟨hnext, hstill⟩ := h.after_sellPart hpart
      obtain ⟨hid, hmarket⟩ := keeps_sellPart hpart
      have hend := hstill.trans ((congrArg Intermediary.id hid).trans rfl)
        ((congrArg Market.buyer hmarket).trans rfl) (hnext.after_disband hlast).1
      exact ⟨hend.held, hend.others, hend.issuer, hend.gone⟩

/-! ### What is reported as sold -/

/-- A sale without a fill sells nothing. -/
theorem fill_or_none {quantity : Decimal} {market' : Market} {sale : Sale}
    (h : market.Order subject.id subject.stock quantity market' sale)
    (hshares : 0 ≤ subject.shares.toRat) :
    market'.fills.length = market.fills.length + 1 ∨
      market' = market ∧ (min sale.quantity subject.shares).toRat = 0 := by
  cases h with
  | unfilled _ =>
      refine Or.inr ⟨rfl, ?_⟩
      show (min 0 subject.shares).toRat = 0
      rw [zero_min hshares, toRat_zero]
  | filled _ _ => exact Or.inl (by rw [List.length_append, List.length_singleton])

theorem Seller.fill_or_none_sellPart (h : Seller subject issuer market)
    (hpart : sellPart subject issuer market now = .ok s) :
    s.market.fills.length = market.fills.length + 1 ∨
      s.market = market ∧ s.period.sold.toRat = 0 := by
  obtain ⟨offered, market', sale, shares, left, forwarded, residual, -, hsell, -, -, -, -, rfl⟩ :=
    sellPart_eq_ok.mp hpart
  exact fill_or_none (Market.order_of_sell hsell) h.shares

theorem Seller.fill_or_none_disband (h : Seller subject issuer market)
    (hlast : disband subject issuer market now = .ok s) :
    s.market.fills.length = market.fills.length + 1 ∨
      s.market = market ∧ s.period.sold.toRat = 0 := by
  obtain ⟨-, market', sale, delivered, shares, writtenOff, forwarded, hsell, -, -, -, rfl⟩ :=
    disband_eq_ok.mp hlast
  exact fill_or_none (order_of_sellAll hsell h.shares) h.shares

/-- What a period with one sale reports is no more than there was, and what one with two sales
reports is two grains of the holding's size more at most. -/
theorem InStep.sold_of_review (h : InStep subject issuer market)
    (hreview : review subject issuer market now = .ok s) :
    (s.market.fills.length ≤ market.fills.length + 1 →
      s.period.sold.toRat ≤ subject.shares.toRat) ∧
      s.period.sold.toRat ≤ subject.shares.toRat + 2 * grain * max 1 subject.shares.toRat := by
  have hone : (1 : ℚ) ≤ max 1 subject.shares.toRat := le_max_left _ _
  have hsize : subject.shares.toRat ≤ max 1 subject.shares.toRat := le_max_right _ _
  have hslack := grain_mul_nonneg (zero_le_one.trans hone)
  have hfewer : ∀ {x : ℚ}, x ≤ subject.shares.toRat →
      x ≤ subject.shares.toRat + 2 * grain * max 1 subject.shares.toRat := by
    intro x hx
    linarith
  cases (review_eq_ok.mp hreview).2 with
  | ends _ _ hlast =>
      have hsold := (h.after_disband hlast).2.2.2
      exact ⟨fun _ => hsold, hfewer hsold⟩
  | goesOn _ _ hpart _ =>
      have hsold := (h.toSeller.after_sellPart hpart).2.2.1
      exact ⟨fun _ => hsold, hfewer hsold⟩
  | @endsAfter value sold proceeds part last _ _ hpart _ hlast hsum _ =>
      obtain ⟨hseller, hp0, hp1, hleft⟩ := h.toSeller.after_sellPart hpart
      obtain ⟨-, -, hl0, hl1⟩ := (h.after_sellPart hpart).1.after_disband hlast
      have hround := rounds_add hsum
      have hrest := rounds_sub hleft
      refine ⟨fun hfills => hround.le_of_le ?_, ?_⟩
      · -- One of the two sales has made no fill, so it has sold nothing.
        rcases h.toSeller.fill_or_none_sellPart hpart with hfirst | ⟨-, hfirst⟩
        · rcases hseller.fill_or_none_disband hlast with hsecond | ⟨-, hsecond⟩
          · have hfills' : last.market.fills.length ≤ market.fills.length + 1 := hfills
            omega
          · rw [hsecond, add_zero]
            exact hp1
        · rw [hfirst, sub_zero] at hrest
          rw [hfirst, zero_add]
          exact hl1.trans (hrest.le_of_le le_rfl)
      · have hnear := (abs_le.mp (hrest.abs_sub_le hone (by
          rw [abs_of_nonneg (sub_nonneg.mpr hp1)]
          linarith))).2
        have hgrain : grain * max 1 subject.shares.toRat ≤ max 1 subject.shares.toRat := by
          have := hundred_grains_le (zero_le_one.trans hone)
          linarith
        have htotal := (abs_le.mp (hround.abs_sub_le (c := 2 * max 1 subject.shares.toRat)
          (by linarith) (by
            rw [abs_of_nonneg (add_nonneg hp0 hl0)]
            linarith))).2
        show sold.toRat ≤ _
        linarith

/-- **Selling keeps the share accounts in step with the holding**, and goes through unless an
amount overflows.  Only a period with two sales can report more as sold than there was. -/
theorem inStep_after_selling (h : InStep subject issuer market) (now : Timestamp) :
    (FailsOnlyBy Error.IsOverflow (review subject issuer market now) ∧
      FailsOnlyBy Error.IsOverflow (disband subject issuer market now)) ∧
    (Ample 1 subject issuer market →
      (∃ s, review subject issuer market now = .ok s) ∧
        ∃ s, disband subject issuer market now = .ok s) ∧
    (∀ s, review subject issuer market now = .ok s →
      StillInStep subject issuer market now s ∧
        (s.market.fills.length ≤ market.fills.length + 1 → s.period.sold ≤ subject.shares) ∧
        s.period.sold.toRat ≤ subject.shares.toRat + 2 * grain * max 1 subject.shares.toRat) ∧
    ∀ s, disband subject issuer market now = .ok s →
      StillInStep subject issuer market now s ∧ s.period.disbanded = true ∧
        s.period.sold ≤ subject.shares := by
  refine ⟨⟨failsOnlyBy_review h.toSound h.check market now,
    failsOnlyBy_disband h.toSound h.check market now⟩, fun hample => ⟨?_, ?_⟩,
    fun s hreview => ⟨h.after_review hreview, ?_⟩, fun s hlast => ?_⟩
  · exact h.exists_review hample now
  · obtain ⟨s, hs, -⟩ := h.exists_disband (by norm_num) hample now
    exact ⟨s, hs⟩
  · obtain ⟨hone, htwo⟩ := h.sold_of_review hreview
    exact ⟨fun hfills => le_iff_toRat.mpr (hone hfills), htwo⟩
  · obtain ⟨hstill, hdisbanded, -, hsold⟩ := h.after_disband hlast
    exact ⟨hstill, hdisbanded, le_iff_toRat.mpr hsold⟩

end SellOff

/-! ### An intermediary of the sample bank -/

/-- It sells shares of the sample bank for a household. -/
def sampleSeller (shares : Decimal) (terms : SellOffTerms) : Intermediary :=
  .spawn "steward" ⟨.household, "smith"⟩ "north" shares terms sampleContext.now

/-- The sample bank, with these shares on the intermediary's account. -/
def sampleIssuer (shares : Decimal) : Institution :=
  sampleBank.withShares (sampleBank.sheet.shares.setHeld (.ofIntermediary "steward") shares)

/-- A market that lists the bank's shares at a price. -/
def sampleMarket (price : Decimal) (depth : Option Decimal) (buyer : Option AgentId) : Market :=
  ⟨⟨Table.ofList [("north", price)]⟩, depth, buyer, []⟩

theorem value_sampleMarket (price : Decimal) (depth : Option Decimal) (buyer : Option AgentId) :
    (sampleMarket price depth buyer).book.value "north" = price := by
  simp [sampleMarket, PriceBook.value, PriceBook.price?, Table.ofList, Table.get?_insert]

namespace SellOff

/-- Nothing keeps a holding on these terms from being sold at these prices. -/
theorem inStep_sampleSeller {shares price : Decimal} {terms : SellOffTerms}
    {depth : Option Decimal} {buyer : Option AgentId} (hshares : 0 ≤ shares)
    (hterms : terms.fault? = none) (hprice : 0 ≤ price) (hdepth : ∀ d ∈ depth, 0 ≤ d)
    (hbuyer : buyer ≠ some (.ofIntermediary "steward")) :
    InStep (sampleSeller shares terms) (sampleIssuer shares) (sampleMarket price depth buyer) where
  live := rfl
  issued := rfl
  shares := zero_le_iff.mp hshares
  ratePos := (SellOffTerms.inRange_of_fault? hterms).ratePos
  rateLe := (SellOffTerms.inRange_of_fault? hterms).rateLe
  price := by
    show 0 ≤ ((sampleMarket price depth buyer).book.value "north").toRat
    rw [value_sampleMarket]
    exact zero_le_iff.mp hprice
  sound := fun d hd => zero_le_iff.mp (hdepth d hd)
  held := by
    show ((sampleBank.sheet.shares.holders.setTo (.ofIntermediary "steward") shares).amount
      (.ofIntermediary "steward")) = shares
    rw [Accounts.amount_setTo, if_pos rfl]
  buyer := hbuyer

theorem ample_sampleSeller : Ample 1 (sampleSeller 100.0 .standard) (sampleIssuer 100.0)
    (sampleMarket 2.0 (some 30.0) (some ⟨.fund, "beta"⟩)) where
  shares := by
    show (100.0 : Decimal).toRat ≤ 10 ^ 28
    rw [toRat_eq_units_div, show (100.0 : Decimal).units = 10 ^ 30 from by decide]
    norm_num [maxPlaces]
  value := by
    show (100.0 : Decimal).toRat * (PriceBook.value _ "north").toRat ≤ 10 ^ 28
    rw [value_sampleMarket, toRat_eq_units_div, toRat_eq_units_div,
      show (100.0 : Decimal).units = 10 ^ 30 from by decide,
      show (2.0 : Decimal).units = 2 * 10 ^ 28 from by decide]
    norm_num [maxPlaces]
  forwarded := by
    show |(0 : Decimal).toRat| ≤ (1 : ℕ) * 10 ^ 28
    rw [toRat_zero, abs_zero]
    positivity
  bought := by
    intro b hb
    obtain rfl := Option.some.inj hb
    rw [toRat_eq_units_div,
      show ((sampleIssuer 100.0).sheet.shares.held ⟨.fund, "beta"⟩).units
        = 90 * 10 ^ 28 from by decide]
    norm_num [maxPlaces, abs_of_pos]

/-- Of a hundred shares the market takes thirty at a time: a period sells twenty, and the end of
the selling writes seventy off. -/
theorem inStep_after_selling_sampleSeller :
    InStep (sampleSeller 100.0 .standard) (sampleIssuer 100.0)
      (sampleMarket 2.0 (some 30.0) (some ⟨.fund, "beta"⟩)) ∧
    (∃ s, review (sampleSeller 100.0 .standard) (sampleIssuer 100.0)
        (sampleMarket 2.0 (some 30.0) (some ⟨.fund, "beta"⟩)) sampleContext.now = .ok s ∧
      StillInStep (sampleSeller 100.0 .standard) (sampleIssuer 100.0)
        (sampleMarket 2.0 (some 30.0) (some ⟨.fund, "beta"⟩)) sampleContext.now s ∧
      s.period.sold = 20.0) ∧
    ∃ s, disband (sampleSeller 100.0 .standard) (sampleIssuer 100.0)
        (sampleMarket 2.0 (some 30.0) (some ⟨.fund, "beta"⟩)) sampleContext.now = .ok s ∧
      StillInStep (sampleSeller 100.0 .standard) (sampleIssuer 100.0)
        (sampleMarket 2.0 (some 30.0) (some ⟨.fund, "beta"⟩)) sampleContext.now s ∧
      s.period.writtenOff = 70.0 := by
  have h : InStep (sampleSeller 100.0 .standard) (sampleIssuer 100.0)
      (sampleMarket 2.0 (some 30.0) (some ⟨.fund, "beta"⟩)) :=
    inStep_sampleSeller (by decide) (by decide) (by decide) (by decide) (by decide)
  obtain ⟨-, hgoes, hreview, hend⟩ := inStep_after_selling h sampleContext.now
  obtain ⟨⟨part, hpart⟩, last, hlast⟩ := hgoes ample_sampleSeller
  refine ⟨h, ⟨part, hpart, (hreview part hpart).1, ?_⟩, last, hlast, (hend last hlast).1, ?_⟩
  · obtain rfl := Except.ok.inj hpart
    decide
  · obtain rfl := Except.ok.inj hlast
    decide

/-- Terms on which little is sold at once and much is left to the end. -/
def hastyTerms : SellOffTerms := ⟨8.5, 0.1, 0.0001⟩

/-- A tenth of these nine shares is an amount, but what is left of them has a place too many and is
rounded up, and so is the sum of the two: sold one after the other they are ten grains more than
there were. -/
theorem oversold_sampleSeller :
    InStep (sampleSeller 9.000000000000000000000000015 hastyTerms)
      (sampleIssuer 9.000000000000000000000000015) (sampleMarket 1.0 none none) ∧
    ∃ s, review (sampleSeller 9.000000000000000000000000015 hastyTerms)
        (sampleIssuer 9.000000000000000000000000015) (sampleMarket 1.0 none none)
        sampleContext.now = .ok s ∧
      s.period.disbanded = true ∧ s.period.sold = 9.000000000000000000000000016 ∧
      (sampleSeller 9.000000000000000000000000015 hastyTerms).shares < s.period.sold := by
  refine ⟨inStep_sampleSeller (by decide) (by decide) (by decide) (by decide) (by decide), ?_⟩
  exact ⟨_, rfl, by decide, by decide, by decide⟩

end SellOff

end Insolvency
