/-
When a period of selling goes through.

A live intermediary beside the issuer of its stock is refused nothing: a period fails only
where an amount becomes too large to be one, and it goes through where its amounts are far
from that.  There are two sales in a period at most, so what is forwarded and what the buyer
holds grows by two holdings at most; `Ample` counts them.
-/
import Insolvency.Proofs.SellOff.Course

namespace Insolvency

open Decimal

namespace SellOffTerms

/-- What terms without a fault are. -/
structure InRange (t : SellOffTerms) : Prop where
  threshold : 0 ≤ t.valueThreshold.toRat
  ratePos : 0 < t.sellRate.toRat
  rateLe : t.sellRate.toRat ≤ 1
  sellAll : 0 ≤ t.sellAllBelow.toRat

theorem inRange_of_fault? {t : SellOffTerms} (h : t.fault? = none) : t.InRange := by
  unfold fault? at h
  split_ifs at h with hthreshold hrate hsellAll
  rw [not_or, le_iff_toRat, lt_iff_toRat, toRat_zero, toRat_one, not_le, not_lt] at hrate
  rw [lt_iff_toRat, toRat_zero, not_lt] at hthreshold hsellAll
  exact ⟨hthreshold, hrate.1, hrate.2, hsellAll⟩

end SellOffTerms

/-- The holding is not below nothing, and the rate is a part of it. -/
structure Intermediary.Sound (m : Intermediary) : Prop where
  shares : 0 ≤ m.shares.toRat
  ratePos : 0 < m.terms.sellRate.toRat
  rateLe : m.terms.sellRate.toRat ≤ 1

namespace SellOff

variable {subject : Intermediary} {issuer : Institution} {market : Market} {now : Timestamp}
  {s : SellOff}

/-! ### What is put up for sale -/

section Sound

variable (h : subject.Sound)
include h

/-- What is put up for sale is part of the holding. -/
theorem onOffer_bounds {offered : Decimal} (hoffer : onOffer subject = .ok offered) :
    0 ≤ offered.toRat ∧ offered.toRat ≤ subject.shares.toRat := by
  unfold onOffer at hoffer
  split_ifs at hoffer
  · obtain rfl := Except.ok.inj hoffer
    exact ⟨h.shares, le_rfl⟩
  · have hround := rounds_mul hoffer
    exact ⟨hround.nonneg (mul_nonneg h.shares h.ratePos.le),
      hround.le_of_le (mul_le_of_le_one_right h.shares h.rateLe)⟩

theorem exists_onOffer : ∃ offered, onOffer subject = .ok offered := by
  unfold onOffer
  split_ifs
  · exact ⟨_, rfl⟩
  · refine exists_mul ?_
    rw [abs_of_nonneg (mul_nonneg h.shares h.ratePos.le)]
    exact (mul_le_of_le_one_right h.shares h.rateLe).trans
      ((le_abs_self _).trans (abs_toRat_le_largest _))

/-- No more is sold than there is, so the rest is not below nothing. -/
theorem sound_sellPart (hpart : sellPart subject issuer market now = .ok s) : s.subject.Sound := by
  obtain ⟨offered, market', sale, shares, left, forwarded, residual, -, -, -, hleft, -, -, rfl⟩ :=
    sellPart_eq_ok.mp hpart
  refine ⟨(rounds_sub hleft).nonneg (sub_nonneg.mpr ?_), h.ratePos, h.rateLe⟩
  rw [toRat_min]
  exact min_le_right _ _

/-! ### Only an overflow stops a period -/

theorem failsOnlyBy_disband (hcheck : check subject issuer = .ok ()) (market : Market)
    (now : Timestamp) : FailsOnlyBy Error.IsOverflow (disband subject issuer market now) := by
  unfold disband
  rw [hcheck]
  refine FailsOnlyBy.bind (failsOnlyBy_ok _) fun _ _ =>
    FailsOnlyBy.bind ?_ fun ⟨market', sale⟩ _ => ?_
  · unfold sellAll
    split_ifs
    · exact Market.failsOnlyBy_sell _ _ _ h.shares
    · exact failsOnlyBy_pure _
  refine FailsOnlyBy.bind (failsOnlyBy_deliver _ _ _ _).lift fun delivered _ => ?_
  refine FailsOnlyBy.bind ?_ fun ⟨shares, writtenOff⟩ _ => ?_
  · exact FailsOnlyBy.lift (FailsOnlyBy.of_exists (exists_writeOff _ _))
  exact FailsOnlyBy.bind (failsOnlyBy_add _ _).lift fun _ _ => failsOnlyBy_pure _

theorem failsOnlyBy_sellPart (issuer : Institution) (market : Market) (now : Timestamp) :
    FailsOnlyBy Error.IsOverflow (sellPart subject issuer market now) := by
  unfold sellPart
  refine FailsOnlyBy.bind (FailsOnlyBy.of_exists (exists_onOffer h)).lift fun offered hoffer => ?_
  have hq := (onOffer_bounds h (liftM_eq_ok.mp hoffer)).1
  refine FailsOnlyBy.bind (Market.failsOnlyBy_sell _ _ _ hq) fun ⟨market', sale⟩ _ => ?_
  refine FailsOnlyBy.bind (failsOnlyBy_deliver _ _ _ _).lift fun shares _ => ?_
  refine FailsOnlyBy.bind (failsOnlyBy_sub _ _).lift fun left _ => ?_
  refine FailsOnlyBy.bind (failsOnlyBy_add _ _).lift fun forwarded _ => ?_
  exact FailsOnlyBy.bind (failsOnlyBy_mul _ _).lift fun residual _ => failsOnlyBy_pure _

/-- **Only an overflow stops a period of a live intermediary beside its issuer.** -/
theorem failsOnlyBy_review (hcheck : check subject issuer = .ok ()) (market : Market)
    (now : Timestamp) : FailsOnlyBy Error.IsOverflow (review subject issuer market now) := by
  unfold review
  rw [hcheck]
  refine FailsOnlyBy.bind (failsOnlyBy_ok _) fun _ _ => ?_
  refine FailsOnlyBy.bind (failsOnlyBy_mul _ _).lift fun value _ => ?_
  split_ifs
  · exact failsOnlyBy_disband h hcheck market now
  refine FailsOnlyBy.bind (failsOnlyBy_sellPart h issuer market now) fun part hpart => ?_
  split_ifs
  · refine FailsOnlyBy.bind ?_ fun last _ => ?_
    · exact failsOnlyBy_disband (sound_sellPart h hpart) ((check_sellPart hpart).trans hcheck) _ now
    refine FailsOnlyBy.bind (failsOnlyBy_add _ _).lift fun sold _ => ?_
    exact FailsOnlyBy.bind (failsOnlyBy_add _ _).lift fun proceeds _ => failsOnlyBy_pure _
  · exact failsOnlyBy_pure _

end Sound

/-! ### Before a period -/

/-- A live intermediary beside the issuer of its stock, at a market that prices it soundly. -/
structure Seller (subject : Intermediary) (issuer : Institution) (market : Market) : Prop
    extends subject.Sound where
  live : subject.isDeleted = false
  issued : issuer.id = subject.stock
  price : 0 ≤ (market.book.value subject.stock).toRat
  sound : market.Sound

/-- The amounts of a period are far from the largest there is: those of one sale, and what is
forwarded and bought by now. -/
structure Ample (n : ℕ) (subject : Intermediary) (issuer : Institution) (market : Market) :
    Prop where
  shares : subject.shares.toRat ≤ 10 ^ 28
  value : subject.shares.toRat * (market.book.value subject.stock).toRat ≤ 10 ^ 28
  forwarded : |subject.forwarded.toRat| ≤ n * 10 ^ 28
  bought : ∀ b ∈ market.buyer, |(issuer.sheet.shares.held b).toRat| ≤ n * 10 ^ 28

/-- There is room for what one sale forwards. -/
theorem Ample.exists_forwarded {n : ℕ} (hample : Ample n subject issuer market) (hn : n ≤ 6)
    {proceeds : Decimal} (h0 : 0 ≤ proceeds.toRat) (h1 : proceeds.toRat ≤ 10 ^ 28) :
    ∃ r, subject.forwarded.add proceeds = .ok r ∧ |r.toRat| ≤ (n + 1 : ℕ) * 10 ^ 28 := by
  have hsum : |subject.forwarded.toRat + proceeds.toRat| ≤ (n + 1 : ℕ) * 10 ^ 28 := by
    push_cast
    refine (abs_add_le _ _).trans ?_
    rw [abs_of_nonneg h0]
    linarith [hample.forwarded]
  have hcount : ((n + 1 : ℕ) : ℚ) * 10 ^ 28 ≤ 7 * 10 ^ 28 :=
    mul_le_mul_of_nonneg_right (by exact_mod_cast Nat.succ_le_succ hn) (by positivity)
  obtain ⟨r, hr⟩ := exists_add ((hsum.trans hcount).trans seven_pow_le_largest)
  exact ⟨r, hr, (rounds_add hr).abs_le_pow (Nat.succ_le_succ hn) hsum⟩

namespace Seller

variable (h : Seller subject issuer market)
include h

theorem check : check subject issuer = .ok () := check_eq_ok_iff.mpr ⟨h.live, h.issued⟩

/-- Of an order for part of the holding no more is sold than there is. -/
theorem sold_bounds {quantity : Decimal} {market' : Market} {sale : Sale}
    (horder : market.Order subject.id subject.stock quantity market' sale)
    (hq : 0 ≤ quantity.toRat) :
    0 ≤ (min sale.quantity subject.shares).toRat ∧
      (min sale.quantity subject.shares).toRat ≤ subject.shares.toRat := by
  rw [toRat_min]
  exact ⟨le_min (horder.quantity_nonneg h.sound hq) h.shares, min_le_right _ _⟩

theorem proceeds_bounds {quantity : Decimal} {market' : Market} {sale : Sale}
    (horder : market.Order subject.id subject.stock quantity market' sale)
    (hq : 0 ≤ quantity.toRat) (hle : quantity.toRat ≤ subject.shares.toRat)
    (hvalue : subject.shares.toRat * (market.book.value subject.stock).toRat ≤ 10 ^ 28) :
    0 ≤ sale.proceeds.toRat ∧ sale.proceeds.toRat ≤ 10 ^ 28 := by
  have hround := rounds_mul horder.proceeds_eq
  have hsold := horder.quantity_nonneg h.sound hq
  have hexact := mul_nonneg hsold h.price
  have hmost : sale.quantity.toRat * (market.book.value subject.stock).toRat ≤ 10 ^ 28 :=
    (mul_le_mul_of_nonneg_right ((horder.quantity_le hq).trans hle) h.price).trans hvalue
  have hbound := hround.abs_le_pow (n := 1) (by norm_num) (by
    rw [abs_of_nonneg hexact]
    simpa using hmost)
  exact ⟨hround.nonneg hexact, by simpa using (le_abs_self _).trans hbound⟩

/-- Part of the holding is sold, and the rest is there for the next sale. -/
theorem after_sellPart (hpart : sellPart subject issuer market now = .ok s) :
    Seller s.subject s.issuer s.market ∧ 0 ≤ s.period.sold.toRat ∧
      s.period.sold.toRat ≤ subject.shares.toRat ∧
      subject.shares.sub s.period.sold = .ok s.subject.shares := by
  obtain ⟨offered, market', sale, shares, left, forwarded, residual, hoffer, hsell, -, hleft, -, -,
    rfl⟩ := sellPart_eq_ok.mp hpart
  have horder := Market.order_of_sell hsell
  have hsold := h.sold_bounds horder (onOffer_bounds h.toSound hoffer).1
  refine ⟨⟨sound_sellPart h.toSound hpart, h.live, h.issued, ?_, ?_⟩, hsold.1, hsold.2, hleft⟩
  · show 0 ≤ (market'.book.value subject.stock).toRat
    rw [horder.book]
    exact h.price
  · show market'.Sound
    unfold Market.Sound
    rw [horder.depth]
    exact h.sound

/-! ### Room for the amounts -/

theorem exists_deliver_of_ample {n : ℕ} (hn : n ≤ 6) (hample : Ample n subject issuer market)
    {quantity : Decimal} {market' : Market} {sale : Sale}
    (horder : market.Order subject.id subject.stock quantity market' sale)
    (hq : 0 ≤ quantity.toRat) :
    ∃ r', deliver market'.buyer subject.agentId (min sale.quantity subject.shares)
      issuer.sheet.shares = .ok r' := by
  obtain ⟨hsold0, hsold1⟩ := h.sold_bounds horder hq
  refine exists_deliver _ hsold0 fun b hb => ?_
  have hbought := hample.bought b (horder.buyer ▸ hb)
  have hcount : (n : ℚ) * 10 ^ 28 ≤ 6 * 10 ^ 28 :=
    mul_le_mul_of_nonneg_right (by exact_mod_cast hn) (by positivity)
  linarith [hample.shares, seven_pow_le_largest]

theorem exists_sellAll (hample : subject.shares.toRat * (market.book.value subject.stock).toRat
    ≤ 10 ^ 28) : ∃ market' sale, sellAll subject market = .ok (market', sale) := by
  unfold sellAll
  split_ifs
  · exact Market.exists_sell market _ _ h.sound h.shares h.price
      (hample.trans ((by norm_num : (10 : ℚ) ^ 28 ≤ 7 * 10 ^ 28).trans seven_pow_le_largest))
  · exact ⟨market, .none, rfl⟩

theorem exists_disband {n : ℕ} (hn : n ≤ 6) (hample : Ample n subject issuer market)
    (now : Timestamp) :
    ∃ s, disband subject issuer market now = .ok s ∧ 0 ≤ s.period.sold.toRat ∧
      s.period.sold.toRat ≤ subject.shares.toRat ∧ 0 ≤ s.period.proceeds.toRat ∧
      s.period.proceeds.toRat ≤ 10 ^ 28 := by
  obtain ⟨market', sale, hsell⟩ := h.exists_sellAll hample.value
  have horder := order_of_sellAll hsell h.shares
  have hsold := h.sold_bounds horder h.shares
  obtain ⟨delivered, hdeliver⟩ := h.exists_deliver_of_ample hn hample horder h.shares
  obtain ⟨⟨shares, writtenOff⟩, hwrite⟩ := exists_writeOff subject.agentId delivered
  obtain ⟨h0, h1⟩ := h.proceeds_bounds horder h.shares le_rfl hample.value
  obtain ⟨forwarded, hforward, -⟩ := hample.exists_forwarded hn h0 h1
  exact ⟨_, disband_eq_ok.mpr ⟨h.check, market', sale, delivered, shares, writtenOff, forwarded,
    hsell, hdeliver, hwrite, hforward, rfl⟩, hsold.1, hsold.2, h0, h1⟩

/-- A sale goes through, and leaves room for another. -/
theorem exists_sellPart {n : ℕ} (hn : n ≤ 6) (hample : Ample n subject issuer market)
    (now : Timestamp) :
    ∃ s, sellPart subject issuer market now = .ok s ∧ 0 ≤ s.period.proceeds.toRat ∧
      s.period.proceeds.toRat ≤ 10 ^ 28 ∧ Ample (n + 1) s.subject s.issuer s.market := by
  obtain ⟨offered, hoffer⟩ := exists_onOffer h.toSound
  obtain ⟨hq0, hq1⟩ := onOffer_bounds h.toSound hoffer
  have hprice := h.price
  have hseven : (10 : ℚ) ^ 28 ≤ largest.toRat := by linarith [seven_pow_le_largest]
  obtain ⟨market', sale, hsell⟩ := Market.exists_sell market subject.id subject.stock h.sound hq0
    hprice (((mul_le_mul_of_nonneg_right hq1 hprice).trans hample.value).trans hseven)
  have horder := Market.order_of_sell hsell
  obtain ⟨hsold0, hsold1⟩ := h.sold_bounds horder hq0
  obtain ⟨shares, hdeliver⟩ := h.exists_deliver_of_ample hn hample horder hq0
  obtain ⟨left, hleft⟩ := exists_sub_of_le hsold0 hsold1
  have hleft0 := (rounds_sub hleft).nonneg (sub_nonneg.mpr hsold1)
  have hleft1 := (rounds_sub hleft).le_of_le (sub_le_self _ hsold0)
  obtain ⟨h0, h1⟩ := h.proceeds_bounds horder hq0 hq1 hample.value
  obtain ⟨forwarded, hforward, hforwarded⟩ := hample.exists_forwarded hn h0 h1
  have hvalue : left.toRat * (market.book.value subject.stock).toRat ≤ 10 ^ 28 :=
    (mul_le_mul_of_nonneg_right hleft1 hprice).trans hample.value
  obtain ⟨residual, hresidual⟩ : ∃ r, left.mul (market.book.value subject.stock) = .ok r := by
    refine exists_mul ?_
    rw [abs_of_nonneg (mul_nonneg hleft0 hprice)]
    exact hvalue.trans hseven
  refine ⟨_, sellPart_eq_ok.mpr ⟨offered, market', sale, shares, left, forwarded, residual, hoffer,
    hsell, hdeliver, hleft, hforward, hresidual, rfl⟩, h0, h1, ?_⟩
  refine ⟨hleft1.trans hample.shares, ?_, hforwarded, fun b hb => ?_⟩
  · show left.toRat * (market'.book.value subject.stock).toRat ≤ 10 ^ 28
    rwa [horder.book]
  · have hb' : market'.buyer = some b := hb
    rw [hb'] at hdeliver
    obtain ⟨d, m, hd, hm0, hm1, hadd⟩ := held_deliver_buyer hdeliver hsold0
    refine (rounds_add hadd).abs_le_pow (Nat.succ_le_succ hn) ?_
    push_cast
    refine (abs_add_le _ _).trans ?_
    rw [abs_of_nonneg hm0]
    linarith [hample.bought b (horder.buyer ▸ hb), hample.shares]

/-- **A period goes through if its amounts are far from the largest.** -/
theorem exists_review (hample : Ample 1 subject issuer market) (now : Timestamp) :
    ∃ s, review subject issuer market now = .ok s := by
  have hseven : (10 : ℚ) ^ 28 ≤ largest.toRat := by linarith [seven_pow_le_largest]
  obtain ⟨value, hvalue⟩ : ∃ r, subject.shares.mul (market.book.value subject.stock) = .ok r := by
    refine exists_mul ?_
    rw [abs_of_nonneg (mul_nonneg h.shares h.price)]
    exact hample.value.trans hseven
  by_cases hlow : value ≤ subject.terms.valueThreshold
  · obtain ⟨s, hs, -⟩ := h.exists_disband (by norm_num) hample now
    exact ⟨s, review_eq_ok.mpr ⟨h.check, .ends hvalue hlow hs⟩⟩
  have hhigh := not_le_iff.mp hlow
  obtain ⟨part, hpart, hp0, hp1, hnext⟩ := h.exists_sellPart (by norm_num) hample now
  by_cases hrest : part.period.residualValue ≤ subject.terms.valueThreshold
  · obtain ⟨hseller, hs0, hs1, -⟩ := h.after_sellPart hpart
    obtain ⟨last, hlast, hl0, hl1, hq0, hq1⟩ := hseller.exists_disband (by norm_num) hnext now
    have hshares := hample.shares
    have hleft := hnext.shares
    obtain ⟨sold, hsold⟩ := exists_add (a := part.period.sold) (b := last.period.sold) (by
      rw [abs_of_nonneg (add_nonneg hs0 hl0)]
      linarith [seven_pow_le_largest])
    obtain ⟨proceeds, hproceeds⟩ :=
      exists_add (a := part.period.proceeds) (b := last.period.proceeds) (by
        rw [abs_of_nonneg (add_nonneg hp0 hq0)]
        linarith [seven_pow_le_largest])
    exact ⟨_, review_eq_ok.mpr
      ⟨h.check, .endsAfter hvalue hhigh hpart hrest hlast hsold hproceeds⟩⟩
  · exact ⟨part, review_eq_ok.mpr ⟨h.check, .goesOn hvalue hhigh hpart (not_le_iff.mp hrest)⟩⟩

end Seller

end SellOff

end Insolvency
