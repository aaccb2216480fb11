/-
Gradual selling ends, or it comes to a standstill.

A period that leaves the intermediary in business sells a fraction of the holding.  If that
is anything at all the holding shrinks, and since it is a whole number of grains it cannot do
so for ever (`units_lt_of_sold`).  If the fraction is rounded to nothing, the period changes
nothing, and neither does any after it: the selling has come to a standstill (`Stuck`).  Then
the holding is worth keeping, is not below the quantity that is sold at once, and a period's
part of it is half a grain at most.

So selling always ends where the quantity that is sold at once is large enough for the rate,
as it is on the standard terms; terms that pass the check need not be like that.

A period can also overflow.  What is forwarded and what the buyer holds grows by no more than
a multiple of what the holding has shrunk by, so this does not happen where the holding and
its value are far from the largest amounts (`Roomy`).
-/
import Insolvency.Proofs.SellOff.InStep
import Insolvency.Proofs.Decimal.Sum

namespace Insolvency

open Decimal

namespace SellOff

/-- The `n`th of the periods that begin with these models, each run on the models that the one
before it returned. -/
def nthPeriod (clock : Nat → Timestamp) (subject : Intermediary) (issuer : Institution)
    (market : Market) : Nat → Except Error SellOff
  | 0 => review subject issuer market (clock 0)
  | n + 1 => do
    let s ← review subject issuer market (clock 0)
    nthPeriod (fun k => clock (k + 1)) s.subject s.issuer s.market n

/-- Some period is the last. -/
def Ends (clock : Nat → Timestamp) (subject : Intermediary) (issuer : Institution)
    (market : Market) : Prop :=
  ∃ n s, nthPeriod clock subject issuer market n = .ok s ∧ s.period.disbanded = true

/-- Some period overflows. -/
def Overflows (clock : Nat → Timestamp) (subject : Intermediary) (issuer : Institution)
    (market : Market) : Prop :=
  ∃ n err, nthPeriod clock subject issuer market n = .error err ∧ err.IsOverflow

/-- A holding is worth keeping and is not sold at once, but a period's part of it is nothing. -/
structure Stuck (terms : SellOffTerms) (price holding : Decimal) : Prop where
  kept : terms.sellAllBelow ≤ holding
  nothing : holding.mul terms.sellRate = .ok 0
  worth : ∃ value, holding.mul price = .ok value ∧ terms.valueThreshold < value

/-- From some period on every period goes through, sells nothing, and leaves the intermediary in
business with the same holding. -/
def Stalls (clock : Nat → Timestamp) (subject : Intermediary) (issuer : Institution)
    (market : Market) : Prop :=
  ∃ n holding, Stuck subject.terms (market.book.value subject.stock) holding ∧
    ∀ k, ∃ s, nthPeriod clock subject issuer market (n + k) = .ok s ∧ s.period.disbanded = false ∧
      s.period.sold = 0 ∧ s.subject.shares = holding

/-! ### What one sale takes off the holding -/

section Sold

variable {holding rate sold left : Decimal}

/-- Of a large holding a sale takes off at least a quarter of what it sells, and of a small one
all of it. -/
theorem sold_le_four_mul (hsold : holding.mul rate = .ok sold) (hleft : holding.sub sold = .ok left)
    (h0 : 0 ≤ holding.toRat) (hr0 : 0 < rate.toRat) (hr1 : rate.toRat ≤ 1) :
    sold.toRat ≤ 4 * (holding.toRat - left.toRat) := by
  have hpart := rounds_mul hsold
  have hrest := rounds_sub hleft
  have hx0 : 0 ≤ holding.toRat * rate.toRat := mul_nonneg h0 hr0.le
  have hs0 := hpart.nonneg hx0
  have hs1 := hpart.le_of_le (mul_le_of_le_one_right h0 hr1)
  rcases lt_or_ge holding.units.natAbs mantissaBound with hsmall | hlarge
  · -- All differences below the largest mantissa are exact.
    have hexact : left.toRat = holding.toRat - sold.toRat := by
      rw [sub_toRat] at hrest ⊢
      refine hrest.eq_of_grains (lt_of_le_of_lt ?_ hsmall)
      have hu0 : 0 ≤ sold.units := zero_le_iff.mpr hs0
      have hu1 : sold.units ≤ holding.units := le_iff_toRat.mpr hs1
      omega
    linarith
  · have hgrain := grain_pos
    have hrate := grain_le_of_pos hr0
    have hsize : 7 ≤ holding.toRat := by
      have hu0 : 0 ≤ holding.units := zero_le_iff.mpr h0
      have hu : (7 * 10 ^ maxPlaces : Int) ≤ holding.units := by
        unfold mantissaBound at hlarge
        unfold maxPlaces
        omega
      rw [toRat_eq_units_div, le_div_iff₀ (by positivity)]
      exact_mod_cast hu
    have hx : grain * holding.toRat ≤ holding.toRat * rate.toRat := by
      rw [mul_comm]
      exact mul_le_mul_of_nonneg_left hrate h0
    have hseven : 7 * grain ≤ holding.toRat * rate.toRat := by
      have := mul_le_mul_of_nonneg_left hsize hgrain.le
      linarith
    have hnear := (abs_le.mp (hpart.abs_sub_le (le_max_left 1 _) (by
      rw [abs_of_nonneg hx0]
      exact le_max_right _ _))).1
    have hmost : 9 / 10 * (holding.toRat * rate.toRat) ≤ sold.toRat := by
      rcases le_total (holding.toRat * rate.toRat) 1 with hone | hone
      · rw [max_eq_left hone] at hnear
        linarith
      · rw [max_eq_right hone] at hnear
        linarith [hundred_grains_le hx0]
    have herror := (abs_le.mp (hrest.abs_sub_le (by linarith : 1 ≤ holding.toRat) (by
      rw [abs_of_nonneg (sub_nonneg.mpr hs1)]
      linarith))).2
    linarith

theorem units_lt_of_sold (hsold : holding.mul rate = .ok sold)
    (hleft : holding.sub sold = .ok left) (h0 : 0 ≤ holding.toRat) (hr0 : 0 < rate.toRat)
    (hr1 : rate.toRat ≤ 1) (hne : sold ≠ 0) : left.units.toNat < holding.units.toNat := by
  have hpart := rounds_mul hsold
  have hs0 := hpart.nonneg (mul_nonneg h0 hr0.le)
  have hs1 := hpart.le_of_le (mul_le_of_le_one_right h0 hr1)
  have hpos : 0 < sold.toRat := lt_of_le_of_ne hs0 fun h => hne (toRat_eq_zero.mp h.symm)
  have hquarter := sold_le_four_mul hsold hleft h0 hr0 hr1
  have hlt : left.units < holding.units := lt_iff_toRat.mpr (by linarith)
  have hleft0 : 0 ≤ left.units := zero_le_iff.mpr ((rounds_sub hleft).nonneg (sub_nonneg.mpr hs1))
  omega

end Sold

/-! ### One period that leaves the intermediary in business -/

variable {subject : Intermediary} {issuer : Institution} {market : Market} {now : Timestamp}
  {clock : Nat → Timestamp} {s : SellOff}

/-- A seller at a market without a limit, on terms that keep no holding of no value. -/
structure Steady (subject : Intermediary) (issuer : Institution) (market : Market) : Prop
    extends Seller subject issuer market where
  unlimited : market.depth = none
  threshold : 0 ≤ subject.terms.valueThreshold.toRat

/-- A period that has left the intermediary in business, and what it sold. -/
structure Continues (subject : Intermediary) (issuer : Institution) (market : Market)
    (s : SellOff) : Prop where
  kept : subject.terms.sellAllBelow ≤ subject.shares
  worth : ∃ value, subject.shares.mul (market.book.value subject.stock) = .ok value ∧
    subject.terms.valueThreshold < value
  sold : subject.shares.mul subject.terms.sellRate = .ok s.period.sold
  left : subject.shares.sub s.period.sold = .ok s.subject.shares
  forwarded : ∃ proceeds, s.period.sold.mul (market.book.value subject.stock) = .ok proceeds ∧
    subject.forwarded.add proceeds = .ok s.subject.forwarded
  delivered : deliver market.buyer subject.agentId s.period.sold issuer.sheet.shares
    = .ok s.issuer.sheet.shares

/-- At a market without a limit an order at a price is filled whole. -/
theorem quantity_of_order {seller : IntermediaryId} {stock : InstitutionId} {quantity : Decimal}
    {market' : Market} {sale : Sale} (h : market.Order seller stock quantity market' sale)
    (hunlimited : market.depth = none) (hlisted : market.book.price? stock ≠ none) :
    sale.quantity = quantity := by
  cases h with
  | unfilled hwhy =>
      rcases hwhy with rfl | hnone
      · rfl
      · exact absurd hnone hlisted
  | filled _ _ => simp only [Market.fillable, hunlimited]

namespace Steady

variable (h : Steady subject issuer market)
include h

/-- What is worth more than the threshold has a price. -/
theorem listed {value : Decimal}
    (hvalue : subject.shares.mul (market.book.value subject.stock) = .ok value)
    (hhigh : subject.terms.valueThreshold < value) :
    market.book.price? subject.stock ≠ none := by
  intro hnone
  rw [PriceBook.value, hnone, Option.getD_none, mul_zero_eq_ok] at hvalue
  obtain rfl := Except.ok.inj hvalue
  rw [lt_iff_toRat, toRat_zero] at hhigh
  exact absurd h.threshold (not_le.mpr hhigh)

theorem continues (hreview : review subject issuer market now = .ok s)
    (hopen : s.period.disbanded = false) :
    sellPart subject issuer market now = .ok s ∧ Continues subject issuer market s := by
  cases (review_eq_ok.mp hreview).2 with
  | ends _ _ hlast =>
      obtain ⟨-, _, _, _, _, _, _, -, -, -, -, rfl⟩ := disband_eq_ok.mp hlast
      cases hopen
  | endsAfter _ _ _ _ hlast _ _ =>
      obtain ⟨-, _, _, _, _, _, _, -, -, -, -, rfl⟩ := disband_eq_ok.mp hlast
      cases hopen
  | @goesOn value s hvalue hhigh hpart hrest =>
      refine ⟨hpart, ?_⟩
      obtain ⟨offered, market', sale, shares, left, forwarded, residual, hoffer, hsell, hdeliver,
        hleft, hforward, hresidual, rfl⟩ := sellPart_eq_ok.mp hpart
      have horder := Market.order_of_sell hsell
      have hfilled := quantity_of_order horder h.unlimited (h.listed hvalue hhigh)
      have hall : min sale.quantity subject.shares = offered := by
        refine toRat_injective ?_
        rw [hfilled, toRat_min, min_eq_left (onOffer_bounds h.toSound hoffer).2]
      simp only [hall] at hdeliver hleft hrest ⊢
      unfold onOffer at hoffer
      split_ifs at hoffer with hsmall
      · -- All of it would be sold, and what is left would be worth nothing.
        obtain rfl := Except.ok.inj hoffer
        have hnone : left = 0 := by
          have hround := rounds_sub hleft
          rw [sub_self, ← toRat_zero] at hround
          exact hround.eq_of_amount
        rw [hnone, zero_mul_eq_ok] at hresidual
        obtain rfl := Except.ok.inj hresidual
        rw [lt_iff_toRat, toRat_zero] at hrest
        exact absurd h.threshold (not_le.mpr hrest)
      · exact {
          kept := le_iff_toRat.mpr (not_lt.mp fun hlt => hsmall (lt_iff_toRat.mpr hlt))
          worth := ⟨value, hvalue, hhigh⟩
          sold := hoffer
          left := hleft
          forwarded := ⟨sale.proceeds, hfilled ▸ horder.proceeds_eq, hforward⟩
          delivered := horder.buyer ▸ hdeliver }

/-- The next period begins like this one, with a smaller holding or the same. -/
theorem after_sellPart (hpart : sellPart subject issuer market now = .ok s) :
    Steady s.subject s.issuer s.market ∧ s.subject.terms = subject.terms ∧
      s.market.book.value s.subject.stock = market.book.value subject.stock := by
  obtain ⟨hsubject, hmarket⟩ := keeps_sellPart hpart
  have hterms : s.subject.terms = subject.terms := (congrArg Intermediary.terms hsubject).trans rfl
  have hstock : s.subject.stock = subject.stock := (congrArg Intermediary.stock hsubject).trans rfl
  refine ⟨⟨(h.toSeller.after_sellPart hpart).1, ?_, hterms ▸ h.threshold⟩, hterms, ?_⟩
  · exact ((congrArg Market.depth hmarket).trans rfl).trans h.unlimited
  · rw [hstock, (congrArg Market.book hmarket).trans rfl]

/-! ### A standstill -/

/-- Where a part of the holding is nothing, a period goes through and changes nothing. -/
theorem review_of_stuck
    (hstuck : Stuck subject.terms (market.book.value subject.stock) subject.shares)
    (now : Timestamp) :
    ∃ s, review subject issuer market now = .ok s ∧ sellPart subject issuer market now = .ok s ∧
      s.period.disbanded = false ∧ s.period.sold = 0 ∧ s.subject.shares = subject.shares := by
  obtain ⟨value, hvalue, hhigh⟩ := hstuck.worth
  have hoffer : onOffer subject = .ok 0 := by
    rw [onOffer, if_neg (not_lt.mpr (le_iff_toRat.mp hstuck.kept) ∘ lt_iff_toRat.mp),
      hstuck.nothing]
  have hzero : (0 : ℚ) ≤ (0 : Decimal).toRat := toRat_zero.ge
  obtain ⟨market', sale, hsell⟩ := Market.exists_sell market subject.id subject.stock h.sound hzero
    h.price (by
      rw [toRat_zero, zero_mul]
      exact (abs_nonneg _).trans (abs_toRat_le_largest 0))
  have horder := Market.order_of_sell hsell
  have hnone := quantity_of_order horder h.unlimited (h.listed hvalue hhigh)
  have hsold : min sale.quantity subject.shares = 0 := by rw [hnone, zero_min h.shares]
  have hproceeds : sale.proceeds = 0 := by
    have := horder.proceeds_eq
    rw [hnone, zero_mul_eq_ok] at this
    exact (Except.ok.inj this).symm
  obtain ⟨shares, hdeliver⟩ :
      ∃ r', deliver market'.buyer subject.agentId 0 issuer.sheet.shares = .ok r' :=
    exists_deliver subject.agentId hzero fun b _ => by
      rw [toRat_zero, add_zero]
      exact abs_toRat_le_largest _
  have hpart : ∃ s, sellPart subject issuer market now = .ok s ∧ s.period.disbanded = false ∧
      s.period.sold = 0 ∧ s.subject.shares = subject.shares ∧ s.period.residualValue = value := by
    have hforward : subject.forwarded.add sale.proceeds = .ok subject.forwarded :=
      hproceeds ▸ add_zero_eq_ok _
    exact ⟨_, sellPart_eq_ok.mpr ⟨0, market', sale, shares, subject.shares, subject.forwarded,
      value, hoffer, hsell, hsold ▸ hdeliver, hsold ▸ sub_zero_eq_ok _, hforward, hvalue, rfl⟩,
      rfl, hsold, rfl, rfl⟩
  obtain ⟨s, hpart, hopen, hsold', hsame, hrest⟩ := hpart
  exact ⟨s, review_eq_ok.mpr ⟨h.check, .goesOn hvalue hhigh hpart (hrest ▸ hhigh)⟩, hpart, hopen,
    hsold', hsame⟩

end Steady

theorem nthPeriod_succ (hreview : review subject issuer market (clock 0) = .ok s) (n : Nat) :
    nthPeriod clock subject issuer market (n + 1)
      = nthPeriod (fun k => clock (k + 1)) s.subject s.issuer s.market n := by
  simp only [nthPeriod, hreview, bind, Except.bind]

/-- A standstill lasts. -/
theorem Steady.stuck_forever (h : Steady subject issuer market)
    (hstuck : Stuck subject.terms (market.book.value subject.stock) subject.shares) (k : Nat) :
    ∃ s, nthPeriod clock subject issuer market k = .ok s ∧ s.period.disbanded = false ∧
      s.period.sold = 0 ∧ s.subject.shares = subject.shares := by
  induction k generalizing clock subject issuer market with
  | zero =>
      obtain ⟨s, hreview, -, hopen, hsold, hsame⟩ := h.review_of_stuck hstuck (clock 0)
      exact ⟨s, hreview, hopen, hsold, hsame⟩
  | succ k ih =>
      obtain ⟨s, hreview, hpart, -, -, hsame⟩ := h.review_of_stuck hstuck (clock 0)
      obtain ⟨hnext, hterms, hprice⟩ := h.after_sellPart hpart
      rw [nthPeriod_succ hreview]
      obtain ⟨s', hs', hopen, hsold, hsame'⟩ := ih hnext (by rwa [hterms, hprice, hsame])
      exact ⟨s', hs', hopen, hsold, hsame'.trans hsame⟩

theorem Steady.stalls_of_stuck (h : Steady subject issuer market)
    (hstuck : Stuck subject.terms (market.book.value subject.stock) subject.shares) :
    Stalls clock subject issuer market :=
  ⟨0, _, hstuck, fun k => by
    rw [Nat.zero_add]
    exact h.stuck_forever hstuck k⟩

/-! ### The end, an overflow or a standstill -/

section Shift

variable (hreview : review subject issuer market (clock 0) = .ok s)
include hreview

theorem ends_of_next (h : Ends (fun k => clock (k + 1)) s.subject s.issuer s.market) :
    Ends clock subject issuer market := by
  obtain ⟨n, s', hs', hend⟩ := h
  exact ⟨n + 1, s', (nthPeriod_succ hreview n).trans hs', hend⟩

theorem overflows_of_next (h : Overflows (fun k => clock (k + 1)) s.subject s.issuer s.market) :
    Overflows clock subject issuer market := by
  obtain ⟨n, err, herr, hoverflow⟩ := h
  exact ⟨n + 1, err, (nthPeriod_succ hreview n).trans herr, hoverflow⟩

theorem stalls_of_next (hterms : s.subject.terms = subject.terms)
    (hprice : s.market.book.value s.subject.stock = market.book.value subject.stock)
    (h : Stalls (fun k => clock (k + 1)) s.subject s.issuer s.market) :
    Stalls clock subject issuer market := by
  obtain ⟨n, holding, hstuck, hlasts⟩ := h
  refine ⟨n + 1, holding, by rwa [hterms, hprice] at hstuck, fun k => ?_⟩
  rw [Nat.add_right_comm, nthPeriod_succ hreview]
  exact hlasts k

end Shift

/-- Strong induction on the grains of the holding, which a period takes some of or none. -/
theorem Steady.ends_or (h : Steady subject issuer market) (clock : Nat → Timestamp) :
    Ends clock subject issuer market ∨ Overflows clock subject issuer market ∨
      Stalls clock subject issuer market := by
  induction hn : subject.shares.units.toNat using Nat.strong_induction_on
    generalizing clock subject issuer market with
  | _ n ih =>
      cases hreview : review subject issuer market (clock 0) with
      | error err =>
          exact Or.inr (Or.inl ⟨0, err, hreview,
            failsOnlyBy_review h.toSound h.check market (clock 0) err hreview⟩)
      | ok s =>
          cases hopen : s.period.disbanded with
          | true => exact Or.inl ⟨0, s, hreview, hopen⟩
          | false =>
              obtain ⟨hpart, hcontinues⟩ := h.continues hreview hopen
              obtain ⟨hnext, hterms, hprice⟩ := h.after_sellPart hpart
              by_cases hsold : s.period.sold = 0
              · exact Or.inr (Or.inr (h.stalls_of_stuck
                  ⟨hcontinues.kept, hsold ▸ hcontinues.sold, hcontinues.worth⟩))
              · have hlt := units_lt_of_sold hcontinues.sold hcontinues.left h.shares h.ratePos
                  h.rateLe hsold
                rcases ih _ (hn ▸ hlt) hnext (fun k => clock (k + 1)) rfl with hend | hover | hstall
                · exact Or.inl (ends_of_next hreview hend)
                · exact Or.inr (Or.inl (overflows_of_next hreview hover))
                · exact Or.inr (Or.inr (stalls_of_next hreview hterms hprice hstall))

/-! ### After the end -/

theorem deleted_of_disbanded (hreview : review subject issuer market now = .ok s)
    (hend : s.period.disbanded = true) : s.subject.isDeleted = true := by
  cases (review_eq_ok.mp hreview).2 with
  | ends _ _ hlast =>
      obtain ⟨-, _, _, _, _, _, _, -, -, -, -, rfl⟩ := disband_eq_ok.mp hlast
      rfl
  | goesOn _ _ hpart _ =>
      obtain ⟨_, _, _, _, _, _, _, -, -, -, -, -, -, rfl⟩ := sellPart_eq_ok.mp hpart
      cases hend
  | endsAfter _ _ _ _ hlast _ _ =>
      obtain ⟨-, _, _, _, _, _, _, -, -, -, -, rfl⟩ := disband_eq_ok.mp hlast
      rfl

theorem nthPeriod_of_deleted (hdeleted : subject.isDeleted = true) (n : Nat) :
    nthPeriod clock subject issuer market n = .error (.objectIsDeleted .intermediary) := by
  have hcheck : check subject issuer = .error (.objectIsDeleted .intermediary) := by
    rw [check, if_pos hdeleted]
  have hreview : review subject issuer market (clock 0)
      = .error (.objectIsDeleted .intermediary) := by
    rw [review, hcheck]
    rfl
  cases n with
  | zero => exact hreview
  | succ n =>
      rw [nthPeriod, hreview]
      rfl

/-- No period goes through after the last. -/
theorem nthPeriod_after_end {n : Nat} (h : nthPeriod clock subject issuer market n = .ok s)
    (hend : s.period.disbanded = true) (k : Nat) :
    nthPeriod clock subject issuer market (n + k + 1)
      = .error (.objectIsDeleted .intermediary) := by
  induction n generalizing clock subject issuer market with
  | zero =>
      rw [nthPeriod_succ h]
      exact nthPeriod_of_deleted (deleted_of_disbanded h hend) _
  | succ n ih =>
      simp only [nthPeriod, bind_eq_ok] at h
      obtain ⟨first, hreview, h⟩ := h
      rw [nthPeriod_succ hreview, Nat.add_right_comm]
      exact ih h

/-- Selling that has come to a standstill never ends. -/
theorem not_ends_of_stalls (h : Stalls clock subject issuer market) :
    ¬ Ends clock subject issuer market := by
  rintro ⟨n, s, hs, hend⟩
  obtain ⟨n', holding, -, hlasts⟩ := h
  obtain ⟨s', hs', -⟩ := hlasts (n + 1)
  have hafter := nthPeriod_after_end hs hend n'
  rw [show n + n' + 1 = n' + (n + 1) by omega, hs'] at hafter
  cases hafter

/-! ### Room for all periods -/

/-- What is still to be forwarded and bought has room, even rounded up time and again. -/
structure Roomy (subject : Intermediary) (issuer : Institution) (market : Market) : Prop where
  shares : subject.shares.toRat ≤ 10 ^ 28
  forwarded : |subject.forwarded.toRat|
    + 484 * (subject.shares.toRat * (market.book.value subject.stock).toRat) ≤ 10 ^ 28
  bought : ∀ b ∈ market.buyer,
    |(issuer.sheet.shares.held b).toRat| + 44 * subject.shares.toRat ≤ 10 ^ 28

theorem Roomy.ample (h : Roomy subject issuer market) (hseller : Seller subject issuer market) :
    Ample 1 subject issuer market := by
  have hvalue := mul_nonneg hseller.shares hseller.price
  have hshares := hseller.shares
  have hforwarded := abs_nonneg subject.forwarded.toRat
  refine ⟨h.shares, by linarith [h.forwarded], ?_, fun b hb => ?_⟩
  · rw [Nat.cast_one, one_mul]
    linarith [h.forwarded]
  · rw [Nat.cast_one, one_mul]
    linarith [h.bought b hb]

theorem abs_add_le_eleven {a v r : Decimal} (h : a.add v = .ok r) (hv : 0 ≤ v.toRat) :
    |r.toRat| ≤ |a.toRat| + 11 * v.toRat := by
  obtain ⟨hlow, hhigh⟩ := add_bounds h hv
  exact abs_le.mpr ⟨by linarith [neg_abs_le a.toRat], by linarith [le_abs_self a.toRat]⟩

theorem mul_le_eleven {a b r : Decimal} (h : a.mul b = .ok r) (h0 : 0 ≤ a.toRat * b.toRat) :
    r.toRat ≤ 11 * (a.toRat * b.toRat) := by
  have hnear := (rounds_mul h).abs_sub_le_ten_mul 0
  rw [toRat_zero, zero_sub, abs_neg, abs_of_nonneg h0] at hnear
  linarith [(abs_le.mp hnear).2]

/-- What a period forwards and sells was reckoned with. -/
theorem Steady.roomy_next (h : Steady subject issuer market) (hroomy : Roomy subject issuer market)
    (hreview : review subject issuer market now = .ok s) (hopen : s.period.disbanded = false) :
    Roomy s.subject s.issuer s.market := by
  obtain ⟨hpart, hcontinues⟩ := h.continues hreview hopen
  obtain ⟨-, -, hprice⟩ := h.after_sellPart hpart
  obtain ⟨-, hsold0, hsold1, -⟩ := h.toSeller.after_sellPart hpart
  obtain ⟨proceeds, hproceeds, hforward⟩ := hcontinues.forwarded
  have hquarter := sold_le_four_mul hcontinues.sold hcontinues.left h.shares h.ratePos h.rateLe
  have hleft := (rounds_sub hcontinues.left).le_of_le (sub_le_self _ hsold0)
  have hexact := mul_nonneg hsold0 h.price
  refine ⟨hleft.trans hroomy.shares, ?_, fun b hb => ?_⟩
  · have hgrowth := abs_add_le_eleven hforward ((rounds_mul hproceeds).nonneg hexact)
    have hmost := mul_le_eleven hproceeds hexact
    have hworth := mul_le_mul_of_nonneg_right hquarter h.price
    rw [hprice]
    linarith [hroomy.forwarded]
  · have hbuyer : market.buyer = some b :=
      ((congrArg Market.buyer (keeps_sellPart hpart).2).trans rfl).symm.trans hb
    have hdeliver := hcontinues.delivered
    rw [hbuyer] at hdeliver
    obtain ⟨d, m, hd, hm0, hm1, hadd⟩ := held_deliver_buyer hdeliver hsold0
    linarith [abs_add_le_eleven hadd hm0, hroomy.bought b hbuyer]

theorem Steady.not_overflows (h : Steady subject issuer market)
    (hroomy : Roomy subject issuer market) : ¬ Overflows clock subject issuer market := by
  rintro ⟨n, err, herr, fault, rfl, hoverflow⟩
  induction n generalizing clock subject issuer market with
  | zero =>
      obtain ⟨s, hs⟩ := h.toSeller.exists_review (hroomy.ample h.toSeller) (clock 0)
      cases hs.symm.trans herr
  | succ n ih =>
      obtain ⟨s, hs⟩ := h.toSeller.exists_review (hroomy.ample h.toSeller) (clock 0)
      rw [nthPeriod_succ hs] at herr
      cases hopen : s.period.disbanded with
      | true =>
          rw [nthPeriod_of_deleted (deleted_of_disbanded hs hopen)] at herr
          cases herr
      | false =>
          obtain ⟨hpart, -⟩ := h.continues hs hopen
          exact ih (h.after_sellPart hpart).1 (h.roomy_next hroomy hs hopen) herr

/-! ### From the first period on -/

theorem steady_of_create {id : IntermediaryId} {beneficiary : AgentId} {stock : InstitutionId}
    {shares : Decimal} {terms : SellOffTerms} {m : Intermediary}
    (hm : create id beneficiary stock shares terms now = .ok m) (hissuer : issuer.id = stock)
    (hdepth : market.depth = none) (hprice : 0 ≤ (market.book.value stock).toRat) :
    m = .spawn id beneficiary stock shares terms now ∧ Steady m issuer market := by
  unfold create at hm
  split_ifs at hm with hshares
  · cases hm
  simp only [bind_eq_ok, pure_eq_ok] at hm
  obtain ⟨_, hterms, rfl⟩ := hm
  have hrange : terms.InRange := by
    refine SellOffTerms.inRange_of_fault? ?_
    cases hfault : terms.fault? with
    | none => rfl
    | some fault =>
        rw [hfault] at hterms
        cases hterms
  rw [lt_iff_toRat, toRat_zero, not_lt] at hshares
  exact ⟨rfl, {
    shares := hshares
    ratePos := hrange.ratePos
    rateLe := hrange.rateLe
    live := rfl
    issued := hissuer
    price := hprice
    sound := fun depth hd => by
      rw [hdepth] at hd
      cases hd
    unlimited := hdepth
    threshold := hrange.threshold }⟩

/-- **Gradual selling ends, overflows, or comes to a standstill**, and only one that ends has an
end.  With amounts far from the largest it does not overflow, and where a period's part of the
quantity that is sold at once is more than half a grain it does not come to a standstill. -/
theorem gradual_selling {id : IntermediaryId} {beneficiary : AgentId} {stock : InstitutionId}
    {shares : Decimal} {terms : SellOffTerms} {m : Intermediary}
    (hm : create id beneficiary stock shares terms now = .ok m) (hissuer : issuer.id = stock)
    (hdepth : market.depth = none) (hprice : 0 ≤ (market.book.value stock).toRat)
    (clock : Nat → Timestamp) :
    (Ends clock m issuer market ∨ Overflows clock m issuer market ∨ Stalls clock m issuer market) ∧
    (shares.toRat ≤ 10 ^ 25 → shares.toRat * (market.book.value stock).toRat ≤ 10 ^ 25 →
      (∀ b ∈ market.buyer, |(issuer.sheet.shares.held b).toRat| ≤ 10 ^ 25) →
      ¬ Overflows clock m issuer market) ∧
    (grain / 2 < terms.sellAllBelow.toRat * terms.sellRate.toRat → ¬ Stalls clock m issuer market) ∧
    (Stalls clock m issuer market → ¬ Ends clock m issuer market) := by
  obtain ⟨rfl, h⟩ := steady_of_create hm hissuer hdepth hprice
  refine ⟨h.ends_or clock, fun hshares hvalue hbought => ?_, fun hquick => ?_, not_ends_of_stalls⟩
  · refine h.not_overflows ⟨?_, ?_, fun b hb => ?_⟩
    · show shares.toRat ≤ 10 ^ 28
      linarith
    · show |(0 : Decimal).toRat| + 484 * (shares.toRat * (market.book.value stock).toRat) ≤ 10 ^ 28
      rw [toRat_zero, abs_zero]
      linarith
    · show |(issuer.sheet.shares.held b).toRat| + 44 * shares.toRat ≤ 10 ^ 28
      linarith [hbought b hb]
  · rintro ⟨n, holding, hstuck, -⟩
    have hpart := (le_abs_self _).trans (rounds_mul hstuck.nothing).abs_le_half_grain
    have hkept := mul_le_mul_of_nonneg_right (le_iff_toRat.mp hstuck.kept) h.ratePos.le
    exact absurd hquick (not_lt.mpr (hkept.trans hpart))

/-- A hundred shares at two each are sold off in the end, on the standard terms. -/
theorem gradual_selling_sampleSeller :
    create "steward" ⟨.household, "smith"⟩ "north" 100.0 .standard sampleContext.now
        = .ok (sampleSeller 100.0 .standard) ∧
      (sampleIssuer 100.0).id = "north" ∧ (sampleMarket 2.0 none none).depth = none ∧
      0 ≤ ((sampleMarket 2.0 none none).book.value "north").toRat ∧
      Ends (fun _ => sampleContext.now) (sampleSeller 100.0 .standard) (sampleIssuer 100.0)
        (sampleMarket 2.0 none none) := by
  have hcreate : create "steward" ⟨.household, "smith"⟩ "north" 100.0 .standard sampleContext.now
      = .ok (sampleSeller 100.0 .standard) := rfl
  have hshares : (100.0 : Decimal).toRat = 100 := by
    rw [toRat_eq_units_div, show (100.0 : Decimal).units = 100 * 10 ^ 28 from by decide]
    norm_num [maxPlaces]
  have htwo : (2.0 : Decimal).toRat = 2 := by
    rw [toRat_eq_units_div, show (2.0 : Decimal).units = 2 * 10 ^ 28 from by decide]
    norm_num [maxPlaces]
  have hprice : 0 ≤ ((sampleMarket 2.0 none none).book.value "north").toRat := by
    rw [value_sampleMarket, htwo]
    norm_num
  have hissuer : (sampleIssuer 100.0).id = "north" := rfl
  have hdepth : (sampleMarket 2.0 none none).depth = none := rfl
  obtain ⟨hcases, hroom, hquick, -⟩ :=
    gradual_selling hcreate hissuer hdepth hprice fun _ => sampleContext.now
  refine ⟨hcreate, hissuer, hdepth, hprice, ?_⟩
  rcases hcases with hend | hover | hstall
  · exact hend
  · refine absurd hover (hroom ?_ ?_ fun b hb => by cases hb)
    · rw [hshares]
      norm_num
    · rw [value_sampleMarket, hshares, htwo]
      norm_num
  · refine absurd hstall (hquick ?_)
    rw [show SellOffTerms.standard.sellAllBelow.toRat = 1 / 10000 by
        rw [toRat_eq_units_div, show SellOffTerms.standard.sellAllBelow.units = 10 ^ 24 by decide]
        norm_num [maxPlaces],
      show SellOffTerms.standard.sellRate.toRat = 1 / 5 by
        rw [toRat_eq_units_div, show SellOffTerms.standard.sellRate.units = 2 * 10 ^ 27 by decide]
        norm_num [maxPlaces]]
    norm_num [grain, maxPlaces]

/-- Terms that keep every holding of any value, and never sell one at once. -/
def idleTerms : SellOffTerms := ⟨0, 0.2, 0⟩

/-- A fifth of two grains is nothing, and they are worth something, so they are never sold. -/
theorem neverEnds_sampleSeller :
    idleTerms.fault? = none ∧
    create "steward" ⟨.household, "smith"⟩ "north" 0.0000000000000000000000000002 idleTerms
        sampleContext.now = .ok (sampleSeller 0.0000000000000000000000000002 idleTerms) ∧
    ¬ Ends (fun _ => sampleContext.now) (sampleSeller 0.0000000000000000000000000002 idleTerms)
      (sampleIssuer 0.0000000000000000000000000002) (sampleMarket 1.0 none none) := by
  have hcreate : create "steward" ⟨.household, "smith"⟩ "north" 0.0000000000000000000000000002
      idleTerms sampleContext.now
        = .ok (sampleSeller 0.0000000000000000000000000002 idleTerms) := rfl
  have hsteady : Steady (sampleSeller 0.0000000000000000000000000002 idleTerms)
      (sampleIssuer 0.0000000000000000000000000002) (sampleMarket 1.0 none none) := by
    refine (steady_of_create hcreate rfl rfl ?_).2
    rw [value_sampleMarket]
    exact zero_le_iff.mp (by decide)
  refine ⟨by decide, hcreate,
    not_ends_of_stalls (hsteady.stalls_of_stuck ⟨by decide, by decide, ?_⟩)⟩
  show ∃ value,
    (0.0000000000000000000000000002 : Decimal).mul (PriceBook.value _ "north") = .ok value ∧ _
  rw [value_sampleMarket]
  exact ⟨0.0000000000000000000000000002, by decide, by decide⟩

end SellOff

end Insolvency
