/-
Selling goes by the intermediary's own count.

An order is for the shares that the intermediary counts, and what it raises is forwarded.
The share accounts of the issuer come in afterwards, when what was sold is taken off.  So
the same sale is made whatever the account holds (`SameSale`), while no more comes off the
account than is on it (`OffAccount`).

Where count and account agree, what is sold is on the account (`OnAccount`).  Where an account
has been emptied in between, proceeds are forwarded for shares that nobody gives up.
-/
import Insolvency.Proofs.SellOff.Proceeds

namespace Insolvency

open Decimal

namespace SellOff

variable {subject : Intermediary} {issuer issuer' : Institution} {market : Market} {now : Timestamp}
  {s s' : SellOff}

/-! ### The same sale on any accounts -/

/-- Two periods of an intermediary that differ in the issuer's share accounts only, and so in
what is written off of them. -/
structure SameSale (s s' : SellOff) : Prop where
  subject : s'.subject = s.subject
  market : s'.market = s.market
  beneficiary : s'.period.beneficiary = s.period.beneficiary
  sold : s'.period.sold = s.period.sold
  proceeds : s'.period.proceeds = s.period.proceeds
  residualValue : s'.period.residualValue = s.period.residualValue
  disbanded : s'.period.disbanded = s.period.disbanded

theorem sameSale_of_disband (h : disband subject issuer market now = .ok s)
    (h' : disband subject issuer' market now = .ok s') : SameSale s s' := by
  obtain ⟨-, traded, sale, -, -, -, forwarded, hsell, -, -, hforward, rfl⟩ := disband_eq_ok.mp h
  obtain ⟨-, traded', sale', -, -, -, forwarded', hsell', -, -, hforward', rfl⟩ :=
    disband_eq_ok.mp h'
  obtain ⟨rfl, rfl⟩ := Prod.mk.inj (Except.ok.inj (hsell'.symm.trans hsell))
  obtain rfl := Except.ok.inj (hforward'.symm.trans hforward)
  exact ⟨rfl, rfl, rfl, rfl, rfl, rfl, rfl⟩

theorem sameSale_of_sellPart (h : sellPart subject issuer market now = .ok s)
    (h' : sellPart subject issuer' market now = .ok s') : SameSale s s' := by
  obtain ⟨offered, traded, sale, -, left, forwarded, residual, hoffer, hsell, -, hleft, hforward,
    hresidual, rfl⟩ := sellPart_eq_ok.mp h
  obtain ⟨offered', traded', sale', -, left', forwarded', residual', hoffer', hsell', -, hleft',
    hforward', hresidual', rfl⟩ := sellPart_eq_ok.mp h'
  obtain rfl := Except.ok.inj (hoffer'.symm.trans hoffer)
  obtain ⟨rfl, rfl⟩ := Prod.mk.inj (Except.ok.inj (hsell'.symm.trans hsell))
  obtain rfl := Except.ok.inj (hleft'.symm.trans hleft)
  obtain rfl := Except.ok.inj (hforward'.symm.trans hforward)
  obtain rfl := Except.ok.inj (hresidual'.symm.trans hresidual)
  exact ⟨rfl, rfl, rfl, rfl, rfl, rfl, rfl⟩

/-- What the holding is worth decides whether selling ends, so it ends on both accounts or on
neither. -/
theorem sameSale_of_review (h : review subject issuer market now = .ok s)
    (h' : review subject issuer' market now = .ok s') : SameSale s s' := by
  cases (review_eq_ok.mp h).2 with
  | ends hvalue hlow hlast =>
      cases (review_eq_ok.mp h').2 with
      | ends _ _ hlast' => exact sameSale_of_disband hlast hlast'
      | goesOn hvalue' hhigh' _ _ | endsAfter hvalue' hhigh' _ _ _ _ _ =>
          obtain rfl := Except.ok.inj (hvalue'.symm.trans hvalue)
          exact absurd hlow (not_le_iff.mpr hhigh')
  | goesOn hvalue hhigh hpart hrest =>
      cases (review_eq_ok.mp h').2 with
      | ends hvalue' hlow' _ =>
          obtain rfl := Except.ok.inj (hvalue'.symm.trans hvalue)
          exact absurd hlow' (not_le_iff.mpr hhigh)
      | goesOn _ _ hpart' _ => exact sameSale_of_sellPart hpart hpart'
      | endsAfter _ _ hpart' hrest' _ _ _ =>
          rw [(sameSale_of_sellPart hpart hpart').residualValue] at hrest'
          exact absurd hrest' (not_le_iff.mpr hrest)
  | endsAfter hvalue hhigh hpart hrest hlast hsold hproceeds =>
      cases (review_eq_ok.mp h').2 with
      | ends hvalue' hlow' _ =>
          obtain rfl := Except.ok.inj (hvalue'.symm.trans hvalue)
          exact absurd hlow' (not_le_iff.mpr hhigh)
      | goesOn _ _ hpart' hrest' =>
          rw [(sameSale_of_sellPart hpart hpart').residualValue] at hrest'
          exact absurd hrest (not_le_iff.mpr hrest')
      | endsAfter _ _ hpart' _ hlast' hsold' hproceeds' =>
          have hfirst := sameSale_of_sellPart hpart hpart'
          rw [hfirst.subject, hfirst.market] at hlast'
          have hsecond := sameSale_of_disband hlast hlast'
          rw [hfirst.sold, hsecond.sold] at hsold'
          rw [hfirst.proceeds, hsecond.proceeds] at hproceeds'
          obtain rfl := Except.ok.inj (hsold'.symm.trans hsold)
          obtain rfl := Except.ok.inj (hproceeds'.symm.trans hproceeds)
          exact ⟨hsecond.subject, hsecond.market, hsecond.beneficiary, rfl, rfl,
            hsecond.residualValue, hsecond.disbanded⟩

/-! ### What comes off the account -/

/-- No more comes off an account than is on it, and nothing moves if it is empty. -/
structure OffAccount (holder : AgentId) (r r' : Shares) : Prop where
  nonneg : 0 ≤ (r'.held holder).toRat
  le : (r'.held holder).toRat ≤ (r.held holder).toRat
  idle : r.held holder = 0 → ∀ a, r'.held a = r.held a

theorem OffAccount.trans {holder : AgentId} {r r' r'' : Shares} (h : OffAccount holder r r')
    (h' : OffAccount holder r' r'') : OffAccount holder r r'' where
  nonneg := h'.nonneg
  le := h'.le.trans h.le
  idle hnone a := (h'.idle ((h.idle hnone holder).trans hnone) a).trans (h.idle hnone a)

section Accounts

variable {buyer : Option AgentId} {holder : AgentId} {sold writtenOff : Decimal} {r r' : Shares}

/-- Taking nothing off an empty account and giving it to somebody changes nobody's account. -/
theorem held_deliver_of_held_eq_zero (h : deliver buyer holder sold r = .ok r')
    (hnone : r.held holder = 0) (a : AgentId) : r'.held a = r.held a := by
  have hmoved : r.movable holder sold = 0 := (Shares.movable_of_held_eq_zero hnone).trans hnone
  have hdebited : (-r.movable holder sold).toRat = 0 := by
    rw [hmoved, toRat_neg, toRat_zero, neg_zero]
  obtain ⟨debited, hdebit, ⟨-, rfl⟩ | ⟨b, -, hcredit⟩⟩ := deliver_eq_ok h
  · exact Shares.held_issue_of_toRat_eq_zero hdebit hdebited a
  · rw [Shares.held_issue_of_toRat_eq_zero hcredit (by rw [hmoved, toRat_zero]) a]
    exact Shares.held_issue_of_toRat_eq_zero hdebit hdebited a

theorem offAccount_deliver (h : deliver buyer holder sold r = .ok r') (hne : buyer ≠ some holder)
    (hheld : 0 ≤ (r.held holder).toRat) : OffAccount holder r r' := by
  have hmost : (r.movable holder sold).toRat ≤ (r.held holder).toRat := by
    rw [Shares.toRat_movable]
    exact max_le (min_le_right _ _) hheld
  have hround := rounds_sub (add_neg_eq_ok.mp (held_deliver_holder h hne))
  exact ⟨hround.nonneg (sub_nonneg.mpr hmost),
    hround.le_of_le (sub_le_self _ (Shares.movable_nonneg r holder sold)),
    held_deliver_of_held_eq_zero h⟩

theorem offAccount_writeOff (h : writeOff holder r = .ok (r', writtenOff))
    (hheld : 0 ≤ (r.held holder).toRat) : OffAccount holder r r' := by
  obtain ⟨hnone, -, hothers⟩ := writeOff_eq_ok h hheld
  refine ⟨?_, ?_, fun hempty a => ?_⟩
  · rw [hnone, toRat_zero]
  · rwa [hnone, toRat_zero]
  · by_cases ha : a = holder
    · rw [ha, hnone, hempty]
    · exact hothers a ha

end Accounts

section Periods

variable (hbuyer : market.buyer ≠ some subject.agentId)
  (hheld : 0 ≤ (issuer.sheet.shares.held subject.agentId).toRat)
include hbuyer hheld

theorem offAccount_of_disband (hshares : 0 ≤ subject.shares.toRat)
    (hlast : disband subject issuer market now = .ok s) :
    OffAccount subject.agentId issuer.sheet.shares s.issuer.sheet.shares := by
  obtain ⟨-, traded, sale, delivered, shares, writtenOff, forwarded, hsell, hdeliver, hwrite, -,
    rfl⟩ := disband_eq_ok.mp hlast
  rw [(order_of_sellAll hsell hshares).buyer] at hdeliver
  have hfirst := offAccount_deliver hdeliver hbuyer hheld
  exact hfirst.trans (offAccount_writeOff hwrite hfirst.nonneg)

theorem offAccount_of_sellPart (hpart : sellPart subject issuer market now = .ok s) :
    OffAccount subject.agentId issuer.sheet.shares s.issuer.sheet.shares := by
  obtain ⟨offered, traded, sale, shares, left, forwarded, residual, -, hsell, hdeliver, -, -, -,
    rfl⟩ := sellPart_eq_ok.mp hpart
  rw [(Market.order_of_sell hsell).buyer] at hdeliver
  exact offAccount_deliver hdeliver hbuyer hheld

theorem offAccount_of_review (hsound : subject.Sound)
    (hreview : review subject issuer market now = .ok s) :
    OffAccount subject.agentId issuer.sheet.shares s.issuer.sheet.shares := by
  cases (review_eq_ok.mp hreview).2 with
  | ends _ _ hlast => exact offAccount_of_disband hbuyer hheld hsound.shares hlast
  | goesOn _ _ hpart _ => exact offAccount_of_sellPart hbuyer hheld hpart
  | @endsAfter _ _ _ part last _ _ hpart _ hlast _ _ =>
      have hfirst := offAccount_of_sellPart hbuyer hheld hpart
      obtain ⟨hid, hmarket⟩ := keeps_sellPart hpart
      have hagent : part.subject.agentId = subject.agentId :=
        congrArg AgentId.ofIntermediary ((congrArg Intermediary.id hid).trans rfl)
      have hnext : part.market.buyer ≠ some part.subject.agentId := by
        rw [hagent, hmarket]
        exact hbuyer
      have hsecond := offAccount_of_disband hnext (hagent ▸ hfirst.nonneg)
        (sound_sellPart hsound hpart).shares hlast
      rw [hagent] at hsecond
      exact hfirst.trans hsecond

end Periods

/-! ### One period, by the count -/

/-- The fills of a period are for shares that are on the intermediary's account. -/
def OnAccount (subject : Intermediary) (issuer : Institution) (market : Market) (s : SellOff) :
    Prop :=
  ∃ fills, s.market = { market with fills := market.fills ++ fills } ∧
    Trades market.book market.depth subject.id subject.stock
      (issuer.sheet.shares.held subject.agentId) subject.forwarded fills s.subject.forwarded

/-- The first fill on record is then for no more than the account holds. -/
theorem OnAccount.first_le (h : OnAccount subject issuer market s) (hnone : market.fills = []) :
    ∀ f ∈ s.market.fills.head?,
      f.sale.quantity ≤ issuer.sheet.shares.held subject.agentId := by
  obtain ⟨fills, hrecord, htrades⟩ := h
  rw [hrecord, hnone]
  exact htrades.first_le

/-- What is sold of a count that the account agrees with is on the account. -/
theorem Sells.onAccount {fills : List Fill} (h : Sells subject market fills s)
    (hheld : issuer.sheet.shares.held subject.agentId = subject.shares) :
    OnAccount subject issuer market s := by
  refine ⟨fills, h.recorded, ?_⟩
  rw [hheld]
  exact h.trades

/-- A period of the selling, or the end of it. -/
def Calls (subject : Intermediary) (issuer : Institution) (market : Market) (now : Timestamp)
    (s : SellOff) : Prop :=
  review subject issuer market now = .ok s ∨ disband subject issuer market now = .ok s

/-- **Selling goes by the count.** -/
theorem Calls.exists_sells (hcall : Calls subject issuer market now s) (hm : market.Sound)
    (h : subject.Sound) : ∃ fills, Sells subject market fills s := by
  rcases hcall with hreview | hlast
  · exact exists_sells_of_review hm h hreview
  · exact exists_sells_of_disband hm h hlast

/-- **What leaves the account was on it**, if the intermediary does not buy from itself. -/
theorem Calls.offAccount (hcall : Calls subject issuer market now s) (h : subject.Sound)
    (hbuyer : market.buyer ≠ some subject.agentId)
    (hheld : 0 ≤ (issuer.sheet.shares.held subject.agentId).toRat) :
    OffAccount subject.agentId issuer.sheet.shares s.issuer.sheet.shares := by
  rcases hcall with hreview | hlast
  · exact offAccount_of_review hbuyer hheld h hreview
  · exact offAccount_of_disband hbuyer hheld h.shares hlast

end SellOff

end Insolvency
