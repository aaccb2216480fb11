/-
What a period of selling comes to.

A period that goes through is one of three things: the end of the selling, a sale that
leaves the intermediary in business, or such a sale and the end of the selling right after
it (`Review`).  Either kind of sale is an order on the market, shares that leave the
holder's account, and proceeds that are forwarded; `disband_eq_ok` and `sellPart_eq_ok`
name these parts, and the rest of the file says what each of them does.

No part fails but by overflow, if the order is not for less than nothing.
-/
import Insolvency.Proofs.Decimal.Overflow
import Insolvency.Proofs.Ledger.Creditors
import Insolvency.Proofs.Ledger.Shares
import Insolvency.SellOff

namespace Insolvency

open Decimal

/-! ### Orders -/

namespace Market

variable {m m' : Market} {seller : IntermediaryId} {stock : InstitutionId} {quantity : Decimal}
  {sale : Sale}

/-- What becomes of an order. -/
inductive Order (m : Market) (seller : IntermediaryId) (stock : InstitutionId)
    (quantity : Decimal) : Market → Sale → Prop
  /-- Without anything to sell or without a price nothing happens. -/
  | unfilled (h : quantity = 0 ∨ m.book.price? stock = none) :
      Order m seller stock quantity m .none
  /-- At a price as much is filled as the depth allows, and goes on record. -/
  | filled {price proceeds : Decimal} (hprice : m.book.price? stock = some price)
      (hproceeds : (m.fillable quantity).mul price = .ok proceeds) :
      Order m seller stock quantity
        { m with fills := m.fills ++ [⟨seller, stock, ⟨m.fillable quantity, proceeds⟩⟩] }
        ⟨m.fillable quantity, proceeds⟩

theorem order_of_sell (h : m.sell seller stock quantity = .ok (m', sale)) :
    Order m seller stock quantity m' sale := by
  unfold sell at h
  split_ifs at h
  · cases h
  cases hprice : m.book.price? stock with
  | none =>
      simp only [hprice] at h
      obtain ⟨rfl, rfl⟩ := Prod.mk.inj (pure_eq_ok.mp h)
      exact .unfilled (Or.inr hprice)
  | some price =>
      simp only [hprice, bind_eq_ok, pure_eq_ok, liftM_eq_ok, Prod.mk.injEq] at h
      obtain ⟨proceeds, hproceeds, rfl, rfl⟩ := h
      exact .filled hprice hproceeds

theorem Order.book (h : Order m seller stock quantity m' sale) : m'.book = m.book := by
  cases h <;> rfl

theorem Order.depth (h : Order m seller stock quantity m' sale) : m'.depth = m.depth := by
  cases h <;> rfl

theorem Order.buyer (h : Order m seller stock quantity m' sale) : m'.buyer = m.buyer := by
  cases h <;> rfl

theorem fillable_le (m : Market) (quantity : Decimal) :
    (m.fillable quantity).toRat ≤ quantity.toRat := by
  unfold fillable
  split
  · rw [toRat_min]
    exact min_le_left _ _
  · exact le_rfl

/-- The depth is not below nothing, as in every market that is founded. -/
def Sound (m : Market) : Prop := ∀ depth ∈ m.depth, 0 ≤ depth.toRat

theorem sound_of_found {book : PriceBook} {depth : Option Decimal} {buyer : Option AgentId}
    (h : found book depth buyer = .ok m) : m.Sound := by
  simp only [found, bind_eq_ok, pure_eq_ok] at h
  obtain ⟨_, hcheck, rfl⟩ := h
  rintro d rfl
  by_contra hneg
  rw [Option.bind_some, if_pos (lt_iff_toRat.mpr (by rwa [toRat_zero, ← not_le]))] at hcheck
  cases hcheck

theorem fillable_nonneg (hm : m.Sound) (hq : 0 ≤ quantity.toRat) :
    0 ≤ (m.fillable quantity).toRat := by
  unfold fillable
  split
  · rename_i depth hdepth
    rw [toRat_min]
    exact le_min hq (hm depth hdepth)
  · exact hq

/-- No more is filled than was ordered. -/
theorem Order.quantity_le (h : Order m seller stock quantity m' sale) (hq : 0 ≤ quantity.toRat) :
    sale.quantity.toRat ≤ quantity.toRat := by
  cases h with
  | unfilled _ =>
      show (0 : Decimal).toRat ≤ quantity.toRat
      rwa [toRat_zero]
  | filled _ _ => exact fillable_le m quantity

theorem Order.quantity_nonneg (h : Order m seller stock quantity m' sale) (hm : m.Sound)
    (hq : 0 ≤ quantity.toRat) : 0 ≤ sale.quantity.toRat := by
  cases h with
  | unfilled _ => exact toRat_zero.ge
  | filled _ _ => exact fillable_nonneg hm hq

/-- Proceeds are the quantity at the listed price, where there is none at nothing. -/
theorem Order.proceeds_eq (h : Order m seller stock quantity m' sale) :
    sale.quantity.mul (m.book.value stock) = .ok sale.proceeds := by
  cases h with
  | unfilled _ => exact zero_mul_eq_ok _
  | filled hprice hproceeds =>
      rw [PriceBook.value, hprice]
      exact hproceeds

theorem not_lt_zero {quantity : Decimal} (hq : 0 ≤ quantity.toRat) : ¬ quantity < 0 := by
  rw [lt_iff_toRat, toRat_zero, not_lt]
  exact hq

/-- An order for nothing less than nothing fails by overflow only. -/
theorem failsOnlyBy_sell (m : Market) (seller : IntermediaryId) (stock : InstitutionId)
    (hq : 0 ≤ quantity.toRat) : FailsOnlyBy Error.IsOverflow (m.sell seller stock quantity) := by
  unfold sell
  rw [if_neg (not_lt_zero hq)]
  cases m.book.price? stock with
  | none => exact failsOnlyBy_pure _
  | some price =>
      exact FailsOnlyBy.bind (failsOnlyBy_mul _ _).lift fun _ _ => failsOnlyBy_pure _

/-- An order is answered where all of it would have proceeds. -/
theorem exists_sell (m : Market) (seller : IntermediaryId) (stock : InstitutionId) (hm : m.Sound)
    (hq : 0 ≤ quantity.toRat) (hprice : 0 ≤ (m.book.value stock).toRat)
    (hvalue : quantity.toRat * (m.book.value stock).toRat ≤ largest.toRat) :
    ∃ m' sale, m.sell seller stock quantity = .ok (m', sale) := by
  unfold sell
  rw [if_neg (not_lt_zero hq)]
  cases hlisted : m.book.price? stock with
  | none => exact ⟨m, .none, rfl⟩
  | some price =>
      rw [PriceBook.value, hlisted, Option.getD_some] at hprice hvalue
      have hfill := fillable_nonneg hm hq
      obtain ⟨proceeds, hproceeds⟩ : ∃ r, (m.fillable quantity).mul price = .ok r := by
        refine exists_mul ?_
        rw [abs_of_nonneg (mul_nonneg hfill hprice)]
        exact (mul_le_mul_of_nonneg_right (fillable_le m quantity) hprice).trans hvalue
      simp only [hproceeds]
      exact ⟨_, _, rfl⟩

end Market

/-! ### Share accounts -/

namespace Shares

variable {r r' : Shares} {holder a : AgentId} {q : Decimal}

theorem failsOnlyBy_issue (r : Shares) (a : AgentId) (q : Decimal) :
    FailsOnlyBy Fault.IsOverflow (r.issue a q) :=
  FailsOnlyBy.bind (FailsOnlyBy.bind (failsOnlyBy_add _ _) fun _ _ => failsOnlyBy_pure _)
    fun _ _ => failsOnlyBy_pure _

theorem exists_issue (h : |(r.held a).toRat + q.toRat| ≤ largest.toRat) :
    ∃ r', r.issue a q = .ok r' := by
  obtain ⟨sum, hsum⟩ := exists_add h
  simp only [issue, Accounts.credit, bind_eq_ok, pure_eq_ok]
  exact ⟨_, _, ⟨sum, hsum, rfl⟩, rfl⟩

/-- What can be moved brings an account nearer to nothing, if it moves anything. -/
theorem abs_sub_movable_le (r : Shares) (a : AgentId) (q : Decimal) :
    |(r.held a).toRat - (r.movable a q).toRat| ≤ |(r.held a).toRat| := by
  have h0 := movable_nonneg r a q
  rcases le_total 0 (r.held a).toRat with hheld | hheld
  · have hle : (r.movable a q).toRat ≤ (r.held a).toRat := by
      rw [toRat_movable]
      exact max_le (min_le_right _ _) hheld
    rw [abs_of_nonneg hheld, abs_of_nonneg (by linarith)]
    linarith
  · have hnone : (r.movable a q).toRat = 0 := by
      rw [toRat_movable]
      exact max_eq_right ((min_le_right _ _).trans hheld)
    rw [hnone, sub_zero]

/-- What an account can give can always be taken off it. -/
theorem exists_debit (r : Shares) (a : AgentId) (q : Decimal) :
    ∃ r', r.issue a (-r.movable a q) = .ok r' := by
  refine exists_issue ?_
  rw [toRat_neg, ← sub_eq_add_neg]
  exact (abs_sub_movable_le r a q).trans (abs_toRat_le_largest _)

/-- No account is further from nothing after what it can give was taken off it. -/
theorem abs_held_debited_le (h : r.issue holder (-r.movable holder q) = .ok r') (a : AgentId) :
    |(r'.held a).toRat| ≤ |(r.held a).toRat| := by
  by_cases ha : a = holder
  · subst ha
    have hround := rounds_add (held_issue_self h)
    rw [toRat_neg, ← sub_eq_add_neg] at hround
    exact hround.abs_le_abs (abs_sub_movable_le r a q)
  · rw [held_issue_of_ne h ha]

/-- An account that holds nothing is not kept. -/
theorem contains_issue_eq_false (h : r.issue holder q = .ok r') (hnone : r'.held a = 0) :
    r'.holders.contains a = false := by
  simp only [issue, bind_eq_ok, pure_eq_ok] at h
  obtain ⟨credited, -, rfl⟩ := h
  by_contra hcontains
  obtain ⟨v, hv⟩ := Option.isSome_iff_exists.mp (Bool.not_eq_false _ ▸ hcontains)
  have hzero : v = 0 := by
    have : (Accounts.swept credited).amount a = v := by rw [Accounts.amount, hv, Option.getD_some]
    exact this.symm.trans hnone
  have hmem := Table.mem_values_of_get? hv
  rw [Accounts.values_swept, List.mem_filter] at hmem
  simp [hzero] at hmem

end Shares

namespace SellOff

/-! ### Shares that leave the holder's account -/

section Deliver

variable {buyer : Option AgentId} {holder a : AgentId} {sold : Decimal} {r r' : Shares}

/-- Shares delivered are taken off the holder's account, and put on the buyer's if there is one. -/
theorem deliver_eq_ok (h : deliver buyer holder sold r = .ok r') :
    ∃ debited, r.issue holder (-r.movable holder sold) = .ok debited ∧
      (buyer = none ∧ r' = debited ∨
        ∃ b, buyer = some b ∧ debited.issue b (r.movable holder sold) = .ok r') := by
  cases buyer with
  | some b =>
      simp only [deliver, bind_eq_ok, pure_eq_ok] at h
      obtain ⟨⟨moved, count⟩, hmove, rfl⟩ := h
      obtain ⟨rfl, debited, hdebit, hcredit⟩ := Shares.transfer_eq_ok hmove
      exact ⟨debited, hdebit, Or.inr ⟨b, rfl, hcredit⟩⟩
  | none =>
      simp only [deliver, Shares.retire, bind_eq_ok, pure_eq_ok] at h
      obtain ⟨_, ⟨debited, hdebit, rfl⟩, rfl⟩ := h
      exact ⟨debited, hdebit, Or.inl ⟨rfl, rfl⟩⟩

theorem held_deliver_holder (h : deliver buyer holder sold r = .ok r') (hne : buyer ≠ some holder) :
    (r.held holder).add (-r.movable holder sold) = .ok (r'.held holder) := by
  obtain ⟨debited, hdebit, ⟨-, rfl⟩ | ⟨b, rfl, hcredit⟩⟩ := deliver_eq_ok h
  · exact Shares.held_issue_self hdebit
  · have hb : holder ≠ b := fun heq => hne (congrArg some heq.symm)
    rw [Shares.held_issue_of_ne hcredit hb]
    exact Shares.held_issue_self hdebit

theorem held_deliver_of_ne (h : deliver buyer holder sold r = .ok r') (ha : a ≠ holder)
    (hb : buyer ≠ some a) : r'.held a = r.held a := by
  obtain ⟨debited, hdebit, ⟨-, rfl⟩ | ⟨b, rfl, hcredit⟩⟩ := deliver_eq_ok h
  · exact Shares.held_issue_of_ne hdebit ha
  · have hab : a ≠ b := fun heq => hb (congrArg some heq.symm)
    rw [Shares.held_issue_of_ne hcredit hab, Shares.held_issue_of_ne hdebit ha]

/-- The buyer gets what has left the holder's account. -/
theorem held_deliver_buyer {b : AgentId} (h : deliver (some b) holder sold r = .ok r')
    (hsold : 0 ≤ sold.toRat) :
    ∃ d m : Decimal, |d.toRat| ≤ |(r.held b).toRat| ∧ 0 ≤ m.toRat ∧ m.toRat ≤ sold.toRat ∧
      d.add m = .ok (r'.held b) := by
  obtain ⟨debited, hdebit, ⟨hnone, -⟩ | ⟨b', hb, hcredit⟩⟩ := deliver_eq_ok h
  · cases hnone
  · obtain rfl := Option.some.inj hb
    exact ⟨debited.held b, r.movable holder sold, Shares.abs_held_debited_le hdebit b,
      Shares.movable_nonneg r holder sold, Shares.movable_le r holder hsold,
      Shares.held_issue_self hcredit⟩

theorem failsOnlyBy_deliver (buyer : Option AgentId) (holder : AgentId) (sold : Decimal)
    (r : Shares) : FailsOnlyBy Fault.IsOverflow (deliver buyer holder sold r) := by
  cases buyer with
  | some b =>
      refine FailsOnlyBy.bind ?_ fun _ _ => failsOnlyBy_pure _
      refine FailsOnlyBy.bind (Shares.failsOnlyBy_issue _ _ _) fun _ _ => ?_
      exact FailsOnlyBy.bind (Shares.failsOnlyBy_issue _ _ _) fun _ _ => failsOnlyBy_pure _
  | none =>
      refine FailsOnlyBy.bind ?_ fun _ _ => failsOnlyBy_pure _
      exact FailsOnlyBy.bind (Shares.failsOnlyBy_issue _ _ _) fun _ _ => failsOnlyBy_pure _

/-- Shares are delivered if the buyer's account has room for them. -/
theorem exists_deliver (holder : AgentId) (hsold : 0 ≤ sold.toRat)
    (hroom : ∀ b ∈ buyer, |(r.held b).toRat| + sold.toRat ≤ largest.toRat) :
    ∃ r', deliver buyer holder sold r = .ok r' := by
  obtain ⟨debited, hdebit⟩ := Shares.exists_debit r holder sold
  cases buyer with
  | none =>
      simp only [deliver, Shares.retire, bind_eq_ok, pure_eq_ok]
      exact ⟨_, _, ⟨debited, hdebit, rfl⟩, rfl⟩
  | some b =>
      have hmoved := Shares.movable_nonneg r holder sold
      have hmost := Shares.movable_le r holder hsold
      obtain ⟨credited, hcredit⟩ : ∃ r', debited.issue b (r.movable holder sold) = .ok r' := by
        refine Shares.exists_issue ((abs_add_le _ _).trans ?_)
        rw [abs_of_nonneg hmoved]
        linarith [Shares.abs_held_debited_le hdebit b, hroom b rfl]
      simp only [deliver, Shares.transfer, bind_eq_ok, pure_eq_ok]
      exact ⟨_, _, ⟨debited, hdebit, credited, hcredit, rfl⟩, rfl⟩

end Deliver

section WriteOff

variable {holder a : AgentId} {writtenOff : Decimal} {r r' : Shares}

/-- Written off is all that an account holds, and the account is closed. -/
theorem writeOff_eq_ok (h : writeOff holder r = .ok (r', writtenOff))
    (hheld : 0 ≤ (r.held holder).toRat) :
    r'.held holder = 0 ∧ r'.holders.contains holder = false ∧
      ∀ a ≠ holder, r'.held a = r.held a := by
  simp only [writeOff, Shares.retire, bind_eq_ok, pure_eq_ok, Prod.mk.injEq] at h
  obtain ⟨debited, hdebit, rfl, rfl⟩ := h
  have hall : r.movable holder (r.held holder) = r.held holder := by
    refine toRat_injective ?_
    rw [Shares.toRat_movable, min_self, max_eq_left hheld]
  have hnone : debited.held holder = 0 := by
    have hdebited := Shares.held_issue_self hdebit
    rw [hall, add_neg_self_eq_ok] at hdebited
    exact (Except.ok.inj hdebited).symm
  exact ⟨hnone, Shares.contains_issue_eq_false hdebit hnone,
    fun a ha => Shares.held_issue_of_ne hdebit ha⟩

theorem exists_writeOff (holder : AgentId) (r : Shares) : ∃ p, writeOff holder r = .ok p := by
  obtain ⟨debited, hdebit⟩ := Shares.exists_debit r holder (r.held holder)
  simp only [writeOff, Shares.retire, bind_eq_ok, pure_eq_ok]
  exact ⟨_, debited, hdebit, rfl⟩

end WriteOff

/-! ### The parts of a period -/

variable {subject : Intermediary} {issuer : Institution} {market market' : Market}
  {now : Timestamp} {sale : Sale} {s : SellOff}

theorem check_eq_ok_iff :
    check subject issuer = .ok () ↔ subject.isDeleted = false ∧ issuer.id = subject.stock := by
  unfold check
  split_ifs with hdeleted hissuer
  · simp [hdeleted]
  · simp [hissuer]
  · simpa using ⟨by simpa using hdeleted, by simpa using hissuer⟩

/-- The last order is for all shares, if there are any. -/
theorem order_of_sellAll (h : sellAll subject market = .ok (market', sale))
    (hshares : 0 ≤ subject.shares.toRat) :
    market.Order subject.id subject.stock subject.shares market' sale := by
  unfold sellAll at h
  split_ifs at h with hpos
  · exact Market.order_of_sell h
  · obtain ⟨rfl, rfl⟩ := Prod.mk.inj (pure_eq_ok.mp h)
    rw [lt_iff_toRat, toRat_zero, not_lt] at hpos
    exact .unfilled (Or.inl (toRat_eq_zero.mp (le_antisymm hpos hshares)))

theorem disband_eq_ok :
    disband subject issuer market now = .ok s ↔ check subject issuer = .ok () ∧
      ∃ market' sale delivered shares writtenOff forwarded,
        sellAll subject market = .ok (market', sale) ∧
        deliver market'.buyer subject.agentId (min sale.quantity subject.shares)
          issuer.sheet.shares = .ok delivered ∧
        writeOff subject.agentId delivered = .ok (shares, writtenOff) ∧
        subject.forwarded.add sale.proceeds = .ok forwarded ∧
        s = {
          subject := { subject with
            shares := 0, forwarded := forwarded, active := false, updated := now,
            deleted := some now }
          issuer := { issuer.withShares shares with updated := now }
          market := market'
          period := ⟨subject.beneficiary, min sale.quantity subject.shares, sale.proceeds, 0,
            writtenOff, true⟩ } := by
  simp only [disband, bind_eq_ok, pure_eq_ok, liftM_eq_ok]
  constructor
  · rintro ⟨_, hcheck, ⟨market', sale⟩, hsell, delivered, hdeliver, ⟨shares, writtenOff⟩, hwrite,
      forwarded, hforward, rfl⟩
    exact ⟨hcheck, market', sale, delivered, shares, writtenOff, forwarded, hsell, hdeliver, hwrite,
      hforward, rfl⟩
  · rintro ⟨hcheck, market', sale, delivered, shares, writtenOff, forwarded, hsell, hdeliver,
      hwrite, hforward, rfl⟩
    exact ⟨(), hcheck, (market', sale), hsell, delivered, hdeliver, (shares, writtenOff), hwrite,
      forwarded, hforward, rfl⟩

theorem sellPart_eq_ok :
    sellPart subject issuer market now = .ok s ↔
      ∃ offered market' sale shares left forwarded residual,
        onOffer subject = .ok offered ∧
        market.sell subject.id subject.stock offered = .ok (market', sale) ∧
        deliver market'.buyer subject.agentId (min sale.quantity subject.shares)
          issuer.sheet.shares = .ok shares ∧
        subject.shares.sub (min sale.quantity subject.shares) = .ok left ∧
        subject.forwarded.add sale.proceeds = .ok forwarded ∧
        left.mul (market.book.value subject.stock) = .ok residual ∧
        s = {
          subject := { subject with shares := left, forwarded := forwarded, updated := now }
          issuer := { issuer.withShares shares with updated := now }
          market := market'
          period := ⟨subject.beneficiary, min sale.quantity subject.shares, sale.proceeds, residual,
            0, false⟩ } := by
  simp only [sellPart, Intermediary.holdingValue, bind_eq_ok, pure_eq_ok, liftM_eq_ok]
  constructor
  · rintro ⟨offered, hoffer, ⟨market', sale⟩, hsell, shares, hdeliver, left, hleft, forwarded,
      hforward, residual, hresidual, rfl⟩
    exact ⟨offered, market', sale, shares, left, forwarded, residual, hoffer, hsell, hdeliver,
      hleft, hforward, hresidual, rfl⟩
  · rintro ⟨offered, market', sale, shares, left, forwarded, residual, hoffer, hsell, hdeliver,
      hleft, hforward, hresidual, rfl⟩
    exact ⟨offered, hoffer, (market', sale), hsell, shares, hdeliver, left, hleft, forwarded,
      hforward, residual, hresidual, rfl⟩

/-- A sale changes the holding and what is forwarded, and puts itself on record. -/
theorem keeps_sellPart (h : sellPart subject issuer market now = .ok s) :
    s.subject = { subject with
      shares := s.subject.shares, forwarded := s.subject.forwarded, updated := now } ∧
      s.market = { market with fills := s.market.fills } := by
  obtain ⟨offered, market', sale, shares, left, forwarded, residual, -, hsell, -, -, -, -, rfl⟩ :=
    sellPart_eq_ok.mp h
  refine ⟨rfl, ?_⟩
  cases Market.order_of_sell hsell <;> rfl

/-- It is still a live intermediary beside the issuer of its stock. -/
theorem check_sellPart (h : sellPart subject issuer market now = .ok s) :
    check s.subject s.issuer = check subject issuer := by
  obtain ⟨offered, market', sale, shares, left, forwarded, residual, -, -, -, -, -, -, rfl⟩ :=
    sellPart_eq_ok.mp h
  rfl

/-- What a period that goes through comes to. -/
inductive Review (subject : Intermediary) (issuer : Institution) (market : Market)
    (now : Timestamp) : SellOff → Prop
  /-- The holding is worth so little that selling ends at once. -/
  | ends {value : Decimal} {s : SellOff}
      (hvalue : subject.shares.mul (market.book.value subject.stock) = .ok value)
      (hlow : value ≤ subject.terms.valueThreshold)
      (hlast : disband subject issuer market now = .ok s) : Review subject issuer market now s
  /-- What is left after a sale is worth keeping. -/
  | goesOn {value : Decimal} {s : SellOff}
      (hvalue : subject.shares.mul (market.book.value subject.stock) = .ok value)
      (hhigh : subject.terms.valueThreshold < value)
      (hpart : sellPart subject issuer market now = .ok s)
      (hrest : subject.terms.valueThreshold < s.period.residualValue) :
      Review subject issuer market now s
  /-- What is left after a sale is worth so little that selling ends. -/
  | endsAfter {value sold proceeds : Decimal} {part last : SellOff}
      (hvalue : subject.shares.mul (market.book.value subject.stock) = .ok value)
      (hhigh : subject.terms.valueThreshold < value)
      (hpart : sellPart subject issuer market now = .ok part)
      (hrest : part.period.residualValue ≤ subject.terms.valueThreshold)
      (hlast : disband part.subject part.issuer part.market now = .ok last)
      (hsold : part.period.sold.add last.period.sold = .ok sold)
      (hproceeds : part.period.proceeds.add last.period.proceeds = .ok proceeds) :
      Review subject issuer market now
        { last with period := { last.period with sold := sold, proceeds := proceeds } }

theorem review_eq_ok :
    review subject issuer market now = .ok s ↔
      check subject issuer = .ok () ∧ Review subject issuer market now s := by
  simp only [review, Intermediary.holdingValue, bind_eq_ok, liftM_eq_ok]
  constructor
  · rintro ⟨_, hcheck, value, hvalue, h⟩
    refine ⟨hcheck, ?_⟩
    split_ifs at h with hlow
    · exact .ends hvalue hlow h
    · obtain ⟨part, hpart, h⟩ := bind_eq_ok.mp h
      have hhigh := not_le_iff.mp hlow
      split_ifs at h with hrest
      · simp only [bind_eq_ok, pure_eq_ok, liftM_eq_ok] at h
        obtain ⟨last, hlast, sold, hsold, proceeds, hproceeds, rfl⟩ := h
        exact .endsAfter hvalue hhigh hpart hrest hlast hsold hproceeds
      · obtain rfl := pure_eq_ok.mp h
        exact .goesOn hvalue hhigh hpart (not_le_iff.mp hrest)
  · rintro ⟨hcheck, hcourse⟩
    refine ⟨(), hcheck, ?_⟩
    cases hcourse with
    | ends hvalue hlow hlast => exact ⟨_, hvalue, by rwa [if_pos hlow]⟩
    | goesOn hvalue hhigh hpart hrest =>
        refine ⟨_, hvalue, ?_⟩
        rw [if_neg (not_le_iff.mpr hhigh), bind_eq_ok]
        exact ⟨_, hpart, by rw [if_neg (not_le_iff.mpr hrest)]; rfl⟩
    | endsAfter hvalue hhigh hpart hrest hlast hsold hproceeds =>
        refine ⟨_, hvalue, ?_⟩
        rw [if_neg (not_le_iff.mpr hhigh), bind_eq_ok]
        refine ⟨_, hpart, ?_⟩
        rw [if_pos hrest]
        simp only [bind_eq_ok, pure_eq_ok, liftM_eq_ok]
        exact ⟨_, hlast, _, hsold, _, hproceeds, rfl⟩

end SellOff

end Insolvency
