/-
Paying the rest in range.

Whatever the creditors get for the rest, be it shares of the outsiders or the firm, each gets
a portion of it: a product divided by the debts.  All portions together come to the whole but
for a fifth of it and one for each creditor, so accounts and totals do not grow beyond that.

The value of shares that change hands is bounded in another way, since a price may be as
large as the number of shares is small.  A source never gives what it does not have, and
nobody adds to it: who gets shares has a claim, or is an intermediary spawned for somebody
who has.  So the value that was delivered and the value of what the source still has come to
no more than what it had, but for two roundings each time.
-/
import Insolvency.Proofs.AssetThreshold.CashInRange
import Insolvency.Proofs.AssetThreshold.HandingOver

namespace Insolvency.AssetThreshold

open Decimal

variable {P : Fault → Prop} {c owed size : ℚ} {debts : List (AgentId × Decimal)}
  {debt : AgentId × Decimal} {remaining : Decimal} {ctx : Context} {e : Episode}

/-! ### Portions -/

/-- What is still owed: something to each, and in all hardly more than was owed at first. -/
structure StillOwed (owed : ℚ) (debts : List (AgentId × Decimal)) (remaining : Decimal) :
    Prop where
  pos : ∀ d ∈ debts, 0 < d.2.toRat
  sum : Decimal.sum (debts.map Prod.snd) = .ok remaining
  le : remaining.toRat ≤ 5 / 4 * owed
  due : .epsilon < remaining
  length : debts.length ≤ maxEntries

/-- What a creditor's portion of a whole comes to at most. -/
def portion (whole : ℚ) (remaining : Decimal) (debt : AgentId × Decimal) : ℚ :=
  11 / 10 * (whole * (debt.2.toRat / remaining.toRat)) + 1

theorem one_le_portion {whole : ℚ} (hwhole : 0 ≤ whole) (hremaining : 0 ≤ remaining.toRat)
    (hdebt : 0 ≤ debt.2.toRat) : 1 ≤ portion whole remaining debt := by
  have := mul_nonneg hwhole (div_nonneg hdebt hremaining)
  unfold portion
  linarith

theorem portion_mono {whole whole' : ℚ} (h : whole ≤ whole') (hremaining : 0 ≤ remaining.toRat)
    (hdebt : 0 ≤ debt.2.toRat) : portion whole remaining debt ≤ portion whole' remaining debt := by
  have := mul_le_mul_of_nonneg_right h (div_nonneg hdebt hremaining)
  unfold portion
  linarith

theorem sum_portions_eq (whole : ℚ) (remaining : Decimal) (debts : List (AgentId × Decimal)) :
    (debts.map (portion whole remaining)).sum
      = 11 / 10 * (whole * (exactSum (debts.map Prod.snd) / remaining.toRat)) + debts.length := by
  induction debts with
  | nil => simp
  | cons d rest ih =>
      rw [List.map_cons, List.sum_cons, ih, List.map_cons, exactSum_cons, List.length_cons, portion]
      push_cast
      ring

namespace StillOwed

theorem nonneg (h : StillOwed owed debts remaining) : AllNonneg (debts.map Prod.snd) :=
  List.forall_mem_map.mpr fun d hd => (h.pos d hd).le

theorem remaining_pos (h : StillOwed owed debts remaining) : 0 < remaining.toRat :=
  toRat_pos_of_epsilon_lt h.due

theorem debt_le (h : StillOwed owed debts remaining) (hd : debt ∈ debts) :
    debt.2.toRat ≤ remaining.toRat :=
  le_foldlM_add h.nonneg h.sum toRat_zero.ge (List.mem_map_of_mem hd)

/-- **The portions of all creditors come to the whole**, but for a fifth and one for each. -/
theorem sum_portions_le (h : StillOwed owed debts remaining) {whole : ℚ} (hwhole : 0 ≤ whole) :
    (debts.map (portion whole remaining)).sum ≤ 121 / 100 * whole + debts.length := by
  have hlen : (debts.map Prod.snd).length ≤ maxEntries := (List.length_map ..).trans_le h.length
  have hratio : exactSum (debts.map Prod.snd) / remaining.toRat ≤ 11 / 10 :=
    (div_le_iff₀ h.remaining_pos).mpr (sum_near_of_few h.nonneg h.sum hlen).2
  have := mul_le_mul_of_nonneg_left hratio hwhole
  rw [sum_portions_eq]
  linarith

variable {x product : Decimal} {whole : ℚ}

/-- A portion is worked out by way of a product that goes by the whole and the debts. -/
theorem yields_mul (h : StillOwed owed debts remaining) (hd : debt ∈ debts) (hx : 0 ≤ x.toRat)
    (hle : x.toRat ≤ whole) (hproduct : whole * owed ≤ 2 * size) :
    Yields (LargeProduct size) (Rounds (x.toRat * debt.2.toRat)) (x.mul debt.2) := by
  have hdebt := (h.pos debt hd).le
  have hbound : x.toRat * debt.2.toRat ≤ whole * (5 / 4 * owed) :=
    mul_le_mul hle ((h.debt_le hd).trans h.le) hdebt (hx.trans hle)
  refine Decimal.yields_mul ?_
  rw [abs_of_nonneg (mul_nonneg hx hdebt)]
  linarith [mul_nonneg hx hdebt]

theorem yields_div (h : StillOwed owed debts remaining) (hd : debt ∈ debts) (hx : 0 ≤ x.toRat)
    (hle : x.toRat ≤ whole) (hwhole : whole ≤ 5 * 10 ^ 28)
    (hproduct : Rounds (x.toRat * debt.2.toRat) product) :
    Yields P (fun q => 0 ≤ q.toRat ∧ q.toRat ≤ portion whole remaining debt)
      (product.div remaining) := by
  have hdebt := (h.pos debt hd).le
  refine (yields_part hproduct hx (hle.trans hwhole) hdebt (h.debt_le hd) h.due).imp
    fun q _ hq => ⟨hq.1, hq.2.trans ?_⟩
  exact portion_mono hle h.remaining_pos.le hdebt

/-- What is owed itself is a portion of whatever is as much as all debts. -/
theorem debt_le_portion (h : StillOwed owed debts remaining) (hd : debt ∈ debts)
    (hle : remaining.toRat ≤ whole) : debt.2.toRat ≤ portion whole remaining debt := by
  have hdebt := (h.pos debt hd).le
  have hshare : debt.2.toRat = remaining.toRat * (debt.2.toRat / remaining.toRat) :=
    (mul_div_cancel₀ _ h.remaining_pos.ne').symm
  have := mul_le_mul_of_nonneg_right hle (div_nonneg hdebt h.remaining_pos.le)
  unfold portion
  linarith

end StillOwed

/-! ### Handing over the firm -/

/-- One debt settled: whatever grows with it grows by its portion, at most twice. -/
theorem yields_handOverPart {count equity : Decimal} {whole : ℚ}
    (h : StillOwed owed debts remaining) (hd : debt ∈ debts) (he : e.Within c)
    (hclaims : e.ClaimsInRange) (hcount : 0 ≤ count.toRat ∧ count.toRat ≤ whole)
    (hequity : 0 ≤ equity.toRat ∧ equity.toRat ≤ whole) (hremaining : remaining.toRat ≤ whole)
    (hwhole : whole ≤ 5 * 10 ^ 28) (hproduct : max count.toRat equity.toRat * owed ≤ 2 * size)
    (hbound : c + (2 * portion whole remaining debt + 1) ≤ 7 * 10 ^ 28) :
    Yields (LargeProduct size)
      (fun e' => e'.Within (c + (2 * portion whole remaining debt + 1)) ∧ e'.ClaimsInRange)
      (handOverPart count equity remaining ctx e debt) := by
  have hdebt := (h.pos debt hd).le
  have hportion := one_le_portion (hcount.1.trans hcount.2) h.remaining_pos.le hdebt
  refine (h.yields_mul hd hcount.1 (le_max_left _ _) hproduct).bind fun product _ hquantity => ?_
  refine (h.yields_div hd hcount.1 hcount.2 hwhole hquantity).bind fun quantity _ hquantity => ?_
  refine (h.yields_mul hd hequity.1 (le_max_right _ _) hproduct).bind fun product _ hvalue => ?_
  refine (h.yields_div hd hequity.1 hequity.2 hwhole hvalue).bind fun value _ hvalue => ?_
  have hq : |quantity.toRat| ≤ portion whole remaining debt :=
    (abs_of_nonneg hquantity.1).trans_le hquantity.2
  refine (Episode.yields_allot he hq (by linarith)).bind fun allotted _ ⟨hallotted, hsame⟩ => ?_
  have hclaims' : allotted.ClaimsInRange := by
    unfold Episode.ClaimsInRange
    rw [hsame]
    exact hclaims
  refine (Episode.yields_writeDownClaim hclaims').bind fun down _ ⟨hdown, hframe⟩ => ?_
  have hwithin : down.Within (c + portion whole remaining debt + 1 / 2) := by
    rw [hframe]
    exact ⟨hallotted.held, hallotted.counts, hallotted.totals⟩
  refine (Totals.yields_settle hwithin.totals ⟨hdebt, h.debt_le_portion hd hremaining⟩ hvalue
    (by linarith)).bind fun totals _ htotals => ?_
  refine yields_pure
    ⟨⟨hwithin.held.mono (by linarith), hwithin.counts.mono (by linarith), ?_⟩, hdown⟩
  convert htotals using 1
  ring

/-- What there is to settle the rest with, and what it comes to. -/
structure Ready (ctx : Context) (owed size : ℚ) (debts : List (AgentId × Decimal))
    (remaining : Decimal) (e : Episode) : Prop where
  due : StillOwed owed debts remaining
  owed_le : owed ≤ 10 ^ 28
  shares : e.shares.holders.Nonneg
  assets : e.assets.holdings.Nonneg
  price : 0 ≤ (ctx.book.value e.institution.id).toRat
  held_le : e.shares.holders.exactTotal ≤ 10 ^ 28
  owned_le : e.assets.exactTotal ≤ 10 ^ 28
  worth_le : e.shares.holders.exactTotal * (ctx.book.value e.institution.id).toRat ≤ 10 ^ 28
  perShare_le : ∀ count, e.shareCount = .ok count → e.assets.exactTotal / count.toRat ≤ 10 ^ 28
  product : max 1 (max e.assets.exactTotal e.shares.holders.exactTotal) * owed ≤ size
  records : (e.shares.holders.entries.length + 1) * (debts.length + 1) ≤ maxEntries
  within : e.Within (5 / 4 * 10 ^ 28)
  claims : e.ClaimsInRange
  none : e.intermediaries = []
  undelivered : e.totals.equityValueDelivered = 0
  apart : ∀ x ∈ outsiders e,
    (∀ d ∈ debts, x.1 ≠ d.1) ∧ ∀ k, x.1 ≠ spawnedAs ctx.newId k

namespace Ready

theorem length_holders_le (h : Ready ctx owed size debts remaining e) :
    e.shares.holders.entries.length ≤ maxEntries :=
  (Nat.le_succ _).trans ((Nat.le_mul_of_pos_right _ (Nat.succ_pos _)).trans h.records)

theorem owed_nonneg (h : Ready ctx owed size debts remaining e) : 0 ≤ owed := by
  linarith [h.due.remaining_pos, h.due.le]

theorem yields_shareCount (h : Ready ctx owed size debts remaining e) :
    Yields P (fun count => 0 < count.toRat ∧
        count.toRat ≤ 11 / 10 * max 1 e.shares.holders.exactTotal) e.shareCount := by
  have hlen : e.shares.holders.values.length ≤ maxEntries := by
    rw [Accounts.length_values]
    exact h.length_holders_le
  have hsum : exactSum e.shares.holders.values ≤ 2 * 10 ^ 28 := h.held_le.trans (by norm_num)
  refine (yields_sum h.shares hlen hsum).bind fun outstanding _ hout => yields_pure ?_
  unfold Episode.normalizedCount
  split_ifs with hnone
  · rw [toRat_one]
    exact ⟨zero_lt_one, by linarith [le_max_left 1 e.shares.holders.exactTotal]⟩
  · refine ⟨toRat_pos_of_epsilon_lt (not_le_iff.mp hnone), hout.2.trans ?_⟩
    have : exactSum e.shares.holders.values ≤ max 1 e.shares.holders.exactTotal := le_max_right _ _
    linarith

/-- All accounts are cancelled; what each lost is a part of what all shares are worth. -/
theorem yields_cancelShares (h : Ready ctx owed size debts remaining e) :
    Yields P (fun e' => e' = { e.withShares .empty with cancelled := e'.cancelled })
      (e.cancelShares (ctx.book.value e.institution.id)) := by
  refine Yields.bind (Q := fun _ => True) ?_ fun _ _ _ => yields_pure rfl
  refine (yields_mapM (S := fun _ _ => True) fun x hx => ?_).imp fun _ _ _ => trivial
  have hx0 : 0 ≤ x.2.toRat := h.shares _ (List.mem_map_of_mem hx)
  have hle := mul_le_mul_of_nonneg_right (le_exactSum h.shares (List.mem_map_of_mem hx)) h.price
  refine Yields.bind (yields_mul_of_le ?_) fun _ _ _ => yields_pure trivial
  rw [abs_of_nonneg (mul_nonneg hx0 h.price)]
  have hworth := h.worth_le
  unfold Accounts.exactTotal at hworth
  linarith

/-- A whole that is hardly more than what there is most of makes no larger products. -/
theorem product_le (h : Ready ctx owed size debts remaining e) {whole : ℚ} (hwhole : 0 ≤ whole)
    (hle : whole ≤ 11 / 10 * max 1 (max e.assets.exactTotal e.shares.holders.exactTotal)) :
    whole * owed ≤ 2 * size := by
  have hscaled := mul_le_mul_of_nonneg_right hle h.owed_nonneg
  have hproduct := h.product
  have hproduct0 := mul_nonneg hwhole h.owed_nonneg
  linarith

/-- All debts are settled for their portions of the firm. -/
theorem yields_handOverParts (h : Ready ctx owed size debts remaining e) {count equity : Decimal}
    {e' : Episode}
    (hcount : 0 ≤ count.toRat ∧ count.toRat ≤ 11 / 10 * max 1 e.shares.holders.exactTotal)
    (hequity : 0 ≤ equity.toRat ∧ equity.toRat ≤ 11 / 10 * e.assets.exactTotal)
    (hwithin : e'.Within (5 / 4 * 10 ^ 28)) (hclaims : e'.ClaimsInRange) :
    Yields (LargeProduct size) (fun _ => True)
      (debts.foldlM (handOverPart count equity remaining ctx) e') := by
  -- Shares, assets and debts are all below this.
  have hwhole : (0 : ℚ) ≤ 5 / 4 * 10 ^ 28 := by positivity
  have hcount_le : count.toRat ≤ 5 / 4 * 10 ^ 28 := by
    have : max 1 e.shares.holders.exactTotal ≤ 10 ^ 28 := max_le (by norm_num) h.held_le
    linarith
  have hequity_le : equity.toRat ≤ 5 / 4 * 10 ^ 28 := by linarith [h.owned_le]
  have hremaining_le : remaining.toRat ≤ 5 / 4 * 10 ^ 28 := by linarith [h.due.le, h.owed_le]
  have hproduct : max count.toRat equity.toRat * owed ≤ 2 * size := by
    refine h.product_le (le_max_of_le_left hcount.1)
      (max_le (hcount.2.trans ?_) (hequity.2.trans ?_))
    · exact mul_le_mul_of_nonneg_left (max_le_max le_rfl (le_max_right _ _)) (by norm_num)
    · exact mul_le_mul_of_nonneg_left ((le_max_left _ _).trans (le_max_right _ _)) (by norm_num)
  have hlength : (debts.length : ℚ) ≤ 2 ^ 64 := by exact_mod_cast h.due.length
  have hspent : (debts.map fun d => 2 * portion (5 / 4 * 10 ^ 28) remaining d + 1).sum
      ≤ 2 * (121 / 100 * (5 / 4 * 10 ^ 28)) + 3 * debts.length := by
    rw [List.sum_map_add, List.sum_map_mul_left, List.map_const', List.sum_replicate, nsmul_eq_mul]
    linarith [h.due.sum_portions_le hwhole]
  refine (yields_foldlM_spending (l := 7 * 10 ^ 28)
    (I := fun u e' => e'.Within u ∧ e'.ClaimsInRange)
    (w := fun d => 2 * portion (5 / 4 * 10 ^ 28) remaining d + 1) ⟨hwithin, hclaims⟩
    (fun d hd => ?_) (by linarith) fun d hd u e' he' hle => ?_).imp fun _ _ _ => trivial
  · linarith [one_le_portion hwhole h.due.remaining_pos.le (h.due.pos d hd).le]
  · exact yields_handOverPart h.due hd he'.1 he'.2 ⟨hcount.1, hcount_le⟩ ⟨hequity.1, hequity_le⟩
      hremaining_le (by norm_num) hproduct hle

/-- The firm is handed over, or a product was too large. -/
theorem yields_handOverFirm (h : Ready ctx owed size debts remaining e) :
    Yields (LargeProduct size) (fun _ => True) (handOverFirm e debts remaining ctx) := by
  refine h.yields_shareCount.bind fun count hcount ⟨hcount0, hcount_le⟩ => ?_
  refine h.yields_cancelShares.bind fun cancelled _ hcancelled => ?_
  obtain ⟨lost, rfl⟩ : ∃ lost, cancelled = { e.withShares .empty with cancelled := lost } :=
    ⟨_, hcancelled⟩
  have hlength : e.assets.holdings.values.length ≤ maxEntries := by
    rw [Accounts.length_values]
    exact e.assets.entryCount_le.trans (by decide)
  refine (yields_sum h.assets hlength (h.owned_le.trans (by norm_num))).bind
    fun equity _ hequity => ?_
  change 0 ≤ equity.toRat ∧ equity.toRat ≤ 11 / 10 * e.assets.exactTotal at hequity
  have hprice : |equity.toRat / count.toRat| ≤ 7 * 10 ^ 28 := by
    rw [abs_of_nonneg (div_nonneg hequity.1 hcount0.le), div_le_iff₀ hcount0]
    have := (div_le_iff₀ hcount0).mp (h.perShare_le count hcount)
    linarith
  refine (yields_div hcount0 hprice).bind fun price _ _ => ?_
  refine Yields.bind (Q := fun _ => True) ?_ fun _ _ _ => yields_pure trivial
  refine h.yields_handOverParts ⟨hcount0.le, hcount_le⟩ hequity ⟨fun k => ?_, h.within.counts, ?_⟩
    h.claims
  · show |(0 : Decimal).toRat| ≤ _
    rw [toRat_zero, abs_zero]
    positivity
  · exact ⟨h.within.totals.issued, h.within.totals.settled, h.within.totals.forgiven,
      h.within.totals.surplus, h.within.totals.delivered⟩

end Ready

/-! ### Giving shares -/

/-- Shares of some sources are being given to creditors: no source has more than at first, and
whatever has been moved, counted and delivered is within a bound. -/
structure Giving (newId : Nat → IntermediaryId) (sources : List (AgentId × Decimal))
    (settled : Decimal) (c : ℚ) (e : Episode) : Prop where
  nonneg : e.shares.holders.Nonneg
  held : e.shares.holders.Within (10 ^ 28 + c)
  counts : Episode.CountsWithin c e.intermediaries
  spawned : ∀ m ∈ e.intermediaries, ∃ k, m.agentId = spawnedAs newId k
  sources : ∀ x ∈ sources, (e.shares.held x.1).toRat ≤ x.2.toRat
  claims : e.ClaimsInRange
  settled : e.totals.claimsSettled = settled
  delivered : 0 ≤ e.totals.equityValueDelivered.toRat ∧ e.totals.equityValueDelivered.toRat ≤ c

theorem Giving.mono {newId : Nat → IntermediaryId} {sources : List (AgentId × Decimal)}
    {settled : Decimal} {c' : ℚ} (h : Giving newId sources settled c e) (hle : c ≤ c') :
    Giving newId sources settled c' e :=
  ⟨h.nonneg, h.held.mono (by linarith), h.counts.mono hle, h.spawned, h.sources, h.claims,
    h.settled, h.delivered.1, h.delivered.2.trans hle⟩

section Giving

variable {sources : List (AgentId × Decimal)} {settled give price value : Decimal}
  {source : AgentId × Decimal}

/-- The value of what was delivered, and of what a source still has, grows by two roundings: a grain
of what the source has left is worth one at most. -/
theorem worth_delivered_le {held moved left delivered delivered' : Decimal}
    (hprice : 0 ≤ price.toRat) (hworth : price.toRat * held.toRat ≤ 10 ^ 28)
    (hmoved : 0 ≤ moved.toRat ∧ moved.toRat ≤ held.toRat) (hleft : held.sub moved = .ok left)
    (hvalue : Rounds (moved.toRat * price.toRat) value)
    (hdelivered : Rounds (delivered.toRat + value.toRat) delivered') :
    delivered'.toRat + price.toRat * left.toRat
      ≤ delivered.toRat + price.toRat * held.toRat + 2 := by
  have hval := (abs_le.mp hvalue.abs_sub_le_half).2
  have hdel := (abs_le.mp hdelivered.abs_sub_le_half).2
  have hrest : price.toRat * left.toRat
      ≤ price.toRat * held.toRat - price.toRat * moved.toRat + 1 := by
    have hsub := mul_le_mul_of_nonneg_left (sub_le_add_grain hleft hmoved.2) hprice
    have hgrain : grain = 1 / 10 ^ 28 := rfl
    rw [hgrain] at hsub
    linarith [mul_nonneg hprice hmoved.1]
  linarith

/-- Whoever gives shares to somebody who is none of the sources, no source has more afterwards. -/
theorem held_le_of_transfer {shares shares' : Shares} {holder : AgentId} {quantity moved : Decimal}
    (hmove : shares.transfer source.1 holder quantity = .ok (shares', moved))
    (hheld : ∀ x ∈ sources, (shares.held x.1).toRat ≤ x.2.toRat)
    (hne : ∀ x ∈ sources, x.1 ≠ holder) (hsource : source ∈ sources)
    (hmoved : 0 ≤ moved.toRat ∧ moved.toRat ≤ (shares.held source.1).toRat) :
    ∀ x ∈ sources, (shares'.held x.1).toRat ≤ x.2.toRat := by
  intro x hx
  by_cases hx' : x.1 = source.1
  · have hlower := (rounds_sub (Shares.sub_held_transfer hmove (hne source hsource))).le_of_le
      (sub_le_self _ hmoved.1)
    have hfirst := hheld x hx
    rw [hx'] at hfirst ⊢
    exact hlower.trans hfirst
  · rw [Shares.held_transfer_of_ne hmove hx' (hne x hx)]
    exact hheld x hx

/-- One creditor gets its portion of what one source gives.  The value of what was delivered, and of
what the source still has, grows by two roundings. -/
theorem yields_giveTo (h : StillOwed owed debts remaining) (hd : debt ∈ debts)
    (hsource : source ∈ sources)
    (hapart : ∀ x ∈ sources, x.1 ≠ debt.1 ∧ ∀ k, x.1 ≠ spawnedAs ctx.newId k)
    (hgive : 0 ≤ give.toRat ∧ give.toRat ≤ source.2.toRat)
    (hwhole : source.2.toRat ≤ 5 * 10 ^ 28) (hproduct : source.2.toRat * owed ≤ 2 * size)
    (hprice : 0 ≤ price.toRat) (hworth : source.2.toRat * price.toRat ≤ 10 ^ 28)
    (he : Giving ctx.newId sources settled c e)
    (hvalue : e.totals.equityValueDelivered.toRat
      + price.toRat * (e.shares.held source.1).toRat ≤ c)
    (hbound : c + (2 * portion source.2.toRat remaining debt + 1) ≤ 6 * 10 ^ 28) :
    Yields (LargeProduct size) (fun e' =>
        Giving ctx.newId sources settled (c + (2 * portion source.2.toRat remaining debt + 1)) e' ∧
        e'.totals.equityValueDelivered.toRat + price.toRat * (e'.shares.held source.1).toRat
          ≤ c + (2 * portion source.2.toRat remaining debt + 1))
      (giveTo source.1 give remaining price ctx e debt) := by
  have hportion := one_le_portion (hgive.1.trans hgive.2) h.remaining_pos.le (h.pos debt hd).le
  refine (h.yields_mul hd hgive.1 hgive.2 hproduct).bind fun product _ hquantity => ?_
  refine (h.yields_div hd hgive.1 hgive.2 hwhole hquantity).bind fun quantity _ hquantity => ?_
  split_ifs with hnothing
  · exact yields_pure ⟨he.mono (by linarith), hvalue.trans (by linarith)⟩
  have hq : |quantity.toRat| ≤ portion source.2.toRat remaining debt :=
    (abs_of_nonneg hquantity.1).trans_le hquantity.2
  refine (Episode.yields_assignHolder he.counts (he.delivered.1.trans he.delivered.2) hq
    (by linarith)).bind fun ⟨assigned, holder⟩ _ hassigned => ?_
  obtain ⟨ms, rfl, hcounts, hassigned⟩ := hassigned
  obtain ⟨hholder, hspawned⟩ := hassigned.eq_or_spawnedAs he.spawned
  -- Whoever the shares go to, it is none of the sources.
  have hne : ∀ x ∈ sources, x.1 ≠ holder := by
    intro x hx
    rcases hholder with rfl | ⟨k, rfl⟩
    · exact (hapart x hx).1
    · exact (hapart x hx).2 k
  refine (Shares.yields_transfer he.held he.nonneg hquantity.1 hquantity.2 (by linarith)).bind
    fun ⟨shares, moved⟩ hmove ⟨hwithin, hnonneg⟩ => ?_
  have hmoved0 : 0 ≤ moved.toRat := by
    rw [(Shares.transfer_eq_ok hmove).1]
    exact Shares.movable_nonneg e.shares source.1 quantity
  have hmoved : moved.toRat ≤ (e.shares.held source.1).toRat := by
    rw [(Shares.transfer_eq_ok hmove).1]
    exact Shares.movable_le_held he.nonneg source.1 quantity
  have hleft := Shares.sub_held_transfer hmove (hne source hsource)
  have hheld := he.sources source hsource
  have hheldworth : price.toRat * (e.shares.held source.1).toRat ≤ 10 ^ 28 := by
    have := mul_le_mul_of_nonneg_left hheld hprice
    linarith
  have hmovedworth : moved.toRat * price.toRat ≤ price.toRat * (e.shares.held source.1).toRat := by
    have := mul_le_mul_of_nonneg_right hmoved hprice
    linarith
  have hmoved0' := mul_nonneg hmoved0 hprice
  refine (yields_mul_of_le ?_).bind fun value _ hval => ?_
  · rw [abs_of_nonneg hmoved0']
    linarith
  have hval0 := hval.nonneg hmoved0'
  have hval1 := (abs_le.mp hval.abs_sub_le_half).2
  refine (yields_add ?_).bind fun delivered _ hdelivered => ?_
  · rw [abs_of_nonneg (add_nonneg he.delivered.1 hval0)]
    linarith [he.delivered.2]
  have hdelivered0 := hdelivered.nonneg (add_nonneg he.delivered.1 hval0)
  have hrest0 : 0 ≤ price.toRat * (shares.held source.1).toRat :=
    mul_nonneg hprice (Accounts.amount_nonneg hnonneg source.1)
  have hgrown : delivered.toRat + price.toRat * (shares.held source.1).toRat
      ≤ c + (2 * portion source.2.toRat remaining debt + 1) := by
    linarith [worth_delivered_le hprice hheldworth ⟨hmoved0, hmoved⟩ hleft hval hdelivered]
  refine yields_pure ⟨⟨hnonneg, hwithin.mono (by linarith), hcounts.mono (by linarith), hspawned,
    held_le_of_transfer hmove he.sources hne hsource ⟨hmoved0, hmoved⟩, he.claims, he.settled,
    hdelivered0, by linarith⟩, hgrown⟩

theorem yields_surrendered {held : Decimal} (h : StillOwed owed debts remaining)
    (hheld : 0 ≤ held.toRat) (hle : held.toRat ≤ 10 ^ 28) (hproduct : held.toRat * owed ≤ size)
    (hvalue : .epsilon < value) (hremaining : remaining.toRat ≤ value.toRat) :
    Yields (LargeProduct size) (fun give => 0 ≤ give.toRat ∧ give.toRat ≤ held.toRat)
      (surrendered held remaining value) := by
  have hasked : held.toRat * remaining.toRat ≤ held.toRat * (5 / 4 * owed) :=
    mul_le_mul_of_nonneg_left h.le hheld
  have hasked0 := mul_nonneg hheld h.remaining_pos.le
  refine (Decimal.yields_mul ?_).bind fun product _ hround => ?_
  · rw [abs_of_nonneg hasked0]
    linarith
  refine (yields_part hround hheld (by linarith) h.remaining_pos.le hremaining hvalue).bind
    fun part _ hpart => yields_pure ?_
  rw [toRat_min]
  exact ⟨le_min hpart.1 hheld, min_le_right _ _⟩

/-- One source gives to all creditors. -/
theorem yields_handOutFrom (h : StillOwed owed debts remaining) (hsource : source ∈ sources)
    (hapart : ∀ x ∈ sources, (∀ d ∈ debts, x.1 ≠ d.1) ∧ ∀ k, x.1 ≠ spawnedAs ctx.newId k)
    (hsource0 : 0 ≤ source.2.toRat) (hwhole : source.2.toRat ≤ 10 ^ 28)
    (hproduct : source.2.toRat * owed ≤ size) (hprice : 0 ≤ price.toRat)
    (hworth : source.2.toRat * price.toRat ≤ 10 ^ 28) (hvalue : .epsilon < value)
    (hle : remaining.toRat ≤ value.toRat) (he : Giving ctx.newId sources settled c e)
    (hbound : c + (source.2.toRat * price.toRat + (121 / 50 * source.2.toRat + 3 * debts.length))
      ≤ 6 * 10 ^ 28) :
    Yields (LargeProduct size) (Giving ctx.newId sources settled
        (c + (source.2.toRat * price.toRat + (121 / 50 * source.2.toRat + 3 * debts.length))))
      (handOutFrom debts remaining value price ctx e source) := by
  have hremaining := h.remaining_pos
  refine (yields_surrendered h hsource0 hwhole hproduct hvalue hle).bind fun give _ hgive => ?_
  have hspent : (debts.map fun d => 2 * portion source.2.toRat remaining d + 1).sum
      ≤ 121 / 50 * source.2.toRat + 3 * debts.length := by
    rw [List.sum_map_add, List.sum_map_mul_left, List.map_const', List.sum_replicate, nsmul_eq_mul]
    linarith [h.sum_portions_le hsource0]
  have hheld := mul_le_mul_of_nonneg_left (he.sources source hsource) hprice
  have hvalue0 : 0 ≤ source.2.toRat * price.toRat := mul_nonneg hsource0 hprice
  have hasked0 : 0 ≤ source.2.toRat * owed := mul_nonneg hsource0 (by linarith [h.le])
  refine (yields_foldlM_spending (l := 6 * 10 ^ 28)
    (I := fun u e' => Giving ctx.newId sources settled u e' ∧
      e'.totals.equityValueDelivered.toRat + price.toRat * (e'.shares.held source.1).toRat ≤ u)
    (w := fun d => 2 * portion source.2.toRat remaining d + 1)
    (s := c + source.2.toRat * price.toRat)
    ⟨he.mono (by linarith), by linarith [he.delivered.2]⟩ (fun d hd => ?_) (by linarith)
    fun d hd u e' he' hle' => ?_).imp fun e' _ he' => he'.1.mono (by linarith)
  · linarith [one_le_portion hsource0 hremaining.le (h.pos d hd).le]
  · exact yields_giveTo h hd hsource (fun x hx => ⟨(hapart x hx).1 d hd, (hapart x hx).2⟩) hgive
      (by linarith) (by linarith) hprice hworth he'.1 he'.2 hle'

end Giving

namespace Ready

variable {value : Decimal}

theorem outsider_bounds (h : Ready ctx owed size debts remaining e) {x : AgentId × Decimal}
    (hx : x ∈ outsiders e) : 0 ≤ x.2.toRat ∧ x.2.toRat ≤ e.shares.holders.exactTotal := by
  have hmem : x.2 ∈ e.shares.holders.values := List.mem_map_of_mem (List.mem_of_mem_filter hx)
  exact ⟨h.shares _ hmem, le_exactSum h.shares hmem⟩

theorem outsiders_nonneg (h : Ready ctx owed size debts remaining e) :
    AllNonneg ((outsiders e).map Prod.snd) :=
  List.forall_mem_map.mpr fun _ hx => (h.outsider_bounds hx).1

theorem sum_outsiders_le (h : Ready ctx owed size debts remaining e) :
    exactSum ((outsiders e).map Prod.snd) ≤ e.shares.holders.exactTotal :=
  exactSum_filter_le _ h.shares

/-- Everything that is given and delivered comes to what the outsiders have, but for a multiple of
it, and for three for each source and creditor. -/
theorem sum_given_le (h : Ready ctx owed size debts remaining e) :
    ((outsiders e).map fun x => x.2.toRat * (ctx.book.value e.institution.id).toRat
      + (121 / 50 * x.2.toRat + 3 * debts.length)).sum ≤ 4 * 10 ^ 28 := by
  have hsum : ((outsiders e).map fun x => x.2.toRat).sum
      = exactSum ((outsiders e).map Prod.snd) := by
    rw [exactSum, List.map_map]
    rfl
  have hcount : ((outsiders e).length : ℚ) * debts.length ≤ 2 ^ 64 := by
    have hle : (outsiders e).length * debts.length ≤ maxEntries :=
      (Nat.mul_le_mul ((List.length_filter_le ..).trans (Nat.le_succ _)) (Nat.le_succ _)).trans
        h.records
    exact_mod_cast hle
  have hworth := mul_le_mul_of_nonneg_right h.sum_outsiders_le h.price
  rw [List.sum_map_add, List.sum_map_mul_right, List.sum_map_add, List.sum_map_mul_left,
    List.map_const', List.sum_replicate, nsmul_eq_mul, hsum]
  linarith [h.worth_le, h.sum_outsiders_le, h.held_le]

/-- All outsiders give, and no debt is settled yet. -/
theorem yields_handOutAll (h : Ready ctx owed size debts remaining e) (hvalue : .epsilon < value)
    (hle : remaining.toRat ≤ value.toRat) :
    Yields (LargeProduct size)
      (fun e' => e'.ClaimsInRange ∧ e'.totals.claimsSettled = e.totals.claimsSettled)
      ((outsiders e).foldlM
        (handOutFrom debts remaining value (ctx.book.value e.institution.id) ctx) e) := by
  have hstart : Giving ctx.newId (outsiders e) e.totals.claimsSettled 0 e := by
    refine ⟨h.shares, h.shares.within.mono (by linarith [h.held_le]), ?_, ?_,
      fun x hx => ?_, h.claims, rfl, ?_⟩
    · rw [h.none]
      exact fun m hm => by cases hm
    · rw [h.none]
      exact fun m hm => by cases hm
    · rw [Shares.held, Accounts.amount, Table.get?_of_mem_entries (List.mem_of_mem_filter hx)]
      exact le_rfl
    · rw [h.undelivered, toRat_zero]
      exact ⟨le_rfl, le_rfl⟩
  have hgiven := h.sum_given_le
  refine (yields_foldlM_spending (l := 6 * 10 ^ 28) hstart
    (w := fun x => x.2.toRat * (ctx.book.value e.institution.id).toRat
      + (121 / 50 * x.2.toRat + 3 * debts.length)) (fun x hx => ?_) (by linarith)
    fun x hx u e' he' hbound => ?_).imp fun e' _ he' => ⟨he'.claims, he'.settled⟩
  · have hworth := mul_nonneg (h.outsider_bounds hx).1 h.price
    have hcount : (0 : ℚ) ≤ debts.length := Nat.cast_nonneg _
    linarith [(h.outsider_bounds hx).1]
  · obtain ⟨hx0, hx1⟩ := h.outsider_bounds hx
    have hmost : x.2.toRat ≤ max 1 (max e.assets.exactTotal e.shares.holders.exactTotal) :=
      hx1.trans ((le_max_right _ _).trans (le_max_right _ _))
    exact yields_handOutFrom h.due hx h.apart hx0 (hx1.trans h.held_le)
      ((mul_le_mul_of_nonneg_right hmost h.owed_nonneg).trans h.product) h.price
      ((mul_le_mul_of_nonneg_right hx1 h.price).trans h.worth_le) hvalue hle he' hbound

/-- The outsiders' shares are given, or a product was too large. -/
theorem yields_handOutShares (h : Ready ctx owed size debts remaining e) (hvalue : .epsilon < value)
    (hle : remaining.toRat ≤ value.toRat) :
    Yields (LargeProduct size) (fun _ => True) (handOutShares e debts (outsiders e) remaining value
      (ctx.book.value e.institution.id) ctx) := by
  refine (h.yields_handOutAll hvalue hle).bind fun given _ hgiven => ?_
  refine (yields_foldlM (I := fun e' : Episode => e'.ClaimsInRange ∧
    e'.totals.claimsSettled = e.totals.claimsSettled) hgiven fun d _ e' he' => ?_).bind
    fun down _ hdown => ?_
  · refine (Episode.yields_writeDownClaim he'.1).imp fun e'' _ he'' => ⟨he''.1, ?_⟩
    rw [he''.2]
    exact he'.2
  · have hremaining : |remaining.toRat| ≤ 5 / 4 * 10 ^ 28 := by
      rw [abs_of_nonneg h.due.remaining_pos.le]
      linarith [h.due.le, h.owed_le]
    have hsettled : |down.totals.claimsSettled.toRat| ≤ 5 / 4 * 10 ^ 28 :=
      hdown.2 ▸ h.within.totals.settled
    exact (yields_add_within hsettled hremaining (by norm_num)).bind fun _ _ _ =>
      yields_pure trivial

/-- **The rest is settled, or a product was too large.** -/
theorem yields_settleRest (h : Ready ctx owed size debts remaining e) :
    Yields (LargeProduct size) (fun _ => True) (settleRest e debts remaining ctx) := by
  have hlen : ((outsiders e).map Prod.snd).length ≤ maxEntries := by
    rw [List.length_map]
    exact (List.length_filter_le ..).trans h.length_holders_le
  have hsum : exactSum ((outsiders e).map Prod.snd) ≤ 2 * 10 ^ 28 :=
    h.sum_outsiders_le.trans (h.held_le.trans (by norm_num))
  refine (yields_sum h.outsiders_nonneg hlen hsum).bind fun held _ hheld => ?_
  have hworth : held.toRat * (ctx.book.value e.institution.id).toRat ≤ 11 / 10 * 10 ^ 28 := by
    have := mul_le_mul_of_nonneg_right (hheld.2.trans
      (mul_le_mul_of_nonneg_left h.sum_outsiders_le (by norm_num))) h.price
    linarith [h.worth_le]
  refine (yields_mul_of_le ?_).bind fun value _ _ => ?_
  · rw [abs_of_nonneg (mul_nonneg hheld.1 h.price)]
    linarith
  split_ifs with hvalue
  · exact (h.yields_handOutShares hvalue.1 (le_iff_toRat.mp hvalue.2)).bind fun _ _ _ =>
      yields_pure trivial
  · exact h.yields_handOverFirm.bind fun _ _ _ => yields_pure trivial

end Ready

end Insolvency.AssetThreshold
