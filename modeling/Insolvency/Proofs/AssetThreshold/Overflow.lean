/-
When an asset-threshold episode overflows.

Every portion of the cash, of the outsiders' shares and of the firm is worked out as a
product of two amounts divided by a third, and it is the product that can be too large where
the portion is not.  That is the only way for an episode to overflow on a firm whose figures
are amounts of an ordinary size, and the debts times whatever there is most of tell when:
short of 10²⁸ nothing fails.

So it is with each stage, and what one stage hands to the next is known from the course
that an episode takes.
-/
import Insolvency.Proofs.AssetThreshold.SettlingInRange
import Insolvency.Proofs.Episode.DebtAccounting
import Insolvency.Proofs.Shares.Policies

namespace Insolvency

open Decimal

/-- What the products of an episode go by: the debts, times the assets or the shares if there are
more than one of them. -/
def BalanceSheet.productSize (s : BalanceSheet) : ℚ :=
  max 1 (max s.assets.exactTotal s.shares.holders.exactTotal) * s.liabilities.exactTotal

/-- A firm whose figures are amounts, at a price for its shares: what it has, what it owes, its
shares, what they are worth, and its assets for each of them.  And it has no more shareholders and
creditors than a record of one's shares given to the other can be kept of. -/
structure Institution.Representable (firm : Institution) (price : Decimal) : Prop where
  assets : firm.sheet.assets.exactTotal < 10 ^ 28
  liabilities : firm.sheet.liabilities.exactTotal < 10 ^ 28
  shares : firm.sheet.shares.holders.exactTotal < 10 ^ 28
  worth : firm.sheet.shares.holders.exactTotal * price.toRat < 10 ^ 28
  perShare : ∀ base, (Episode.opening firm 0).shareCount = .ok base →
    firm.sheet.assets.exactTotal / base.toRat < 10 ^ 28
  records : (firm.sheet.shares.holders.entries.length + 1)
    * (firm.sheet.liabilities.entryCount + 1) ≤ maxEntries

theorem Institution.Representable.entryCount_le {firm : Institution} {price : Decimal}
    (h : firm.Representable price) : firm.sheet.liabilities.entryCount ≤ maxEntries :=
  (Nat.le_succ _).trans ((Nat.le_mul_of_pos_left _ (Nat.succ_pos _)).trans h.records)

namespace AssetThreshold

variable {P : Fault → Prop} {size : ℚ} {cash : CashRule} {firm : Institution}
  {shortfall price : Decimal} {ctx : Context} {c : Course} {x : AgentId × Owed} {claim : Claim}

/-! ### Before the cash is paid -/

theorem Solid.yields_total {e : Episode} (h : Solid e size) :
    Yields P (fun _ => True) e.liabilities.total := by
  have hloans := Accounts.exactTotal_nonneg h.sheet.loans
  have hdeposits := Accounts.exactTotal_nonneg h.sheet.deposits
  have htotal : e.liabilities.loans.exactTotal + e.liabilities.deposits.exactTotal ≤ 10 ^ 28 :=
    h.liabilities
  have hlength : e.liabilities.loans.values.length + e.liabilities.deposits.values.length
      ≤ maxEntries := by
    rw [Accounts.length_values, Accounts.length_values]
    exact h.entries
  change 0 ≤ exactSum e.liabilities.loans.values at hloans
  change 0 ≤ exactSum e.liabilities.deposits.values at hdeposits
  change exactSum e.liabilities.loans.values + exactSum e.liabilities.deposits.values ≤ _ at htotal
  refine (yields_sum h.sheet.loans ((Nat.le_add_right _ _).trans hlength) ?_).bind
    fun loans _ hl => ?_
  · change exactSum e.liabilities.loans.values ≤ _
    linarith
  refine (yields_sum h.sheet.deposits ((Nat.le_add_left _ _).trans hlength) ?_).bind
    fun deposits _ hd => ?_
  · change exactSum e.liabilities.deposits.values ≤ _
    linarith
  refine (yields_add ?_).imp fun _ _ _ => trivial
  change _ ∧ loans.toRat ≤ 11 / 10 * exactSum e.liabilities.loans.values at hl
  change _ ∧ deposits.toRat ≤ 11 / 10 * exactSum e.liabilities.deposits.values at hd
  rw [abs_of_nonneg (add_nonneg hl.1 hd.1)]
  linarith

theorem Solid.yields_fileClaims {e : Episode} (h : Solid e size) :
    Yields P (fun filed => filed.ClaimsInRange ∧ filed = { e with claims := filed.claims })
      e.fileClaims := by
  refine Yields.bind (Q := fun claims : List Claim => ∀ claim ∈ claims, claim.InRange) ?_
    fun claims _ hclaims => yields_pure ⟨hclaims, rfl⟩
  refine (yields_mapM (S := fun _ claim => claim.InRange) fun x hx => ?_).imp
    fun _ _ hall => forall_mem_of_forall₂ hall fun _ _ hclaim => hclaim
  have howed : 0 ≤ x.2.exactTotal :=
    Liabilities.nonneg_of_mem_byCreditor h.sheet.loans h.sheet.deposits hx
  have hle : x.2.exactTotal ≤ 10 ^ 28 := by
    rw [Liabilities.eq_of_mem_byCreditor hx]
    exact (add_le_add (Accounts.amount_le_exactTotal h.sheet.loans x.1)
      (Accounts.amount_le_exactTotal h.sheet.deposits x.1)).trans h.liabilities
  have hbound : |x.2.loanValue.toRat + x.2.depositValue.toRat| ≤ 2 * 10 ^ 28 := by
    change |x.2.exactTotal| ≤ _
    rw [abs_of_nonneg howed]
    linarith
  refine (yields_add (hbound.trans (by norm_num))).bind fun amount _ hamount => yields_pure ⟨?_, ?_⟩
  · exact_mod_cast hamount.abs_le_pow (n := 2) (by norm_num) (by exact_mod_cast hbound)
  · show |(0 : Decimal).toRat| ≤ _
    rw [toRat_zero, abs_zero]
    positivity

/-! ### What the cash leaves -/

theorem exactSum_le_of_forall₂ {α : Type} {f : α → ℚ} {xs : List α} {ds : List Decimal}
    (h : List.Forall₂ (fun x d => d.toRat ≤ f x) xs ds) : exactSum ds ≤ (xs.map f).sum := by
  induction h with
  | nil => exact le_rfl
  | cons hx _ ih =>
      rw [exactSum_cons, List.map_cons, List.sum_cons]
      exact add_le_add hx ih

section Claims

variable {l : Liabilities} {claims : List Claim} {debts : List (AgentId × Decimal)}

/-- All claims come to no more than what is owed, but for a tenth. -/
theorem exactSum_amounts_le (hloans : l.loans.Nonneg) (hdeposits : l.deposits.Nonneg)
    (h : List.Forall₂ PartlyPaid l.byCreditor.entries claims) :
    exactSum (claims.map Claim.amount) ≤ 11 / 10 * l.exactTotal := by
  have howed : ∀ x ∈ l.byCreditor.entries,
      0 ≤ x.2.loanValue.toRat ∧ 0 ≤ x.2.depositValue.toRat := by
    intro x hx
    rw [Liabilities.eq_of_mem_byCreditor hx]
    exact ⟨Accounts.amount_nonneg hloans x.1, Accounts.amount_nonneg hdeposits x.1⟩
  have hamounts : List.Forall₂ (fun (x : AgentId × Owed) (d : Decimal) =>
      d.toRat ≤ 11 / 10 * x.2.exactTotal) l.byCreditor.entries (claims.map Claim.amount) := by
    refine List.forall₂_map_right_iff.mpr (((List.forall₂_and_left _ _).mpr ⟨howed, h⟩).imp ?_)
    exact fun x claim hx => add_le_of_nonneg hx.2.amount hx.1.1 hx.1.2
  have hsum := exactSum_le_of_forall₂ hamounts
  rwa [List.sum_map_mul_left, Liabilities.sum_byCreditor] at hsum

theorem PartlyPaid.bounds (h : List.Forall₂ PartlyPaid l.byCreditor.entries claims) :
    ∀ claim ∈ claims, 0 ≤ claim.writtenDown.toRat ∧ claim.writtenDown.toRat ≤ claim.amount.toRat :=
  forall_mem_of_forall₂ h fun _ _ hclaim => ⟨hclaim.nonneg, hclaim.le⟩

theorem yields_debtsOf (h : List.Forall₂ PartlyPaid l.byCreditor.entries claims) :
    Yields P (fun _ => True) (debtsOf claims) := by
  refine Yields.bind (Q := fun _ => True) ?_ fun _ _ _ => yields_pure trivial
  refine (yields_mapM (S := fun _ _ => True) fun claim hclaim => ?_).imp fun _ _ _ => trivial
  obtain ⟨h0, hle⟩ := PartlyPaid.bounds h claim hclaim
  exact (yields_sub_of_le h0 hle).bind fun _ _ _ => yields_pure trivial

/-- What is left of the claims is no more than they are. -/
theorem exactSum_debts_le_amounts (h : List.Forall₂ PartlyPaid l.byCreditor.entries claims)
    (hdebts : debtsOf claims = .ok debts) :
    exactSum (debts.map Prod.snd) ≤ exactSum (claims.map Claim.amount) := by
  obtain ⟨left, rfl, hleft⟩ := debts_eq_filter hdebts
  have hbounds := PartlyPaid.bounds h
  have hnonneg := allNonneg_of_sub hleft fun claim hclaim => (hbounds claim hclaim).2
  have hle : List.Forall₂ (fun (claim : Claim) (d : Decimal) => d.toRat ≤ claim.amount.toRat) claims
      (left.map Prod.snd) := by
    refine ((List.forall₂_and_left _ _).mpr ⟨hbounds, hleft⟩).imp fun claim d hd => ?_
    exact (rounds_sub hd.2).le_of_le (by linarith [hd.1.1])
  refine (exactSum_filter_le _ hnonneg).trans ((exactSum_le_of_forall₂ hle).trans_eq ?_)
  rw [exactSum, List.map_map]
  rfl

end Claims

namespace Course.Of

/-- What a firm's creditors are owed of what they were, once they have shared the cash. -/
theorem stillOwed (h : c.Of cash firm shortfall) (hsheet : firm.sheet.Nonneg)
    (hdue : .epsilon < c.remainingDebt)
    (hentries : firm.sheet.liabilities.entryCount ≤ maxEntries) :
    StillOwed firm.sheet.liabilities.exactTotal c.debts c.remainingDebt := by
  obtain ⟨spent, hshared⟩ := h.cashShared hsheet
  have hdebts := h.debtsLeft
  have hlength : c.debts.length ≤ maxEntries := h.length_debts_le.trans hentries
  refine ⟨hdebts.pos, h.remaining, ?_, hdue, hlength⟩
  have hnonneg : AllNonneg (c.debts.map Prod.snd) :=
    List.forall_mem_map.mpr fun d hd => (hdebts.pos d hd).le
  have hnear := (sum_near_of_few hnonneg h.remaining ((List.length_map ..).trans_le hlength)).1
  have hleft := exactSum_debts_le_amounts hshared.claims h.debts
  have hamounts := exactSum_amounts_le hsheet.loans hsheet.deposits hshared.claims
  have h0 := exactSum_nonneg hnonneg
  linarith

/-- The claims have stayed in range, and so has what was paid on them. -/
theorem inRange (h : c.Of cash firm shortfall) (hsheet : firm.sheet.Nonneg)
    (hdebt : firm.sheet.liabilities.exactTotal ≤ 10 ^ 28)
    (hentries : firm.sheet.liabilities.entryCount ≤ maxEntries) :
    c.paid.ClaimsInRange ∧ c.paid.totals.Within (5 / 4 * 10 ^ 28) ∧
      c.paid.totals.equityValueDelivered = 0 := by
  obtain ⟨spent, hshared⟩ := h.cashShared hsheet
  have hbounds := PartlyPaid.bounds hshared.claims
  have hamounts := exactSum_amounts_le hsheet.loans hsheet.deposits hshared.claims
  have hnonneg : AllNonneg (c.paid.claims.map Claim.amount) :=
    List.forall_mem_map.mpr fun claim hclaim =>
      (hbounds claim hclaim).1.trans (hbounds claim hclaim).2
  refine ⟨fun claim hclaim => ?_, ?_, ?_⟩
  · have hle := le_exactSum hnonneg (List.mem_map_of_mem hclaim)
    obtain ⟨h0, hdown⟩ := hbounds claim hclaim
    refine ⟨?_, ?_⟩
    · rw [abs_of_nonneg (h0.trans hdown)]
      linarith
    · rw [abs_of_nonneg h0]
      linarith
  · have hdown : AllNonneg (c.paid.claims.map Claim.writtenDown) :=
      List.forall_mem_map.mpr fun claim hclaim => (hbounds claim hclaim).1
    have hlength : (c.paid.claims.map Claim.writtenDown).length ≤ maxEntries := by
      rw [List.length_map, ← hshared.claims.length_eq]
      exact (Liabilities.length_byCreditor_le firm.sheet.liabilities).trans hentries
    have hspent := (sum_near_of_few hdown hshared.total hlength).1
    have hle := exactSum_le_exactSum fun claim hclaim => (hbounds claim hclaim).2
    have hspent0 := sum_nonneg hdown hshared.total
    rw [hshared.totals]
    have hzero : |(0 : Decimal).toRat| ≤ 5 / 4 * 10 ^ 28 := by
      rw [toRat_zero, abs_zero]
      positivity
    refine ⟨hzero, ?_, hzero, hzero, hzero⟩
    show |spent.toRat| ≤ _
    rw [abs_of_nonneg hspent0]
    linarith
  · rw [hshared.totals]
    rfl

/-- What is owned has become no more. -/
theorem owned_le (h : c.Of cash firm shortfall) (hsheet : firm.sheet.Nonneg) :
    c.paid.assets.holdings.Nonneg ∧ c.paid.assets.exactTotal ≤ firm.sheet.assets.exactTotal := by
  obtain ⟨spent, hspent, hcredit⟩ := h.assets
  refine ⟨Assets.nonneg_creditHolding_neg hcredit hsheet.assets hspent, ?_⟩
  obtain ⟨paid, hshared⟩ := h.cashShared hsheet
  have hdown : AllNonneg (c.paid.claims.map Claim.writtenDown) :=
    List.forall_mem_map.mpr fun claim hclaim => (PartlyPaid.bounds hshared.claims claim hclaim).1
  have hpaid0 := sum_nonneg hdown hshared.total
  have hcash0 := Accounts.amount_nonneg hsheet.assets .cash
  obtain ⟨new, hnew, hholdings⟩ := Assets.creditHolding_eq_ok hshared.assets
  have hle : new.toRat ≤ (firm.sheet.assets.holding .cash).toRat := by
    refine hnew.le_of_le ?_
    show (firm.sheet.assets.holding .cash).toRat + (-min paid firm.sheet.assets.cash).toRat ≤ _
    have hmin : 0 ≤ (min paid firm.sheet.assets.cash).toRat := by
      rw [toRat_min]
      exact le_min hpaid0 hcash0
    rw [toRat_neg]
    linarith
  rw [Assets.exactTotal, hholdings, Accounts.exactTotal_swept, Accounts.exactTotal_insert]
  change firm.sheet.assets.holdings.exactTotal - (firm.sheet.assets.holding .cash).toRat + new.toRat
    ≤ firm.sheet.assets.holdings.exactTotal
  linarith

/-- **A firm that has paid its cash out is ready to settle the rest.** -/
theorem ready (h : c.Of cash firm shortfall) (hsheet : firm.sheet.Nonneg)
    (hprice : 0 ≤ (ctx.book.value firm.id).toRat)
    (hfirm : firm.Representable (ctx.book.value firm.id)) (hfresh : FreshIds ctx.newId firm.sheet)
    (hdue : .epsilon < c.remainingDebt) :
    Ready ctx firm.sheet.liabilities.exactTotal firm.sheet.productSize c.debts c.remainingDebt
      c.paid := by
  have hentries := hfirm.entryCount_le
  have hdebts0 := add_nonneg (Accounts.exactTotal_nonneg hsheet.loans)
    (Accounts.exactTotal_nonneg hsheet.deposits)
  have hsame := h.sameShares
  have hid : c.paid.institution.id = firm.id := hsame.id
  have hshares : c.paid.shares = firm.sheet.shares := hsame.shares
  have hnone : c.paid.intermediaries = [] := hsame.intermediaries
  obtain ⟨hassets, howned⟩ := h.owned_le hsheet
  obtain ⟨hclaims, htotals, hundelivered⟩ := h.inRange hsheet hfirm.liabilities.le hentries
  refine {
    due := h.stillOwed hsheet hdue hentries
    owed_le := hfirm.liabilities.le
    shares := hshares ▸ hsheet.shares
    assets := hassets
    price := hid ▸ hprice
    held_le := hshares ▸ hfirm.shares.le
    owned_le := howned.trans hfirm.assets.le
    worth_le := by
      rw [hid, hshares]
      exact hfirm.worth.le
    perShare_le := fun base hbase => ?_
    product := ?_
    records := ?_
    within := ⟨?_, ?_, htotals⟩
    claims := hclaims
    none := hnone
    undelivered := hundelivered
    apart := fun x hx => ?_ }
  · have hbase' : (Episode.opening firm 0).shareCount = .ok base := by
      rw [← hbase, Episode.shareCount, Episode.shareCount, hshares]
      rfl
    exact (div_le_div_of_nonneg_right howned (Episode.nonneg_of_shareCount hbase)).trans
      (hfirm.perShare base hbase').le
  · rw [hshares]
    refine mul_le_mul_of_nonneg_right ?_ hdebts0
    exact max_le_max le_rfl (max_le_max howned le_rfl)
  · rw [hshares]
    exact (Nat.mul_le_mul_left _ (Nat.succ_le_succ h.length_debts_le)).trans hfirm.records
  · rw [hshares]
    refine hsheet.shares.within.mono ?_
    linarith [hfirm.shares]
  · rw [hnone]
    exact fun m hm => by cases hm
  · obtain ⟨hmem, houtside⟩ := mem_outsiders hx
    refine ⟨fun d hd heq => houtside (heq ▸ h.debtsLeft.claimant d hd), fun k => ?_⟩
    rw [hshares] at hmem
    exact hfresh.ne_of_names (BalanceSheet.names_of_mem_holders (List.mem_map_of_mem hmem)) k

end Course.Of

/-! ### The whole episode -/

/-- **Every episode comes to an end, or a product was too large.** -/
theorem yields_run (hsheet : firm.sheet.Nonneg) (hcash : cash.fault? = none)
    (hprice : 0 ≤ (ctx.book.value firm.id).toRat)
    (hfirm : firm.Representable (ctx.book.value firm.id)) (hfresh : FreshIds ctx.newId firm.sheet) :
    Yields (LargeProduct firm.sheet.productSize) (fun _ => True) (run cash firm shortfall ctx) := by
  have hentries := hfirm.entryCount_le
  have hdebts0 : 0 ≤ firm.sheet.liabilities.exactTotal :=
    add_nonneg (Accounts.exactTotal_nonneg hsheet.loans)
      (Accounts.exactTotal_nonneg hsheet.deposits)
  have hsolid : ∀ e : Episode, e.institution = firm → Solid e firm.sheet.productSize := by
    rintro e rfl
    refine ⟨hsheet, hfirm.assets.le, hfirm.liabilities.le, hentries, ?_⟩
    exact mul_le_mul_of_nonneg_right ((le_max_left _ _).trans (le_max_right _ _)) hdebts0
  refine (hsolid (Episode.opening firm shortfall) rfl).yields_total.bind
    fun totalDebt htotal _ => ?_
  split_ifs with hdust
  · exact yields_pure trivial
  refine (hsolid (Episode.opening firm shortfall) rfl).yields_fileClaims.bind
    fun filed hfiled ⟨hclaims, hframe⟩ => ?_
  have hinstitution : (filed.reach .start).institution = firm := by
    rw [hframe]
    rfl
  have htotal' : (filed.reach .start).liabilities.total = .ok totalDebt := by
    rw [Episode.liabilities, hinstitution]
    exact htotal
  refine (yields_compensateInCash (hsolid _ hinstitution) hcash htotal' (not_le_iff.mp hdust)
    hclaims).bind fun paid hpaid _ => ?_
  obtain ⟨spent, hshared⟩ := cashShared_of_paying htotal hfiled hpaid hsheet
  refine (yields_debtsOf hshared.claims).bind fun debts hdebts _ => ?_
  have hleft := debtsLeft_of_debtsOf hdebts
  have hlength : (debts.map Prod.snd).length ≤ maxEntries := by
    rw [List.length_map]
    refine hleft.length_le.trans (hshared.claims.length_eq.symm.trans_le ?_)
    exact (Liabilities.length_byCreditor_le firm.sheet.liabilities).trans hentries
  have hsum := (exactSum_debts_le_amounts hshared.claims hdebts).trans
    (exactSum_amounts_le hsheet.loans hsheet.deposits hshared.claims)
  refine (yields_sum (List.forall_mem_map.mpr fun d hd => (hleft.pos d hd).le) hlength
    (by linarith [hfirm.liabilities])).bind fun remaining hremaining _ => ?_
  split_ifs with hdue
  · exact yields_pure trivial
  · have hcourse : Course.Of cash firm shortfall ⟨totalDebt, paid, debts, remaining⟩ :=
      ⟨htotal, ⟨filed, hfiled, hpaid⟩, hdebts, hremaining⟩
    exact (hcourse.ready hsheet hprice hfirm hfresh (not_le_iff.mp hdue)).yields_settleRest

end AssetThreshold

namespace Policy

variable {cash : CashRule} {firm : Institution} {shortfall : Decimal} {ctx : Context}

/-- **An asset-threshold episode comes to an end, or a product of two amounts was too large**, and
that takes debts whose product with the assets or with the shares is beyond 10²⁸.  No other
operation overflows, in whatever mix of large and small the books are. -/
theorem assetThreshold_overflow (hvalid : (assetThreshold cash).objection? firm shortfall = none)
    (hprice : ∀ price ∈ ctx.book.price? firm.id, 0 ≤ price)
    (hfirm : firm.Representable (ctx.book.value firm.id)) (hfresh : FreshIds ctx.newId firm.sheet) :
    (∃ r, (assetThreshold cash).resolve firm shortfall ctx = .ok r) ∨
      (assetThreshold cash).resolve firm shortfall ctx
        = .error (.arithmetic .multiplicationOverflow) ∧
        10 ^ 28 < firm.sheet.productSize := by
  obtain ⟨hsheet, -⟩ := inOrder_of_objection? hvalid
  have hrun : FailsOnlyBy (LargeProduct firm.sheet.productSize)
      (AssetThreshold.run cash firm shortfall ctx) :=
    (AssetThreshold.yields_run hsheet (fault?_of_objection? hvalid) (PriceBook.value_nonneg hprice)
      hfirm hfresh).fails
  have hresolve : (assetThreshold cash).resolve firm shortfall ctx
      = liftM (AssetThreshold.run cash firm shortfall ctx) := by
    rw [resolve, hvalid]
    rfl
  rw [hresolve]
  cases hended : AssetThreshold.run cash firm shortfall ctx with
  | ok r => exact Or.inl ⟨r, rfl⟩
  | error fault =>
      obtain ⟨rfl, hlarge⟩ := hrun fault hended
      exact Or.inr ⟨rfl, hlarge⟩

/-- The sample firm owes too little for any product to be too large, so its episode comes to an
end. -/
theorem assetThreshold_overflow_sampleFirm :
    (assetThreshold (.cashFraction 0.5)).objection? sampleFirm 700.0 = none ∧
    (∀ price ∈ sampleContext.book.price? sampleFirm.id, 0 ≤ price) ∧
    sampleFirm.Representable (sampleContext.book.value sampleFirm.id) ∧
    FreshIds sampleContext.newId sampleFirm.sheet ∧
    ∃ r, (assetThreshold (.cashFraction 0.5)).resolve sampleFirm 700.0 sampleContext = .ok r := by
  have hvalid : (assetThreshold (.cashFraction 0.5)).objection? sampleFirm 700.0 = none := by decide
  have hfirm : sampleFirm.Representable (sampleContext.book.value sampleFirm.id) := by
    refine ⟨by decide +kernel, by decide +kernel, by decide +kernel, by decide +kernel,
      fun base hbase => ?_, by decide⟩
    obtain rfl : (100.0 : Decimal) = base := Except.ok.inj (Eq.trans rfl hbase)
    decide +kernel
  have hfresh := freshIds_sampleContext (s := sampleFirm.sheet) fun _ => rfl
  refine ⟨hvalid, sampleContext_price_nonneg, hfirm, hfresh, ?_⟩
  refine (assetThreshold_overflow hvalid sampleContext_price_nonneg hfirm hfresh).resolve_right ?_
  intro hlarge
  exact absurd hlarge.2 (by decide +kernel)

/-- A firm with as much cash as it owes. -/
def hugeFirm : Institution := { sampleFirm with
  sheet := {
    assets := ⟨Table.ofList [(.cash, 1000000000000000.0)]⟩
    liabilities := ⟨Table.ofList [(⟨.fund, "alpha"⟩, 1000000000000000.0)], ∅⟩
    shares := ⟨Table.ofList [(⟨.fund, "owner"⟩, 100.0)]⟩ } }

/-- It could pay its debt, but the cash times the debt is too large an amount. -/
theorem assetThreshold_overflows_hugeFirm :
    (assetThreshold .allCash).objection? hugeFirm 0 = none ∧
    (∀ price ∈ sampleContext.book.price? hugeFirm.id, 0 ≤ price) ∧
    hugeFirm.Representable (sampleContext.book.value hugeFirm.id) ∧
    FreshIds sampleContext.newId hugeFirm.sheet ∧
    (assetThreshold .allCash).resolve hugeFirm 0 sampleContext
      = .error (.arithmetic .multiplicationOverflow) := by
  refine ⟨by decide, sampleContext_price_nonneg, ?_, freshIds_sampleContext fun _ => rfl, rfl⟩
  refine ⟨by decide +kernel, by decide +kernel, by decide +kernel, by decide +kernel,
    fun base hbase => ?_, by decide⟩
  obtain rfl : (100.0 : Decimal) = base := Except.ok.inj (Eq.trans rfl hbase)
  decide +kernel

end Policy

end Insolvency
