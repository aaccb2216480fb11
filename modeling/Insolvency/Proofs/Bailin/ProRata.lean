/-
A bail-in treats everybody of a class alike.

A class of liabilities is scaled by one factor, and each entry is rounded on its own.  So
what is left of an entry hangs on the entry and the factor alone, not on whose it is, nor on
what else is in the books; and since one rounding never changes an order, neither does the
write-down (`ProRata`).

The shares go by one ratio too, that of the count to all losses.  Both roundings of a quantity
are a grain or so of the size of the count, so what two of those who lost something get for
each unit of their losses is the same but for that (`Apportioned.cross_le`).

There is one way for a bank to be resolved without anything written down: its shares in
itself cost it something, at a price below nothing, and giving them up covers the shortfall.
-/
import Insolvency.Proofs.Decimal.Overflow
import Insolvency.Proofs.Shares.Reissue

namespace Insolvency

open Decimal

/-! ### One factor for a class -/

namespace Accounts

variable {κ : Type} [Ord κ]

/-- Accounts that were scaled by one factor.  Where there is no entry there is nothing, before and
after. -/
structure ProRata (before after : Accounts κ) : Prop where
  /-- Each amount is multiplied by the factor and rounded once. -/
  factor : ∃ f : Decimal, 0 ≤ f.toRat ∧ f.toRat ≤ 1 ∧
    ∀ k, (before.amount k).mul f = .ok (after.amount k)
  /-- Of equal amounts equal amounts are left. -/
  equal : ∀ j k, before.amount j = before.amount k → after.amount j = after.amount k
  /-- Of a larger amount no less is left. -/
  larger : ∀ j k, before.amount j ≤ before.amount k → after.amount j ≤ after.amount k

variable {a b : Accounts κ}

theorem proRata_of_factor {f : Decimal} (h0 : 0 ≤ f.toRat) (h1 : f.toRat ≤ 1)
    (h : ∀ k, (a.amount k).mul f = .ok (b.amount k)) : a.ProRata b where
  factor := ⟨f, h0, h1, h⟩
  equal j k heq := Except.ok.inj ((h j).symm.trans (heq ▸ h k))
  larger j k hle := by
    rw [le_iff_toRat] at hle ⊢
    exact (rounds_mul (h j)).mono (rounds_mul (h k)) (mul_le_mul_of_nonneg_right hle h0)

/-- What is left alone is scaled by one. -/
theorem ProRata.refl (a : Accounts κ) : a.ProRata a :=
  proRata_of_factor (toRat_one.trans_ge zero_le_one) toRat_one.le
    fun k => mul_one_eq_ok (a.amount k)

theorem ProRata.congr {a' b' : Accounts κ} (h : a.ProRata b)
    (ha : ∀ k, a.amount k = a'.amount k) (hb : ∀ k, b'.amount k = b.amount k) : a'.ProRata b' := by
  obtain ⟨f, h0, h1, hf⟩ := h.factor
  exact proRata_of_factor h0 h1 fun k => by rw [← ha k, hb k, hf k]

end Accounts

/-- Neither class has an entry of nothing. -/
def Liabilities.Bare (l : Liabilities) : Prop := 0 ∉ l.loans.values ∧ 0 ∉ l.deposits.values

theorem Liabilities.bare_swept (l : Liabilities) : l.swept.Bare :=
  ⟨l.loans.zero_notMem_values_swept, l.deposits.zero_notMem_values_swept⟩

namespace Bailin

/-! ### Writing down the liabilities -/

/-- A write-down of one class either is none, or clears the books of entries of nothing. -/
def LeftAloneOrBare (before after : Liabilities) (lost : Accounts AgentId) : Prop :=
  (after = before ∧ lost = ∅) ∨ after.Bare

theorem proRata_of_writeDownFactor {remaining total q : Decimal}
    (h : writeDownFactor remaining total = .ok (some q)) : 0 ≤ q.toRat ∧ q.toRat ≤ 1 := by
  obtain ⟨p, hp, ⟨-, hnone⟩ | ⟨-, q', hq, hsome⟩⟩ := writeDownFactor_eq_ok h
  · cases hnone
  · obtain rfl := Option.some.inj hsome
    rw [one_sub_proportion hp hq]
    exact ⟨sub_nonneg.mpr (proportion_le_one hp), sub_le_self 1 (proportion_nonneg hp)⟩

theorem proRata_of_scaleLoans {e : Episode} {l : Liabilities} {lost : Accounts AgentId}
    (h : scaleLoans e = .ok (l, lost)) : e.liabilities.loans.ProRata l.loans ∧
      (∀ k, l.deposits.amount k = e.liabilities.deposits.amount k) ∧
      LeftAloneOrBare e.liabilities l lost := by
  simp only [scaleLoans, bind_eq_ok] at h
  obtain ⟨total, -, factor, hfactor, h⟩ := h
  cases factor with
  | none =>
      obtain ⟨rfl, rfl⟩ := Prod.mk.inj (pure_eq_ok.mp h)
      exact ⟨.refl _, fun _ => rfl, Or.inl ⟨rfl, rfl⟩⟩
  | some q =>
      obtain ⟨h0, h1⟩ := proRata_of_writeDownFactor hfactor
      simp only [Liabilities.scaleLoans, bind_eq_ok, pure_eq_ok, Prod.mk.injEq] at h
      obtain ⟨⟨after, shrunk⟩, hscale, rfl, -⟩ := h
      refine ⟨?_, fun k => Accounts.amount_swept _ k, Or.inr (Liabilities.bare_swept _)⟩
      exact (Accounts.proRata_of_factor h0 h1 (Accounts.amount_of_scale hscale)).congr
        (fun _ => rfl) fun k => Accounts.amount_swept after k

theorem proRata_of_scaleDeposits {e : Episode} {l : Liabilities} {lost : Accounts AgentId}
    (h : scaleDeposits e = .ok (l, lost)) : e.liabilities.deposits.ProRata l.deposits ∧
      (∀ k, l.loans.amount k = e.liabilities.loans.amount k) ∧
      LeftAloneOrBare e.liabilities l lost := by
  unfold scaleDeposits at h
  split_ifs at h
  · simp only [bind_eq_ok] at h
    obtain ⟨total, -, factor, hfactor, h⟩ := h
    cases factor with
    | none =>
        obtain ⟨rfl, rfl⟩ := Prod.mk.inj (pure_eq_ok.mp h)
        exact ⟨.refl _, fun _ => rfl, Or.inl ⟨rfl, rfl⟩⟩
    | some q =>
        obtain ⟨h0, h1⟩ := proRata_of_writeDownFactor hfactor
        simp only [Liabilities.scaleDeposits, bind_eq_ok, pure_eq_ok, Prod.mk.injEq] at h
        obtain ⟨⟨after, shrunk⟩, hscale, rfl, -⟩ := h
        refine ⟨?_, fun k => Accounts.amount_swept _ k, Or.inr (Liabilities.bare_swept _)⟩
        exact (Accounts.proRata_of_factor h0 h1 (Accounts.amount_of_scale hscale)).congr
          (fun _ => rfl) fun k => Accounts.amount_swept after k
  · obtain ⟨rfl, rfl⟩ := Prod.mk.inj (pure_eq_ok.mp h)
    exact ⟨.refl _, fun _ => rfl, Or.inl ⟨rfl, rfl⟩⟩

/-- Where nothing was written down, everything that is due is left to cover. -/
theorem Course.Shows.uncovered_of_empty {bank : Institution} {shortfall : Decimal} {c : Course}
    {f : Figures} (h : c.Shows bank shortfall f) (hdue : epsilon < shortfall)
    (hloans : c.loansLost = ∅) (hdeposits : c.depositsLost = ∅) : 0 < f.afterDeposits := by
  have hshortfall : epsilon.toRat < shortfall.toRat := lt_iff_toRat.mp hdue
  have hmore : shortfall.toRat ≤ f.due.toRat :=
    h.due.ge_of_ge (le_add_of_nonneg_right h.removed_nonneg)
  have hfromLoans := total_of_empty hloans h.fromLoans
  have hfromDeposits := total_of_empty hdeposits h.fromDeposits
  have hafterLoans : epsilon < f.afterLoans := by
    rcases leftAfter_eq_ok h.afterLoans with ⟨hle, -⟩ | ⟨-, hlt, -⟩
    · linarith
    · exact hlt
  rcases leftAfter_eq_ok h.afterDeposits with ⟨hle, -⟩ | ⟨-, hlt, -⟩
  · linarith [lt_iff_toRat.mp hafterLoans]
  · rw [lt_iff_toRat, toRat_zero]
    exact toRat_pos_of_epsilon_lt hlt

/-- **What the write-downs leave of the liabilities**: each class by one factor, and no entry of
nothing unless the bank gave up shares in itself at a price below nothing. -/
theorem Course.Of.proRata {bank : Institution} {shortfall : Decimal} {ctx : Context} {c : Course}
    (h : c.Of bank shortfall ctx) (hsheet : bank.sheet.Nonneg) (hdone : ¬ 0 < c.uncovered) :
    bank.sheet.liabilities.loans.ProRata c.depositsDown.liabilities.loans ∧
      bank.sheet.liabilities.deposits.ProRata c.depositsDown.liabilities.deposits ∧
      (c.depositsDown.liabilities.Bare ∨
        (c.depositsDown.liabilities = bank.sheet.liabilities ∧
          ∃ price ∈ ctx.book.price? bank.id, price < 0)) := by
  obtain ⟨filed, hfiled, hcancel⟩ := h.cancelling
  obtain ⟨claims, -, rfl⟩ := Episode.fileClaims_eq_ok.mp hfiled
  obtain ⟨-, howed, -⟩ := cancelSharesAtCost_eq_ok hcancel hsheet.assets
  have hbank : c.cancelled.liabilities = bank.sheet.liabilities := howed
  obtain ⟨l1, _, _, hscale1, -, -, he1⟩ := writeDownLoans_eq_ok h.loans
  obtain ⟨l2, _, _, hscale2, -, -, he2⟩ := writeDownDeposits_eq_ok h.deposits
  have hl1 : c.loansDown.liabilities = l1 := by rw [he1]; rfl
  have hl2 : c.depositsDown.liabilities = l2 := by rw [he2]; rfl
  obtain ⟨hloans, hdepositsKept, hbare1⟩ := proRata_of_scaleLoans hscale1
  obtain ⟨hdeposits, hloansKept, hbare2⟩ := proRata_of_scaleDeposits hscale2
  rw [hbank] at hloans hdepositsKept hbare1
  rw [hl1] at hdeposits hloansKept hbare2
  rw [hl2]
  refine ⟨hloans.congr (fun _ => rfl) hloansKept, hdeposits.congr hdepositsKept fun _ => rfl, ?_⟩
  rcases hbare2 with ⟨rfl, hnoDeposits⟩ | hbare
  · rcases hbare1 with ⟨rfl, hnoLoans⟩ | hbare
    · refine Or.inr ⟨rfl, ?_⟩
      by_contra hno
      push Not at hno
      have hprice : 0 ≤ (ctx.book.value bank.id).toRat :=
        PriceBook.value_nonneg fun price hmem => by
          rw [le_iff_toRat, ← not_lt, ← lt_iff_toRat]
          exact hno price hmem
      obtain ⟨f, hf⟩ := h.shows hprice hsheet
      rw [Course.uncovered, hf.totals] at hdone
      exact hdone (hf.uncovered_of_empty h.due hnoLoans hnoDeposits)
    · exact Or.inl hbare
  · exact Or.inl hbare

/-! ### Handing out the shares -/

/-- New shares for as large a part of the count as their value is of a whole. -/
structure Apportioned (base whole : Decimal) (a : Allotment) : Prop where
  nonneg : 0 ≤ a.value.toRat
  le_whole : a.value.toRat ≤ whole.toRat
  quantity : ∃ p, proportion a.value whole = .ok p ∧ base.mul p = .ok a.quantity

/-- For a whole that is dust there are no shares, and for any other the ratio is the same for all
but for rounding. -/
theorem Apportioned.error {base whole : Decimal} {a : Allotment} (h : Apportioned base whole a)
    (hbase : 0 ≤ base.toRat) :
    (whole ≤ epsilon ∧ a.quantity = 0) ∨ (epsilon < whole ∧
      Shares.IsPart base.toRat (max 1 base.toRat) whole a.value a.quantity) := by
  obtain ⟨p, hp, hquantity⟩ := h.quantity
  by_cases hdust : whole ≤ epsilon
  · refine Or.inl ⟨hdust, ?_⟩
    rcases proportion_eq_ok hp with ⟨-, rfl⟩ | ⟨hdue, -⟩
    · exact Except.ok.inj (hquantity.symm.trans (mul_zero_eq_ok base))
    · exact absurd hdust (not_le_iff.mpr hdue)
  · have hdue := not_le_iff.mp hdust
    exact Or.inr ⟨hdue, Shares.isPart_of_proportion hp hquantity hdue h.nonneg h.le_whole hbase
      (le_max_left _ _) (le_max_right _ _)⟩

/-- **Two of those who lost something get as much for each unit of it**, but for two grains of the
size of the count. -/
theorem Apportioned.cross_le {base whole : Decimal} {a b : Allotment}
    (ha : Apportioned base whole a) (hb : Apportioned base whole b) (hbase : 0 ≤ base.toRat) :
    |a.quantity.toRat * b.value.toRat - b.quantity.toRat * a.value.toRat|
      ≤ max 1 base.toRat / 10 ^ 27 * (a.value.toRat + b.value.toRat) := by
  have hsize : (0 : ℚ) ≤ max 1 base.toRat := zero_le_one.trans (le_max_left _ _)
  have hvalues := add_nonneg ha.nonneg hb.nonneg
  rcases ha.error hbase with ⟨hdust, ha0⟩ | ⟨hdue, hpart⟩
  · rcases hb.error hbase with ⟨-, hb0⟩ | ⟨hdue, -⟩
    · rw [ha0, hb0, toRat_zero, zero_mul, zero_mul, sub_self, abs_zero]
      positivity
    · exact absurd hdust (not_le_iff.mpr hdue)
  · rcases hb.error hbase with ⟨hdust, -⟩ | ⟨-, hpart'⟩
    · exact absurd hdust (not_le_iff.mpr hdue)
    · -- The exact quantities are in the ratio of the values, so only the two errors are left.
      have hsplit : a.quantity.toRat * b.value.toRat - b.quantity.toRat * a.value.toRat
          = (a.quantity.toRat - base.toRat * (a.value.toRat / whole.toRat)) * b.value.toRat
            - (b.quantity.toRat - base.toRat * (b.value.toRat / whole.toRat)) * a.value.toRat := by
        ring
      have hfirst : |(a.quantity.toRat - base.toRat * (a.value.toRat / whole.toRat))
            * b.value.toRat| ≤ 2 * grain * max 1 base.toRat * b.value.toRat := by
        rw [abs_mul, abs_of_nonneg hb.nonneg]
        exact mul_le_mul_of_nonneg_right hpart.error hb.nonneg
      have hsecond : |(b.quantity.toRat - base.toRat * (b.value.toRat / whole.toRat))
            * a.value.toRat| ≤ 2 * grain * max 1 base.toRat * a.value.toRat := by
        rw [abs_mul, abs_of_nonneg ha.nonneg]
        exact mul_le_mul_of_nonneg_right hpart'.error ha.nonneg
      have hgrain : 2 * grain * max 1 base.toRat ≤ max 1 base.toRat / 10 ^ 27 := by
        unfold grain maxPlaces
        linarith
      rw [hsplit]
      calc |_ - _|
          ≤ 2 * grain * max 1 base.toRat * b.value.toRat
              + 2 * grain * max 1 base.toRat * a.value.toRat :=
            (abs_sub _ _).trans (add_le_add hfirst hsecond)
        _ = 2 * grain * max 1 base.toRat * (a.value.toRat + b.value.toRat) := by ring
        _ ≤ max 1 base.toRat / 10 ^ 27 * (a.value.toRat + b.value.toRat) :=
            mul_le_mul_of_nonneg_right hgrain hvalues

theorem apportioned_of_compensate {base whole : Decimal} {ctx : Context} {e e' : Episode}
    {losses : List (Loser × Decimal)} (h : losses.foldlM (compensate base whole ctx) e = .ok e')
    (hlosses : AllNonneg (losses.map Prod.snd)) (hsum : sum (losses.map Prod.snd) = .ok whole)
    (he : e.allotments = []) : ∀ a ∈ e'.allotments, Apportioned base whole a := by
  refine foldlM_induction (P := fun e : Episode => ∀ a ∈ e.allotments, Apportioned base whole a) h
    (he ▸ List.forall_mem_nil _) fun loss hloss mid mid' hmid hstep => ?_
  have hmem : loss.2 ∈ losses.map Prod.snd := List.mem_map_of_mem hloss
  unfold compensate at hstep
  split_ifs at hstep
  · exact pure_eq_ok.mp hstep ▸ hmid
  · simp only [bind_eq_ok] at hstep
    obtain ⟨p, hp, quantity, hquantity, hallot⟩ := hstep
    obtain ⟨-, holder, hallotments⟩ := Episode.allot_eq_ok hallot
    rw [hallotments]
    refine List.forall_mem_append.mpr ⟨hmid, List.forall_mem_singleton.mpr ?_⟩
    exact ⟨hlosses _ hmem, le_foldlM_add hlosses hsum toRat_zero.ge hmem, p, hp, hquantity⟩

/-- All new shares are apportioned by one whole. -/
theorem apportioned_of_compensateAll {before : Institution} {base : Decimal}
    {lost : List (AgentId × Decimal)} {e e' : Episode} {ctx ctx' : Context}
    (h : compensateAll before base lost e ctx = .ok (e', ctx'))
    (hlost : AllNonneg (lost.map Prod.snd)) (hallotments : e.allotments = []) :
    ∃ whole, ∀ a ∈ e'.allotments, Apportioned base whole a := by
  simp only [compensateAll, bind_eq_ok, pure_eq_ok] at h
  obtain ⟨⟨recorded, writeDowns⟩, hrecord, total, htotal, handed, hfold, price, -, h⟩ := h
  have hrec := recorded_of_foldlM hrecord Accounts.nonneg_empty hlost
  obtain ⟨-, hlosses⟩ := recordCancellations_keeps before recorded.cancelled hrec.nonneg
  have hnone : recorded.allotments = [] := by
    rw [hrec.books]
    exact hallotments
  have hlast : e'.allotments = handed.allotments := by
    rw [← (Prod.mk.inj h).1]
    rfl
  rw [hlast]
  exact ⟨total, apportioned_of_compensate hfold hlosses htotal hnone⟩

end Bailin

namespace Policy

/-- **A bail-in is pro rata.** -/
theorem bailin_proRata {bank : Institution} {shortfall : Decimal} {ctx ctx' : Context} {e : Episode}
    (h : Policy.bailin.resolve bank shortfall ctx = .ok (e, ctx')) (hout : e.outcome = .resolved) :
    bank.sheet.liabilities.loans.ProRata e.liabilities.loans ∧
    bank.sheet.liabilities.deposits.ProRata e.liabilities.deposits ∧
    (e.liabilities.Bare ∨ (e.liabilities = bank.sheet.liabilities ∧
      ∃ price ∈ ctx.book.price? bank.id, price < 0)) ∧
    ∃ base, (Episode.opening bank shortfall).shareCount = .ok base ∧
      ∀ a ∈ e.allotments, ∀ b ∈ e.allotments,
        |a.quantity.toRat * b.value.toRat - b.quantity.toRat * a.value.toRat|
          ≤ max 1 base.toRat / 10 ^ 27 * (a.value.toRat + b.value.toRat) := by
  obtain ⟨hobjection, hrun⟩ := resolve_eq_ok.mp h
  obtain ⟨hsheet, -⟩ := inOrder_of_objection? hobjection
  rcases Bailin.run_cases hrun with ⟨-, hr⟩ | ⟨c, hc, ⟨-, hr⟩ | ⟨hdone, hr⟩⟩
  · cases hout.symm.trans (Episode.outcome_of_compliant hr.symm)
  · cases hout.symm.trans (Episode.outcome_of_giveUp hr)
  · have hleaves := hc.leaves hsheet
    obtain ⟨filed, gone, hfiled, hgone, hdown⟩ := hleaves.cancelling
    have hallotments : c.depositsDown.allotments = [] := by
      rw [hdown.allotments, Episode.allotments_cancelShares hgone, hfiled.allotments]
      rfl
    obtain ⟨hbooks, -⟩ := Bailin.compensateAll_eq_ok hr hleaves.lost_nonneg hallotments
    obtain ⟨whole, hwhole⟩ :=
      Bailin.apportioned_of_compensateAll hr hleaves.lost_nonneg hallotments
    obtain ⟨hloans, hdeposits, hbare⟩ := hc.proRata hsheet hdone
    rw [hbooks.liabilities]
    refine ⟨hloans, hdeposits, hbare, c.base, hc.count, fun a ha b hb => ?_⟩
    exact (hwhole a ha).cross_le (hwhole b hb) (Episode.nonneg_of_shareCount hc.count)

/-- A shortfall that takes all loans of the sample bank and a part of its deposits. -/
theorem bailin_proRata_sampleBank : ∃ e ctx',
    Policy.bailin.resolve sampleBank 700.0 sampleContext = .ok (e, ctx') ∧
      e.outcome = .resolved ∧ e.allotments.length = 3 ∧
      sampleBank.sheet.liabilities.deposits.ProRata e.liabilities.deposits := by
  obtain ⟨e, ctx', h, hout, hthree⟩ : ∃ e ctx',
      Policy.bailin.resolve sampleBank 700.0 sampleContext = .ok (e, ctx') ∧
        e.outcome = .resolved ∧ e.allotments.length = 3 := ⟨_, _, rfl, rfl, rfl⟩
  obtain ⟨-, hdeposits, -⟩ := bailin_proRata h hout
  exact ⟨e, ctx', h, hout, hthree, hdeposits⟩

/-- A bank that holds all of its shares itself, and has a loan of nothing on its books. -/
def selfOwnedBank : Institution := { sampleBank with sheet := {
  assets := ⟨Table.ofList [(.cash, 100.0), (.equity, 100.0)]⟩
  liabilities := ⟨Table.ofList [(⟨.fund, "alpha"⟩, 0), (⟨.fund, "beta"⟩, 50.0)], ∅⟩
  shares := ⟨Table.ofList [(⟨.institution, "north"⟩, 100.0)]⟩ } }

/-- Giving up its shares at a price below nothing covers its shortfall, and the loan stays. -/
theorem bailin_keeps_zero_loan : ∃ e ctx',
    Policy.bailin.resolve selfOwnedBank 50.0
        { sampleContext with book := ⟨Table.ofList [("north", -1)]⟩ } = .ok (e, ctx') ∧
      e.outcome = .resolved ∧ e.liabilities = selfOwnedBank.sheet.liabilities ∧
      ¬ e.liabilities.Bare := by
  refine ⟨_, _, rfl, rfl, rfl, fun hbare => hbare.1 ?_⟩
  decide

end Policy

end Insolvency
