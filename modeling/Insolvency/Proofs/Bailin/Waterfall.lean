/-
The waterfall: loans go before deposits, and a bank is flagged when both are gone.

A stage has covered what was left to it if it leaves no more than dust.  Dust is the same
for all books, but what a class recovers is rounded, and the larger the books the more:
from some 10¹⁶ on, the rounding of a single loan can be more than dust.  What it leaves
then counts as uncovered.  So the order is kept as long as `writeDownRounding` is dust,
and beyond that whatever is out of order is rounding and nothing else.

`ClassDown.rest_le` is the step.  However much there is to cover, a class leaves no more of
it than what exceeds the class, give or take dust and the rounding.
-/
import Insolvency.Proofs.Bailin.Compensation

namespace Insolvency

open Decimal

/-- What the roundings of writing down one class come to at most, in books of a size. -/
def Accounts.writeDownRounding (a : Accounts AgentId) (size : ℚ) : ℚ :=
  grain * (4 * (a.entries.length * size) + 2 * a.exactTotal + size)

theorem Accounts.writeDownRounding_nonneg {a : Accounts AgentId} {size : ℚ} (ha : a.Nonneg)
    (hsize : 0 ≤ size) : 0 ≤ a.writeDownRounding size := by
  have := grain_pos
  have := Accounts.exactTotal_nonneg ha
  unfold writeDownRounding
  positivity

namespace Liabilities

/-- What the roundings of writing down both classes come to at most. -/
def writeDownRounding (l : Liabilities) : ℚ :=
  4 * grain * ((l.entryCount + 1) * max 1 l.exactTotal)

theorem add_le_writeDownRounding (l : Liabilities) :
    l.loans.writeDownRounding (max 1 l.exactTotal)
        + l.deposits.writeDownRounding (max 1 l.exactTotal) ≤ l.writeDownRounding := by
  have hT := mul_le_mul_of_nonneg_left (le_max_right 1 l.exactTotal) grain_pos.le
  unfold writeDownRounding entryCount Accounts.writeDownRounding
  generalize max 1 l.exactTotal = M at hT ⊢
  unfold exactTotal at hT
  push_cast
  linarith

/-- There are so many entries that all they hold is within the rounding. -/
theorem le_writeDownRounding_of_many {l : Liabilities} (hmany : 1 < l.entryCount * (4 * grain)) :
    max 1 l.exactTotal ≤ l.writeDownRounding := by
  have hone : (0 : ℚ) ≤ max 1 l.exactTotal := zero_le_one.trans (le_max_left _ _)
  have hpos := grain_pos
  calc max 1 l.exactTotal
      ≤ l.entryCount * (4 * grain) * max 1 l.exactTotal :=
        le_mul_of_one_le_left hone hmany.le
    _ ≤ (l.entryCount + 1) * (4 * grain) * max 1 l.exactTotal := by
        gcongr
        linarith
    _ = l.writeDownRounding := by
        unfold writeDownRounding
        ring

/-- There are few entries in either class if there are few in both. -/
theorem few_of_entryCount {l : Liabilities} (hfew : l.entryCount * (4 * grain) ≤ 1) :
    l.loans.entries.length * (4 * grain) ≤ 1 ∧ l.deposits.entries.length * (4 * grain) ≤ 1 := by
  have hpos := grain_pos
  have hloans : 0 ≤ l.loans.entries.length * (4 * grain) := by positivity
  have hdeposits : 0 ≤ l.deposits.entries.length * (4 * grain) := by positivity
  unfold entryCount at hfew
  push_cast at hfew
  constructor
  · linarith
  · linarith

end Liabilities

/-- The accounts add up without rounding. -/
def Accounts.SumsExactly {κ : Type} [Ord κ] (a : Accounts κ) : Prop :=
  ∃ t, a.total = .ok t ∧ t.toRat = a.exactTotal

namespace Bailin

/-! ### What a class leaves -/

/-- **A class leaves what exceeds it**, give or take dust and the rounding, of which one is kept
in reserve. -/
theorem ClassDown.rest_le {remaining total p recovered : Decimal}
    {before after lost : Accounts AgentId} {M : ℚ}
    (h : ClassDown remaining before after lost total p) (hrec : lost.total = .ok recovered)
    (hnn : before.Nonneg) (hremaining : 0 ≤ remaining.toRat)
    (hfew : before.entries.length * (4 * grain) ≤ 1) (hM : 1 ≤ M) (hW : before.exactTotal ≤ M) :
    remaining.toRat - recovered.toRat
      ≤ max 0 (remaining.toRat - before.exactTotal + epsilon.toRat)
        + (before.writeDownRounding M - 2 / 3 * grain * M) := by
  unfold Accounts.writeDownRounding
  have hpos := grain_pos
  have hn : (before.entries.length : ℚ) ≤ before.entries.length * M :=
    le_mul_of_one_le_right (by positivity) hM
  have hfew' : before.entries.length * (4 / 3 * grain) ≤ 1 := by linarith
  have hlen : (lost.values.length : ℚ) ≤ before.entries.length := by
    rw [← Accounts.length_values before]
    exact_mod_cast h.scaled.lost_length
  -- With so few entries the sums are of the size of the exact ones.
  have htotal : total.toRat ≤ 2 * M :=
    sum_le_two_mul hnn h.total_eq (by rwa [Accounts.length_values]) hM hW
  have hrecovered : recovered.toRat ≤ 2 * M := by
    refine sum_le_two_mul h.scaled.lost_nonneg hrec (le_trans ?_ hfew') hM
      (h.scaled.lost_le.trans hW)
    gcongr
  have herror := abs_le.mp (h.total_error hnn (by linarith) htotal)
  have hgrains := mul_le_mul_of_nonneg_left hfew (by linarith : 0 ≤ M / 3)
  have hW0 := Accounts.exactTotal_nonneg hnn
  have hgn := mul_le_mul_of_nonneg_left hn hpos.le
  have hgW : 0 ≤ grain * before.exactTotal := by positivity
  have hgM : 0 ≤ grain * M := by positivity
  have hgnM : 0 ≤ grain * (before.entries.length * M) := by positivity
  by_cases hdust : total ≤ epsilon
  · have hdust' := le_iff_toRat.mp hdust
    rw [(h.of_dust hdust hrec).2, toRat_zero, sub_zero]
    have := le_max_right 0 (remaining.toRat - before.exactTotal + epsilon.toRat)
    linarith [herror.1]
  · have hmin := h.min_le_recovered hrec hnn hremaining (not_le_iff.mp hdust) (by linarith)
      hrecovered htotal
    have hgt : grain * total.toRat ≤ grain * (before.exactTotal + M / 3) :=
      mul_le_mul_of_nonneg_left (by linarith [herror.2]) hpos.le
    rcases le_total remaining.toRat before.exactTotal with hle | hle
    · rw [min_eq_left hle] at hmin
      have := le_max_left 0 (remaining.toRat - before.exactTotal + epsilon.toRat)
      linarith
    · rw [min_eq_right hle] at hmin
      have := le_max_right 0 (remaining.toRat - before.exactTotal + epsilon.toRat)
      linarith [epsilon_nonneg]

/-- So it is with what is worked out to be left. -/
theorem ClassDown.left_le {remaining total p recovered left : Decimal}
    {before after lost : Accounts AgentId} {M : ℚ}
    (h : ClassDown remaining before after lost total p) (hrec : lost.total = .ok recovered)
    (hleft : leftAfter remaining recovered = .ok left) (hnn : before.Nonneg)
    (hremaining : 0 ≤ remaining.toRat) (hle : remaining.toRat ≤ M)
    (hfew : before.entries.length * (4 * grain) ≤ 1) (hM : 1 ≤ M) (hW : before.exactTotal ≤ M) :
    left.toRat ≤ max 0 (remaining.toRat - before.exactTotal + epsilon.toRat)
      + before.writeDownRounding M := by
  have hrest := h.rest_le hrec hnn hremaining hfew hM hW
  rcases leftAfter_eq_ok hleft with ⟨-, hzero⟩ | ⟨hmore, -, hround⟩
  · rw [hzero, toRat_zero]
    exact add_nonneg (le_max_left _ _) (Accounts.writeDownRounding_nonneg hnn (by linarith))
  · have hpos := epsilon_nonneg.trans_lt hmore
    have hstep := (abs_le.mp (hround.abs_sub_le hM (by
      rw [abs_of_pos hpos]
      linarith [h.recovered_nonneg hrec]))).2
    linarith

/-! ### What both classes leave -/

namespace Course.Shows

variable {bank : Institution} {shortfall : Decimal} {c : Course} {f : Figures}

theorem fromLoans_nonneg (h : c.Shows bank shortfall f) : 0 ≤ f.fromLoans.toRat := by
  obtain ⟨total, p, hloans⟩ := h.loans
  exact hloans.recovered_nonneg h.fromLoans

theorem fromDeposits_nonneg (h : c.Shows bank shortfall f) : 0 ≤ f.fromDeposits.toRat :=
  Accounts.total_nonneg h.fromDeposits h.deposits.lost_nonneg

/-- Where the loans could have covered what was due, what they leave of it is rounding. -/
theorem loans_rest_le (h : c.Shows bank shortfall f) (hsheet : bank.sheet.Nonneg)
    (hshortfall : 0 ≤ shortfall.toRat)
    (hcover : f.due.toRat ≤ bank.sheet.liabilities.loans.exactTotal - epsilon.toRat) :
    f.due.toRat - f.fromLoans.toRat ≤ bank.sheet.liabilities.writeDownRounding := by
  have hD0 := Accounts.exactTotal_nonneg hsheet.deposits
  have hsum := bank.sheet.liabilities.add_le_writeDownRounding
  have hM : 1 ≤ max 1 bank.sheet.liabilities.exactTotal := le_max_left _ _
  have hT : bank.sheet.liabilities.exactTotal ≤ max 1 bank.sheet.liabilities.exactTotal :=
    le_max_right _ _
  rcases le_or_gt (bank.sheet.liabilities.entryCount * (4 * grain)) 1 with hfew | hmany
  · obtain ⟨total, p, hloans⟩ := h.loans
    generalize max 1 bank.sheet.liabilities.exactTotal = M at hsum hM hT
    unfold Liabilities.exactTotal at hT
    have hrest := hloans.rest_le h.fromLoans hsheet.loans (h.due_nonneg hshortfall)
      (Liabilities.few_of_entryCount hfew).1 hM (by linarith)
    rw [max_eq_left (by linarith)] at hrest
    have hdeposits := Accounts.writeDownRounding_nonneg hsheet.deposits (by linarith : 0 ≤ M)
    have hgM : 0 ≤ grain * M := grain_mul_nonneg (by linarith)
    linarith
  · have := Liabilities.le_writeDownRounding_of_many hmany
    unfold Liabilities.exactTotal at hT this
    linarith [h.fromLoans_nonneg, epsilon_nonneg]

/-- What is left in the end was left by the loans, and was due before that. -/
theorem left_le (h : c.Shows bank shortfall f) (hshortfall : 0 ≤ shortfall.toRat) :
    f.afterLoans.toRat ≤ f.due.toRat ∧ f.afterDeposits.toRat ≤ f.afterLoans.toRat := by
  constructor
  · rcases leftAfter_eq_ok h.afterLoans with ⟨-, hzero⟩ | ⟨-, -, hround⟩
    · rw [hzero, toRat_zero]
      exact h.due_nonneg hshortfall
    · exact hround.le_of_le (by linarith [h.fromLoans_nonneg])
  · rcases leftAfter_eq_ok h.afterDeposits with ⟨-, hzero⟩ | ⟨-, -, hround⟩
    · rw [hzero, toRat_zero]
      exact h.afterLoans_nonneg
    · exact hround.le_of_le (by linarith [h.fromDeposits_nonneg])

/-- Where both classes could have covered what was due, what they leave of it is rounding. -/
theorem afterDeposits_le (h : c.Shows bank shortfall f) (hsheet : bank.sheet.Nonneg)
    (hshortfall : 0 ≤ shortfall.toRat)
    (hcover : f.due.toRat ≤ bank.sheet.liabilities.exactTotal - 2 * epsilon.toRat) :
    f.afterDeposits.toRat ≤ bank.sheet.liabilities.writeDownRounding := by
  obtain ⟨hafter1, hafter2⟩ := h.left_le hshortfall
  have heps := epsilon_nonneg
  have hsum := bank.sheet.liabilities.add_le_writeDownRounding
  have hM : 1 ≤ max 1 bank.sheet.liabilities.exactTotal := le_max_left _ _
  have hT : bank.sheet.liabilities.exactTotal ≤ max 1 bank.sheet.liabilities.exactTotal :=
    le_max_right _ _
  rcases le_or_gt (bank.sheet.liabilities.entryCount * (4 * grain)) 1 with hfew | hmany
  · obtain ⟨hfewLoans, hfewDeposits⟩ := Liabilities.few_of_entryCount hfew
    obtain ⟨total, p, hloans⟩ := h.loans
    generalize max 1 bank.sheet.liabilities.exactTotal = M at hsum hM hT
    unfold Liabilities.exactTotal at hT hcover
    have hL0 := Accounts.exactTotal_nonneg hsheet.loans
    have hD0 := Accounts.exactTotal_nonneg hsheet.deposits
    have hL := Accounts.writeDownRounding_nonneg hsheet.loans (by linarith : 0 ≤ M)
    have hD := Accounts.writeDownRounding_nonneg hsheet.deposits (by linarith : 0 ≤ M)
    have hleft1 := hloans.left_le h.fromLoans h.afterLoans hsheet.loans (h.due_nonneg hshortfall)
      (by linarith) hfewLoans hM (by linarith)
    cases h.deposits with
    | spared hcovered hsame hlost =>
        rw [lt_iff_toRat, toRat_zero, not_lt] at hcovered
        linarith
    | scaled hdue total p hdown =>
        have hleft2 := hdown.left_le h.fromDeposits h.afterDeposits hsheet.deposits
          h.afterLoans_nonneg (by linarith) hfewDeposits hM (by linarith)
        rcases le_total (f.due.toRat - bank.sheet.liabilities.loans.exactTotal + epsilon.toRat) 0
          with hloansDo | hloansDont
        · -- The loans alone could have covered it.
          rw [max_eq_left hloansDo] at hleft1
          linarith
        · -- What the loans leave is not above the deposits but for the rounding.
          rw [max_eq_right hloansDont] at hleft1
          have hmax : max 0 (f.afterLoans.toRat - bank.sheet.liabilities.deposits.exactTotal
              + epsilon.toRat) ≤ bank.sheet.liabilities.loans.writeDownRounding M :=
            max_le hL (by linarith)
          linarith
  · have := Liabilities.le_writeDownRounding_of_many hmany
    linarith

/-- Where more was due than both classes together are worth, something of it is left. -/
theorem afterDeposits_pos (h : c.Shows bank shortfall f) (hsheet : bank.sheet.Nonneg)
    (hloans : bank.sheet.liabilities.loans.SumsExactly)
    (hdeposits : bank.sheet.liabilities.deposits.SumsExactly)
    (hdiff : ∃ d : Decimal, d.toRat = f.due.toRat - bank.sheet.liabilities.loans.exactTotal)
    (hdue : bank.sheet.liabilities.exactTotal + 2 * epsilon.toRat < f.due.toRat) :
    0 < f.afterDeposits := by
  obtain ⟨total, p, hclass⟩ := h.loans
  obtain ⟨total', htotal', hexact⟩ := hloans
  obtain rfl : total = total' := Except.ok.inj (hclass.total_eq.symm.trans htotal')
  obtain ⟨d, hd⟩ := hdiff
  have heps := epsilon_nonneg
  have hL0 := Accounts.exactTotal_nonneg hsheet.loans
  have hD0 := Accounts.exactTotal_nonneg hsheet.deposits
  unfold Liabilities.exactTotal at hdue
  have hfromLoans := hclass.recovered_le_total h.fromLoans hsheet.loans (by linarith)
  have hafterLoans : d.toRat ≤ f.afterLoans.toRat := by
    rcases leftAfter_eq_ok h.afterLoans with ⟨hdust, -⟩ | ⟨-, -, hround⟩
    · linarith
    · exact hround.ge_of_ge (by linarith)
  have hfromDeposits : f.fromDeposits.toRat ≤ bank.sheet.liabilities.deposits.exactTotal := by
    have hrec := h.fromDeposits
    cases h.deposits with
    | spared hcovered hsame hlost => rwa [total_of_empty hlost hrec]
    | scaled hmore total p hdown =>
        obtain ⟨total', htotal', hexact'⟩ := hdeposits
        obtain rfl : total = total' := Except.ok.inj (hdown.total_eq.symm.trans htotal')
        rw [← hexact'] at hD0 ⊢
        exact hdown.recovered_le_total hrec hsheet.deposits (by linarith)
  rcases leftAfter_eq_ok h.afterDeposits with ⟨hdust, -⟩ | ⟨-, hpos, -⟩
  · linarith
  · refine lt_iff_toRat.mpr ?_
    rw [toRat_zero]
    exact toRat_pos_of_epsilon_lt hpos

end Course.Shows

/-! ### The law -/

/-- Some deposit is written down. -/
def DepositsWrittenDown (bank : Institution) (e : Episode) : Prop :=
  e.totals.depositsWrittenDown ≠ 0 ∨
    ∃ creditor, e.liabilities.deposit creditor ≠ bank.sheet.liabilities.deposit creditor

theorem not_depositsWrittenDown {bank : Institution} {e : Episode}
    (htotals : e.totals.depositsWrittenDown = 0) (hkept : e.liabilities = bank.sheet.liabilities) :
    ¬ DepositsWrittenDown bank e := by
  rintro (hsome | ⟨creditor, hchanged⟩)
  · exact hsome htotals
  · exact hchanged (by rw [hkept])

/-- Deposits are written down for what the loans leave, if that is more than dust. -/
theorem Course.Shows.epsilon_lt_of_depositsWrittenDown {bank : Institution} {shortfall : Decimal}
    {c : Course} {f : Figures} (h : c.Shows bank shortfall f)
    (hdown : DepositsWrittenDown bank c.depositsDown) :
    epsilon.toRat < f.due.toRat - f.fromLoans.toRat := by
  rcases leftAfter_eq_ok h.afterLoans with ⟨-, hzero⟩ | ⟨hleft, -, -⟩
  · have hrec := h.fromDeposits
    cases h.deposits with
    | spared hcovered hsame hlost =>
        rcases hdown with hsome | ⟨creditor, hchanged⟩
        · rw [h.totals] at hsome
          exact absurd (toRat_eq_zero.mp (total_of_empty hlost hrec)) hsome
        · exact absurd (hsame.amount creditor) hchanged
    | scaled hdue total p hclass =>
        rw [hzero] at hdue
        exact absurd hdue (by decide)
  · exact hleft

/-- The order in which a bank's liabilities bear its shortfall.  What is out of order is a
rounding above dust, so nothing is while `writeDownRounding` is dust. -/
structure Waterfall (bank : Institution) (e : Episode) : Prop where
  /-- Deposits are written down once the loans are exhausted. -/
  loans_first : DepositsWrittenDown bank e →
    bank.sheet.liabilities.loans.exactTotal - epsilon.toRat < e.totals.shortfall.toRat ∨
      (epsilon.toRat < e.totals.shortfall.toRat - e.totals.loansWrittenDown.toRat ∧
        e.totals.shortfall.toRat - e.totals.loansWrittenDown.toRat
          ≤ bank.sheet.liabilities.writeDownRounding)
  /-- A bank is flagged once its creditors cannot cover the shortfall. -/
  flagged_last : e.outcome = .flaggedForLiquidation →
    bank.sheet.liabilities.exactTotal - 2 * epsilon.toRat < e.totals.shortfall.toRat ∨
      (epsilon.toRat < e.totals.remainingShortfall.toRat ∧
        e.totals.remainingShortfall.toRat ≤ bank.sheet.liabilities.writeDownRounding)
  /-- Where they cannot, it is flagged. -/
  exhausted : bank.sheet.liabilities.loans.SumsExactly →
    bank.sheet.liabilities.deposits.SumsExactly →
    (∃ d : Decimal,
      d.toRat = e.totals.shortfall.toRat - bank.sheet.liabilities.loans.exactTotal) →
    bank.sheet.liabilities.exactTotal + 2 * epsilon.toRat < e.totals.shortfall.toRat →
      e.outcome = .flaggedForLiquidation

theorem waterfall_of_compliant {bank : Institution} (hsheet : bank.sheet.Nonneg) :
    Waterfall bank (.compliant bank) := by
  refine ⟨fun hdown => ?_, fun hout => ?_, ?_⟩
  · exact absurd hdown (not_depositsWrittenDown rfl rfl)
  · cases hout
  · intro _ _ _ hmore
    have hL0 := Accounts.exactTotal_nonneg hsheet.loans
    have hD0 := Accounts.exactTotal_nonneg hsheet.deposits
    have hzero : (Episode.compliant bank).totals.shortfall.toRat = 0 := toRat_zero
    rw [hzero] at hmore
    unfold Liabilities.exactTotal at hmore
    linarith [epsilon_nonneg]

/-- A course given up. -/
theorem waterfall_of_giveUp {bank : Institution} {shortfall : Decimal} {c : Course} {f : Figures}
    {e : Episode} {ctx ctx' : Context} (h : c.Shows bank shortfall f)
    (hsheet : bank.sheet.Nonneg) (hshortfall : 0 ≤ shortfall.toRat) (hleft : 0 < f.afterDeposits)
    (hend : c.depositsDown.giveUp bank ctx = .ok (e, ctx')) : Waterfall bank e := by
  have hflagged := Episode.flagged_of_giveUp hend
  have htotals := Episode.totals_of_giveUp hend
  rw [h.totals] at htotals
  refine ⟨fun hdown => ?_, fun _ => ?_, fun _ _ _ _ => Episode.outcome_of_giveUp hend⟩
  · refine absurd hdown (not_depositsWrittenDown (by rw [htotals]) ?_)
    rw [Episode.liabilities, hflagged.institution]
  · rw [htotals]
    refine (lt_or_ge _ _).imp id fun hcover => ?_
    refine ⟨?_, h.afterDeposits_le hsheet hshortfall hcover⟩
    rcases leftAfter_eq_ok h.afterDeposits with ⟨-, hzero⟩ | ⟨-, hmore, -⟩
    · rw [hzero] at hleft
      exact absurd hleft (by decide)
    · exact lt_iff_toRat.mp hmore

/-- A course that ends with shares for the creditors. -/
theorem waterfall_of_compensateAll {bank : Institution} {shortfall : Decimal} {c : Course}
    {f : Figures} {e : Episode} {ctx ctx' : Context} (h : c.Shows bank shortfall f)
    (hsheet : bank.sheet.Nonneg) (hshortfall : 0 ≤ shortfall.toRat) (hdone : ¬ 0 < f.afterDeposits)
    (hend : compensateAll bank c.base c.lost c.depositsDown ctx = .ok (e, ctx')) :
    Waterfall bank e := by
  obtain ⟨hbooks, -⟩ := compensateAll_eq_ok hend h.lost_nonneg h.allotments
  have hout := compensateAll_outcome hend
  have hshort : e.totals.shortfall = f.due := by rw [hbooks.totals, h.totals]
  have hloans : e.totals.loansWrittenDown = f.fromLoans := by rw [hbooks.totals, h.totals]
  refine ⟨fun hdown => ?_, fun hflag => ?_, ?_⟩
  · have hkept : DepositsWrittenDown bank c.depositsDown := by
      unfold DepositsWrittenDown at hdown ⊢
      rwa [hbooks.totals, hbooks.liabilities] at hdown
    rw [hshort, hloans]
    refine (lt_or_ge _ _).imp id fun hcover => ?_
    exact ⟨h.epsilon_lt_of_depositsWrittenDown hkept, h.loans_rest_le hsheet hshortfall hcover⟩
  · cases hout.symm.trans hflag
  · intro hexactLoans hexactDeposits hdiff hmore
    rw [hshort] at hdiff hmore
    exact absurd (h.afterDeposits_pos hsheet hexactLoans hexactDeposits hdiff hmore) hdone

end Bailin

namespace Policy

/-- **A bail-in writes down loans before deposits, and flags a bank when both are gone.** -/
theorem bailin_waterfall {bank : Institution} {shortfall : Decimal} {ctx ctx' : Context}
    {e : Episode} (h : Policy.bailin.resolve bank shortfall ctx = .ok (e, ctx'))
    (hprice : ∀ price ∈ ctx.book.price? bank.id, 0 ≤ price) : Bailin.Waterfall bank e := by
  obtain ⟨hobjection, hrun⟩ := resolve_eq_ok.mp h
  obtain ⟨hsheet, hshortfall⟩ := inOrder_of_objection? hobjection
  rcases Bailin.run_shows hrun hsheet hprice with hr | ⟨c, f, -, hf, ⟨hleft, hr⟩ | ⟨hdone, hr⟩⟩
  · obtain ⟨rfl, -⟩ := Prod.mk.inj hr
    exact Bailin.waterfall_of_compliant hsheet
  · exact Bailin.waterfall_of_giveUp hf hsheet hshortfall hleft hr
  · exact Bailin.waterfall_of_compensateAll hf hsheet hshortfall hdone hr

/-- A shortfall that takes a part of the sample bank's deposits, and one that takes more than it
owes. -/
theorem bailin_waterfall_sampleBank :
    (∃ e ctx', Policy.bailin.resolve sampleBank 700.0 sampleContext = .ok (e, ctx') ∧
      Bailin.DepositsWrittenDown sampleBank e ∧ Bailin.Waterfall sampleBank e) ∧
    ∃ e ctx', Policy.bailin.resolve sampleBank 2000.0 sampleContext = .ok (e, ctx') ∧
      e.outcome = .flaggedForLiquidation ∧ Bailin.Waterfall sampleBank e := by
  obtain ⟨e, ctx', h, hdown⟩ : ∃ e ctx',
      Policy.bailin.resolve sampleBank 700.0 sampleContext = .ok (e, ctx') ∧
        Bailin.DepositsWrittenDown sampleBank e := ⟨_, _, rfl, Or.inl (by decide)⟩
  obtain ⟨e', ctx'', h', hout⟩ : ∃ e ctx',
      Policy.bailin.resolve sampleBank 2000.0 sampleContext = .ok (e, ctx') ∧
        e.outcome = .flaggedForLiquidation := ⟨_, _, rfl, rfl⟩
  exact ⟨⟨e, ctx', h, hdown, bailin_waterfall h sampleContext_price_nonneg⟩,
    ⟨e', ctx'', h', hout, bailin_waterfall h' sampleContext_price_nonneg⟩⟩

/-- A bank with a single loan so large that rounding it is above dust. -/
def hugeBank : Institution := { sampleBank with
  sheet := {
    assets := ⟨Table.ofList [(.cash, 300000000000000100.0)]⟩
    liabilities := ⟨Table.ofList [(⟨.fund, "alpha"⟩, 300000000000000000.0)], ∅⟩
    shares := ⟨Table.ofList [(⟨.fund, "beta"⟩, 100.0)]⟩ } }

/-- It is flagged for a shortfall of one, which its loan exceeds by far. -/
theorem bailin_flags_hugeBank : ∃ e ctx',
    Policy.bailin.resolve hugeBank 1.0 sampleContext = .ok (e, ctx') ∧
      e.outcome = .flaggedForLiquidation ∧
      e.totals.shortfall.toRat < hugeBank.sheet.liabilities.exactTotal - 2 * epsilon.toRat := by
  obtain ⟨e, ctx', h, hout, hshort⟩ : ∃ e ctx',
      Policy.bailin.resolve hugeBank 1.0 sampleContext = .ok (e, ctx') ∧
        e.outcome = .flaggedForLiquidation ∧ e.totals.shortfall = 1 := ⟨_, _, rfl, rfl, rfl⟩
  refine ⟨e, ctx', h, hout, ?_⟩
  have hunits : Decimal.units 300000000000000000.0 = 3 * 10 ^ 45 := rfl
  have howed : hugeBank.sheet.liabilities.exactTotal
      = exactSum [300000000000000000.0] + exactSum [] := rfl
  rw [howed, hshort, toRat_one, toRat_epsilon, exactSum_cons, toRat_eq_units_div, hunits]
  norm_num [maxPlaces]

end Policy

end Insolvency
