/-
Conservation: what a bail-in takes from the creditors is what it set out to cover.

Every figure is compared with the exact one, and the comparison is in grains.  `M` bounds
the size of the books, so that a rounding is off by less than `M` grains, and sums, which
are at most eleven times the exact ones, by less than eight.  One class of `n` accounts is
then recovered to `16·n·M + 9·W` grains (`recovered_within`) and falls by what is recovered
to `8·n·M + W` (`fall_within`).

Dust comes in once.  If the loans leave dust, the deposits are not touched; if they leave
more, that is covered up to dust by the deposits.  So both classes together are off by one
epsilon and no more.
-/
import Insolvency.Proofs.Bailin.Compensation

namespace Insolvency.Bailin

open Decimal

/-! ### One class -/

namespace ClassDown

variable {remaining total p recovered : Decimal} {before after lost : Accounts AgentId} {M : ℚ}

theorem fall_within (h : ClassDown remaining before after lost total p)
    (hrec : lost.total = .ok recovered) (hnn : before.Nonneg) (hM : 1 ≤ M)
    (hW : before.exactTotal ≤ M) :
    |recovered.toRat - (before.exactTotal - after.exactTotal)|
      ≤ grain * (8 * (before.entries.length * M) + before.exactTotal) := by
  have hrecovered := h.recovered_le hrec
  refine (h.fall_error hrec (c := 11 * M) (by linarith) (by linarith)).trans ?_
  have hn : (before.entries.length : ℚ) ≤ before.entries.length * M :=
    le_mul_of_one_le_right (by positivity) hM
  have hW0 := Accounts.exactTotal_nonneg hnn
  have hlin : 2 / 3 * ((before.entries.length : ℚ) * (11 * M) + before.entries.length
      + before.exactTotal) ≤ 8 * (before.entries.length * M) + before.exactTotal := by linarith
  linarith [mul_le_mul_of_nonneg_left hlin grain_pos.le]

theorem lost_within (h : ClassDown remaining before after lost total p)
    (hrec : lost.total = .ok recovered) (hM : 1 ≤ M) (hW : before.exactTotal ≤ M) :
    lost.exactTotal ≤ before.exactTotal ∧ lost.entries.length ≤ before.entries.length ∧
      |recovered.toRat - lost.exactTotal| ≤ grain * (8 * (before.entries.length * M)) := by
  have hlen := h.scaled.lost_length
  rw [Accounts.length_values, Accounts.length_values] at hlen
  have hrecovered := h.recovered_le hrec
  have herror := h.lost_error hrec (c := 11 * M) (by linarith) (by linarith)
  have hnM : (0 : ℚ) ≤ grain * (before.entries.length * M) :=
    grain_mul_count_nonneg _ (by linarith)
  exact ⟨h.scaled.lost_le, hlen, by linarith⟩

theorem recovered_within (h : ClassDown remaining before after lost total p)
    (hrec : lost.total = .ok recovered) (hnn : before.Nonneg) (hremaining : 0 ≤ remaining.toRat)
    (hM : 1 ≤ M) (hW : before.exactTotal ≤ M) :
    recovered.toRat ≤ remaining.toRat
      + grain * (16 * (before.entries.length * M) + 9 * before.exactTotal) := by
  have hrecovered := h.recovered_le hrec
  have htotal := Accounts.total_le h.total_eq hnn
  refine (h.recovered_le_remaining hrec hnn hremaining (c := 11 * M) (by linarith) (by linarith)
    (by linarith)).trans ?_
  have hn : (before.entries.length : ℚ) ≤ before.entries.length * M :=
    le_mul_of_one_le_right (by positivity) hM
  have hW0 := Accounts.exactTotal_nonneg hnn
  have hlin : 2 / 3 * (2 * ((before.entries.length : ℚ) * (11 * M)) + 2 * before.entries.length
      + 2 * before.exactTotal + total.toRat)
      ≤ 16 * (before.entries.length * M) + 9 * before.exactTotal := by linarith
  linarith [mul_le_mul_of_nonneg_left hlin grain_pos.le]

end ClassDown

/-! ### The deposits, spared or not -/

namespace DepositsDown

variable {remaining recovered : Decimal} {before after lost : Accounts AgentId} {M : ℚ}

theorem recovered_le (h : DepositsDown remaining before after lost)
    (hrec : lost.total = .ok recovered) (hnn : before.Nonneg) :
    recovered.toRat ≤ 11 * before.exactTotal := by
  cases h with
  | spared hcovered hsame hlost =>
      rw [total_of_empty hlost hrec]
      linarith [Accounts.exactTotal_nonneg hnn]
  | scaled hdue total p hdown => exact hdown.recovered_le hrec

theorem fall_within (h : DepositsDown remaining before after lost)
    (hrec : lost.total = .ok recovered) (hnn : before.Nonneg) (hM : 1 ≤ M)
    (hW : before.exactTotal ≤ M) :
    |recovered.toRat - (before.exactTotal - after.exactTotal)|
      ≤ grain * (8 * (before.entries.length * M) + before.exactTotal) := by
  cases h with
  | spared hcovered hsame hlost =>
      have hW0 := Accounts.exactTotal_nonneg hnn
      have hpos := grain_pos
      rw [total_of_empty hlost hrec, hsame.exactTotal, sub_self, sub_zero, abs_zero]
      positivity
  | scaled hdue total p hdown => exact hdown.fall_within hrec hnn hM hW

theorem lost_within (h : DepositsDown remaining before after lost)
    (hrec : lost.total = .ok recovered) (hnn : before.Nonneg) (hM : 1 ≤ M)
    (hW : before.exactTotal ≤ M) :
    lost.exactTotal ≤ before.exactTotal ∧ lost.entries.length ≤ before.entries.length ∧
      |recovered.toRat - lost.exactTotal| ≤ grain * (8 * (before.entries.length * M)) := by
  cases h with
  | spared hcovered hsame hlost =>
      have hpos := grain_pos
      rw [total_of_empty hlost hrec, hlost, Accounts.exactTotal_empty, sub_zero, abs_zero]
      exact ⟨Accounts.exactTotal_nonneg hnn, Nat.zero_le _, by positivity⟩
  | scaled hdue total p hdown => exact hdown.lost_within hrec hM hW

theorem recovered_within (h : DepositsDown remaining before after lost)
    (hrec : lost.total = .ok recovered) (hnn : before.Nonneg) (hremaining : 0 ≤ remaining.toRat)
    (hM : 1 ≤ M) (hW : before.exactTotal ≤ M) :
    recovered.toRat ≤ remaining.toRat
      + grain * (16 * (before.entries.length * M) + 9 * before.exactTotal) := by
  cases h with
  | spared hcovered hsame hlost =>
      have hW0 := Accounts.exactTotal_nonneg hnn
      have hpos := grain_pos
      rw [total_of_empty hlost hrec]
      positivity
  | scaled hdue total p hdown => exact hdown.recovered_within hrec hnn hremaining hM hW

end DepositsDown

/-! ### Both classes -/

namespace Course.Shows

variable {bank : Institution} {shortfall : Decimal} {c : Course} {f : Figures} {M : ℚ}

/-- Nothing but dust is left of what the deposits had to cover. -/
theorem fromDeposits_covers (h : c.Shows bank shortfall f) (hdone : ¬ 0 < f.afterDeposits) :
    f.afterLoans.toRat - f.fromDeposits.toRat ≤ epsilon.toRat := by
  rcases leftAfter_eq_ok h.afterDeposits with ⟨hdust, -⟩ | ⟨-, hpos, -⟩
  · exact hdust
  · refine absurd (lt_iff_toRat.mpr ?_) hdone
    rw [toRat_zero]
    exact toRat_pos_of_epsilon_lt hpos

/-- **What loans and deposits fall by is what is recovered from them.** -/
theorem fall_error (h : c.Shows bank shortfall f) (hsheet : bank.sheet.Nonneg) (hM : 1 ≤ M)
    (hT : bank.sheet.liabilities.exactTotal ≤ M) :
    |(bank.sheet.liabilities.exactTotal - c.depositsDown.liabilities.exactTotal)
        - (f.fromLoans.toRat + f.fromDeposits.toRat)|
      ≤ grain * (8 * (bank.sheet.liabilities.entryCount * M) + M) := by
  obtain ⟨total, p, hloans⟩ := h.loans
  have hL0 := Accounts.exactTotal_nonneg hsheet.loans
  have hD0 := Accounts.exactTotal_nonneg hsheet.deposits
  unfold Liabilities.exactTotal at hT ⊢
  unfold Liabilities.entryCount
  have hsize := mul_le_mul_of_nonneg_left hT grain_pos.le
  have h1 := hloans.fall_within h.fromLoans hsheet.loans hM (by linarith)
  have h2 := h.deposits.fall_within h.fromDeposits hsheet.deposits hM (by linarith)
  push_cast
  rw [abs_le] at h1 h2 ⊢
  constructor
  · linarith [h1.2, h2.2]
  · linarith [h1.1, h2.1]

/-- What the loans leave is worked out to eight grains of the size of the books. -/
theorem afterLoans_error (h : c.Shows bank shortfall f) (hsheet : bank.sheet.Nonneg)
    (hdone : ¬ 0 < f.afterDeposits) (hM : 1 ≤ M) (hT : bank.sheet.liabilities.exactTotal ≤ M)
    (hround : Rounds (f.due.toRat - f.fromLoans.toRat) f.afterLoans) :
    |f.afterLoans.toRat - (f.due.toRat - f.fromLoans.toRat)| ≤ grain * (8 * M) := by
  have hL0 := Accounts.exactTotal_nonneg hsheet.loans
  have hcover := h.fromDeposits_covers hdone
  have hle := h.deposits.recovered_le h.fromDeposits hsheet.deposits
  rw [toRat_epsilon] at hcover
  unfold Liabilities.exactTotal at hT
  have hsize : |f.afterLoans.toRat| ≤ 12 * M := by
    rw [abs_of_nonneg h.afterLoans_nonneg]
    linarith
  refine (hround.abs_sub_le_result (by linarith) hsize).trans_eq ?_
  ring

/-- **Loans and deposits together recover what was due**, but for dust and the rounding. -/
theorem recovered_error (h : c.Shows bank shortfall f) (hsheet : bank.sheet.Nonneg)
    (hshortfall : 0 ≤ shortfall.toRat) (hdone : ¬ 0 < f.afterDeposits) (hM : 1 ≤ M)
    (hT : bank.sheet.liabilities.exactTotal ≤ M) :
    |f.fromLoans.toRat + f.fromDeposits.toRat - f.due.toRat|
      ≤ epsilon.toRat + grain * (16 * (bank.sheet.liabilities.entryCount * M) + 17 * M) := by
  obtain ⟨total, p, hloans⟩ := h.loans
  have hL0 := Accounts.exactTotal_nonneg hsheet.loans
  have hD0 := Accounts.exactTotal_nonneg hsheet.deposits
  have hpos := grain_pos
  have heps := epsilon_nonneg
  have hT' := hT
  unfold Liabilities.exactTotal at hT'
  have hsize := mul_le_mul_of_nonneg_left hT' hpos.le
  have h1 := hloans.recovered_within h.fromLoans hsheet.loans (h.due_nonneg hshortfall) hM
    (by linarith)
  have h2 := h.deposits.recovered_within h.fromDeposits hsheet.deposits h.afterLoans_nonneg hM
    (by linarith)
  have hnL : 0 ≤ grain * (bank.sheet.liabilities.loans.entries.length * M) := by positivity
  have hnD : 0 ≤ grain * (bank.sheet.liabilities.deposits.entries.length * M) := by positivity
  have hgL : 0 ≤ grain * bank.sheet.liabilities.loans.exactTotal := by positivity
  have hgD : 0 ≤ grain * bank.sheet.liabilities.deposits.exactTotal := by positivity
  unfold Liabilities.entryCount
  push_cast
  rw [abs_le]
  rcases leftAfter_eq_ok h.afterLoans with ⟨hdust, hzero⟩ | ⟨-, -, hround⟩
  · -- The loans suffice, so the deposits are spared.
    have hspared : f.fromDeposits.toRat = 0 := by
      have hrec := h.fromDeposits
      cases h.deposits with
      | spared hcovered hsame hlost => exact total_of_empty hlost hrec
      | scaled hdue total p hdown =>
          rw [hzero] at hdue
          exact absurd hdue (by decide)
    constructor
    · linarith
    · linarith
  · have hcover := h.fromDeposits_covers hdone
    have herror := abs_le.mp (h.afterLoans_error hsheet hdone hM hT hround)
    constructor
    · linarith [herror.1]
    · linarith [herror.2]

/-! ### The shortfall -/

/-- What was due is of the size of the books. -/
theorem due_le (h : c.Shows bank shortfall f) (hsheet : bank.sheet.Nonneg)
    (hdone : ¬ 0 < f.afterDeposits) (hM : 1 ≤ M) (hT : bank.sheet.liabilities.exactTotal ≤ M) :
    f.due.toRat ≤ 13 * M := by
  obtain ⟨total, p, hloans⟩ := h.loans
  have hcover := h.fromDeposits_covers hdone
  have h1 := hloans.recovered_le h.fromLoans
  have h2 := h.deposits.recovered_le h.fromDeposits hsheet.deposits
  have hgrain := hundred_grains_le (by linarith : 0 ≤ M)
  have hT' := hT
  unfold Liabilities.exactTotal at hT'
  rw [toRat_epsilon] at hcover
  rcases leftAfter_eq_ok h.afterLoans with ⟨hdust, -⟩ | ⟨-, -, hround⟩
  · rw [toRat_epsilon] at hdust
    linarith [Accounts.exactTotal_nonneg hsheet.deposits]
  · have herror := (abs_le.mp (h.afterLoans_error hsheet hdone hM hT hround)).1
    linarith

/-- What was due is the shortfall and the value of the bank's own shares. -/
theorem due_error (h : c.Shows bank shortfall f) (hsheet : bank.sheet.Nonneg)
    (hshortfall : 0 ≤ shortfall.toRat) (hdone : ¬ 0 < f.afterDeposits) (hM : 1 ≤ M)
    (hT : bank.sheet.liabilities.exactTotal ≤ M) :
    |f.due.toRat - (shortfall.toRat + f.removed.toRat)| ≤ grain * (9 * M) := by
  have hsize : |f.due.toRat| ≤ 13 * M := by
    rw [abs_of_nonneg (h.due_nonneg hshortfall)]
    exact h.due_le hsheet hdone hM hT
  refine (h.due.abs_sub_le_result (by linarith) hsize).trans ?_
  have hgM : 0 ≤ grain * M := grain_mul_nonneg (by linarith)
  linarith

/-- The assets lose the value of the bank's own shares. -/
theorem assets_error (h : c.Shows bank shortfall f) (hsheet : bank.sheet.Nonneg) (hM : 1 ≤ M)
    (hA : bank.sheet.assets.exactTotal ≤ M) :
    |c.depositsDown.assets.exactTotal - (bank.sheet.assets.exactTotal - f.removed.toRat)|
      ≤ grain * M := by
  have hgM : 0 ≤ grain * M := grain_mul_nonneg (by linarith)
  rcases h.assets with ⟨hnone, hsame⟩ | hcredit
  · rw [hnone, hsame, toRat_zero, sub_zero, sub_self, abs_zero]
    exact hgM
  · have hheld : (bank.sheet.assets.holding .equity).toRat ≤ bank.sheet.assets.exactTotal :=
      Accounts.amount_le_exactTotal hsheet.assets _
    have hsize : |(bank.sheet.assets.holding .equity).toRat + (-f.removed).toRat| ≤ M := by
      rw [toRat_neg, abs_of_nonneg (by linarith [h.removed_le])]
      linarith [h.removed_nonneg]
    have := Assets.exactTotal_creditHolding hcredit hM hsize
    rw [toRat_neg, ← sub_eq_add_neg] at this
    linarith

/-- **The equity rises by the shortfall**: what comes off the assets is made up for by what it
deepens the shortfall by. -/
theorem equity_error (h : c.Shows bank shortfall f) (hsheet : bank.sheet.Nonneg)
    (hshortfall : 0 ≤ shortfall.toRat) (hdone : ¬ 0 < f.afterDeposits) (hM : 1 ≤ M)
    (hA : bank.sheet.assets.exactTotal ≤ M) (hT : bank.sheet.liabilities.exactTotal ≤ M) :
    |(c.depositsDown.institution.sheet.exactEquity - bank.sheet.exactEquity) - shortfall.toRat|
      ≤ epsilon.toRat + grain * (24 * (bank.sheet.liabilities.entryCount * M) + 28 * M) := by
  have hassets := abs_le.mp (h.assets_error hsheet hM hA)
  have hdue := abs_le.mp (h.due_error hsheet hshortfall hdone hM hT)
  have hrec := abs_le.mp (h.recovered_error hsheet hshortfall hdone hM hT)
  have hfall := abs_le.mp (h.fall_error hsheet hM hT)
  show |((c.depositsDown.assets.exactTotal - c.depositsDown.liabilities.exactTotal)
    - (bank.sheet.assets.exactTotal - bank.sheet.liabilities.exactTotal)) - shortfall.toRat| ≤ _
  rw [abs_le]
  constructor
  · linarith [hassets.1, hdue.1, hrec.1, hfall.1]
  · linarith [hassets.2, hdue.2, hrec.2, hfall.2]

/-! ### What the creditors lost -/

/-- The losses of all creditors, listed. -/
theorem lost_spec (h : c.Shows bank shortfall f) (hsheet : bank.sheet.Nonneg) (hM : 1 ≤ M)
    (hT : bank.sheet.liabilities.exactTotal ≤ M) :
    exactSum (c.lost.map Prod.snd) ≤ M ∧
      c.lost.length ≤ bank.sheet.liabilities.entryCount ∧
      |f.fromLoans.toRat + f.fromDeposits.toRat - exactSum (c.lost.map Prod.snd)|
        ≤ grain * (8 * (bank.sheet.liabilities.entryCount * M)) := by
  obtain ⟨total, p, hloans⟩ := h.loans
  have hL0 := Accounts.exactTotal_nonneg hsheet.loans
  have hD0 := Accounts.exactTotal_nonneg hsheet.deposits
  unfold Liabilities.exactTotal at hT
  obtain ⟨hle1, hlen1, herr1⟩ := hloans.lost_within h.fromLoans hM (by linarith)
  obtain ⟨hle2, hlen2, herr2⟩ :=
    h.deposits.lost_within h.fromDeposits hsheet.deposits hM (by linarith)
  have hvalues : c.lost.map Prod.snd = c.loansLost.values ++ c.depositsLost.values :=
    List.map_append
  have hsum : exactSum (c.lost.map Prod.snd)
      = c.loansLost.exactTotal + c.depositsLost.exactTotal := by
    rw [hvalues, exactSum_append]
    rfl
  rw [hsum]
  refine ⟨by linarith, ?_, ?_⟩
  · rw [lost, List.length_append]
    exact Nat.add_le_add hlen1 hlen2
  · unfold Liabilities.entryCount
    push_cast
    rw [abs_le] at herr1 herr2 ⊢
    constructor
    · linarith [herr1.1, herr2.1]
    · linarith [herr1.2, herr2.2]

/-- The creditors' shares are worth what they lost. -/
theorem allotted_error (h : c.Shows bank shortfall f) (hsheet : bank.sheet.Nonneg) (hM : 1 ≤ M)
    (hT : bank.sheet.liabilities.exactTotal ≤ M) {e : Episode} {ctx ctx' : Context}
    (hend : compensateAll bank c.base c.lost c.depositsDown ctx = .ok (e, ctx')) :
    |allotmentValue .writeDown e.allotments - exactSum (c.lost.map Prod.snd)|
      ≤ grain * (8 * (bank.sheet.liabilities.entryCount * M)) := by
  obtain ⟨hlostM, hlen, -⟩ := h.lost_spec hsheet hM hT
  obtain ⟨-, hallotted⟩ := compensateAll_eq_ok hend h.lost_nonneg h.allotments
  refine (hallotted (11 * M) (by linarith) (by linarith)).trans ?_
  have hlen' : (c.lost.length : ℚ) ≤ bank.sheet.liabilities.entryCount := by exact_mod_cast hlen
  have hstep : (0 : ℚ) ≤ 2 / 3 * grain * (11 * M) := by
    have := grain_pos
    positivity
  have hall := mul_le_mul_of_nonneg_right hlen' hstep
  have hnM := grain_mul_count_nonneg bank.sheet.liabilities.entryCount (by linarith : 0 ≤ M)
  linarith

end Course.Shows

/-! ### The law -/

/-- What a bail-in has moved adds up, to the tolerance of the books on entry. -/
structure Conserves (bank : Institution) (shortfall : Decimal) (e : Episode) (τ : ℚ) : Prop where
  /-- What was to be covered is the shortfall and what came off the assets. -/
  due : |e.totals.shortfall.toRat
    - (shortfall.toRat + (bank.sheet.assets.exactTotal - e.assets.exactTotal))| ≤ τ
  /-- Loans and deposits were written down by it. -/
  recovered : |e.totals.loansWrittenDown.toRat + e.totals.depositsWrittenDown.toRat
    - e.totals.shortfall.toRat| ≤ τ
  /-- The entries fell by what was written down. -/
  fall : |(bank.sheet.liabilities.exactTotal - e.liabilities.exactTotal)
    - (e.totals.loansWrittenDown.toRat + e.totals.depositsWrittenDown.toRat)| ≤ τ
  fall_due : |(bank.sheet.liabilities.exactTotal - e.liabilities.exactTotal)
    - e.totals.shortfall.toRat| ≤ τ
  /-- The creditors got shares for what was written down. -/
  allotted : |allotmentValue .writeDown e.allotments
    - (e.totals.loansWrittenDown.toRat + e.totals.depositsWrittenDown.toRat)| ≤ τ
  allotted_due : |allotmentValue .writeDown e.allotments - e.totals.shortfall.toRat| ≤ τ
  /-- The equity rose by the shortfall. -/
  equity : |(e.institution.sheet.exactEquity - bank.sheet.exactEquity) - shortfall.toRat| ≤ τ

/-- The tolerance that a bail-in of a bank keeps to. -/
def bankTolerance (bank : Institution) : ℚ :=
  tolerance bank.sheet.liabilities.entryCount
    (max bank.sheet.liabilities.exactTotal bank.sheet.assets.exactTotal)

theorem conserves_of_course {bank : Institution} {shortfall : Decimal} {c : Course} {f : Figures}
    {e : Episode} {ctx ctx' : Context} (h : c.Shows bank shortfall f)
    (hsheet : bank.sheet.Nonneg) (hshortfall : 0 ≤ shortfall.toRat)
    (hdone : ¬ 0 < f.afterDeposits)
    (hend : compensateAll bank c.base c.lost c.depositsDown ctx = .ok (e, ctx')) :
    Conserves bank shortfall e (bankTolerance bank) := by
  unfold bankTolerance
  set size := max bank.sheet.liabilities.exactTotal bank.sheet.assets.exactTotal
  set n := bank.sheet.liabilities.entryCount
  have hM : (1 : ℚ) ≤ max 1 size := le_max_left _ _
  have hT : bank.sheet.liabilities.exactTotal ≤ max 1 size :=
    (le_max_left _ _).trans (le_max_right _ _)
  have hA : bank.sheet.assets.exactTotal ≤ max 1 size :=
    (le_max_right _ _).trans (le_max_right _ _)
  obtain ⟨-, -, hlosses⟩ := h.lost_spec hsheet hM hT
  obtain ⟨hbooks, -⟩ := compensateAll_eq_ok hend h.lost_nonneg h.allotments
  have hallot := h.allotted_error hsheet hM hT hend
  have hassets := h.assets_error hsheet hM hA
  have hdue := h.due_error hsheet hshortfall hdone hM hT
  have hrec := h.recovered_error hsheet hshortfall hdone hM hT
  have hfall := h.fall_error hsheet hM hT
  have hequity := h.equity_error hsheet hshortfall hdone hM hA hT
  have hkept : e.institution.sheet.exactEquity = c.depositsDown.institution.sheet.exactEquity := by
    show e.assets.exactTotal - e.liabilities.exactTotal = _
    rw [hbooks.assets, hbooks.liabilities]
    rfl
  have heps := epsilon_nonneg
  have hgM : 0 ≤ grain * max 1 size := grain_mul_nonneg (by linarith)
  have hnM : 0 ≤ grain * (n * max 1 size) :=
    grain_mul_count_nonneg n (by linarith)
  rw [abs_le] at hallot hassets hdue hrec hfall hlosses
  -- Each deviation is put together from those of the stages; none needs a hundred grains.
  have hwithin : ∀ x : ℚ, x ≤ epsilon.toRat + grain * (48 * (n * max 1 size) + 48 * max 1 size) →
      x ≤ tolerance n size := fun x hx => le_tolerance hx (by norm_num) (by norm_num)
  refine {
    due := hwithin _ ?_, recovered := hwithin _ ?_, fall := hwithin _ ?_, fall_due := hwithin _ ?_,
    allotted := hwithin _ ?_, allotted_due := hwithin _ ?_, equity := hwithin _ ?_ }
  · rw [hbooks.totals, h.totals, hbooks.assets, abs_le]
    constructor
    · linarith [hdue.1, hassets.1]
    · linarith [hdue.2, hassets.2]
  · rw [hbooks.totals, h.totals, abs_le]
    constructor
    · linarith [hrec.1]
    · linarith [hrec.2]
  · rw [hbooks.totals, h.totals, hbooks.liabilities, abs_le]
    constructor
    · linarith [hfall.1]
    · linarith [hfall.2]
  · rw [hbooks.totals, h.totals, hbooks.liabilities, abs_le]
    constructor
    · linarith [hfall.1, hrec.1]
    · linarith [hfall.2, hrec.2]
  · rw [hbooks.totals, h.totals, abs_le]
    constructor
    · linarith [hallot.1, hlosses.2]
    · linarith [hallot.2, hlosses.1]
  · rw [hbooks.totals, h.totals, abs_le]
    constructor
    · linarith [hallot.1, hlosses.2, hrec.1]
    · linarith [hallot.2, hlosses.1, hrec.2]
  · rw [hkept]
    linarith

end Insolvency.Bailin

namespace Insolvency

open Decimal

namespace Policy

/-- **A bail-in that resolves a bank conserves value**, whatever it was rounded to on the way. -/
theorem bailin_conserves {bank : Institution} {shortfall : Decimal} {ctx ctx' : Context}
    {e : Episode} (h : Policy.bailin.resolve bank shortfall ctx = .ok (e, ctx'))
    (hprice : ∀ price ∈ ctx.book.price? bank.id, 0 ≤ price) (hout : e.outcome = .resolved) :
    Bailin.Conserves bank shortfall e (Bailin.bankTolerance bank) := by
  obtain ⟨hobjection, hrun⟩ := resolve_eq_ok.mp h
  obtain ⟨hsheet, hshortfall⟩ := inOrder_of_objection? hobjection
  obtain ⟨c, f, -, hf, hdone, hend⟩ := Bailin.shows_of_resolved hrun hsheet hprice hout
  exact Bailin.conserves_of_course hf hsheet hshortfall hdone hend

/-- A shortfall that takes all loans of the sample bank and a part of its deposits. -/
theorem bailin_conserves_sampleBank : ∃ e ctx',
    Policy.bailin.resolve sampleBank 700.0 sampleContext = .ok (e, ctx') ∧
      e.outcome = .resolved ∧
      Bailin.Conserves sampleBank 700.0 e (Bailin.bankTolerance sampleBank) := by
  obtain ⟨e, ctx', h, hout⟩ : ∃ e ctx',
      Policy.bailin.resolve sampleBank 700.0 sampleContext = .ok (e, ctx') ∧
        e.outcome = .resolved := ⟨_, _, rfl, rfl⟩
  exact ⟨e, ctx', h, hout, bailin_conserves h sampleContext_price_nonneg hout⟩

end Policy

end Insolvency
