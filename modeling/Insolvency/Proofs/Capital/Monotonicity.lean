/-
An assessment is monotone.

A higher target, heavier weights or larger debts never make an institution look better.
Every figure of an assessment is a sum, a product or a difference of figures before it, and
one rounding never changes the order of two results (`Rounds.mono`).  What is left are the
folds: two books need not have entries under the same keys, but both are summed over any
keys that theirs are among (`Accounts.total_eq_sum`), and there it is one term against
another.  Dust that counts as nothing keeps the order as well, since it is all below what
is not dust.
-/
import Insolvency.Proofs.Capital.Assessment
import Insolvency.Proofs.Episode.Ending
import Insolvency.Proofs.Ledger.Creditors

namespace Insolvency

open Decimal

/-! ### Books that hold more come to more -/

namespace Accounts

section Total

variable {κ : Type} [Ord κ] [Std.TransOrd κ] [Std.LawfulEqOrd κ]

/-- The sum over any keys, in order, that those of the accounts are among. -/
theorem total_eq_sum (a : Accounts κ) {keys : List κ} (hkeys : Ascending keys)
    (hall : ∀ k ∈ a.keys, k ∈ keys) : a.total = Decimal.sum (keys.map a.amount) := by
  rw [total, Table.values, Decimal.sum, Decimal.sum, List.foldlM_map, List.foldlM_map]
  exact foldlM_entries (f := fun (sum : Decimal) (_ : κ) v => sum.add v)
    (fun sum _ => add_zero_eq_ok sum) hkeys a.ascending
    (fun e he => hall e.1 (List.mem_map_of_mem he)) (fun _ _ => rfl) 0

/-- Two books have an entry under none but these keys. -/
theorem exists_common_keys [DecidableEq κ] (a b : Accounts κ) :
    ∃ keys, Ascending keys ∧ (∀ k ∈ a.keys, k ∈ keys) ∧ ∀ k ∈ b.keys, k ∈ keys := by
  refine ⟨(Table.ofList ((a.keys ++ b.keys).map fun k => (k, ()))).keys, Table.ascending _, ?_, ?_⟩
  · intro k hk
    refine Table.mem_keys_ofList_of_mem ?_
    simpa [Function.comp_def] using Or.inl hk
  · intro k hk
    refine Table.mem_keys_ofList_of_mem ?_
    simpa [Function.comp_def] using Or.inr hk

/-- **Books that hold no less under any key come to no less.** -/
theorem total_mono [DecidableEq κ] {a b : Accounts κ} (hle : ∀ k, a.amount k ≤ b.amount k)
    {t t' : Decimal} (h : a.total = .ok t) (h' : b.total = .ok t') : t.toRat ≤ t'.toRat := by
  obtain ⟨keys, hkeys, ha, hb⟩ := exists_common_keys a b
  rw [total_eq_sum a hkeys ha] at h
  rw [total_eq_sum b hkeys hb] at h'
  exact sum_mono (fun k _ => le_iff_toRat.mp (hle k)) h h'

end Total

end Accounts

theorem Liabilities.total_mono {l l' : Liabilities} (hloans : ∀ c, l.loan c ≤ l'.loan c)
    (hdeposits : ∀ c, l.deposit c ≤ l'.deposit c) {t t' : Decimal} (h : l.total = .ok t)
    (h' : l'.total = .ok t') : t.toRat ≤ t'.toRat := by
  simp only [total, bind_eq_ok] at h h'
  obtain ⟨loans, hsumLoans, deposits, hsumDeposits, hadd⟩ := h
  obtain ⟨loans', hsumLoans', deposits', hsumDeposits', hadd'⟩ := h'
  have hloansLe := Accounts.total_mono hloans hsumLoans hsumLoans'
  have hdepositsLe := Accounts.total_mono hdeposits hsumDeposits hsumDeposits'
  exact (rounds_add hadd).mono (rounds_add hadd') (add_le_add hloansLe hdepositsLe)

/-- Whoever owns no less and owes no more has no less equity. -/
theorem BalanceSheet.equity_mono {s s' : BalanceSheet}
    (hassets : ∀ cls, s'.assets.holding cls ≤ s.assets.holding cls)
    (hloans : ∀ c, s.liabilities.loan c ≤ s'.liabilities.loan c)
    (hdeposits : ∀ c, s.liabilities.deposit c ≤ s'.liabilities.deposit c) {e e' : Decimal}
    (h : s.equity = .ok e) (h' : s'.equity = .ok e') : e'.toRat ≤ e.toRat := by
  simp only [equity, totalAssets, totalLiabilities, bind_eq_ok] at h h'
  obtain ⟨owned, hown, owed, howe, hsub⟩ := h
  obtain ⟨owned', hown', owed', howe', hsub'⟩ := h'
  have howned : owned'.toRat ≤ owned.toRat := Accounts.total_mono hassets hown' hown
  have howed := Liabilities.total_mono hloans hdeposits howe howe'
  exact (rounds_sub hsub').mono (rounds_sub hsub) (sub_le_sub howned howed)

/-! ### The shortfall -/

namespace CapitalTarget

/-- What is lacking is the difference to what is required, and nothing where that is dust or
below. -/
theorem lacking_of_shortfall {t : CapitalTarget} {equity riskWeighted s : Decimal}
    (h : t.shortfall equity riskWeighted = .ok s) :
    ∃ required lacking, Rounds (t.ratio.toRat * riskWeighted.toRat) required ∧
      Rounds (required.toRat - equity.toRat) lacking ∧
      s = if lacking ≤ epsilon then 0 else lacking := by
  unfold shortfall at h
  split_ifs at h
  · cases h
  · simp only [bind_eq_ok, pure_eq_ok, liftM_eq_ok] at h
    obtain ⟨required, hrequired, lacking, hlacking, rfl⟩ := h
    refine ⟨required, lacking, rounds_mul hrequired, rounds_sub hlacking, ?_⟩
    by_cases hdust : lacking ≤ epsilon
    · rw [if_pos hdust]
      by_cases hnone : lacking ≤ 0
      · rw [if_pos (Or.inl hnone)]
      · -- What is above nothing is not below dust on the other side.
        have habove : -epsilon ≤ lacking := by
          have hpos := lt_iff_toRat.mp (not_le_iff.mp hnone)
          rw [toRat_zero] at hpos
          rw [le_iff_toRat, toRat_neg]
          linarith [epsilon_nonneg]
        have hnegligible : lacking.isNegligible = true := decide_eq_true ⟨habove, hdust⟩
        rw [if_pos (Or.inr hnegligible)]
    · have hmore : ¬ (lacking ≤ 0 ∨ lacking.isNegligible = true) := by
        rintro (hnone | hnegligible)
        · refine hdust (le_iff_toRat.mpr ?_)
          have := le_iff_toRat.mp hnone
          rw [toRat_zero] at this
          exact this.trans epsilon_nonneg
        · exact hdust (of_decide_eq_true hnegligible).2
      rw [if_neg hdust, if_neg hmore]

/-- **A higher target, more to weigh and less equity never lower the shortfall.** -/
theorem shortfall_mono {t t' : CapitalTarget} {equity equity' weighted weighted' s s' : Decimal}
    (h : t.shortfall equity weighted = .ok s) (h' : t'.shortfall equity' weighted' = .ok s')
    (hratio : t.ratio.toRat ≤ t'.ratio.toRat) (hratio0 : 0 ≤ t.ratio.toRat)
    (hweighted : weighted.toRat ≤ weighted'.toRat) (hweighted0 : 0 ≤ weighted.toRat)
    (hequity : equity'.toRat ≤ equity.toRat) : s.toRat ≤ s'.toRat := by
  obtain ⟨required, lacking, hrequired, hlacking, rfl⟩ := lacking_of_shortfall h
  obtain ⟨required', lacking', hrequired', hlacking', rfl⟩ := lacking_of_shortfall h'
  have hrequiredLe := hrequired.mono hrequired'
    (mul_le_mul hratio hweighted hweighted0 (hratio0.trans hratio))
  have hlackingLe := hlacking.mono hlacking' (sub_le_sub hrequiredLe hequity)
  by_cases hdust : lacking ≤ epsilon
  · rw [if_pos hdust, toRat_zero]
    split_ifs with hdust'
    · rw [toRat_zero]
    · exact (toRat_pos_of_epsilon_lt (not_le_iff.mp hdust')).le
  · have hmore' : ¬ lacking' ≤ epsilon := by
      rw [le_iff_toRat, not_le] at hdust ⊢
      exact hdust.trans_le hlackingLe
    rw [if_neg hdust, if_neg hmore']
    exact hlackingLe

/-- Nothing is lacking where the equity is what is required, be that an amount or not. -/
theorem shortfall_eq_zero {t : CapitalTarget} {equity weighted s : Decimal}
    (h : t.shortfall equity weighted = .ok s)
    (henough : t.ratio.toRat * weighted.toRat ≤ equity.toRat) : s = 0 := by
  obtain ⟨required, lacking, hrequired, hlacking, rfl⟩ := lacking_of_shortfall h
  have hrequiredLe := hrequired.le_of_le henough
  have hnone := hlacking.le_of_le (d := 0) (by rw [toRat_zero]; linarith)
  rw [toRat_zero] at hnone
  rw [if_pos (le_iff_toRat.mpr (hnone.trans epsilon_nonneg))]

end CapitalTarget

/-! ### The assessment -/

namespace Authority

theorem shortfall_of_assess {a : Authority} {i : Institution} {x : Assessment}
    (h : a.assess i = .ok x) :
    a.rulebook.target.shortfall x.equity x.riskWeightedAssets = .ok x.shortfall := by
  simp only [assess, bind_eq_ok, pure_eq_ok] at h
  obtain ⟨_, -, equity, -, weighted, -, shortfall, hshortfall, rfl⟩ := h
  exact hshortfall

/-- **Of two authorities the stricter one, assessing the institution that owes more, never finds
it better off**; and whoever has the equity that is required lacks nothing. -/
theorem assessment_mono {a b : Authority} {i j : Institution} {x y : Assessment}
    (hx : a.assess i = .ok x) (hy : b.assess j = .ok y)
    (hratio : a.rulebook.target.ratio ≤ b.rulebook.target.ratio)
    (hweights : ∀ cls, a.rulebook.riskWeights.weight cls ≤ b.rulebook.riskWeights.weight cls)
    (hassets : ∀ cls, i.sheet.assets.holding cls = j.sheet.assets.holding cls)
    (hloans : ∀ c, i.sheet.liabilities.loan c ≤ j.sheet.liabilities.loan c)
    (hdeposits : ∀ c, i.sheet.liabilities.deposit c ≤ j.sheet.liabilities.deposit c) :
    x.riskWeightedAssets ≤ y.riskWeightedAssets ∧ y.equity ≤ x.equity ∧
      x.shortfall ≤ y.shortfall ∧
      (a.rulebook.target.ratio.toRat * x.riskWeightedAssets.toRat ≤ x.equity.toRat →
        x.shortfall = 0) ∧
      (b.rulebook.target.ratio.toRat * y.riskWeightedAssets.toRat ≤ y.equity.toRat →
        y.shortfall = 0) := by
  have hbefore := assessed_of_assess hx
  have hafter := assessed_of_assess hy
  have hweighted : x.riskWeightedAssets.toRat ≤ y.riskWeightedAssets.toRat := by
    refine RiskWeights.weighted_mono (fun cls => ?_) hbefore.weighted hafter.weighted
    rw [hassets cls]
    exact mul_le_mul_of_nonneg_left (le_iff_toRat.mp (hweights cls))
      (Accounts.amount_nonneg hafter.sheet.assets cls)
  have hequity :=
    BalanceSheet.equity_mono (fun cls => le_iff_toRat.mpr (hassets cls ▸ le_rfl)) hloans
    hdeposits hbefore.equity hafter.equity
  have hshortfall := CapitalTarget.shortfall_mono (shortfall_of_assess hx) (shortfall_of_assess hy)
    (le_iff_toRat.mp hratio) (Rulebook.inRange_of_fault? a.inRange).2 hweighted
    hbefore.weighted_nonneg hequity
  exact ⟨le_iff_toRat.mpr hweighted, le_iff_toRat.mpr hequity, le_iff_toRat.mpr hshortfall,
    CapitalTarget.shortfall_eq_zero (shortfall_of_assess hx),
    CapitalTarget.shortfall_eq_zero (shortfall_of_assess hy)⟩

/-- It has no weights but the fallback, as heavy as the heaviest that is standard, and asks for
more equity. -/
def cautiousAuthority : Authority :=
  ⟨{ Rulebook.standard with riskWeights := ⟨∅, 3.0⟩, target := ⟨0.6⟩ }, by decide⟩

/-- The sample bank with a larger loan. -/
def indebtedBank : Institution := { sampleBank with sheet := { sampleBank.sheet with
  liabilities := sampleBank.sheet.liabilities.setLoan ⟨.fund, "alpha"⟩ 650.0 } }

theorem loan_le_indebtedBank (c : AgentId) :
    sampleBank.sheet.liabilities.loan c ≤ indebtedBank.sheet.liabilities.loan c := by
  have hset : indebtedBank.sheet.liabilities.loan c = _ :=
    Accounts.amount_setTo sampleBank.sheet.liabilities.loans ⟨.fund, "alpha"⟩ c 650.0
  rw [hset]
  split_ifs with hc
  · rw [hc]
    decide
  · exact le_iff_toRat.mpr le_rfl

/-- The sample bank lacks nothing by the standard; owing more, it does to a cautious authority. -/
theorem assessment_mono_sampleBank :
    (⟨Rulebook.standard, by decide⟩ : Authority).assess sampleBank = .ok ⟨300.0, 600.0, 0⟩ ∧
    cautiousAuthority.assess indebtedBank = .ok ⟨250.0, 3600.0, 1910.0⟩ ∧
    (600.0 : Decimal) ≤ 3600.0 ∧ (250.0 : Decimal) ≤ 300.0 ∧ (0 : Decimal) ≤ 1910.0 := by
  have hx : (⟨Rulebook.standard, by decide⟩ : Authority).assess sampleBank
      = .ok ⟨300.0, 600.0, 0⟩ := rfl
  have hy : cautiousAuthority.assess indebtedBank = .ok ⟨250.0, 3600.0, 1910.0⟩ := rfl
  obtain ⟨hweighted, hequity, hshortfall, -⟩ := assessment_mono hx hy (by decide)
    (fun cls => by cases cls <;> decide) (fun _ => rfl) loan_le_indebtedBank
    (fun _ => le_iff_toRat.mpr le_rfl)
  exact ⟨hx, hy, hweighted, hequity, hshortfall⟩

end Authority

end Insolvency
