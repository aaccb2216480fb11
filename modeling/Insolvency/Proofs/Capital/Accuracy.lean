/-
How accurate an assessment is.

The shortfall is a formula over the books: what the target asks of the weighted assets, less
what the assets leave over the debts.  Each figure in it is worked out with roundings, and each
is of the size of the books at most times the ratio, so all that is needed is a budget: how large
a figure gets and by how many grains of its size it is off.  The assets and their weights cost a
fixed number, since there are only so many classes; the debts cost some for each entry.  It comes
to less than a hundred for each and a hundred besides (`lacking_error`).

Dust then counts as nothing, on both sides alike (`abs_snapped_sub_le`).  And where every sum and
product on the way is an amount there are no roundings at all, so nothing but dust is lost
(`Unrounded`).
-/
import Mathlib.Algebra.BigOperators.Ring.Finset
import Insolvency.Proofs.AssetThreshold.HandingOver
import Insolvency.Proofs.Capital.Monotonicity

namespace Insolvency

open Decimal

/-! ### Loops over sums -/

namespace Decimal

/-- A loop that works out a term and adds it has worked out all terms and added them. -/
theorem foldlM_add_eq_ok {κ : Type} {keys : List κ} {f : κ → Except Fault Decimal} {s t : Decimal}
    (h : keys.foldlM (fun sum k => do sum.add (← f k)) s = .ok t) :
    ∃ ds, List.Forall₂ (fun k d => f k = .ok d) keys ds ∧ ds.foldlM add s = .ok t := by
  induction keys generalizing s with
  | nil => exact ⟨[], .nil, h⟩
  | cons k ks ih =>
      simp only [List.foldlM_cons, bind_eq_ok] at h
      obtain ⟨r, ⟨d, hd, hr⟩, h⟩ := h
      obtain ⟨ds, hds, hsum⟩ := ih h
      refine ⟨d :: ds, .cons hd hds, ?_⟩
      rw [List.foldlM_cons, hr]
      exact hsum

/-- The number is one that an amount stands for. -/
def IsAmount (x : ℚ) : Prop := ∃ d : Decimal, d.toRat = x

/-- So rounding leaves it alone. -/
theorem Rounds.eq_of_isAmount {x : ℚ} {r : Decimal} (h : Rounds x r) (hx : IsAmount x) :
    r.toRat = x := by
  obtain ⟨d, rfl⟩ := hx
  rw [h.eq_of_amount]

/-- Each sum so far of the numbers is an amount. -/
def SumsToAmounts (xs : List ℚ) : Prop := ∀ n, IsAmount (xs.take n).sum

theorem isAmount_natCast {n : Nat} (h : n < mantissaBound) : IsAmount n :=
  ⟨ofMantissa n 0 h, by rw [toRat_ofMantissa (Nat.zero_le _)]; simp⟩

/-- Whole numbers that do not come to too much are added up without rounding. -/
theorem sumsToAmounts_natCast {ns : List Nat} (h : ns.sum < mantissaBound) :
    SumsToAmounts (ns.map Nat.cast) := by
  intro n
  rw [← List.map_take, ← Nat.cast_list_sum]
  refine isAmount_natCast (lt_of_le_of_lt ?_ h)
  exact (List.take_sublist n ns).sum_le_sum fun _ _ => Nat.zero_le _

theorem foldlM_add_eq_of_amounts {ds : List Decimal} {s t : Decimal}
    (hds : ∀ n, IsAmount (s.toRat + ((ds.map toRat).take n).sum)) (h : ds.foldlM add s = .ok t) :
    t.toRat = s.toRat + exactSum ds := by
  induction ds generalizing s with
  | nil =>
      obtain rfl := pure_eq_ok.mp h
      simp
  | cons d rest ih =>
      rw [List.foldlM_cons, bind_eq_ok] at h
      obtain ⟨r, hr, h⟩ := h
      have hfirst : r.toRat = s.toRat + d.toRat := by
        refine (rounds_add hr).eq_of_isAmount ?_
        simpa using hds 1
      rw [ih (fun n => ?_) h, hfirst, exactSum_cons, add_assoc]
      rw [hfirst, add_assoc]
      simpa using hds (n + 1)

/-- A sum none of whose sums so far needs rounding is exact. -/
theorem sum_eq_of_amounts {ds : List Decimal} {t : Decimal} (hds : SumsToAmounts (ds.map toRat))
    (h : sum ds = .ok t) : t.toRat = exactSum ds := by
  rw [foldlM_add_eq_of_amounts (fun n => ?_) h, toRat_zero, zero_add]
  rw [toRat_zero, zero_add]
  exact hds n

end Decimal

/-! ### The weighted assets -/

namespace RiskWeights

variable {w : RiskWeights} {a : Assets} {t : Decimal}

/-- What the assets of a class count for, as a number. -/
def exactWeight (w : RiskWeights) (a : Assets) (cls : AssetClass) : ℚ :=
  (a.holding cls).toRat * (w.weight cls).toRat

/-- The risk-weighted assets, as a number. -/
def exactWeighted (w : RiskWeights) (a : Assets) : ℚ :=
  (AssetClass.all.map (w.exactWeight a)).sum

theorem exactWeight_nonneg (hw : w.fault? = none) (ha : a.holdings.Nonneg) (cls : AssetClass) :
    0 ≤ w.exactWeight a cls :=
  mul_nonneg (Accounts.amount_nonneg ha cls) (weight_nonneg hw cls)

/-- The weighted assets are products, added up. -/
theorem products_of_weighted (h : w.weighted a = .ok t) :
    ∃ products, List.Forall₂ (fun cls d => Rounds (w.exactWeight a cls) d) AssetClass.all products ∧
      sum products = .ok t := by
  rw [weighted_eq] at h
  obtain ⟨products, hproducts, hsum⟩ := foldlM_add_eq_ok h
  exact ⟨products, hproducts.imp fun _ _ hd => rounds_mul hd, hsum⟩

/-- **The weighted assets are off by some thirty grains of their size.** -/
theorem weighted_error (h : w.weighted a = .ok t) (hw : w.fault? = none) (ha : a.holdings.Nonneg)
    {size : ℚ} (hone : 1 ≤ size) (hsize : w.exactWeighted a ≤ size) :
    0 ≤ t.toRat ∧ t.toRat ≤ 2 * size ∧
      |t.toRat - w.exactWeighted a| ≤ 30 * (grain * size) := by
  obtain ⟨products, hproducts, hsum⟩ := products_of_weighted h
  have hlength : products.length = 8 := hproducts.length_eq.symm
  have hnonneg : AllNonneg products := forall_mem_of_forall₂ hproducts
    fun cls d hd => hd.nonneg (exactWeight_nonneg hw ha cls)
  have hgrain : grain = 1 / 10 ^ 28 := rfl
  have hsized : List.Forall₂ (fun cls d => Rounds (w.exactWeight a cls) d
      ∧ |w.exactWeight a cls| ≤ w.exactWeight a cls) AssetClass.all products :=
    hproducts.imp fun cls _ hd => ⟨hd, (abs_of_nonneg (exactWeight_nonneg hw ha cls)).le⟩
  have hproductsError := exactSum_rounds_error hsized
  change |exactSum products - w.exactWeighted a| ≤ 2 / 3 * grain * ((8 : ℕ) + w.exactWeighted a)
    at hproductsError
  rw [abs_le, hgrain] at hproductsError
  push_cast at hproductsError
  have htwice : t.toRat ≤ 2 * (11 / 10 * size) := by
    refine sum_le_two_mul hnonneg hsum ?_ (by linarith) (by linarith [hproductsError.2])
    rw [hlength, hgrain]
    norm_num
  have hsumError :=
    abs_le.mp (sum_error hnonneg hsum (by linarith : 1 ≤ 2 * (11 / 10 * size)) htwice)
  rw [hlength, hgrain] at hsumError
  push_cast at hsumError
  rw [hgrain]
  refine ⟨sum_nonneg hnonneg hsum, ?_, abs_le.mpr ⟨?_, ?_⟩⟩
  · linarith [hsumError.2, hproductsError.2]
  · linarith [hsumError.1, hproductsError.1]
  · linarith [hsumError.2, hproductsError.2]

/-- If no product and no sum of them needs rounding, they are exact. -/
theorem weighted_exact (h : w.weighted a = .ok t)
    (hproducts : ∀ cls, IsAmount (w.exactWeight a cls))
    (hsums : SumsToAmounts (AssetClass.all.map (w.exactWeight a))) :
    t.toRat = w.exactWeighted a := by
  obtain ⟨products, hrounds, hsum⟩ := products_of_weighted h
  have hexact : products.map toRat = AssetClass.all.map (w.exactWeight a) :=
    map_eq_map_of_forall₂ (hrounds.imp fun cls _ hd => hd.eq_of_isAmount (hproducts cls))
  rw [sum_eq_of_amounts (hexact ▸ hsums) hsum, exactSum, hexact]
  rfl

end RiskWeights

/-! ### The equity -/

namespace BalanceSheet

variable {s : BalanceSheet} {equity : Decimal}

/-- **Equity is off by some grains of the size of the books, and by some for each debt.** -/
theorem equity_near (h : s.equity = .ok equity) (hs : s.Nonneg) {size : ℚ} (hone : 1 ≤ size)
    (hassets : s.assets.exactTotal ≤ size) (hdebts : s.liabilities.exactTotal ≤ size) :
    |equity.toRat| ≤ 15 * size ∧
      |equity.toRat - s.exactEquity|
        ≤ 30 * (grain * size) + 8 * (grain * (s.liabilities.entryCount * size)) := by
  simp only [BalanceSheet.equity, totalAssets, totalLiabilities, bind_eq_ok] at h
  obtain ⟨owned, hsum, owed, htotal, hsub⟩ := h
  have hgrain := grain_pos
  have hhundred := hundred_grains_le (by linarith : 0 ≤ size)
  obtain ⟨howed0, howedLe, howed⟩ :=
    Liabilities.total_error htotal hs.loans hs.deposits hone hdebts
  have howned0 := Accounts.total_nonneg hsum hs.assets
  have hmax : grain * max 1 s.assets.exactTotal ≤ grain * size :=
    mul_le_mul_of_nonneg_left (max_le hone hassets) hgrain.le
  have howned := abs_le.mp (Assets.total_error hsum hs.assets)
  have hsmall : |owned.toRat - owed.toRat| ≤ 12 * size :=
    abs_le.mpr ⟨by linarith, by linarith [howned.2]⟩
  have hround := abs_le.mp ((rounds_sub hsub).abs_sub_le (by linarith) hsmall)
  rw [abs_le] at howed hsmall
  unfold exactEquity
  refine ⟨abs_le.mpr ⟨?_, ?_⟩, abs_le.mpr ⟨?_, ?_⟩⟩
  · linarith [hround.1, hsmall.1]
  · linarith [hround.2, hsmall.2]
  · linarith [hround.1, howned.1, howed.2]
  · linarith [hround.2, howned.2, howed.1]

end BalanceSheet

/-! ### The shortfall -/

/-- Beside a number that dust counts as nothing of, the number that nothing below nothing counts
of is off by dust at most, and by what the two were off. -/
theorem abs_snapped_sub_le {lacking : Decimal} {x error : ℚ} (h : |lacking.toRat - x| ≤ error) :
    |(if lacking ≤ epsilon then 0 else lacking : Decimal).toRat - max 0 x|
      ≤ epsilon.toRat + error := by
  obtain ⟨hlow, hhigh⟩ := abs_le.mp h
  have hdust := epsilon_nonneg
  split_ifs with hsnap
  · have hle := le_iff_toRat.mp hsnap
    rw [toRat_zero, zero_sub, abs_neg, abs_of_nonneg (le_max_left 0 x)]
    exact max_le (by linarith) (by linarith)
  · have hmore := lt_iff_toRat.mp (not_le_iff.mp hsnap)
    rcases le_total x 0 with hx | hx
    · rw [max_eq_left hx, sub_zero, abs_of_pos (by linarith)]
      linarith
    · rw [max_eq_right hx]
      linarith

namespace Authority

variable {a : Authority} {i : Institution} {x : Assessment}

/-- What the target lacks of the equity, as a number; below nothing where there is more. -/
def exactLacking (a : Authority) (i : Institution) : ℚ :=
  a.rulebook.target.ratio.toRat * a.rulebook.riskWeights.exactWeighted i.sheet.assets
    - i.sheet.exactEquity

/-- The largest of the figures that an assessment starts from, or one. -/
def size (a : Authority) (i : Institution) : ℚ :=
  max 1 (max (max i.sheet.assets.exactTotal i.sheet.liabilities.exactTotal)
    (a.rulebook.riskWeights.exactWeighted i.sheet.assets))

/-- **What is lacking is off by less than a hundred grains of the size for each entry and a hundred
besides.** -/
theorem lacking_error (h : a.assess i = .ok x) {required lacking : Decimal}
    (hrequired : Rounds (a.rulebook.target.ratio.toRat * x.riskWeightedAssets.toRat) required)
    (hlacking : Rounds (required.toRat - x.equity.toRat) lacking) :
    |lacking.toRat - a.exactLacking i|
      ≤ (i.sheet.assets.entryCount + i.sheet.liabilities.entryCount + 1)
        * max 1 a.rulebook.target.ratio.toRat * a.size i / 10 ^ 26 := by
  have hassessed := assessed_of_assess h
  obtain ⟨hweights, hratio0⟩ := Rulebook.inRange_of_fault? a.inRange
  have hone : 1 ≤ a.size i := le_max_left _ _
  have hassets : i.sheet.assets.exactTotal ≤ a.size i :=
    (le_max_left _ _).trans ((le_max_left _ _).trans (le_max_right _ _))
  have hdebts : i.sheet.liabilities.exactTotal ≤ a.size i :=
    (le_max_right _ _).trans ((le_max_left _ _).trans (le_max_right _ _))
  have hweighted : a.rulebook.riskWeights.exactWeighted i.sheet.assets ≤ a.size i :=
    (le_max_right _ _).trans (le_max_right _ _)
  obtain ⟨hequitySize, hequity⟩ :=
    BalanceSheet.equity_near hassessed.equity hassessed.sheet hone hassets hdebts
  obtain ⟨hweighted0, hweightedSize, hweightedError⟩ :=
    RiskWeights.weighted_error hassessed.weighted hweights hassessed.sheet.assets hone hweighted
  have hgrain := grain_pos
  -- From here on everything is of the size times the ratio.
  generalize hfactor : max 1 a.rulebook.target.ratio.toRat = factor
  have hfactor1 : 1 ≤ factor := hfactor ▸ le_max_left _ _
  have hratio : a.rulebook.target.ratio.toRat ≤ factor := hfactor ▸ le_max_right _ _
  have hscaled : a.size i ≤ factor * a.size i := le_mul_of_one_le_left (by linarith) hfactor1
  have hproduct0 : 0 ≤ a.rulebook.target.ratio.toRat * x.riskWeightedAssets.toRat :=
    mul_nonneg hratio0 hweighted0
  have hproductSize : a.rulebook.target.ratio.toRat * x.riskWeightedAssets.toRat
      ≤ 2 * (factor * a.size i) :=
    (mul_le_mul hratio hweightedSize hweighted0 (by linarith)).trans_eq (by ring)
  have hproductError : |a.rulebook.target.ratio.toRat * x.riskWeightedAssets.toRat
      - a.rulebook.target.ratio.toRat * a.rulebook.riskWeights.exactWeighted i.sheet.assets|
      ≤ 30 * (grain * (factor * a.size i)) := by
    rw [← mul_sub, abs_mul, abs_of_nonneg hratio0]
    calc a.rulebook.target.ratio.toRat * _ ≤ factor * (30 * (grain * a.size i)) :=
          mul_le_mul hratio hweightedError (abs_nonneg _) (by linarith)
      _ = 30 * (grain * (factor * a.size i)) := by ring
  have hrequiredError :=
    abs_le.mp (hrequired.abs_sub_le (c := 2 * (factor * a.size i)) (by linarith)
    (by rwa [abs_of_nonneg hproduct0]))
  have hhundred := hundred_grains_le (by linarith : 0 ≤ factor * a.size i)
  rw [abs_le] at hequitySize hproductError
  have hlackingError := hlacking.abs_sub_le (c := 20 * (factor * a.size i)) (by linarith)
    (abs_le.mpr ⟨by linarith [hrequiredError.1, hequitySize.2],
      by linarith [hrequiredError.2, hequitySize.1]⟩)
  have hequityScaled : grain * a.size i ≤ grain * (factor * a.size i) := by gcongr
  have hentries : grain * (i.sheet.liabilities.entryCount * a.size i)
      ≤ grain * (i.sheet.liabilities.entryCount * (factor * a.size i)) := by gcongr
  have hholdings := grain_mul_count_nonneg i.sheet.assets.entryCount
    (by linarith : 0 ≤ factor * a.size i)
  have hdebtEntries := grain_mul_count_nonneg i.sheet.liabilities.entryCount
    (by linarith : 0 ≤ factor * a.size i)
  have hbudget : (i.sheet.assets.entryCount + i.sheet.liabilities.entryCount + 1)
      * factor * a.size i / 10 ^ 26
      = 100 * (grain * (i.sheet.assets.entryCount * (factor * a.size i)))
        + 100 * (grain * (i.sheet.liabilities.entryCount * (factor * a.size i)))
        + 100 * (grain * (factor * a.size i)) := by
    unfold grain maxPlaces
    ring
  have hgrainScaled := grain_mul_nonneg (by linarith : 0 ≤ factor * a.size i)
  rw [abs_le] at hlackingError hequity
  rw [hbudget, exactLacking]
  refine abs_le.mpr ⟨?_, ?_⟩
  · linarith [hlackingError.1, hrequiredError.1, hproductError.1, hequity.2]
  · linarith [hlackingError.2, hrequiredError.2, hproductError.2, hequity.1]

/-- Nothing that is worked out on the way to a shortfall needs rounding. -/
structure Unrounded (a : Authority) (i : Institution) : Prop where
  assets : SumsToAmounts (i.sheet.assets.holdings.values.map toRat)
  loans : SumsToAmounts (i.sheet.liabilities.loans.values.map toRat)
  deposits : SumsToAmounts (i.sheet.liabilities.deposits.values.map toRat)
  liabilities : IsAmount i.sheet.liabilities.exactTotal
  equity : IsAmount i.sheet.exactEquity
  products : ∀ cls, IsAmount (a.rulebook.riskWeights.exactWeight i.sheet.assets cls)
  weighted : SumsToAmounts
    (AssetClass.all.map (a.rulebook.riskWeights.exactWeight i.sheet.assets))
  required : IsAmount (a.rulebook.target.ratio.toRat
    * a.rulebook.riskWeights.exactWeighted i.sheet.assets)
  lacking : IsAmount (a.exactLacking i)

/-- **Then what is lacking is exact.** -/
theorem lacking_exact (h : a.assess i = .ok x) (hexact : a.Unrounded i) {required lacking : Decimal}
    (hrequired : Rounds (a.rulebook.target.ratio.toRat * x.riskWeightedAssets.toRat) required)
    (hlacking : Rounds (required.toRat - x.equity.toRat) lacking) :
    lacking.toRat = a.exactLacking i := by
  have hassessed := assessed_of_assess h
  have hequity := hassessed.equity
  simp only [BalanceSheet.equity, BalanceSheet.totalAssets, BalanceSheet.totalLiabilities,
    Liabilities.total, bind_eq_ok] at hequity
  obtain ⟨owned, hsum, owed, ⟨loans, hsumLoans, deposits, hsumDeposits, hadd⟩, hsub⟩ := hequity
  have howned : owned.toRat = i.sheet.assets.exactTotal := sum_eq_of_amounts hexact.assets hsum
  have hloans : loans.toRat = i.sheet.liabilities.loans.exactTotal :=
    sum_eq_of_amounts hexact.loans hsumLoans
  have hdeposits : deposits.toRat = i.sheet.liabilities.deposits.exactTotal :=
    sum_eq_of_amounts hexact.deposits hsumDeposits
  have howed := rounds_add hadd
  rw [hloans, hdeposits] at howed
  have hequity := rounds_sub hsub
  rw [howned, howed.eq_of_isAmount hexact.liabilities] at hequity
  rw [RiskWeights.weighted_exact hassessed.weighted hexact.products hexact.weighted] at hrequired
  rw [hrequired.eq_of_isAmount hexact.required, hequity.eq_of_isAmount hexact.equity] at hlacking
  exact hlacking.eq_of_isAmount hexact.lacking

/-- **The shortfall is the formula**: nothing or more than dust, near the exact one by dust and by a
hundred grains of the size of the books and the ratio for each entry and a hundred besides, and
where nothing needs rounding exact but for the dust. -/
theorem shortfall_accuracy (h : a.assess i = .ok x) :
    (x.shortfall = 0 ∨ epsilon < x.shortfall) ∧
      |x.shortfall.toRat - max 0 (a.rulebook.target.ratio.toRat
          * a.rulebook.riskWeights.exactWeighted i.sheet.assets
          - (i.sheet.assets.exactTotal - i.sheet.liabilities.exactTotal))|
        ≤ epsilon.toRat
          + (i.sheet.assets.entryCount + i.sheet.liabilities.entryCount + 1)
            * max 1 a.rulebook.target.ratio.toRat
            * max 1 (max (max i.sheet.assets.exactTotal i.sheet.liabilities.exactTotal)
                (a.rulebook.riskWeights.exactWeighted i.sheet.assets)) / 10 ^ 26 ∧
      (a.Unrounded i → x.shortfall.toRat
        = if a.exactLacking i ≤ epsilon.toRat then 0 else a.exactLacking i) := by
  obtain ⟨required, lacking, hrequired, hlacking, hshortfall⟩ :=
    CapitalTarget.lacking_of_shortfall (shortfall_of_assess h)
  rw [hshortfall]
  refine ⟨?_, abs_snapped_sub_le (lacking_error h hrequired hlacking), fun hexact => ?_⟩
  · split_ifs with hdust
    · exact Or.inl rfl
    · exact Or.inr (not_le_iff.mp hdust)
  · rw [← lacking_exact h hexact hrequired hlacking]
    simp only [← le_iff_toRat]
    split_ifs
    · exact toRat_zero
    · rfl

/-- The books of the indebted bank are in whole units, and so is all that is worked out of them. -/
theorem unrounded_indebtedBank : cautiousAuthority.Unrounded indebtedBank where
  assets := by
    have hvalues : indebtedBank.sheet.assets.holdings.values.map toRat
        = [1000, 200].map Nat.cast := by decide +kernel
    exact hvalues ▸ sumsToAmounts_natCast (by decide)
  loans := by
    have hvalues : indebtedBank.sheet.liabilities.loans.values.map toRat
        = [650].map Nat.cast := by decide +kernel
    exact hvalues ▸ sumsToAmounts_natCast (by decide)
  deposits := by
    have hvalues : indebtedBank.sheet.liabilities.deposits.values.map toRat
        = [300].map Nat.cast := by decide +kernel
    exact hvalues ▸ sumsToAmounts_natCast (by decide)
  liabilities := ⟨950.0, by decide +kernel⟩
  equity := ⟨250.0, by decide +kernel⟩
  products cls :=
    ⟨match cls with
      | .cash => 3000.0
      | .equity => 600.0
      | _ => 0, by cases cls <;> decide +kernel⟩
  weighted := by
    have hvalues : AssetClass.all.map
        (cautiousAuthority.rulebook.riskWeights.exactWeight indebtedBank.sheet.assets)
        = [3000, 0, 0, 0, 0, 0, 600, 0].map Nat.cast := by decide +kernel
    exact hvalues ▸ sumsToAmounts_natCast (by decide)
  required := ⟨2160.0, by decide +kernel⟩
  lacking := ⟨1910.0, by decide +kernel⟩

/-- So it is found short of just what it lacks. -/
theorem shortfall_accuracy_indebtedBank :
    ∃ x, cautiousAuthority.assess indebtedBank = .ok x ∧ cautiousAuthority.Unrounded indebtedBank ∧
      epsilon < x.shortfall ∧ x.shortfall.toRat = cautiousAuthority.exactLacking indebtedBank := by
  have hx : cautiousAuthority.assess indebtedBank = .ok ⟨250.0, 3600.0, 1910.0⟩ := rfl
  obtain ⟨-, -, hexact⟩ := shortfall_accuracy hx
  have hmore : ¬ cautiousAuthority.exactLacking indebtedBank ≤ epsilon.toRat := by decide +kernel
  have hlacking := hexact unrounded_indebtedBank
  rw [if_neg hmore] at hlacking
  exact ⟨_, hx, unrounded_indebtedBank, by decide, hlacking⟩

end Authority

end Insolvency
