/-
A firm handed over to its creditors.

Each creditor gets as large a part of the equity as its debt is of all debts, and what all of
them get is what the firm is worth after the cash is paid.  A part is a product divided by
the debts, so where the debts are small the product has lost digits that the division brings
back: a part is off by grains of the size of one over the debts.  Debts are no dust here, and
that is why the whole is accurate to so many digits fewer than a single figure.

That size matters only while the debts come to less than one.  Then there are few of them,
since none is below a grain, and what is handed out is of the size of the equity still.
-/
import Insolvency.Proofs.AssetThreshold.CashPayments
import Insolvency.Proofs.Capital.RiskWeights
import Insolvency.Proofs.Episode.Validity
import Insolvency.Proofs.Shares.Split

namespace Insolvency

open Decimal

/-! ### What the firm is worth -/

namespace Assets

/-- There are no more holdings than classes. -/
theorem entryCount_le (a : Assets) : a.entryCount ≤ 8 := by
  have hsub : a.holdings.keys ⊆ AssetClass.all := fun cls _ => cls.mem_all
  have hlength := ((Table.nodup_keys a.holdings).subperm hsub).length_le
  rwa [Table.keys, List.length_map] at hlength

/-- So few holdings add up to within a dozen grains of their size. -/
theorem total_error {a : Assets} {t : Decimal} (h : a.total = .ok t) (ha : a.holdings.Nonneg) :
    |t.toRat - a.exactTotal| ≤ 12 * (grain * max 1 a.exactTotal) := by
  have hone : (1 : ℚ) ≤ max 1 a.exactTotal := le_max_left _ _
  have hcount : (a.holdings.entries.length : ℚ) ≤ 8 := by exact_mod_cast a.entryCount_le
  have hgrain : grain = 1 / 10 ^ 28 := rfl
  have htwice : t.toRat ≤ 2 * max 1 a.exactTotal := by
    refine sum_le_two_mul ha h ?_ hone (le_max_right _ _)
    rw [Accounts.length_values, hgrain]
    linarith
  have hsize := grain_mul_nonneg (by linarith : 0 ≤ max 1 a.exactTotal)
  calc |t.toRat - a.exactTotal|
      ≤ a.holdings.entries.length * (2 / 3 * grain * (2 * max 1 a.exactTotal)) :=
        Accounts.total_error h ha (by linarith) htwice
    _ = a.holdings.entries.length * (4 / 3 * (grain * max 1 a.exactTotal)) := by ring
    _ ≤ 8 * (4 / 3 * (grain * max 1 a.exactTotal)) := by gcongr
    _ ≤ 12 * (grain * max 1 a.exactTotal) := by linarith

end Assets

namespace AssetThreshold

/-! ### What is handed out -/

section HandedOut

variable {debts values : List Decimal} {equity remainingDebt delivered : Decimal}

/-- Everybody's part of the equity, where the debts are no dust, and how much of it all got. -/
structure HandedOut (debts values : List Decimal) (equity remainingDebt delivered : Decimal) :
    Prop where
  parts : List.Forall₂ (Shares.IsPart equity.toRat
    (max (max 1 equity.toRat) (1 / remainingDebt.toRat)) remainingDebt) debts values
  equity_nonneg : 0 ≤ equity.toRat
  debts_pos : ∀ d ∈ debts, 0 < d.toRat
  remaining : sum debts = .ok remainingDebt
  due : .epsilon < remainingDebt
  delivered : sum values = .ok delivered

namespace HandedOut

theorem debts_nonneg (h : HandedOut debts values equity remainingDebt delivered) :
    AllNonneg debts :=
  fun d hd => (h.debts_pos d hd).le

theorem values_nonneg (h : HandedOut debts values equity remainingDebt delivered) :
    AllNonneg values :=
  forall_mem_of_forall₂ h.parts fun _ _ hpart => hpart.nonneg

theorem exactSum_values_error (h : HandedOut debts values equity remainingDebt delivered) :
    |exactSum values - equity.toRat|
      ≤ debts.length * (3 * grain * max (max 1 equity.toRat) (1 / remainingDebt.toRat)) := by
  rw [h.parts.length_eq]
  exact Shares.parts_error h.parts h.debts_nonneg h.remaining (toRat_pos_of_epsilon_lt h.due)
    h.equity_nonneg ((le_max_right 1 equity.toRat).trans (le_max_left _ _))

/-- Debts of one and more: the parts are as accurate as the equity is. -/
theorem error_of_large (h : HandedOut debts values equity remainingDebt delivered)
    (hlarge : 1 ≤ remainingDebt.toRat) :
    |delivered.toRat - equity.toRat| ≤ 100 * allowance debts.length equity.toRat := by
  have hone : (1 : ℚ) ≤ max 1 equity.toRat := le_max_left _ _
  have hparts := h.exactSum_values_error
  rw [max_eq_left (((div_le_one (by linarith)).mpr hlarge).trans hone)] at hparts
  obtain ⟨y, hy⟩ : ∃ y : ℚ, y = grain * max 1 equity.toRat := ⟨_, rfl⟩
  have hy0 : 0 ≤ y := hy ▸ grain_mul_nonneg (by linarith)
  have hcount : 0 ≤ debts.length * y := mul_nonneg debts.length.cast_nonneg hy0
  have hparts' : |exactSum values - equity.toRat| ≤ 3 * (debts.length * y) :=
    hparts.trans_eq (by rw [hy]; ring)
  have hdouble : allowance (2 * debts.length) equity.toRat = 2 * (debts.length * y) + y := by
    rw [allowance, hy]
    push_cast
    ring
  have hsum : |delivered.toRat - exactSum values|
      ≤ 44 * allowance (2 * debts.length) equity.toRat := by
    refine sum_near h.values_nonneg h.delivered ?_ ?_
    · rw [← h.parts.length_eq]
      omega
    · rw [hdouble]
      linarith [(abs_le.mp hparts').2, le_max_right 1 equity.toRat]
  have hsingle : allowance debts.length equity.toRat = debts.length * y + y := by
    rw [allowance, hy]
    ring
  rw [hdouble] at hsum
  rw [hsingle, abs_le]
  constructor
  · linarith [(abs_le.mp hparts').1, (abs_le.mp hsum).1]
  · linarith [(abs_le.mp hparts').2, (abs_le.mp hsum).2]

/-- Debts of less than one bring a grain up to 10⁻¹⁶ at most.  And since each of them is a grain at
least, all grains together are brought up to no more than the equity's size. -/
theorem grains_le_of_small (h : HandedOut debts values equity remainingDebt delivered)
    (hsmall : remainingDebt.toRat ≤ 1) :
    debts.length * grain * max (max 1 equity.toRat) (1 / remainingDebt.toRat) ≤ max 1 equity.toRat ∧
    debts.length * grain * max (max 1 equity.toRat) (1 / remainingDebt.toRat)
      ≤ debts.length * (max 1 equity.toRat * (1 / 10 ^ 16)) := by
  have hpos := toRat_pos_of_epsilon_lt h.due
  obtain ⟨size, hsize⟩ : ∃ size : ℚ, size = max 1 equity.toRat := ⟨_, rfl⟩
  have hone : 1 ≤ size := hsize ▸ le_max_left _ _
  rw [← hsize]
  have hfew : debts.length * grain ≤ remainingDebt.toRat := by
    have hexact := foldlM_add_exact h.debts_nonneg h.remaining toRat_zero.ge hsmall
    rw [toRat_zero, zero_add] at hexact
    exact hexact ▸ length_mul_grain_le h.debts_pos
  have hinverse : 1 / remainingDebt.toRat ≤ 10 ^ 12 := by
    have hdue := lt_iff_toRat.mp h.due
    rw [toRat_epsilon] at hdue
    rw [div_le_iff₀ hpos]
    linarith
  have hcount : 0 ≤ debts.length * grain := mul_nonneg debts.length.cast_nonneg grain_pos.le
  have hbrought : debts.length * grain * max size (1 / remainingDebt.toRat)
      ≤ debts.length * grain * (size * (1 / remainingDebt.toRat)) := by
    have hlarge : 1 ≤ 1 / remainingDebt.toRat := (one_le_div hpos).mpr hsmall
    refine mul_le_mul_of_nonneg_left (max_le ?_ ?_) hcount
    · exact le_mul_of_one_le_right (by linarith) hlarge
    · exact le_mul_of_one_le_left (by linarith) hone
  refine ⟨hbrought.trans ?_, hbrought.trans ?_⟩
  · rw [mul_one_div, ← mul_div_assoc, div_le_iff₀ hpos, mul_comm size]
    exact mul_le_mul_of_nonneg_right hfew (by linarith)
  · calc debts.length * grain * (size * (1 / remainingDebt.toRat))
        ≤ debts.length * grain * (size * 10 ^ 12) := by gcongr
      _ = debts.length * (size * (1 / 10 ^ 16)) := by
          unfold grain maxPlaces
          ring

/-- Debts of less than one, but no dust: the parts have lost digits, and are no larger for it. -/
theorem error_of_small (h : HandedOut debts values equity remainingDebt delivered)
    (hsmall : remainingDebt.toRat ≤ 1) :
    |delivered.toRat - equity.toRat| ≤ debts.length * (max 1 equity.toRat * (4 / 10 ^ 16)) := by
  have hone : (1 : ℚ) ≤ max 1 equity.toRat := le_max_left _ _
  obtain ⟨hsize, hgrains⟩ := h.grains_le_of_small hsmall
  have hparts := abs_le.mp h.exactSum_values_error
  have hvalues : exactSum values ≤ 4 * max 1 equity.toRat := by
    linarith [hparts.2, le_max_right 1 equity.toRat]
  have hdelivered : delivered.toRat ≤ 44 * max 1 equity.toRat := by
    linarith [sum_le h.values_nonneg h.delivered]
  have hsum := sum_error h.values_nonneg h.delivered (by linarith : 1 ≤ 44 * max 1 equity.toRat)
    hdelivered
  have hcount : 0 ≤ debts.length * max 1 equity.toRat :=
    mul_nonneg debts.length.cast_nonneg (by linarith)
  have hgrain : grain = 1 / 10 ^ 28 := rfl
  rw [← h.parts.length_eq, hgrain] at hsum
  rw [abs_le]
  constructor
  · linarith [hparts.1, (abs_le.mp hsum).1]
  · linarith [hparts.2, (abs_le.mp hsum).2]

/-- **All that is handed out is what the firm is worth.** -/
theorem error (h : HandedOut debts values equity remainingDebt delivered) {entries : Nat}
    (hentries : debts.length ≤ entries) :
    |delivered.toRat - equity.toRat| ≤ (entries + 1) * (max 1 equity.toRat * (4 / 10 ^ 16)) := by
  have hone : (1 : ℚ) ≤ max 1 equity.toRat := le_max_left _ _
  have hcount : (debts.length : ℚ) ≤ entries := by exact_mod_cast hentries
  rcases le_total remainingDebt.toRat 1 with hsmall | hlarge
  · refine (h.error_of_small hsmall).trans ?_
    gcongr
    linarith
  · refine (h.error_of_large hlarge).trans ?_
    calc 100 * allowance debts.length equity.toRat
        = (debts.length + 1) * (max 1 equity.toRat * (1 / 10 ^ 26)) := by
          unfold allowance grain maxPlaces
          ring
      _ ≤ (entries + 1) * (max 1 equity.toRat * (4 / 10 ^ 16)) := by
          gcongr
          all_goals norm_num

/-- So it is where the firm is taken at its exact worth. -/
theorem exact_error (h : HandedOut debts values equity remainingDebt delivered) {a : Assets}
    (htotal : a.total = .ok equity) (ha : a.holdings.Nonneg) {entries : Nat}
    (hentries : debts.length ≤ entries) :
    |delivered.toRat - a.exactTotal| ≤ (entries + 1) * (max 1 a.exactTotal * (1 / 10 ^ 15)) := by
  obtain ⟨size, hsize⟩ : ∃ size : ℚ, size = max 1 a.exactTotal := ⟨_, rfl⟩
  have hone : 1 ≤ size := hsize ▸ le_max_left _ _
  have hgrain : grain = 1 / 10 ^ 28 := rfl
  have htotal' := abs_le.mp (Assets.total_error htotal ha)
  rw [← hsize, hgrain] at htotal'
  have hequity : max 1 equity.toRat ≤ 2 * size := by
    refine max_le (by linarith) ?_
    linarith [htotal'.2, hsize ▸ le_max_right 1 a.exactTotal]
  have herror : |delivered.toRat - equity.toRat| ≤ (entries + 1) * (2 * size * (4 / 10 ^ 16)) := by
    refine (h.error hentries).trans ?_
    gcongr
  have hentry : 0 ≤ entries * size := mul_nonneg entries.cast_nonneg (by linarith)
  rw [← hsize, abs_le]
  constructor
  · linarith [(abs_le.mp herror).1, htotal'.1]
  · linarith [(abs_le.mp herror).2, htotal'.2]

end HandedOut

end HandedOut

/-! ### The creditors in turn -/

section HandingOver

variable {count equity remainingDebt : Decimal} {ctx ctx' : Context} {e e' : Episode}

/-- One creditor gets its part of the equity for its debt. -/
theorem settles_handOverPart {debt : AgentId × Decimal}
    (h : handOverPart count equity remainingDebt ctx e debt = .ok e')
    (hdue : .epsilon < remainingDebt) (hequity : 0 ≤ equity.toRat) (hdebt : 0 ≤ debt.2.toRat)
    (hle : debt.2.toRat ≤ remainingDebt.toRat) :
    ∃ s : Settlement, (s.debt = debt.2 ∧ Shares.IsPart equity.toRat
        (max (max 1 equity.toRat) (1 / remainingDebt.toRat)) remainingDebt debt.2 s.value) ∧
      Settles e.totals e'.totals [s] := by
  simp only [handOverPart, bind_eq_ok, pure_eq_ok] at h
  obtain ⟨_, -, quantity, -, product, hproduct, value, hvalue, allotted, hallot, down, hdown,
    totals, htotals, rfl⟩ := h
  obtain ⟨s, hs, rfl, hsettles⟩ := Episode.settles_of_allot hallot hdown htotals
  refine ⟨s, ⟨hs, ?_⟩, hsettles⟩
  exact Shares.isPart_of_div hproduct hvalue (toRat_pos_of_epsilon_lt hdue) hdebt hle hequity
    ((le_max_left 1 equity.toRat).trans (le_max_left _ _))
    ((le_max_right 1 equity.toRat).trans (le_max_left _ _)) (le_max_right _ _)

/-- The firm's equity is what it owns, and every debt is settled for its part of it. -/
theorem settles_handOverFirm {debts : List (AgentId × Decimal)}
    (h : handOverFirm e debts remainingDebt ctx = .ok (e', ctx'))
    (hassets : e.assets.holdings.Nonneg) (hdebts : AllNonneg (debts.map Prod.snd))
    (hsum : sum (debts.map Prod.snd) = .ok remainingDebt) (hdue : .epsilon < remainingDebt) :
    ∃ equity ss, e.assets.total = .ok equity ∧ e'.assets = e.assets ∧
      ss.map Settlement.debt = debts.map Prod.snd ∧
      List.Forall₂ (Shares.IsPart equity.toRat
        (max (max 1 equity.toRat) (1 / remainingDebt.toRat)) remainingDebt)
        (debts.map Prod.snd) (ss.map Settlement.value) ∧
      Settles e.totals e'.totals ss := by
  simp only [handOverFirm, bind_eq_ok, pure_eq_ok, Prod.mk.injEq] at h
  obtain ⟨count, -, cancelled, hcancel, equity, hequity, price, -, handed, hfold, rfl, -⟩ := h
  have hkept := Episode.sameBooks_cancelShares hcancel
  have hhanded := foldlM_related Episode.GivesShares.refl .trans hfold fun _ _ _ _ =>
    givesShares_handOverPart
  have htotal : e.assets.total = .ok equity := hkept.assets ▸ hequity
  have hequity0 : 0 ≤ equity.toRat := sum_nonneg hassets htotal
  obtain ⟨ss, hss, hsettles⟩ := Episode.settles_of_foldlM hfold fun debt hdebt mid mid' hstep => by
    have hmem : debt.2 ∈ debts.map Prod.snd := List.mem_map_of_mem hdebt
    exact settles_handOverPart hstep hdue hequity0 (hdebts _ hmem)
      (le_foldlM_add hdebts hsum toRat_zero.ge hmem)
  refine ⟨equity, ss, htotal, hhanded.assets.trans hkept.assets,
    map_eq_map_of_forall₂ (hss.imp fun _ _ hs => hs.1), ?_, hsettles.of_eq ?_⟩
  · rw [List.forall₂_map_left_iff, List.forall₂_map_right_iff]
    exact hss.imp fun _ _ hs => hs.2
  · rw [← Episode.totals_cancelShares hcancel]
    rfl

end HandingOver

end AssetThreshold

end Insolvency
