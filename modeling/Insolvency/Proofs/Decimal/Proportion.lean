/-
The part of a whole, between nothing and one.

Every write-down and every splitting of shares goes by `proportion`, so what is expected of it is
that of a clamp: it always answers, it answers with the part rounded once, and a larger part of a
smaller whole is no less.  All of this holds but for the first.  The quotient is worked out before
it is clamped, and one that is too large for an amount is a fault, even where the answer could
only have been a one or nothing.

When that is so can be told exactly.  An operation has no result just where the exact one is half
a unit below 2⁹⁶ or more (`ofRatio?_eq_none_iff`), since from there on it is rounded to 2⁹⁶, which
is even.
-/
import Insolvency.Proofs.Decimal.Range

namespace Insolvency.Decimal

variable {num : Int} {den : Nat} {a b part part' whole whole' p p' : Decimal}

/-! ### What has no quotient -/

/-- What is rounded to an amount is more than half a unit below 2⁹⁶. -/
theorem Rounds.abs_lt {x : ℚ} {r : Decimal} (h : Rounds x r) :
    |x| < (mantissaBound : ℚ) - 1 / 2 := by
  obtain ⟨k, m, h⟩ := h
  have hpow : (1 : ℚ) ≤ 10 ^ k := one_le_pow₀ (by norm_num)
  have hm : |(m : ℚ)| ≤ mantissaBound - 1 := by
    have hq : ((m.natAbs + 1 : Nat) : ℚ) ≤ mantissaBound := by exact_mod_cast h.inBounds
    rw [Nat.cast_add, Nat.cast_natAbs, Int.cast_abs, Nat.cast_one] at hq
    linarith
  have hscaled : |x * 10 ^ k| < (mantissaBound : ℚ) - 1 / 2 := by
    have hsub : |x * 10 ^ k| - |(m : ℚ)| ≤ |(m : ℚ) - x * 10 ^ k| := by
      rw [abs_sub_comm]
      exact abs_sub_abs_le_abs_sub _ _
    refine lt_of_le_of_ne (by linarith [h.nearest.near]) fun heq => ?_
    -- At the bound itself the mantissa would be even, but the largest one is odd.
    have hlargest : |(m : ℚ)| = mantissaBound - 1 := by linarith [h.nearest.near]
    have heven := h.nearest.even (by linarith [h.nearest.near])
    have hodd : m.natAbs = mantissaBound - 1 := by
      rw [← Int.cast_abs, ← Nat.cast_natAbs] at hlargest
      have hbound : ((mantissaBound - 1 : Nat) : ℚ) = mantissaBound - 1 := by
        rw [Nat.cast_sub (by decide), Nat.cast_one]
      exact_mod_cast hlargest.trans hbound.symm
    rw [← Int.natAbs_even, hodd] at heven
    exact absurd heven (by decide)
  calc |x| ≤ |x| * 10 ^ k := le_mul_of_one_le_right (abs_nonneg x) hpow
    _ = |x * 10 ^ k| := by rw [abs_mul, abs_of_pos (by positivity : (0 : ℚ) < 10 ^ k)]
    _ < mantissaBound - 1 / 2 := hscaled

/-- An exact result is no amount just if it is half a unit below 2⁹⁶ or more. -/
theorem ofRatio?_eq_none_iff (hden : 0 < den) :
    ofRatio? num den = none ↔
      (mantissaBound : ℚ) - 1 / 2 ≤ |(num : ℚ) / (den * 10 ^ maxPlaces)| := by
  constructor
  · intro hnone
    by_contra hlt
    obtain ⟨m, hm⟩ := exists_isNearest ((num : ℚ) / (den * 10 ^ maxPlaces))
    have hsub := (abs_sub_abs_le_abs_sub (m : ℚ) _).trans hm.near
    have hbound : |(m : ℚ)| < mantissaBound := by linarith
    rw [← Int.cast_abs, ← Nat.cast_natAbs] at hbound
    obtain ⟨r, hr⟩ := isSome_ofRatio? hden (Nat.zero_le _) (by exact_mod_cast hbound)
      (by rwa [pow_zero, mul_one])
    cases hnone.symm.trans hr
  · intro hlarge
    cases hr : ofRatio? num den with
    | none => rfl
    | some r => exact absurd (rounds_of_ofRatio? hden hr).abs_lt (not_lt.mpr hlarge)

/-- Dividing by something fails just if the quotient is no amount. -/
theorem div_eq_error (hb : b ≠ 0) {fault : Fault} :
    a.div b = .error fault ↔
      fault = .divisionOverflow ∧ (mantissaBound : ℚ) - 1 / 2 ≤ |a.toRat / b.toRat| := by
  have hu : b.units ≠ 0 := fun hu => hb (ext_units (by rw [hu, units_zero]))
  rw [div, if_neg hb, ← div_toRat a hu, ← ofRatio?_eq_none_iff (Int.natAbs_pos.mpr hu)]
  cases ofRatio? (a.units * b.units.sign * unitsPerOne) b.units.natAbs with
  | none => simp [orFault, eq_comm]
  | some d => simp [orFault]

/-! ### Parts -/

/-- The part is so many times the whole that the quotient is no amount. -/
def QuotientTooLarge (part whole : Decimal) : Prop :=
  epsilon < whole ∧ (mantissaBound : ℚ) - 1 / 2 ≤ |part.toRat / whole.toRat|

/-- Neither a part of few digits before the point nor one of a whole of one and more is so many
times the whole. -/
theorem not_quotientTooLarge (h : |part.toRat| ≤ 7 * 10 ^ 16 ∨ 1 ≤ whole.toRat) :
    ¬ QuotientTooLarge part whole := by
  rintro ⟨hwhole, hlarge⟩
  have hpos := toRat_pos_of_epsilon_lt hwhole
  have hdust := lt_iff_toRat.mp hwhole
  rw [toRat_epsilon] at hdust
  rw [abs_div, abs_of_pos hpos, le_div_iff₀ hpos] at hlarge
  unfold mantissaBound at hlarge
  rcases h with hpart | hone
  · push_cast at hlarge
    linarith
  · have hpart := abs_toRat_le_largest part
    rw [toRat_largest, mantissaBound] at hpart
    push_cast at hlarge hpart
    linarith

/-- The answer is the part of the whole, clamped and rounded. -/
structure IsProportion (part whole p : Decimal) : Prop where
  nonneg : 0 ≤ p
  le_one : p ≤ 1
  nothing : whole ≤ epsilon ∨ part ≤ 0 → p = 0
  everything : epsilon < whole → whole ≤ part → p = 1
  near : epsilon < whole → 0 ≤ part → part ≤ whole →
    |p.toRat - part.toRat / whole.toRat| ≤ grain

theorem isProportion_of_proportion (h : proportion part whole = .ok p) :
    IsProportion part whole p where
  nonneg := zero_le_iff.mpr (proportion_nonneg h)
  le_one := le_one_iff.mpr (proportion_le_one h)
  nothing hnone := by
    rcases proportion_eq_ok h with ⟨-, hp⟩ | ⟨hwhole, q, hq, hp⟩
    · exact hp
    · have hpart := le_iff_toRat.mp (hnone.resolve_left (not_le_iff.mpr hwhole))
      have hpos := toRat_pos_of_epsilon_lt hwhole
      have hq0 := hq.le_of_le (d := 0) (by
        rw [toRat_zero] at hpart ⊢
        exact div_nonpos_of_nonpos_of_nonneg hpart hpos.le)
      rw [toRat_zero] at hq0
      rw [max_eq_right hq0, min_eq_left zero_le_one] at hp
      exact toRat_eq_zero.mp hp
  everything hwhole hpart := by
    rcases proportion_eq_ok h with ⟨hdust, -⟩ | ⟨-, q, hq, hp⟩
    · exact absurd hdust (not_le_iff.mpr hwhole)
    · have hpos := toRat_pos_of_epsilon_lt hwhole
      have hq1 := hq.ge_of_ge (d := 1) (by
        rw [toRat_one, one_le_div hpos]
        exact le_iff_toRat.mp hpart)
      rw [toRat_one] at hq1
      rw [max_eq_left (zero_le_one.trans hq1), min_eq_right hq1] at hp
      exact toRat_injective (hp.trans toRat_one.symm)
  near hwhole hpart hle := by
    have hpos := toRat_pos_of_epsilon_lt hwhole
    have herror := abs_proportion_sub_le h hwhole (zero_le_iff.mp hpart)
    rw [min_eq_left ((div_le_one hpos).mpr (le_iff_toRat.mp hle))] at herror
    linarith [grain_pos]

/-- It is too large a quotient that leaves a proportion without an answer, and nothing else. -/
theorem proportion_cases (part whole : Decimal) :
    (QuotientTooLarge part whole ∧ proportion part whole = .error .divisionOverflow) ∨
      (¬ QuotientTooLarge part whole ∧
        ∃ p, proportion part whole = .ok p ∧ IsProportion part whole p) := by
  by_cases hdust : whole ≤ epsilon
  · have hok : proportion part whole = .ok 0 := if_pos hdust
    exact Or.inr ⟨fun hlarge => not_le_iff.mpr hlarge.1 hdust, 0, hok,
      isProportion_of_proportion hok⟩
  have hwhole := not_le_iff.mp hdust
  have hne := ne_zero_of_epsilon_lt hwhole
  have hquotient : proportion part whole = (do return clamp 0 (← part.div whole) 1) := if_neg hdust
  cases hq : part.div whole with
  | error fault =>
      obtain ⟨rfl, hlarge⟩ := (div_eq_error hne).mp hq
      exact Or.inl ⟨⟨hwhole, hlarge⟩, by rw [hquotient, hq]; rfl⟩
  | ok q =>
      have hok : proportion part whole = .ok (clamp 0 q 1) := by rw [hquotient, hq]; rfl
      refine Or.inr ⟨fun hlarge => ?_, clamp 0 q 1, hok, isProportion_of_proportion hok⟩
      cases ((div_eq_error hne).mpr ⟨rfl, hlarge.2⟩).symm.trans hq

/-- A larger part of a smaller whole is no less. -/
theorem proportion_mono (h : proportion part whole = .ok p) (h' : proportion part' whole' = .ok p')
    (hwhole' : epsilon < whole') (hpart : part ≤ part') (hwhole : whole' ≤ whole) : p ≤ p' := by
  have hpos' := toRat_pos_of_epsilon_lt hwhole'
  rcases proportion_eq_ok h with ⟨-, rfl⟩ | ⟨hdue, q, hq, hp⟩
  · exact zero_le_iff.mpr (proportion_nonneg h')
  rcases le_total part.toRat 0 with hneg | hpos
  · rw [(isProportion_of_proportion h).nothing (Or.inr (by rwa [le_iff_toRat, toRat_zero]))]
    exact zero_le_iff.mpr (proportion_nonneg h')
  rcases proportion_eq_ok h' with ⟨hdust, -⟩ | ⟨-, q', hq', hp'⟩
  · exact absurd hdust (not_le_iff.mpr hwhole')
  have hquotient : part.toRat / whole.toRat ≤ part'.toRat / whole'.toRat :=
    div_le_div₀ (hpos.trans (le_iff_toRat.mp hpart)) (le_iff_toRat.mp hpart) hpos'
      (le_iff_toRat.mp hwhole)
  rw [le_iff_toRat, hp, hp']
  exact min_le_min_right 1 (max_le_max_right 0 (hq.mono hq' hquotient))

/-- **A proportion is a clamp that keeps the order.**  Unless the quotient is too large for an
amount, which takes a part of more than seven times 10¹⁶ and a whole below one, it is the part of
the whole, between nothing and one and rounded.  It does not fall with the part, nor rise with a
whole that is more than dust. -/
theorem proportion_clamps (part whole : Decimal) :
    ((QuotientTooLarge part whole ∧ proportion part whole = .error .divisionOverflow) ∨
      (¬ QuotientTooLarge part whole ∧
        ∃ p, proportion part whole = .ok p ∧ IsProportion part whole p)) ∧
    (|part.toRat| ≤ 7 * 10 ^ 16 ∨ 1 ≤ whole.toRat → ¬ QuotientTooLarge part whole) ∧
    (∀ part' p p', proportion part whole = .ok p → proportion part' whole = .ok p' →
      part ≤ part' → p ≤ p') ∧
    (∀ whole' p p', proportion part whole = .ok p → proportion part whole' = .ok p' →
      epsilon < whole → whole ≤ whole' → p' ≤ p) := by
  refine ⟨proportion_cases part whole, not_quotientTooLarge, ?_, ?_⟩
  · intro part' p p' h h' hpart
    by_cases hdust : whole ≤ epsilon
    · rw [(isProportion_of_proportion h).nothing (Or.inl hdust)]
      exact (isProportion_of_proportion h').nonneg
    · exact proportion_mono h h' (not_le_iff.mp hdust) hpart (le_iff_toRat.mpr le_rfl)
  · intro whole' p p' h h' hdue hwhole
    exact proportion_mono h' h hdue (le_iff_toRat.mpr le_rfl) hwhole

/-- Two thirds are a proportion, larger than one third and than two quarters. -/
theorem proportion_clamps_thirds : ∃ p, proportion 2.0 3.0 = .ok p ∧ IsProportion 2.0 3.0 p ∧
    (∀ p', proportion 1.0 3.0 = .ok p' → p' ≤ p) ∧
    (∀ p', proportion 2.0 4.0 = .ok p' → p' ≤ p) := by
  obtain ⟨hcases, hsmall, -, hwhole⟩ := proportion_clamps 2.0 3.0
  have hone : (1 : Decimal) ≤ 3.0 := by decide
  have hfits := hsmall (Or.inr (toRat_one ▸ le_iff_toRat.mp hone))
  obtain ⟨hlarge, -⟩ | ⟨-, p, hp, hprop⟩ := hcases
  · exact absurd hlarge hfits
  obtain ⟨-, -, hpart, -⟩ := proportion_clamps 1.0 3.0
  exact ⟨p, hp, hprop, fun p' hp' => hpart 2.0 p' p hp' hp (by decide),
    fun p' hp' => hwhole 4.0 p p' hp hp' (by decide) (by decide)⟩

/-- The largest amount is more than a whole just above dust, and there is no answer, nor is there
one for its negation. -/
theorem proportion_overflows_largest :
    epsilon < 0.000000000002 ∧ 0.000000000002 ≤ largest ∧
      proportion largest 0.000000000002 = .error .divisionOverflow ∧
      -largest ≤ 0 ∧ proportion (-largest) 0.000000000002 = .error .divisionOverflow := by
  decide

end Insolvency.Decimal
