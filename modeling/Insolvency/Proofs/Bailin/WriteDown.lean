/-
Writing down one class of liabilities.

A class of a total value is scaled by what the proportion of the shortfall leaves of it,
and what its creditors lost is added up again.  Each of these steps rounds, over as many
accounts as there are, and `ClassDown` is what is known of all of them together.

Let the class be worth `W` over `n` accounts, `R` be what is left to cover, and `c` bound
the sums on the way.  With `2/3` of a grain as the unit, what is recovered is

  * `n·c + n + W` from what the accounts fell by (`fall_error`),
  * at most `2·n·c + 2·n + 2·W + t` above `R` (`recovered_le_remaining`), and
  * at most as much below the smaller of `R` and `W` (`min_le_recovered`), unless the class
    is dust and left alone.

No more than the sums themselves is asked of `c`, and they are at most `11·W`.
-/
import Insolvency.Proofs.Bailin.Course
import Insolvency.Proofs.Ledger.Accounts

namespace Insolvency.Bailin

open Decimal

/-! ### What is left to cover -/

/-- Either what is left is dust and forgotten, or it is worked out. -/
theorem leftAfter_eq_ok {remaining recovered left : Decimal}
    (h : leftAfter remaining recovered = .ok left) :
    (remaining.toRat - recovered.toRat ≤ epsilon.toRat ∧ left = 0) ∨
      (epsilon.toRat < remaining.toRat - recovered.toRat ∧ epsilon < left ∧
        Rounds (remaining.toRat - recovered.toRat) left) := by
  simp only [leftAfter, bind_eq_ok, pure_eq_ok] at h
  obtain ⟨left', hsub, rfl⟩ := h
  split_ifs with hdust
  · exact Or.inl ⟨(sub_le_epsilon_iff hsub).mp hdust, rfl⟩
  · exact Or.inr ⟨not_le.mp fun hle => hdust ((sub_le_epsilon_iff hsub).mpr hle),
      not_le_iff.mp hdust, rounds_sub hsub⟩

/-! ### The class scaled -/

/-- A class of liabilities is scaled for what is left to cover: its total is `total`, of which
the proportion `p` is needed. -/
structure ClassDown (remaining : Decimal) (before after lost : Accounts AgentId)
    (total p : Decimal) : Prop where
  total_eq : before.total = .ok total
  part : proportion remaining total = .ok p
  scaled : Accounts.ScaledBy (1 - p.toRat) before.values after.values lost.values
  /-- Nothing is taken where nothing is needed. -/
  nothing : p = 0 → after.swept = before.swept ∧ lost = ∅
  /-- Everything is taken where all is needed. -/
  everything : p = 1 → lost.total = .ok total

/-- What a proportion leaves is exact. -/
theorem one_sub_proportion {part whole p q : Decimal} (hp : proportion part whole = .ok p)
    (h : Decimal.sub 1 p = .ok q) : q.toRat = 1 - p.toRat := by
  have h0 := proportion_nonneg hp
  have h1 := proportion_le_one hp
  rw [sub_exact h (by rw [toRat_one, abs_of_nonneg] <;> linarith), toRat_one]

/-- The accounts are the same but for entries of nothing. -/
def SameUpToSweeping (a b : Accounts AgentId) : Prop := b = a ∨ b = a.swept

namespace SameUpToSweeping

variable {a b : Accounts AgentId}

theorem exactTotal (h : SameUpToSweeping a b) : b.exactTotal = a.exactTotal := by
  rcases h with rfl | rfl
  · rfl
  · exact a.exactTotal_swept

theorem total (h : SameUpToSweeping a b) : b.total = a.total := by
  rcases h with rfl | rfl
  · rfl
  · exact a.total_swept

theorem swept (h : SameUpToSweeping a b) : Accounts.swept b = Accounts.swept a := by
  rcases h with rfl | rfl
  · rfl
  · exact a.swept_swept

theorem nonneg (h : SameUpToSweeping a b) (ha : a.Nonneg) : b.Nonneg := by
  rcases h with rfl | rfl
  · exact ha
  · exact ha.swept

theorem length_le (h : SameUpToSweeping a b) : b.values.length ≤ a.values.length := by
  rw [Accounts.length_values, Accounts.length_values]
  rcases h with rfl | rfl
  · exact le_rfl
  · exact a.length_swept_le

theorem amount (h : SameUpToSweeping a b) (k : AgentId) : b.amount k = a.amount k := by
  rcases h with rfl | rfl
  · rfl
  · exact a.amount_swept k

end SameUpToSweeping

/-- Sweeping the accounts before or after changes nothing that is said of them. -/
theorem ClassDown.congr {remaining total p : Decimal}
    {before before' after after' lost : Accounts AgentId}
    (h : ClassDown remaining before' after lost total p) (hb : SameUpToSweeping before before')
    (ha : SameUpToSweeping after after') : ClassDown remaining before after' lost total p where
  total_eq := hb.total ▸ h.total_eq
  part := h.part
  scaled := by
    have hbefore : exactSum before'.values = exactSum before.values := hb.exactTotal
    have hafter : exactSum after'.values = exactSum after.values := ha.exactTotal
    have hlen : (before'.values.length : ℚ) ≤ before.values.length := by
      exact_mod_cast hb.length_le
    have hmore : 2 / 3 * grain * (before'.values.length + exactSum before.values)
        ≤ 2 / 3 * grain * (before.values.length + exactSum before.values) := by
      have := grain_pos
      gcongr
    have hs := h.scaled
    exact {
      after_length := ha.length_le.trans (hs.after_length.trans hb.length_le)
      lost_length := hs.lost_length.trans hb.length_le
      after_nonneg := ha.nonneg hs.after_nonneg
      lost_nonneg := hs.lost_nonneg
      after_le := hafter ▸ hbefore ▸ hs.after_le
      lost_le := hbefore ▸ hs.lost_le
      after_error := by
        have := hs.after_error
        rw [hbefore] at this
        rw [hafter]
        exact this.trans hmore
      lost_error := by
        have := hs.lost_error
        rw [hbefore] at this
        rw [hafter]
        exact this.trans hmore }
  nothing := fun hp => by
    rw [ha.swept, ← hb.swept]
    exact h.nothing hp
  everything := h.everything

/-- A class left alone because nothing of it is needed. -/
theorem classDown_of_none {remaining total : Decimal} {before : Accounts AgentId}
    (ht : before.total = .ok total) (hp : proportion remaining total = .ok 0)
    (hnn : before.Nonneg) : ClassDown remaining before before ∅ total 0 where
  total_eq := ht
  part := hp
  scaled := by
    rw [toRat_zero, sub_zero]
    exact .one hnn
  nothing := fun _ => ⟨rfl, rfl⟩
  everything := fun h => absurd h (by decide)

/-- A class scaled by the factor that the proportion leaves. -/
theorem classDown_of_scale {remaining total p q : Decimal} {before after lost : Accounts AgentId}
    (ht : before.total = .ok total) (hp : proportion remaining total = .ok p) (hne : p ≠ 0)
    (hq : Decimal.sub 1 p = .ok q) (h : before.scale q = .ok (after, lost))
    (hnn : before.Nonneg) : ClassDown remaining before after lost total p where
  total_eq := ht
  part := hp
  scaled := by
    have hq' := one_sub_proportion hp hq
    rw [← hq']
    refine Accounts.scaledBy_of_scale h hnn ?_ ?_
    · linarith [proportion_le_one hp]
    · linarith [proportion_nonneg hp]
  nothing := fun h0 => absurd h0 hne
  everything := fun h1 => by
    have hq' := one_sub_proportion hp hq
    rw [h1, toRat_one, sub_self, toRat_eq_zero] at hq'
    rw [Accounts.total, Accounts.lost_of_scale_zero (hq' ▸ h)]
    exact ht

/-- The factor is what the proportion leaves, and there is none where it is nothing. -/
theorem writeDownFactor_eq_ok {remaining total : Decimal} {factor : Option Decimal}
    (h : writeDownFactor remaining total = .ok factor) :
    ∃ p, proportion remaining total = .ok p ∧
      ((p = 0 ∧ factor = none) ∨ (p ≠ 0 ∧ ∃ q, Decimal.sub 1 p = .ok q ∧ factor = some q)) := by
  simp only [writeDownFactor, bind_eq_ok] at h
  obtain ⟨p, hp, h⟩ := h
  refine ⟨p, hp, ?_⟩
  split_ifs at h with h0
  · exact Or.inl ⟨h0, (pure_eq_ok.mp h).symm⟩
  · simp only [bind_eq_ok, pure_eq_ok] at h
    obtain ⟨q, hq, rfl⟩ := h
    exact Or.inr ⟨h0, q, hq, rfl⟩

theorem scaleLoans_eq_ok {e : Episode} {l : Liabilities} {lost : Accounts AgentId}
    (h : scaleLoans e = .ok (l, lost)) (hnn : e.liabilities.loans.Nonneg) :
    (∃ total p, ClassDown e.totals.remainingShortfall e.liabilities.loans l.loans lost total p) ∧
      SameUpToSweeping e.liabilities.deposits l.deposits := by
  simp only [scaleLoans, bind_eq_ok] at h
  obtain ⟨total, ht, factor, hfactor, h⟩ := h
  obtain ⟨p, hp, ⟨rfl, rfl⟩ | ⟨hne, q, hq, rfl⟩⟩ := writeDownFactor_eq_ok hfactor
  · obtain ⟨rfl, rfl⟩ := Prod.mk.inj (pure_eq_ok.mp h)
    exact ⟨⟨total, 0, classDown_of_none ht hp hnn⟩, Or.inl rfl⟩
  · simp only [Liabilities.scaleLoans, bind_eq_ok, pure_eq_ok, Prod.mk.injEq] at h
    obtain ⟨⟨after, shrunk⟩, hscale, rfl, rfl⟩ := h
    exact ⟨⟨total, p, (classDown_of_scale ht hp hne hq hscale hnn).congr (Or.inl rfl) (Or.inr rfl)⟩,
      Or.inr rfl⟩

/-- What deposits are scaled by for what the loans left to cover: if that is anything, by a
proportion of it, and else not at all. -/
inductive DepositsDown (remaining : Decimal) (before after lost : Accounts AgentId) : Prop
  | spared (hcovered : ¬ 0 < remaining) (hsame : SameUpToSweeping before after) (hlost : lost = ∅)
  | scaled (hdue : 0 < remaining) (total p : Decimal)
      (hdown : ClassDown remaining before after lost total p)

theorem DepositsDown.congr {remaining : Decimal} {before before' after lost : Accounts AgentId}
    (h : DepositsDown remaining before' after lost) (hb : SameUpToSweeping before before') :
    DepositsDown remaining before after lost := by
  cases h with
  | spared hcovered hsame hlost =>
      refine .spared hcovered ?_ hlost
      rcases hb with rfl | rfl
      · exact hsame
      · rcases hsame with rfl | rfl
        · exact Or.inr rfl
        · exact Or.inr (Accounts.swept_swept before)
  | scaled hdue total p hdown => exact .scaled hdue total p (hdown.congr hb (Or.inl rfl))

theorem DepositsDown.lost_nonneg {remaining : Decimal} {before after lost : Accounts AgentId}
    (h : DepositsDown remaining before after lost) : lost.Nonneg := by
  cases h with
  | spared hcovered hsame hlost => exact hlost ▸ Accounts.nonneg_empty
  | scaled hdue total p hdown => exact hdown.scaled.lost_nonneg

theorem DepositsDown.lost_length {remaining : Decimal} {before after lost : Accounts AgentId}
    (h : DepositsDown remaining before after lost) :
    lost.entries.length ≤ before.entries.length := by
  cases h with
  | spared hcovered hsame hlost => exact hlost ▸ Nat.zero_le _
  | scaled hdue total p hdown =>
      have hlen := hdown.scaled.lost_length
      rwa [Accounts.length_values, Accounts.length_values] at hlen

theorem total_of_empty {lost : Accounts AgentId} {t : Decimal} (hlost : lost = ∅)
    (h : lost.total = .ok t) : t.toRat = 0 := by
  rw [hlost] at h
  rw [← pure_eq_ok.mp h, toRat_zero]

theorem scaleDeposits_eq_ok {e : Episode} {l : Liabilities} {lost : Accounts AgentId}
    (h : scaleDeposits e = .ok (l, lost)) (hnn : e.liabilities.deposits.Nonneg) :
    DepositsDown e.totals.remainingShortfall e.liabilities.deposits l.deposits lost ∧
      SameUpToSweeping e.liabilities.loans l.loans := by
  unfold scaleDeposits at h
  split_ifs at h with hdue
  · simp only [bind_eq_ok] at h
    obtain ⟨total, ht, factor, hfactor, h⟩ := h
    obtain ⟨p, hp, ⟨rfl, rfl⟩ | ⟨hne, q, hq, rfl⟩⟩ := writeDownFactor_eq_ok hfactor
    · obtain ⟨rfl, rfl⟩ := Prod.mk.inj (pure_eq_ok.mp h)
      exact ⟨.scaled hdue total 0 (classDown_of_none ht hp hnn), Or.inl rfl⟩
    · simp only [Liabilities.scaleDeposits, bind_eq_ok, pure_eq_ok, Prod.mk.injEq] at h
      obtain ⟨⟨after, shrunk⟩, hscale, rfl, rfl⟩ := h
      exact ⟨.scaled hdue total p
        ((classDown_of_scale ht hp hne hq hscale hnn).congr (Or.inl rfl) (Or.inr rfl)), Or.inr rfl⟩
  · obtain ⟨rfl, rfl⟩ := Prod.mk.inj (pure_eq_ok.mp h)
    exact ⟨.spared hdue (Or.inl rfl) rfl, Or.inl rfl⟩

/-! ### What is left of the class -/

/-- The accounts hold less than before. -/
structure Shrunk (before after : Accounts AgentId) : Prop where
  nonneg : after.Nonneg
  length_le : after.entries.length ≤ before.entries.length
  exactTotal_le : after.exactTotal ≤ before.exactTotal

theorem ClassDown.shrunk {remaining total p : Decimal} {before after lost : Accounts AgentId}
    (h : ClassDown remaining before after lost total p) : Shrunk before after where
  nonneg := h.scaled.after_nonneg
  length_le := by
    rw [← Accounts.length_values, ← Accounts.length_values]
    exact h.scaled.after_length
  exactTotal_le := h.scaled.after_le

theorem DepositsDown.shrunk {remaining : Decimal} {before after lost : Accounts AgentId}
    (h : DepositsDown remaining before after lost) (hnn : before.Nonneg) : Shrunk before after := by
  cases h with
  | spared hcovered hsame hlost =>
      refine ⟨hsame.nonneg hnn, ?_, hsame.exactTotal.le⟩
      rw [← Accounts.length_values, ← Accounts.length_values]
      exact hsame.length_le
  | scaled hdue total p hdown => exact hdown.shrunk

/-! ### How much is recovered -/

namespace ClassDown

variable {remaining total p recovered : Decimal} {before after lost : Accounts AgentId} {c : ℚ}

theorem part_nonneg (h : ClassDown remaining before after lost total p) : 0 ≤ p.toRat :=
  proportion_nonneg h.part

theorem part_le_one (h : ClassDown remaining before after lost total p) : p.toRat ≤ 1 :=
  proportion_le_one h.part

theorem recovered_nonneg (h : ClassDown remaining before after lost total p)
    (hrec : lost.total = .ok recovered) : 0 ≤ recovered.toRat :=
  Accounts.total_nonneg hrec h.scaled.lost_nonneg

theorem recovered_le (h : ClassDown remaining before after lost total p)
    (hrec : lost.total = .ok recovered) : recovered.toRat ≤ 11 * before.exactTotal := by
  have := h.scaled.lost_le
  have := Accounts.total_le hrec h.scaled.lost_nonneg
  unfold Accounts.exactTotal at this ⊢
  linarith

/-- What is recovered, beside what the accounts that lost it hold. -/
theorem lost_error (h : ClassDown remaining before after lost total p)
    (hrec : lost.total = .ok recovered) (hc : 1 ≤ c) (hle : recovered.toRat ≤ c) :
    |recovered.toRat - lost.exactTotal| ≤ before.entries.length * (2 / 3 * grain * c) := by
  refine (Accounts.total_error hrec h.scaled.lost_nonneg hc hle).trans ?_
  have hlen := h.scaled.lost_length
  rw [Accounts.length_values, Accounts.length_values] at hlen
  have hpos := grain_pos
  gcongr

/-- What is recovered, beside what the accounts of the class fell by. -/
theorem fall_error (h : ClassDown remaining before after lost total p)
    (hrec : lost.total = .ok recovered) (hc : 1 ≤ c) (hle : recovered.toRat ≤ c) :
    |recovered.toRat - (before.exactTotal - after.exactTotal)|
      ≤ 2 / 3 * grain
        * (before.entries.length * c + before.entries.length + before.exactTotal) := by
  have hsum := h.lost_error hrec hc hle
  have hlost := h.scaled.lost_error
  rw [Accounts.length_values] at hlost
  unfold Accounts.exactTotal at hsum ⊢
  rw [abs_le] at hsum hlost ⊢
  constructor
  · linarith [hsum.1, hlost.1]
  · linarith [hsum.2, hlost.2]

/-- What is recovered, beside the part of the class that is needed. -/
theorem part_error (h : ClassDown remaining before after lost total p)
    (hrec : lost.total = .ok recovered) (hc : 1 ≤ c) (hle : recovered.toRat ≤ c) :
    |recovered.toRat - p.toRat * before.exactTotal|
      ≤ 2 / 3 * grain *
        (before.entries.length * c + 2 * before.entries.length + 2 * before.exactTotal) := by
  have hfall := h.fall_error hrec hc hle
  have hafter := h.scaled.after_error
  rw [Accounts.length_values] at hafter
  unfold Accounts.exactTotal at hfall ⊢
  rw [abs_le] at hfall hafter ⊢
  constructor
  · linarith [hfall.1, hafter.2]
  · linarith [hfall.2, hafter.1]

theorem total_error (h : ClassDown remaining before after lost total p) (hnn : before.Nonneg)
    (hc : 1 ≤ c) (hle : total.toRat ≤ c) :
    |total.toRat - before.exactTotal| ≤ before.entries.length * (2 / 3 * grain * c) :=
  Accounts.total_error h.total_eq hnn hc hle

/-- A class that is dust in total is left alone. -/
theorem of_dust (h : ClassDown remaining before after lost total p) (hdust : total ≤ epsilon)
    (hrec : lost.total = .ok recovered) : p = 0 ∧ recovered = 0 := by
  rcases proportion_eq_ok h.part with ⟨-, hp⟩ | ⟨hlt, -⟩
  · refine ⟨hp, ?_⟩
    rw [(h.nothing hp).2] at hrec
    exact (pure_eq_ok.mp hrec).symm
  · exact absurd hdust (not_le_iff.mpr hlt)

/-- The part of the class that is needed, against what is left to cover. -/
theorem part_mul_total_le (h : ClassDown remaining before after lost total p)
    (hremaining : 0 ≤ remaining.toRat) (htotal : 0 ≤ total.toRat) :
    p.toRat * total.toRat ≤ remaining.toRat + 2 / 3 * grain * total.toRat := by
  have hpos := grain_pos
  rcases proportion_eq_ok h.part with ⟨-, rfl⟩ | ⟨hlt, -⟩
  · rw [toRat_zero, zero_mul]
    positivity
  · have hpart := (abs_le.mp (abs_proportion_sub_le h.part hlt hremaining)).2
    have htotal' := toRat_pos_of_epsilon_lt hlt
    have hmin := min_le_left (remaining.toRat / total.toRat) 1
    have hp : p.toRat ≤ remaining.toRat / total.toRat + 2 / 3 * grain := by linarith
    calc p.toRat * total.toRat
        ≤ (remaining.toRat / total.toRat + 2 / 3 * grain) * total.toRat := by gcongr
      _ = remaining.toRat + 2 / 3 * grain * total.toRat := by
          rw [add_mul, div_mul_cancel₀ _ htotal'.ne']

/-- **No more is recovered than is left to cover**, but for the rounding. -/
theorem recovered_le_remaining (h : ClassDown remaining before after lost total p)
    (hrec : lost.total = .ok recovered) (hnn : before.Nonneg) (hremaining : 0 ≤ remaining.toRat)
    (hc : 1 ≤ c) (hle : recovered.toRat ≤ c) (hle' : total.toRat ≤ c) :
    recovered.toRat ≤ remaining.toRat + 2 / 3 * grain *
      (2 * (before.entries.length * c) + 2 * before.entries.length + 2 * before.exactTotal
        + total.toRat) := by
  have hpart := (abs_le.mp (h.part_error hrec hc hle)).2
  have htotal := (abs_le.mp (h.total_error hnn hc hle')).1
  have hscaled := h.part_mul_total_le hremaining (Accounts.total_nonneg h.total_eq hnn)
  have hpos := grain_pos
  have hmove : p.toRat * (before.exactTotal - total.toRat)
      ≤ before.entries.length * (2 / 3 * grain * c) := by
    have hbound : (0 : ℚ) ≤ before.entries.length * (2 / 3 * grain * c) := by positivity
    calc p.toRat * (before.exactTotal - total.toRat)
        ≤ p.toRat * (before.entries.length * (2 / 3 * grain * c)) :=
          mul_le_mul_of_nonneg_left (by linarith) h.part_nonneg
      _ ≤ before.entries.length * (2 / 3 * grain * c) :=
          mul_le_of_le_one_left hbound h.part_le_one
  linarith

/-- All of a class that is not dust is needed where there is no less to cover. -/
theorem part_eq_one (h : ClassDown remaining before after lost total p) (hdust : epsilon < total)
    (hall : total.toRat ≤ remaining.toRat) : p = 1 := by
  have htotal := toRat_pos_of_epsilon_lt hdust
  rcases proportion_eq_ok h.part with ⟨hle, -⟩ | ⟨-, q, hq, hp⟩
  · exact absurd hle (not_le_iff.mpr hdust)
  · have hq1 : 1 ≤ q.toRat := by
      simpa using hq.ge_of_ge (d := 1) (by rwa [toRat_one, one_le_div htotal])
    refine toRat_injective ?_
    rw [hp, toRat_one, max_eq_left (zero_le_one.trans hq1), min_eq_right hq1]

/-- Where the whole class is asked for, no more is recovered than it is worth. -/
theorem recovered_le_total (h : ClassDown remaining before after lost total p)
    (hrec : lost.total = .ok recovered) (hnn : before.Nonneg)
    (hall : total.toRat ≤ remaining.toRat) : recovered.toRat ≤ total.toRat := by
  by_cases hdust : total ≤ epsilon
  · rw [(h.of_dust hdust hrec).2, toRat_zero]
    exact Accounts.total_nonneg h.total_eq hnn
  · have hp := h.part_eq_one (not_le_iff.mp hdust) hall
    obtain rfl : recovered = total := Except.ok.inj (hrec.symm.trans (h.everything hp))
    exact le_rfl

/-- **No less is recovered than is left to cover, or else all there is**, but for the rounding,
unless the class is dust. -/
theorem min_le_recovered (h : ClassDown remaining before after lost total p)
    (hrec : lost.total = .ok recovered) (hnn : before.Nonneg) (hremaining : 0 ≤ remaining.toRat)
    (hdust : epsilon < total) (hc : 1 ≤ c) (hle : recovered.toRat ≤ c) (hle' : total.toRat ≤ c) :
    min remaining.toRat before.exactTotal ≤ recovered.toRat + 2 / 3 * grain *
      (2 * (before.entries.length * c) + 2 * before.entries.length + 2 * before.exactTotal
        + total.toRat) := by
  have hpart := (abs_le.mp (h.part_error hrec hc hle)).1
  have hpos := grain_pos
  have htotal0 := Accounts.total_nonneg h.total_eq hnn
  have hrest : 0 ≤ 2 / 3 * grain * (before.entries.length * c + total.toRat) := by positivity
  rcases le_or_gt total.toRat remaining.toRat with hall | hsome
  · -- All of the class is needed.
    rw [h.part_eq_one hdust hall, toRat_one, one_mul] at hpart
    have := min_le_right remaining.toRat before.exactTotal
    linarith
  · -- A part of the class suffices.
    have htotal' := toRat_pos_of_epsilon_lt hdust
    have hnear := (abs_le.mp (abs_proportion_sub_le h.part hdust hremaining)).1
    rw [min_eq_left ((div_lt_one htotal').mpr hsome).le] at hnear
    have hp : remaining.toRat ≤ p.toRat * total.toRat + 2 / 3 * grain * total.toRat := by
      calc remaining.toRat = remaining.toRat / total.toRat * total.toRat :=
            (div_mul_cancel₀ _ htotal'.ne').symm
        _ ≤ (p.toRat + 2 / 3 * grain) * total.toRat := by
            gcongr
            linarith
        _ = p.toRat * total.toRat + 2 / 3 * grain * total.toRat := by ring
    have htotal := (abs_le.mp (h.total_error hnn hc hle')).2
    have hmove : p.toRat * (total.toRat - before.exactTotal)
        ≤ before.entries.length * (2 / 3 * grain * c) := by
      have hbound : (0 : ℚ) ≤ before.entries.length * (2 / 3 * grain * c) := by positivity
      calc p.toRat * (total.toRat - before.exactTotal)
          ≤ p.toRat * (before.entries.length * (2 / 3 * grain * c)) :=
            mul_le_mul_of_nonneg_left htotal h.part_nonneg
        _ ≤ before.entries.length * (2 / 3 * grain * c) :=
            mul_le_of_le_one_left hbound h.part_le_one
    have := min_le_left remaining.toRat before.exactTotal
    linarith

end ClassDown

end Insolvency.Bailin
