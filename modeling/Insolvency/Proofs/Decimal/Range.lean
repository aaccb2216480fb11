/-
Computations whose figures stay in range.

Whether an operation has a result hangs on the size of the figures that go into it, and in
a loop these are what the turns before have made of them.  So what is said of a computation
here is two things at once: that it can fail in one way only, and what its result is like
if it does not.  `Yields` is that pair.  It is proved along the steps of a computation, each
step handing the size of its result on to the next, and along a loop by what each turn spends
of a budget.

Short of products, nothing that stays within seven times 10²⁸ fails.  A product may be the
square of that, so it is given a size that it goes by, and fails only if the size is large.
-/
import Insolvency.Proofs.Decimal.Overflow
import Insolvency.Proofs.Decimal.Sum

namespace Insolvency

/-! ### Failures of one kind, results of one kind -/

/-- The computation fails in this way only, and whatever it results in is like that. -/
structure Yields {ε α : Type} (P : ε → Prop) (Q : α → Prop) (x : Except ε α) : Prop where
  fails : FailsOnlyBy P x
  result : ∀ a, x = .ok a → Q a

section Yields

variable {ε α β : Type} {P : ε → Prop} {Q : α → Prop} {R : β → Prop}

theorem yields_ok {a : α} (h : Q a) : Yields P Q (.ok a) :=
  ⟨failsOnlyBy_ok a, fun _ ha => Except.ok.inj ha ▸ h⟩

theorem yields_pure {a : α} (h : Q a) : Yields P Q (pure a) := yields_ok h

theorem Yields.of_exists {x : Except ε α} (h : ∃ a, x = .ok a) (hx : ∀ a, x = .ok a → Q a) :
    Yields P Q x :=
  ⟨.of_exists h, hx⟩

theorem Yields.bind {x : Except ε α} {f : α → Except ε β} (hx : Yields P Q x)
    (hf : ∀ a, x = .ok a → Q a → Yields P R (f a)) : Yields P R (x >>= f) where
  fails := hx.fails.bind fun a ha => (hf a ha (hx.result a ha)).fails
  result := fun b hb => by
    obtain ⟨a, ha, hb⟩ := bind_eq_ok.mp hb
    exact (hf a ha (hx.result a ha)).result b hb

theorem Yields.imp {Q' : α → Prop} {x : Except ε α} (h : Yields P Q x)
    (hq : ∀ a, x = .ok a → Q a → Q' a) : Yields P Q' x :=
  ⟨h.fails, fun a ha => hq a ha (h.result a ha)⟩

/-- Every element is made into something, if each of them is. -/
theorem yields_mapM {S : α → β → Prop} {f : α → Except ε β} {xs : List α}
    (h : ∀ x ∈ xs, Yields P (S x) (f x)) : Yields P (List.Forall₂ S xs) (xs.mapM f) := by
  induction xs with
  | nil => exact yields_pure .nil
  | cons x rest ih =>
      obtain ⟨hx, hrest⟩ := List.forall_mem_cons.mp h
      rw [List.mapM_cons]
      exact hx.bind fun y _ hy => (ih hrest).bind fun ys _ hys => yields_pure (.cons hy hys)

/-- A loop of which each turn spends something, and no turn more than there is, has spent at its
end what all of them do. -/
theorem yields_foldlM_spending {I : ℚ → β → Prop} {w : α → ℚ} {f : β → α → Except ε β}
    {xs : List α} {b : β} {s l : ℚ} (hb : I s b) (hspend : ∀ x ∈ xs, 0 ≤ w x)
    (hlimit : s + (xs.map w).sum ≤ l)
    (hstep : ∀ x ∈ xs, ∀ u b, I u b → u + w x ≤ l → Yields P (I (u + w x)) (f b x)) :
    Yields P (I (s + (xs.map w).sum)) (xs.foldlM f b) := by
  induction xs generalizing b s with
  | nil =>
      rw [List.map_nil, List.sum_nil, add_zero]
      exact yields_pure hb
  | cons x rest ih =>
      obtain ⟨hx, hrest⟩ := List.forall_mem_cons.mp hstep
      obtain ⟨-, hspend'⟩ := List.forall_mem_cons.mp hspend
      rw [List.map_cons, List.sum_cons, ← add_assoc] at hlimit ⊢
      have hnonneg : 0 ≤ (rest.map w).sum := List.sum_nonneg (List.forall_mem_map.mpr hspend')
      rw [List.foldlM_cons]
      exact (hx s b hb (by linarith)).bind fun b' _ hb' => ih hb' hspend' hlimit hrest

/-- A loop that keeps to something. -/
theorem yields_foldlM {I : β → Prop} {f : β → α → Except ε β} {xs : List α} {b : β} (hb : I b)
    (hstep : ∀ x ∈ xs, ∀ b, I b → Yields P I (f b x)) : Yields P I (xs.foldlM f b) := by
  induction xs generalizing b with
  | nil => exact yields_pure hb
  | cons x rest ih =>
      obtain ⟨hx, hrest⟩ := List.forall_mem_cons.mp hstep
      rw [List.foldlM_cons]
      exact (hx b hb).bind fun b' _ hb' => ih hb' hrest

end Yields

namespace Decimal

variable {P : Fault → Prop} {a b r x y z : Decimal}

/-! ### Figures in range -/

/-- However large a number is, rounding moves it by half at most. -/
theorem Rounds.abs_sub_le_half {x : ℚ} (h : Rounds x r) : |r.toRat - x| ≤ 1 / 2 := by
  obtain ⟨k, m, h⟩ := h
  exact h.abs_sub_le.trans (div_le_self (by norm_num) (one_le_pow₀ (by norm_num)))

/-- A number not below nothing is moved by less than a grain of its size, and a grain. -/
theorem Rounds.le_add_grain {x : ℚ} (h : Rounds x r) (hx : 0 ≤ x) :
    r.toRat ≤ x + grain * (1 + x) := by
  have hnear := h.abs_sub_le (by linarith : 1 ≤ 1 + x) (by rw [abs_of_nonneg hx]; linarith)
  have hgrain := grain_mul_nonneg (by linarith : 0 ≤ 1 + x)
  linarith [(abs_le.mp hnear).2]

/-- A difference is off by a grain of itself at most, however small it is. -/
theorem sub_le_add_grain (h : a.sub b = .ok r) (hle : b.toRat ≤ a.toRat) :
    r.toRat ≤ a.toRat - b.toRat + grain * (a.toRat - b.toRat) := by
  have h0 : 0 ≤ a.toRat - b.toRat := sub_nonneg.mpr hle
  have hgrain := grain_mul_nonneg h0
  rcases le_total (a.toRat - b.toRat) 1 with hone | hone
  · rw [sub_exact h (by rwa [abs_of_nonneg h0])]
    linarith
  · have hnear := (rounds_sub h).abs_sub_le hone (abs_of_nonneg h0).le
    linarith [(abs_le.mp hnear).2]

theorem yields_add (h : |a.toRat + b.toRat| ≤ 7 * 10 ^ 28) :
    Yields P (Rounds (a.toRat + b.toRat)) (a.add b) :=
  .of_exists (exists_add (h.trans seven_pow_le_largest)) fun _ => rounds_add

theorem yields_sub (h : |a.toRat - b.toRat| ≤ 7 * 10 ^ 28) :
    Yields P (Rounds (a.toRat - b.toRat)) (a.sub b) :=
  .of_exists (exists_sub (h.trans seven_pow_le_largest)) fun _ => rounds_sub

theorem exists_div (hb : b ≠ 0) (h : |a.toRat / b.toRat| ≤ largest.toRat) :
    ∃ r, a.div b = .ok r := by
  have hu : b.units ≠ 0 := fun hu => hb (ext_units (by rw [hu, units_zero]))
  obtain ⟨r, hr⟩ := exists_ofRatio? (Int.natAbs_pos.mpr hu) (div_toRat a hu ▸ h)
  refine ⟨r, ?_⟩
  rw [div, if_neg hb]
  exact orFault_eq_ok.mpr hr

theorem yields_div (hb : 0 < b.toRat) (h : |a.toRat / b.toRat| ≤ 7 * 10 ^ 28) :
    Yields P (Rounds (a.toRat / b.toRat)) (a.div b) := by
  have hne : b ≠ 0 := fun hzero => hb.ne' (toRat_eq_zero.mpr hzero)
  exact .of_exists (exists_div hne (h.trans seven_pow_le_largest)) fun _ hr => (rounds_div hr).2

theorem yields_mul_of_le (h : |a.toRat * b.toRat| ≤ 7 * 10 ^ 28) :
    Yields P (Rounds (a.toRat * b.toRat)) (a.mul b) :=
  .of_exists (exists_mul (h.trans seven_pow_le_largest)) fun _ => rounds_mul

/-- Amounts within bounds add up to an amount within both. -/
theorem yields_add_within {u v : ℚ} (ha : |a.toRat| ≤ u) (hb : |b.toRat| ≤ v)
    (h : u + v ≤ 7 * 10 ^ 28) : Yields P (fun r => |r.toRat| ≤ u + v + 1 / 2) (a.add b) := by
  have hsum := abs_add_le a.toRat b.toRat
  refine (yields_add (by linarith)).imp fun r _ hr => ?_
  have hnear := hr.abs_sub_le_half
  have := abs_sub_abs_le_abs_sub r.toRat (a.toRat + b.toRat)
  linarith

/-- What is taken off of an amount, and is no more than it, leaves some of it. -/
theorem yields_sub_of_le (hb : 0 ≤ b.toRat) (hle : b.toRat ≤ a.toRat) :
    Yields P (fun r => 0 ≤ r.toRat ∧ r.toRat ≤ a.toRat) (a.sub b) :=
  .of_exists (exists_sub_of_le hb hle) fun _ hr =>
    ⟨(rounds_sub hr).nonneg (by linarith), (rounds_sub hr).le_of_le (by linarith)⟩

/-! ### Products by their size -/

/-- A product came out too large, and may have, since the size that it goes by is large. -/
def LargeProduct (size : ℚ) (fault : Fault) : Prop :=
  fault = .multiplicationOverflow ∧ 10 ^ 28 < size

variable {size : ℚ}

theorem yields_mul (h : |a.toRat * b.toRat| ≤ 7 * size) :
    Yields (LargeProduct size) (Rounds (a.toRat * b.toRat)) (a.mul b) := by
  rcases le_or_gt size (10 ^ 28) with hsmall | hlarge
  · exact yields_mul_of_le (by linarith)
  · refine ⟨fun fault hfault => ⟨?_, hlarge⟩, fun _ => rounds_mul⟩
    unfold mul orFault at hfault
    split at hfault
    · cases hfault
    · exact (Except.error.inj hfault).symm

/-- A product that is divided by more than the one factor comes to a part of the other, but for
the digits that the product has lost. -/
theorem yields_part {product : Decimal} (hproduct : Rounds (x.toRat * y.toRat) product)
    (hx : 0 ≤ x.toRat) (hx' : x.toRat ≤ 5 * 10 ^ 28) (hy : 0 ≤ y.toRat) (hle : y.toRat ≤ z.toRat)
    (hz : .epsilon < z) :
    Yields P (fun q => 0 ≤ q.toRat ∧ q.toRat ≤ 11 / 10 * (x.toRat * (y.toRat / z.toRat)) + 1)
      (product.div z) := by
  have hpos := toRat_pos_of_epsilon_lt hz
  have hpart0 : 0 ≤ x.toRat * (y.toRat / z.toRat) := mul_nonneg hx (div_nonneg hy hpos.le)
  have hpart : x.toRat * (y.toRat / z.toRat) ≤ x.toRat :=
    mul_le_of_le_one_right hx ((div_le_one hpos).mpr hle)
  have hproduct0 := hproduct.nonneg (mul_nonneg hx hy)
  have hquotient0 : 0 ≤ product.toRat / z.toRat := div_nonneg hproduct0 hpos.le
  have hquotient : product.toRat / z.toRat
      ≤ x.toRat * (y.toRat / z.toRat) + grain * (x.toRat * (y.toRat / z.toRat)) + 1 / 10 ^ 16 := by
    have hinverse : grain / z.toRat ≤ 1 / 10 ^ 16 := by
      have hdue := lt_iff_toRat.mp hz
      rw [toRat_epsilon] at hdue
      rw [div_le_iff₀ hpos]
      unfold grain maxPlaces
      linarith
    calc product.toRat / z.toRat
        ≤ (x.toRat * y.toRat + grain * (1 + x.toRat * y.toRat)) / z.toRat := by
          have := hproduct.le_add_grain (mul_nonneg hx hy)
          gcongr
      _ = x.toRat * (y.toRat / z.toRat) + grain * (x.toRat * (y.toRat / z.toRat))
          + grain / z.toRat := by ring
      _ ≤ _ := by linarith
  have hgrain : grain = 1 / 10 ^ 28 := rfl
  rw [hgrain] at hquotient
  refine (yields_div hpos ?_).imp fun q _ hq => ⟨hq.nonneg hquotient0, ?_⟩
  · rw [abs_of_nonneg hquotient0]
    linarith
  · linarith [(abs_le.mp hq.abs_sub_le_half).2]

/-! ### Sums -/

/-- More entries than this no books can have. -/
def maxEntries : Nat := 2 ^ 64

variable {ds : List Decimal} {t : Decimal}

/-- So few terms are summed to within a tenth, however small they are. -/
theorem sum_near_of_few (hds : AllNonneg ds) (h : sum ds = .ok t) (hlen : ds.length ≤ maxEntries) :
    t.toRat ≤ 11 / 10 * exactSum ds ∧ exactSum ds ≤ 11 / 10 * t.toRat := by
  have hlen' : (ds.length : ℚ) ≤ 2 ^ 64 := by exact_mod_cast hlen
  have hexact := exactSum_nonneg hds
  rcases le_total t.toRat 1 with hone | hone
  · have heq := foldlM_add_exact hds h toRat_zero.ge hone
    rw [toRat_zero, zero_add] at heq
    rw [heq]
    constructor
    · linarith
    · linarith
  · have herror := sum_relative_error hds h (by linarith)
    have hfew : (ds.length : ℚ) * (2 / 3 * grain) ≤ 1 / 11 := by
      unfold grain maxPlaces
      linarith
    rw [div_sub_one (by linarith), abs_div, abs_of_pos (by linarith : 0 < t.toRat),
      div_le_iff₀ (by linarith)] at herror
    have hnear := abs_le.mp (herror.trans (mul_le_mul_of_nonneg_right hfew (by linarith)))
    constructor
    · linarith [hnear.1]
    · linarith [hnear.2]

/-- So are two of them. -/
theorem add_le_of_nonneg (h : a.add b = .ok r) (ha : 0 ≤ a.toRat) (hb : 0 ≤ b.toRat) :
    r.toRat ≤ 11 / 10 * (a.toRat + b.toRat) := by
  have hsum : sum [a, b] = .ok r := by
    rw [sum, List.foldlM_cons, zero_add_eq_ok]
    show [b].foldlM add a = .ok r
    rw [List.foldlM_cons, h]
    rfl
  have hnonneg : AllNonneg [a, b] :=
    allNonneg_cons.mpr ⟨ha, allNonneg_cons.mpr ⟨hb, List.forall_mem_nil _⟩⟩
  have hnear := (sum_near_of_few hnonneg hsum (show 2 ≤ maxEntries by decide)).1
  rwa [exactSum_cons, exactSum_cons, exactSum_nil, add_zero] at hnear

theorem yields_sum (hds : AllNonneg ds) (hlen : ds.length ≤ maxEntries)
    (hsum : exactSum ds ≤ 2 * 10 ^ 28) :
    Yields P (fun t => 0 ≤ t.toRat ∧ t.toRat ≤ 11 / 10 * exactSum ds) (sum ds) := by
  have hlen' : (ds.length : ℚ) ≤ 2 ^ 64 := by exact_mod_cast hlen
  have hcosts : (ds.map fun d => d.toRat + 1 / 2).sum = exactSum ds + ds.length * (1 / 2) := by
    rw [List.sum_map_add, List.map_const', List.sum_replicate, nsmul_eq_mul, exactSum]
  have hfold : Yields P (fun _ => True) (sum ds) := by
    refine (yields_foldlM_spending (I := fun u t => 0 ≤ t.toRat ∧ t.toRat ≤ u)
      (w := fun d => d.toRat + 1 / 2) ⟨toRat_zero.ge, toRat_zero.le⟩
      (fun d hd => by linarith [hds d hd]) le_rfl fun d hd u t ht hle => ?_).imp
        fun _ _ _ => trivial
    have hd0 := hds d hd
    rw [hcosts] at hle
    refine (yields_add ?_).imp fun r _ hr => ⟨hr.nonneg (by linarith), ?_⟩
    · rw [abs_of_nonneg (by linarith)]
      linarith
    · linarith [(abs_le.mp hr.abs_sub_le_half).2]
  exact hfold.imp fun t ht _ => ⟨sum_nonneg hds ht, (sum_near_of_few hds ht hlen).1⟩

end Decimal

end Insolvency
