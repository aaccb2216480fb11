/-
How far a sum is from the exact one.

A sum rounds after each term, and no rounding is larger than the sum so far makes it.
Of amounts that are none below nothing the sum so far only grows, so the last one bounds
all roundings (`sum_error`).  That leaves the last one itself to be bounded.

  * However many terms there are, it is at most eleven times the exact sum, because no
    step is further from its exact result than ten times the term (`sum_le`).
  * Short of some 10²⁷ terms it is at most twice the exact sum or two (`sum_le_two_mul`).

The two together leave no case out: a sum is near the exact one by a multiple of one grain of
the size for each entry of the books and one more (`sum_near`), and that multiple is below the
hundred that figures may be off by.
-/
import Insolvency.Proofs.Decimal.Arithmetic

namespace Insolvency.Decimal

/-- The sum of some amounts, as a number. -/
def exactSum (ds : List Decimal) : ℚ := (ds.map toRat).sum

@[simp] theorem exactSum_nil : exactSum [] = 0 := rfl

@[simp] theorem exactSum_cons (d : Decimal) (ds : List Decimal) :
    exactSum (d :: ds) = d.toRat + exactSum ds := by
  simp [exactSum]

@[simp] theorem exactSum_append (ds es : List Decimal) :
    exactSum (ds ++ es) = exactSum ds + exactSum es := by
  simp [exactSum]

/-- No amount of a list is below nothing. -/
def AllNonneg (ds : List Decimal) : Prop := ∀ d ∈ ds, 0 ≤ d.toRat

theorem allNonneg_cons {d : Decimal} {ds : List Decimal} :
    AllNonneg (d :: ds) ↔ 0 ≤ d.toRat ∧ AllNonneg ds :=
  List.forall_mem_cons

theorem exactSum_nonneg {ds : List Decimal} (h : AllNonneg ds) : 0 ≤ exactSum ds := by
  refine List.sum_nonneg fun x hx => ?_
  obtain ⟨d, hd, rfl⟩ := List.mem_map.mp hx
  exact h d hd

theorem le_exactSum {ds : List Decimal} (h : AllNonneg ds) {d : Decimal} (hd : d ∈ ds) :
    d.toRat ≤ exactSum ds := by
  induction ds with
  | nil => cases hd
  | cons x rest ih =>
      obtain ⟨hx, hrest⟩ := allNonneg_cons.mp h
      rw [exactSum_cons]
      rcases List.mem_cons.mp hd with rfl | hd
      · linarith [exactSum_nonneg hrest]
      · linarith [ih hrest hd]

/-- Each amount above nothing adds a grain at least. -/
theorem length_mul_grain_le {ds : List Decimal} (h : ∀ d ∈ ds, 0 < d.toRat) :
    ds.length * grain ≤ exactSum ds := by
  induction ds with
  | nil => simp
  | cons d rest ih =>
      obtain ⟨hd, hrest⟩ := List.forall_mem_cons.mp h
      rw [exactSum_cons, List.length_cons, Nat.cast_add_one, add_one_mul, add_comm]
      exact add_le_add (grain_le_of_pos hd) (ih hrest)

theorem exactSum_le_exactSum {α : Type} {xs : List α} {f g : α → Decimal}
    (h : ∀ x ∈ xs, (f x).toRat ≤ (g x).toRat) : exactSum (xs.map f) ≤ exactSum (xs.map g) := by
  rw [exactSum, exactSum, List.map_map, List.map_map]
  exact List.sum_le_sum h

theorem exactSum_filter_le {α : Type} {f : α → Decimal} (p : α → Bool) {xs : List α}
    (h : AllNonneg (xs.map f)) : exactSum ((xs.filter p).map f) ≤ exactSum (xs.map f) := by
  induction xs with
  | nil => exact le_rfl
  | cons x rest ih =>
      obtain ⟨hx, hrest⟩ := allNonneg_cons.mp h
      have hle := ih hrest
      rw [List.filter_cons]
      split_ifs
      · simpa using hle
      · rw [List.map_cons, exactSum_cons]
        linarith

/-- How far figures worked out over some entries may be off: by dust, and by a hundred grains of
the size of the books for each entry and one more. -/
def tolerance (entries : Nat) (size : ℚ) : ℚ :=
  epsilon.toRat + (entries + 1) * max 1 size / 10 ^ 26

/-- A grain of the size of the books for each entry and one more. -/
def allowance (entries : Nat) (size : ℚ) : ℚ := (entries + 1) * (grain * max 1 size)

theorem allowance_nonneg (entries : Nat) (size : ℚ) : 0 ≤ allowance entries size := by
  have hone : (1 : ℚ) ≤ max 1 size := le_max_left _ _
  exact mul_nonneg (by positivity) (grain_mul_nonneg (by linarith))

theorem tolerance_eq (entries : Nat) (size : ℚ) :
    tolerance entries size = epsilon.toRat + 100 * allowance entries size := by
  unfold tolerance allowance grain maxPlaces
  ring

theorem allowance_mono {entries : Nat} {size size' : ℚ} (h : size ≤ size') :
    allowance entries size ≤ allowance entries size' := by
  have := grain_pos
  unfold allowance
  gcongr

/-- A grain for each entry, and one of the size, are within the allowance. -/
theorem grain_mul_add_le_allowance {entries n : Nat} {size : ℚ} (hn : n ≤ entries) :
    grain * (n + max 1 size) ≤ allowance entries size := by
  have hone : (1 : ℚ) ≤ max 1 size := le_max_left _ _
  have hn' : (n : ℚ) ≤ entries := by exact_mod_cast hn
  have hentries : (entries : ℚ) ≤ entries * max 1 size :=
    le_mul_of_one_le_right (by positivity) hone
  calc grain * (n + max 1 size) ≤ grain * ((entries + 1) * max 1 size) :=
        mul_le_mul_of_nonneg_left (by linarith) grain_pos.le
    _ = allowance entries size := by
        unfold allowance
        ring

/-- So are two thirds of the grains for figures of the size, but for the allowance. -/
theorem rounding_le_allowance {entries n : Nat} {size x : ℚ} (hn : n ≤ entries)
    (hx : x ≤ max 1 size + 2 * allowance entries size) :
    2 / 3 * grain * (n + x) ≤ allowance entries size := by
  have hallowance := allowance_nonneg entries size
  have hexact : grain * (n + max 1 size) ≤ allowance entries size := grain_mul_add_le_allowance hn
  have hhundred := hundred_grains_le hallowance
  have hle : grain * x ≤ grain * (max 1 size + 2 * allowance entries size) :=
    mul_le_mul_of_nonneg_left hx grain_pos.le
  linarith

/-- Fewer than a hundred grains for each entry and a hundred besides are within the tolerance. -/
theorem le_tolerance {entries : Nat} {size x a b : ℚ}
    (hx : x ≤ epsilon.toRat + grain * (a * (entries * max 1 size) + b * max 1 size))
    (ha : a ≤ 100) (hb : b ≤ 100) : x ≤ tolerance entries size := by
  have hone : (1 : ℚ) ≤ max 1 size := le_max_left _ _
  have hgrain : grain = 1 / 10 ^ 28 := rfl
  have hn : (0 : ℚ) ≤ entries * max 1 size := by positivity
  have h1 : a * (entries * max 1 size) ≤ 100 * (entries * max 1 size) :=
    mul_le_mul_of_nonneg_right ha hn
  have h2 : b * max 1 size ≤ 100 * max 1 size := mul_le_mul_of_nonneg_right hb (by linarith)
  unfold tolerance
  rw [hgrain] at hx
  linarith

/-! ### One term -/

/-- A term that is not below nothing does not lower the sum, and raises it by eleven times
itself at most. -/
theorem add_bounds {s v r : Decimal} (h : s.add v = .ok r) (hv : 0 ≤ v.toRat) :
    s.toRat ≤ r.toRat ∧ r.toRat ≤ s.toRat + 11 * v.toRat := by
  have hround := rounds_add h
  have hnear := hround.abs_sub_le_ten_mul s
  rw [sub_add_cancel_left, abs_neg, abs_of_nonneg hv] at hnear
  exact ⟨hround.ge_of_ge (by linarith), by linarith [(abs_le.mp hnear).2]⟩

/-! ### All terms -/

theorem foldlM_add_bounds {ds : List Decimal} (hds : AllNonneg ds) {s t : Decimal}
    (h : ds.foldlM add s = .ok t) : s.toRat ≤ t.toRat ∧ t.toRat ≤ s.toRat + 11 * exactSum ds := by
  induction ds generalizing s with
  | nil =>
      rw [List.foldlM_nil, pure_eq_ok] at h
      simp [h]
  | cons v rest ih =>
      rw [List.foldlM_cons, bind_eq_ok] at h
      obtain ⟨r, hr, h⟩ := h
      obtain ⟨hv, hrest⟩ := allNonneg_cons.mp hds
      have hstep := add_bounds hr hv
      have hlast := ih hrest h
      rw [exactSum_cons]
      exact ⟨hstep.1.trans hlast.1, by linarith⟩

/-- Where the last sum so far is bounded, all roundings are. -/
theorem foldlM_add_error {ds : List Decimal} (hds : AllNonneg ds) {s t : Decimal}
    (h : ds.foldlM add s = .ok t) (hs : 0 ≤ s.toRat) {c : ℚ} (hc : 1 ≤ c) (ht : t.toRat ≤ c) :
    |t.toRat - (s.toRat + exactSum ds)| ≤ ds.length * (2 / 3 * grain * c) := by
  induction ds generalizing s with
  | nil =>
      rw [List.foldlM_nil, pure_eq_ok] at h
      simp [h]
  | cons v rest ih =>
      rw [List.foldlM_cons, bind_eq_ok] at h
      obtain ⟨r, hr, h⟩ := h
      obtain ⟨hv, hrest⟩ := allNonneg_cons.mp hds
      have hr0 := hs.trans (add_bounds hr hv).1
      have hrc : |r.toRat| ≤ c := by
        rw [abs_of_nonneg hr0]
        exact (foldlM_add_bounds hrest h).1.trans ht
      have hstep := (rounds_add hr).abs_sub_le_result hc hrc
      have hsplit : t.toRat - (s.toRat + (v.toRat + exactSum rest))
          = (t.toRat - (r.toRat + exactSum rest)) + (r.toRat - (s.toRat + v.toRat)) := by ring
      rw [exactSum_cons, hsplit, List.length_cons, Nat.cast_add_one, add_one_mul]
      exact (abs_add_le _ _).trans (add_le_add (ih hrest h hr0) hstep)

/-- Where no term is larger, the sum is not. -/
theorem foldlM_add_mono {κ : Type} {keys : List κ} {f g : κ → Except Fault Decimal}
    (hle : ∀ k ∈ keys, ∀ x y, f k = .ok x → g k = .ok y → x.toRat ≤ y.toRat)
    {s s' t t' : Decimal} (hs : s.toRat ≤ s'.toRat)
    (h : keys.foldlM (fun sum k => do sum.add (← f k)) s = .ok t)
    (h' : keys.foldlM (fun sum k => do sum.add (← g k)) s' = .ok t') : t.toRat ≤ t'.toRat := by
  induction keys generalizing s s' with
  | nil =>
      obtain rfl := pure_eq_ok.mp h
      obtain rfl := pure_eq_ok.mp h'
      exact hs
  | cons k ks ih =>
      simp only [List.foldlM_cons, bind_eq_ok] at h h'
      obtain ⟨r, ⟨x, hx, hr⟩, h⟩ := h
      obtain ⟨r', ⟨y, hy, hr'⟩, h'⟩ := h'
      obtain ⟨hfirst, hothers⟩ := List.forall_mem_cons.mp hle
      refine ih hothers ((rounds_add hr).mono (rounds_add hr') ?_) h h'
      exact add_le_add hs (hfirst x y hx hy)

theorem sum_mono {α : Type} {xs : List α} {f g : α → Decimal}
    (hle : ∀ x ∈ xs, (f x).toRat ≤ (g x).toRat) {t t' : Decimal} (h : sum (xs.map f) = .ok t)
    (h' : sum (xs.map g) = .ok t') : t.toRat ≤ t'.toRat := by
  rw [sum, List.foldlM_map] at h h'
  refine foldlM_add_mono (f := fun x => .ok (f x)) (g := fun x => .ok (g x)) ?_ le_rfl h h'
  intro x hx a b ha hb
  exact Except.ok.inj ha ▸ Except.ok.inj hb ▸ hle x hx

/-- Numbers that are rounded one by one, and added up exactly, are off by two thirds of a grain for
each and two thirds of a grain of their size. -/
theorem exactSum_rounds_error {α : Type} {xs : List α} {ds : List Decimal} {exact size : α → ℚ}
    (h : List.Forall₂ (fun x d => Rounds (exact x) d ∧ |exact x| ≤ size x) xs ds) :
    |exactSum ds - (xs.map exact).sum| ≤ 2 / 3 * grain * (xs.length + (xs.map size).sum) := by
  induction h with
  | nil => simp
  | @cons x d xs ds hx _ ih =>
      have hone :=
        hx.1.abs_sub_le (by linarith [abs_nonneg (exact x)] : 1 ≤ 1 + size x) (by linarith)
      have hsplit : d.toRat + exactSum ds - (exact x + (xs.map exact).sum)
          = (d.toRat - exact x) + (exactSum ds - (xs.map exact).sum) := by ring
      rw [exactSum_cons, List.map_cons, List.sum_cons, List.map_cons, List.sum_cons, hsplit,
        List.length_cons, Nat.cast_add_one]
      refine (abs_add_le _ _).trans ((add_le_add hone ih).trans_eq ?_)
      ring

theorem sum_map_sub_toRat {α : Type} (xs : List α) (a b : α → Decimal) :
    (xs.map fun x => (a x).toRat - (b x).toRat).sum
      = exactSum (xs.map a) - exactSum (xs.map b) := by
  induction xs with
  | nil => simp
  | cons x rest ih =>
      simp only [List.map_cons, List.sum_cons, exactSum_cons, ih]
      ring

theorem allNonneg_of_sub {α : Type} {xs : List α} {ds : List Decimal} {a b : α → Decimal}
    (h : List.Forall₂ (fun x d => (a x).sub (b x) = .ok d) xs ds)
    (hle : ∀ x ∈ xs, (b x).toRat ≤ (a x).toRat) : AllNonneg ds := by
  induction h with
  | nil => exact List.forall_mem_nil _
  | cons hx _ ih =>
      obtain ⟨hfirst, hrest⟩ := List.forall_mem_cons.mp hle
      exact allNonneg_cons.mpr ⟨(rounds_sub hx).nonneg (sub_nonneg.mpr hfirst), ih hrest⟩

/-- So it is with differences of which none is below nothing. -/
theorem exactSum_sub_error {α : Type} {xs : List α} {ds : List Decimal} {a b : α → Decimal}
    (h : List.Forall₂ (fun x d => (a x).sub (b x) = .ok d) xs ds)
    (hb : ∀ x ∈ xs, 0 ≤ (b x).toRat ∧ (b x).toRat ≤ (a x).toRat) :
    |exactSum ds - (exactSum (xs.map a) - exactSum (xs.map b))|
      ≤ 2 / 3 * grain * (xs.length + exactSum (xs.map a)) := by
  have hrounds : List.Forall₂ (fun x d => Rounds ((a x).toRat - (b x).toRat) d
      ∧ |(a x).toRat - (b x).toRat| ≤ (a x).toRat) xs ds := by
    induction h with
    | nil => exact .nil
    | cons hx _ ih =>
        obtain ⟨⟨hb0, hle⟩, hrest⟩ := List.forall_mem_cons.mp hb
        refine .cons ⟨rounds_sub hx, ?_⟩ (ih hrest)
        rw [abs_of_nonneg (sub_nonneg.mpr hle)]
        exact sub_le_self _ hb0
  have herror := exactSum_rounds_error hrounds
  rwa [sum_map_sub_toRat, ← Function.comp_def, ← List.map_map] at herror

theorem foldlM_add_filter (ds : List Decimal) (s : Decimal) :
    (ds.filter (· != 0)).foldlM add s = ds.foldlM add s := by
  induction ds generalizing s with
  | nil => rfl
  | cons v rest ih =>
      by_cases hv : v = 0
      · rw [List.filter_cons_of_neg (by simp [hv]), ih, List.foldlM_cons, hv, add_zero_eq_ok]
        rfl
      · rw [List.filter_cons_of_pos (by simp [hv]), List.foldlM_cons, List.foldlM_cons]
        simp only [ih]

theorem sum_singleton_eq_ok (d : Decimal) : sum [d] = .ok d := by
  unfold sum
  rw [List.foldlM_cons, zero_add_eq_ok]
  rfl

/-! ### Small sums -/

theorem add_toRat (a b : Decimal) :
    a.toRat + b.toRat = ((a.units + b.units : Int) : ℚ) / 10 ^ maxPlaces := by
  rw [toRat_eq_units_div, toRat_eq_units_div, Int.cast_add, add_div]

/-- Sums up to one are exact. -/
theorem add_exact {a b r : Decimal} (h : a.add b = .ok r) (ha : 0 ≤ a.toRat) (hb : 0 ≤ b.toRat)
    (hr : r.toRat ≤ 1) : r.toRat = a.toRat + b.toRat := by
  have hround := rounds_add h
  have hr0 : 0 ≤ r.toRat := ha.trans (add_bounds h hb).1
  have hnear := hround.abs_sub_le_result le_rfl ((abs_of_nonneg hr0).trans_le hr)
  have hsmall : a.toRat + b.toRat ≤ 2 := by
    have := (abs_le.mp hnear).1
    unfold grain maxPlaces at this
    linarith
  have hsum : 0 ≤ a.toRat + b.toRat := add_nonneg ha hb
  rw [add_toRat] at hround hsmall hsum ⊢
  refine hround.eq_of_grains ?_
  rw [div_le_iff₀ (by positivity)] at hsmall
  rw [le_div_iff₀ (by positivity), zero_mul] at hsum
  have h0 : 0 ≤ a.units + b.units := by exact_mod_cast hsum
  have h2 : a.units + b.units ≤ 2 * 10 ^ maxPlaces := by exact_mod_cast hsmall
  have hbound : (2 : Int) * 10 ^ maxPlaces < mantissaBound := by decide
  omega

theorem foldlM_add_exact {ds : List Decimal} (hds : AllNonneg ds) {s t : Decimal}
    (h : ds.foldlM add s = .ok t) (hs : 0 ≤ s.toRat) (ht : t.toRat ≤ 1) :
    t.toRat = s.toRat + exactSum ds := by
  induction ds generalizing s with
  | nil =>
      obtain rfl := pure_eq_ok.mp h
      simp
  | cons v rest ih =>
      rw [List.foldlM_cons, bind_eq_ok] at h
      obtain ⟨r, hr, h⟩ := h
      obtain ⟨hv, hrest⟩ := allNonneg_cons.mp hds
      have hr1 : r.toRat ≤ 1 := (foldlM_add_bounds hrest h).1.trans ht
      rw [ih hrest h (hs.trans (add_bounds hr hv).1), add_exact hr hs hv hr1, exactSum_cons,
        add_assoc]

/-- No term is larger than the sum. -/
theorem le_foldlM_add {ds : List Decimal} (hds : AllNonneg ds) {s t d : Decimal}
    (h : ds.foldlM add s = .ok t) (hs : 0 ≤ s.toRat) (hd : d ∈ ds) : d.toRat ≤ t.toRat := by
  induction ds generalizing s with
  | nil => cases hd
  | cons v rest ih =>
      rw [List.foldlM_cons, bind_eq_ok] at h
      obtain ⟨r, hr, h⟩ := h
      obtain ⟨hv, hrest⟩ := allNonneg_cons.mp hds
      rcases List.mem_cons.mp hd with rfl | hd
      · have hdr : d.toRat ≤ r.toRat := (rounds_add hr).ge_of_ge (by linarith)
        exact hdr.trans (foldlM_add_bounds hrest h).1
      · exact ih hrest h (hs.trans (add_bounds hr hv).1) hd

section Sum

variable {ds : List Decimal} {t : Decimal}

theorem sum_nonneg (hds : AllNonneg ds) (h : sum ds = .ok t) : 0 ≤ t.toRat := by
  simpa using (foldlM_add_bounds hds h).1

theorem sum_le (hds : AllNonneg ds) (h : sum ds = .ok t) : t.toRat ≤ 11 * exactSum ds := by
  simpa using (foldlM_add_bounds hds h).2

/-- **A sum is off by two thirds of a grain of its size for each term, at most.** -/
theorem sum_error (hds : AllNonneg ds) (h : sum ds = .ok t) {c : ℚ} (hc : 1 ≤ c)
    (ht : t.toRat ≤ c) : |t.toRat - exactSum ds| ≤ ds.length * (2 / 3 * grain * c) := by
  simpa using foldlM_add_error hds h (by simp) hc ht

/-- As long as there are not absurdly many terms, the sum is of the size of the exact one. -/
theorem sum_le_two_mul (hds : AllNonneg ds) (h : sum ds = .ok t)
    (hlen : ds.length * (4 / 3 * grain) ≤ 1) {c : ℚ} (hc : 1 ≤ c) (hsum : exactSum ds ≤ c) :
    t.toRat ≤ 2 * c := by
  -- Were it larger, it would be off by less than half of itself.
  by_contra hlt
  have hlarge : 2 * c < t.toRat := not_le.mp hlt
  have herr := (abs_le.mp (sum_error hds h (by linarith : 1 ≤ t.toRat) le_rfl)).2
  have hhalf : ds.length * (2 / 3 * grain * t.toRat) ≤ 1 / 2 * t.toRat := by
    have := mul_le_mul_of_nonneg_right hlen (by linarith : 0 ≤ 1 / 2 * t.toRat)
    linarith
  linarith

/-- However small a sum is, it is off by two thirds of a grain of itself for each term, at most:
below one it is exact. -/
theorem sum_relative_error (hds : AllNonneg ds) (h : sum ds = .ok t) (ht : 0 < t.toRat) :
    |exactSum ds / t.toRat - 1| ≤ ds.length * (2 / 3 * grain) := by
  have hgrain := grain_pos
  rw [div_sub_one ht.ne', abs_div, abs_of_pos ht, div_le_iff₀ ht]
  rcases le_total t.toRat 1 with hone | hone
  · have hexact := foldlM_add_exact hds h toRat_zero.ge hone
    rw [toRat_zero, zero_add] at hexact
    rw [← hexact, sub_self, abs_zero]
    positivity
  · rw [abs_sub_comm]
    exact (sum_error hds h hone le_rfl).trans_eq (by ring)

/-- Be they few or many, amounts that come to the size, but for the allowance, are summed to within
forty-four times the allowance. -/
theorem sum_near (hds : AllNonneg ds) (h : sum ds = .ok t) {entries : Nat} {size : ℚ}
    (hlen : ds.length ≤ 2 * (entries + 1))
    (hsum : exactSum ds ≤ max 1 size + 2 * allowance entries size) :
    |t.toRat - exactSum ds| ≤ 44 * allowance entries size := by
  have hlow := sum_nonneg hds h
  have hhigh := sum_le hds h
  have hexact := exactSum_nonneg hds
  have hone : (1 : ℚ) ≤ max 1 size := le_max_left _ _
  rcases le_or_gt (allowance entries size) (max 1 size) with hfew | hmany
  · have herror := sum_error hds h (by linarith : 1 ≤ 33 * max 1 size) (by linarith)
    have hcount : (ds.length : ℚ) ≤ 2 * (entries + 1) := by exact_mod_cast hlen
    have hgrain := grain_mul_nonneg (by linarith : 0 ≤ max 1 size)
    calc |t.toRat - exactSum ds| ≤ ds.length * (2 / 3 * grain * (33 * max 1 size)) := herror
      _ = ds.length * (22 * (grain * max 1 size)) := by ring
      _ ≤ 2 * (entries + 1) * (22 * (grain * max 1 size)) := by gcongr
      _ = 44 * allowance entries size := by
          unfold allowance
          ring
  · -- With so many entries the bound is larger than anything that there is.
    rw [abs_le]
    constructor
    · linarith
    · linarith

end Sum

end Insolvency.Decimal
