/-
Accounts as numbers.

The books of an institution add up in two ways: exactly, which is what the laws are
about, and as the library adds them up, which is rounded.  `exactTotal` is the first, and
this file says what every operation on accounts does to it.

Sweeping does nothing to it, and putting an amount in changes it by just that amount.
Scaling rounds twice for each account, once the account and once what it lost by it;
`ScaledBy` bounds what this comes to over all accounts, and says that scaling by a factor
between nothing and one neither raises an account nor brings one below nothing.
-/
import Insolvency.Ledger.Accounts
import Insolvency.Proofs.Decimal.Sum

namespace Insolvency

namespace Table

theorem traverse_eq_ok {κ α β ε : Type} [Ord κ] {f : κ → α → Except ε β} {s : Table κ α}
    {t : Table κ β} (h : s.traverse f = .ok t) :
    List.Forall₂ (fun x y => y.1 = x.1 ∧ f x.1 x.2 = .ok y.2) s.entries t.entries := by
  obtain ⟨es, hes⟩ := s
  simp only [traverse, bind_eq_ok, pure_eq_ok] at h
  obtain ⟨⟨out, hkeys⟩, hout, rfl⟩ := h
  show List.Forall₂ _ es out
  clear hes
  induction es generalizing out with
  | nil => simpa using hkeys
  | cons x rest ih =>
      simp only [traverseEntries, bind_eq_ok, pure_eq_ok] at hout
      obtain ⟨w, hw, ⟨out', hkeys'⟩, hout', heq⟩ := hout
      obtain rfl := Subtype.ext_iff.mp heq
      exact .cons ⟨rfl, hw⟩ (ih _ _ hout')

/-- Where the rule has a result for every value, all of them are changed. -/
theorem exists_traverse {κ α β ε : Type} [Ord κ] {f : κ → α → Except ε β} {s : Table κ α}
    (h : ∀ x ∈ s.entries, ∃ w, f x.1 x.2 = .ok w) : ∃ t, s.traverse f = .ok t := by
  have hentries : ∀ es : List (κ × α), (∀ x ∈ es, ∃ w, f x.1 x.2 = .ok w) →
      ∃ out, traverseEntries f es = .ok out := by
    intro es
    induction es with
    | nil => exact fun _ => ⟨_, rfl⟩
    | cons x rest ih =>
        intro hall
        obtain ⟨⟨w, hw⟩, hrest⟩ := List.forall_mem_cons.mp hall
        obtain ⟨out, hout⟩ := ih hrest
        exact ⟨_, bind_eq_ok.mpr ⟨w, hw, bind_eq_ok.mpr ⟨out, hout, rfl⟩⟩⟩
  obtain ⟨out, hout⟩ := hentries s.entries h
  exact ⟨_, bind_eq_ok.mpr ⟨out, hout, rfl⟩⟩

/-- What a look-up finds is what was made of what it found before, and so it is where it finds
nothing. -/
theorem rel_lookup_getD {κ α β : Type} [Ord κ] {R : α → β → Prop} {k : κ} {es : List (κ × α)}
    {bs : List (κ × β)} {v₀ : α} {w₀ : β} (h₀ : R v₀ w₀)
    (h : List.Forall₂ (fun x y => y.1 = x.1 ∧ R x.2 y.2) es bs) :
    R ((lookup k es).getD v₀) ((lookup k bs).getD w₀) := by
  induction h with
  | nil => exact h₀
  | @cons x y _ _ hxy _ ih =>
      obtain ⟨j, v⟩ := x
      obtain ⟨j', w⟩ := y
      obtain ⟨rfl, hR⟩ := hxy
      unfold lookup
      split
      · exact hR
      · exact ih

theorem mem_insertEntry {κ α : Type} [Ord κ] {k : κ} {v : α} {x : κ × α} {es : List (κ × α)}
    (h : x ∈ insertEntry k v es) : x = (k, v) ∨ x ∈ es := by
  induction es with
  | nil => simpa [insertEntry] using h
  | cons e rest ih =>
      unfold insertEntry at h
      split at h
      · exact List.mem_cons.mp h
      · rcases List.mem_cons.mp h with h | h
        · exact Or.inl h
        · exact Or.inr (List.mem_cons_of_mem _ h)
      · rcases List.mem_cons.mp h with h | h
        · exact Or.inr (List.mem_cons.mpr (Or.inl h))
        · exact (ih h).imp id (List.mem_cons_of_mem _)

theorem length_insertEntry_le {κ α : Type} [Ord κ] (k : κ) (v : α) (es : List (κ × α)) :
    (insertEntry k v es).length ≤ es.length + 1 := by
  induction es with
  | nil => simp [insertEntry]
  | cons e rest ih =>
      unfold insertEntry
      split
      · simp
      · simp
      · simpa using ih

theorem length_insert_le {κ α : Type} [Ord κ] [Std.TransOrd κ] [Std.LawfulEqOrd κ]
    (t : Table κ α) (k : κ) (v : α) : (t.insert k v).entries.length ≤ t.entries.length + 1 :=
  length_insertEntry_le k v t.entries

end Table

namespace Accounts

open Decimal

variable {κ : Type} [Ord κ]

/-- What is in the accounts, as a number. -/
def exactTotal (a : Accounts κ) : ℚ := exactSum a.values

/-- No account is below nothing. -/
def Nonneg (a : Accounts κ) : Prop := AllNonneg a.values

theorem nonneg_iff {a : Accounts κ} : a.Nonneg ↔ a.hasNegative = false := by
  simp only [Nonneg, AllNonneg, hasNegative, List.any_eq_false, decide_eq_true_eq]
  refine forall₂_congr fun v _ => ?_
  rw [lt_iff_toRat, toRat_zero, not_lt]

theorem length_values (a : Accounts κ) : a.values.length = a.entries.length :=
  List.length_map ..

theorem exactTotal_nonneg {a : Accounts κ} (h : a.Nonneg) : 0 ≤ a.exactTotal := exactSum_nonneg h

@[simp] theorem exactTotal_empty : (∅ : Accounts κ).exactTotal = 0 := rfl

theorem nonneg_empty : (∅ : Accounts κ).Nonneg := fun _ hd => by cases hd

/-! ### Totals -/

theorem total_nonneg {a : Accounts κ} {t : Decimal} (h : a.total = .ok t) (ha : a.Nonneg) :
    0 ≤ t.toRat :=
  sum_nonneg ha h

theorem total_le {a : Accounts κ} {t : Decimal} (h : a.total = .ok t) (ha : a.Nonneg) :
    t.toRat ≤ 11 * a.exactTotal :=
  sum_le ha h

theorem total_error {a : Accounts κ} {t : Decimal} (h : a.total = .ok t) (ha : a.Nonneg) {c : ℚ}
    (hc : 1 ≤ c) (ht : t.toRat ≤ c) :
    |t.toRat - a.exactTotal| ≤ a.entries.length * (2 / 3 * grain * c) := by
  rw [← length_values]
  exact sum_error ha h hc ht

/-! ### Sweeping -/

theorem values_swept (a : Accounts κ) : a.swept.values = a.values.filter (· != 0) := by
  show (a.entries.filter fun e => e.2 != 0).map Prod.snd = (a.entries.map Prod.snd).filter (· != 0)
  rw [List.filter_map]
  rfl

@[simp] theorem exactTotal_swept (a : Accounts κ) : a.swept.exactTotal = a.exactTotal := by
  unfold exactTotal
  rw [values_swept]
  induction a.values with
  | nil => rfl
  | cons v rest ih =>
      by_cases hv : v = 0
      · rw [List.filter_cons_of_neg (by simp [hv]), ih, exactSum_cons, hv, toRat_zero, zero_add]
      · rw [List.filter_cons_of_pos (by simp [hv]), exactSum_cons, exactSum_cons, ih]

/-- Nothing is added where entries of nothing are swept out, so the sum is rounded the same. -/
theorem total_swept (a : Accounts κ) : a.swept.total = a.total := by
  unfold total
  rw [values_swept]
  exact foldlM_add_filter a.values 0

theorem zero_notMem_values_swept (a : Accounts κ) : (0 : Decimal) ∉ a.swept.values := by
  rw [values_swept]
  intro hmem
  simpa using (List.mem_filter.mp hmem).2

theorem swept_swept (a : Accounts κ) : Accounts.swept a.swept = a.swept := by
  refine Table.ext_entries ?_
  show (a.entries.filter _).filter _ = a.entries.filter _
  rw [List.filter_filter]
  simp only [Bool.and_self]

theorem Nonneg.swept {a : Accounts κ} (h : a.Nonneg) : a.swept.Nonneg := by
  intro v hv
  rw [values_swept] at hv
  exact h v (List.mem_of_mem_filter hv)

theorem length_swept_le (a : Accounts κ) : a.swept.entries.length ≤ a.entries.length :=
  List.length_filter_le ..

/-! ### Putting in -/

section Insert

variable [Std.TransOrd κ] [Std.LawfulEqOrd κ]

theorem exactSum_insertEntry (k : κ) (v : Decimal) {es : List (κ × Decimal)}
    (h : Ascending (es.map Prod.fst)) :
    exactSum ((Table.insertEntry k v es).map Prod.snd)
      = exactSum (es.map Prod.snd) - ((Table.lookup k es).getD 0).toRat + v.toRat := by
  induction es with
  | nil => simp [Table.insertEntry, Table.lookup]
  | cons e rest ih =>
      obtain ⟨k', v'⟩ := e
      have hrest := List.pairwise_cons.mp h
      unfold Table.insertEntry Table.lookup
      split
      · rename_i hlt
        -- The key is below all others, so it has no entry.
        have hnone : Table.lookup k rest = none :=
          Table.lookup_eq_none (Table.notMem_of_ascending (List.pairwise_cons.mpr
            ⟨fun j hj => Std.TransCmp.lt_trans hlt (hrest.1 j hj), hrest.2⟩))
        simp only [hlt, hnone, reduceCtorEq, if_false, Option.getD_none, toRat_zero,
          List.map_cons, exactSum_cons]
        ring
      · rename_i heq
        simp only [heq, if_true, Option.getD_some, List.map_cons, exactSum_cons]
        ring
      · rename_i hgt
        simp only [hgt, reduceCtorEq, if_false, List.map_cons, exactSum_cons, ih hrest.2]
        ring

theorem exactTotal_insert (a : Accounts κ) (k : κ) (v : Decimal) :
    exactTotal (a.insert k v) = a.exactTotal - (a.amount k).toRat + v.toRat :=
  exactSum_insertEntry k v a.ascending

theorem Nonneg.insert {a : Accounts κ} (h : a.Nonneg) (k : κ) {v : Decimal} (hv : 0 ≤ v.toRat) :
    Accounts.Nonneg (a.insert k v) := by
  intro w hw
  obtain ⟨x, hx, rfl⟩ := List.mem_map.mp hw
  rcases Table.mem_insertEntry hx with rfl | hx
  · exact hv
  · exact h _ (List.mem_map_of_mem hx)

end Insert

/-! ### One account of many -/

theorem lookup_getD_mem [Std.LawfulEqOrd κ] (k : κ) (es : List (κ × Decimal)) :
    (Table.lookup k es).getD 0 = 0 ∨ (Table.lookup k es).getD 0 ∈ es.map Prod.snd := by
  induction es with
  | nil => exact Or.inl rfl
  | cons e rest ih =>
      unfold Table.lookup
      split
      · exact Or.inr (List.mem_cons_self ..)
      · exact ih.imp id (List.mem_cons_of_mem _)

theorem amount_nonneg [Std.LawfulEqOrd κ] {a : Accounts κ} (h : a.Nonneg) (k : κ) :
    0 ≤ (a.amount k).toRat := by
  rcases lookup_getD_mem k a.entries with h0 | hmem
  · rw [amount, Table.get?, h0, toRat_zero]
  · exact h _ hmem

theorem amount_le_exactTotal [Std.LawfulEqOrd κ] {a : Accounts κ} (h : a.Nonneg) (k : κ) :
    (a.amount k).toRat ≤ a.exactTotal := by
  rcases lookup_getD_mem k a.entries with h0 | hmem
  · rw [amount, Table.get?, h0, toRat_zero]
    exact exactTotal_nonneg h
  · exact le_exactSum h hmem

/-- No account holds more than the books make of all of them. -/
theorem amount_le_total [Std.LawfulEqOrd κ] {a : Accounts κ} {t : Decimal} (h : a.total = .ok t)
    (ha : a.Nonneg) (k : κ) : (a.amount k).toRat ≤ t.toRat := by
  rcases lookup_getD_mem k a.entries with h0 | hmem
  · rw [amount, Table.get?, h0, toRat_zero]
    exact total_nonneg h ha
  · exact le_foldlM_add ha h toRat_zero.ge hmem

section Credit

variable [Std.TransOrd κ] [Std.LawfulEqOrd κ]

/-- What crediting an account with something not below nothing does to all of them. -/
structure Credited (a b : Accounts κ) (v : Decimal) : Prop where
  nonneg : b.Nonneg
  ge : a.exactTotal ≤ b.exactTotal
  le : b.exactTotal ≤ a.exactTotal + 11 * v.toRat
  error : ∀ c, 1 ≤ c → b.exactTotal ≤ c →
    |b.exactTotal - (a.exactTotal + v.toRat)| ≤ 2 / 3 * grain * c

theorem credited_of_credit {a b : Accounts κ} {k : κ} {v : Decimal} (h : a.credit k v = .ok b)
    (ha : a.Nonneg) (hv : 0 ≤ v.toRat) : Credited a b v := by
  simp only [credit, bind_eq_ok, pure_eq_ok] at h
  obtain ⟨new, hnew, rfl⟩ := h
  have hbounds := add_bounds hnew hv
  have hamount := amount_nonneg ha k
  have hnn := ha.insert k (hamount.trans hbounds.1)
  have htotal := exactTotal_insert a k new
  refine ⟨hnn, by linarith, by linarith, fun c hc hle => ?_⟩
  have hsize : |new.toRat| ≤ c := by
    rw [abs_of_nonneg (hamount.trans hbounds.1)]
    linarith [amount_le_exactTotal ha k]
  have hsplit : exactTotal (a.insert k new) - (a.exactTotal + v.toRat)
      = new.toRat - ((a.amount k).toRat + v.toRat) := by
    rw [htotal]
    ring
  rw [hsplit]
  exact (rounds_add hnew).abs_sub_le_result hc hsize

end Credit

/-! ### Scaling -/

/-- Amounts are scaled by a factor, and what each lost by it is listed, up to rounding. -/
structure ScaledBy (factor : ℚ) (before after lost : List Decimal) : Prop where
  after_length : after.length ≤ before.length
  lost_length : lost.length ≤ before.length
  after_nonneg : AllNonneg after
  lost_nonneg : AllNonneg lost
  after_le : exactSum after ≤ exactSum before
  lost_le : exactSum lost ≤ exactSum before
  after_error : |exactSum after - factor * exactSum before|
    ≤ 2 / 3 * grain * (before.length + exactSum before)
  lost_error : |exactSum lost - (exactSum before - exactSum after)|
    ≤ 2 / 3 * grain * (before.length + exactSum before)

theorem ScaledBy.nil {factor : ℚ} : ScaledBy factor [] [] [] where
  after_length := le_rfl
  lost_length := le_rfl
  after_nonneg := fun _ hd => by cases hd
  lost_nonneg := fun _ hd => by cases hd
  after_le := le_rfl
  lost_le := le_rfl
  after_error := by simp
  lost_error := by simp

/-- What scaling does to one account. -/
structure ScaledOne (factor : ℚ) (v scaled lost : Decimal) : Prop where
  scaled_nonneg : 0 ≤ scaled.toRat
  scaled_le : scaled.toRat ≤ v.toRat
  scaled_error : |scaled.toRat - factor * v.toRat| ≤ 2 / 3 * grain * (1 + v.toRat)
  lost_nonneg : 0 ≤ lost.toRat
  lost_le : lost.toRat ≤ v.toRat
  lost_error : |lost.toRat - (v.toRat - scaled.toRat)| ≤ 2 / 3 * grain * (1 + v.toRat)

theorem scaledOne_of_scaleOne {factor v scaled lost : Decimal}
    (h : scaleOne factor v = .ok (scaled, lost)) (hv : 0 ≤ v.toRat) (h0 : 0 ≤ factor.toRat)
    (h1 : factor.toRat ≤ 1) : ScaledOne factor.toRat v scaled lost := by
  simp only [scaleOne, bind_eq_ok, pure_eq_ok, Prod.mk.injEq] at h
  obtain ⟨_, hscaled, _, hlost, rfl, rfl⟩ := h
  have hmul := rounds_mul hscaled
  have hsub := rounds_sub hlost
  have hprod0 : 0 ≤ v.toRat * factor.toRat := mul_nonneg hv h0
  have hprod1 : v.toRat * factor.toRat ≤ v.toRat := mul_le_of_le_one_right hv h1
  have hs0 := hmul.nonneg hprod0
  have hs1 := hmul.le_of_le hprod1
  have hone : (1 : ℚ) ≤ 1 + v.toRat := by linarith
  exact {
    scaled_nonneg := hs0
    scaled_le := hs1
    scaled_error := by
      rw [mul_comm factor.toRat]
      exact hmul.abs_sub_le hone (by rw [abs_of_nonneg hprod0]; linarith)
    lost_nonneg := hsub.nonneg (by linarith)
    lost_le := hsub.le_of_le (by linarith)
    lost_error := hsub.abs_sub_le hone (by rw [abs_of_nonneg (by linarith)]; linarith) }

theorem ScaledBy.cons {factor : ℚ} {v scaled lost : Decimal} {vs scaleds losts : List Decimal}
    (h : ScaledOne factor v scaled lost) (hs : ScaledBy factor vs scaleds losts) :
    ScaledBy factor (v :: vs) (scaled :: scaleds) (lost :: losts) where
  after_length := Nat.succ_le_succ hs.after_length
  lost_length := Nat.succ_le_succ hs.lost_length
  after_nonneg := allNonneg_cons.mpr ⟨h.scaled_nonneg, hs.after_nonneg⟩
  lost_nonneg := allNonneg_cons.mpr ⟨h.lost_nonneg, hs.lost_nonneg⟩
  after_le := by
    rw [exactSum_cons, exactSum_cons]
    exact add_le_add h.scaled_le hs.after_le
  lost_le := by
    rw [exactSum_cons, exactSum_cons]
    exact add_le_add h.lost_le hs.lost_le
  after_error := by
    have hsplit : scaled.toRat + exactSum scaleds - factor * (v.toRat + exactSum vs)
        = (scaled.toRat - factor * v.toRat) + (exactSum scaleds - factor * exactSum vs) := by ring
    rw [exactSum_cons, exactSum_cons, hsplit, List.length_cons, Nat.cast_add_one]
    refine (abs_add_le _ _).trans ((add_le_add h.scaled_error hs.after_error).trans_eq ?_)
    ring
  lost_error := by
    have hsplit : lost.toRat + exactSum losts
          - (v.toRat + exactSum vs - (scaled.toRat + exactSum scaleds))
        = (lost.toRat - (v.toRat - scaled.toRat))
          + (exactSum losts - (exactSum vs - exactSum scaleds)) := by ring
    rw [exactSum_cons, exactSum_cons, exactSum_cons, hsplit, List.length_cons, Nat.cast_add_one]
    refine (abs_add_le _ _).trans ((add_le_add h.lost_error hs.lost_error).trans_eq ?_)
    ring

/-- Scaling by one loses nothing. -/
theorem ScaledBy.one {vs : List Decimal} (h : AllNonneg vs) : ScaledBy 1 vs vs [] where
  after_length := le_rfl
  lost_length := Nat.zero_le _
  after_nonneg := h
  lost_nonneg := fun _ hd => by cases hd
  after_le := le_rfl
  lost_le := exactSum_nonneg h
  after_error := by
    rw [one_mul, sub_self, abs_zero]
    exact mul_nonneg (by linarith [grain_pos]) (by linarith [exactSum_nonneg h])
  lost_error := by
    rw [sub_self, exactSum_nil, sub_zero, abs_zero]
    exact mul_nonneg (by linarith [grain_pos]) (by linarith [exactSum_nonneg h])

/-- Scaled accounts hold what was worked out for each amount, and so do the accounts of what
was lost. -/
theorem scale_eq_ok {a b lost : Accounts κ} {factor : Decimal}
    (h : a.scale factor = .ok (b, lost)) :
    ∃ both, List.Forall₂ (fun v p => scaleOne factor v = .ok p) a.values both ∧
      b.values = both.map Prod.fst ∧ lost.values = both.map Prod.snd := by
  simp only [scale, bind_eq_ok, pure_eq_ok, Prod.mk.injEq] at h
  obtain ⟨both, hboth, rfl, rfl⟩ := h
  refine ⟨both.values, ?_, ?_, ?_⟩
  · rw [Table.values, Table.values, List.forall₂_map_left_iff, List.forall₂_map_right_iff]
    exact (Table.traverse_eq_ok hboth).imp fun _ _ hxy => hxy.2
  · rw [Table.values, Table.values, Table.map, List.map_map, List.map_map]
    rfl
  · rw [Table.values, Table.values, Table.map, List.map_map, List.map_map]
    rfl

theorem scaleOne_zero (factor : Decimal) : scaleOne factor 0 = .ok (0, 0) := by
  rw [scaleOne, zero_mul_eq_ok]
  rfl

/-- The accounts that a table is read as, where the rule makes nothing of what stands for no
entry. -/
theorem amount_map {α : Type} (f : α → Decimal) (v₀ : α) (h₀ : f v₀ = 0) (t : Table κ α) (k : κ) :
    amount (t.map fun _ v => f v) k = f ((t.get? k).getD v₀) := by
  refine Table.rel_lookup_getD (R := fun v w => w = f v) h₀.symm ?_
  rw [Table.map, List.forall₂_map_right_iff]
  exact List.forall₂_same.mpr fun _ _ => ⟨rfl, rfl⟩

/-- What scaling makes of each amount, and what each loses by it. -/
theorem scaleOne_amount {a b lost : Accounts κ} {factor : Decimal}
    (h : a.scale factor = .ok (b, lost)) (k : κ) :
    scaleOne factor (a.amount k) = .ok (b.amount k, lost.amount k) := by
  simp only [scale, bind_eq_ok, pure_eq_ok, Prod.mk.injEq] at h
  obtain ⟨both, hboth, rfl, rfl⟩ := h
  have hboth' := Table.rel_lookup_getD (R := fun v p => scaleOne factor v = .ok p) (k := k)
    (scaleOne_zero factor) (Table.traverse_eq_ok hboth)
  rw [amount_map Prod.fst (0, 0) rfl, amount_map Prod.snd (0, 0) rfl]
  exact hboth'

theorem amount_of_scale {a b lost : Accounts κ} {factor : Decimal}
    (h : a.scale factor = .ok (b, lost)) (k : κ) :
    (a.amount k).mul factor = .ok (b.amount k) := by
  have hone := scaleOne_amount h k
  simp only [scaleOne, bind_eq_ok, pure_eq_ok, Prod.mk.injEq] at hone
  obtain ⟨_, hscaled, _, -, rfl, -⟩ := hone
  exact hscaled

/-- **What scaling by a factor between nothing and one does to accounts.** -/
theorem scaledBy_of_scale {a b lost : Accounts κ} {factor : Decimal}
    (h : a.scale factor = .ok (b, lost)) (ha : a.Nonneg) (h0 : 0 ≤ factor.toRat)
    (h1 : factor.toRat ≤ 1) : ScaledBy factor.toRat a.values b.values lost.values := by
  obtain ⟨both, hboth, hb, hlost⟩ := scale_eq_ok h
  rw [hb, hlost]
  clear hb hlost h
  unfold Nonneg at ha
  generalize a.values = vs at ha hboth
  induction hboth with
  | nil => exact .nil
  | cons hone _ ih =>
      obtain ⟨hv, hrest⟩ := allNonneg_cons.mp ha
      exact .cons (scaledOne_of_scaleOne hone hv h0 h1) (ih hrest)

/-- Scaled by nothing, an amount loses all of it. -/
theorem lost_of_scaleOne_zero {v : Decimal} {p : Decimal × Decimal}
    (h : scaleOne 0 v = .ok p) : p.2 = v := by
  simp only [scaleOne, bind_eq_ok, pure_eq_ok] at h
  obtain ⟨scaled, hscaled, lost, hlost, rfl⟩ := h
  have hmul := rounds_mul hscaled
  have hsub := rounds_sub hlost
  rw [toRat_zero, mul_zero, ← toRat_zero] at hmul
  rw [hmul.eq_of_amount, toRat_zero, sub_zero] at hsub
  exact hsub.eq_of_amount

theorem lost_of_scale_zero {a b lost : Accounts κ} (h : a.scale 0 = .ok (b, lost)) :
    lost.values = a.values := by
  obtain ⟨both, hboth, -, hlost⟩ := scale_eq_ok h
  rw [hlost]
  clear hlost h
  generalize a.values = vs at hboth
  induction hboth with
  | nil => rfl
  | cons hone _ ih => rw [List.map_cons, ih, lost_of_scaleOne_zero hone]

end Accounts

end Insolvency
