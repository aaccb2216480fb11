/-
Shares moved one handover after the other, and what that does to the accounts.

Some accounts only give and all others only take.  So each account is a running total of the
handovers that concern it, one of differences or one of sums, and both are what was moved but
for the roundings on the way.  What one account gives another gets, so over all accounts only
the roundings are left.

They are bounded by how large the accounts can get.  Those that give hold no more than before.
Those that take can outgrow what they got only where there are absurdly many handovers, and then
not by more than what the handovers come to once again (`foldlM_add_le_twice`).
-/
import Mathlib.Algebra.BigOperators.Group.Finset.Piecewise
import Mathlib.Algebra.Order.BigOperators.Ring.Finset
import Insolvency.Episode.Basic
import Insolvency.Proofs.Decimal.Growth
import Insolvency.Proofs.Ledger.Creditors
import Insolvency.Proofs.Ledger.Shares

namespace Insolvency

open Decimal

/-! ### One account -/

/-- Where amounts are taken off that leave something, all roundings are small. -/
theorem Decimal.foldlM_sub_error {ds : List Decimal} (hds : AllNonneg ds) {s t : Decimal}
    (h : ds.foldlM sub s = .ok t) (ht : 0 ≤ t.toRat) : t.toRat ≤ s.toRat ∧
      ∀ c, 1 ≤ c → s.toRat ≤ c →
        |t.toRat - (s.toRat - exactSum ds)| ≤ ds.length * (2 / 3 * grain * c) := by
  induction ds generalizing s with
  | nil =>
      obtain rfl := pure_eq_ok.mp h
      exact ⟨le_rfl, fun c _ _ => by simp⟩
  | cons v rest ih =>
      rw [List.foldlM_cons, bind_eq_ok] at h
      obtain ⟨r, hr, h⟩ := h
      obtain ⟨hv, hrest⟩ := allNonneg_cons.mp hds
      obtain ⟨hle, herror⟩ := ih hrest h
      have hstep := (rounds_sub hr).le_of_le (sub_le_self _ hv)
      refine ⟨hle.trans hstep, fun c hc hs => ?_⟩
      have hsize : |r.toRat| ≤ c := by
        rw [abs_of_nonneg (ht.trans hle)]
        exact hstep.trans hs
      have hone := (rounds_sub hr).abs_sub_le_result hc hsize
      have hsplit : t.toRat - (s.toRat - (v.toRat + exactSum rest))
          = (t.toRat - (r.toRat - exactSum rest)) + (r.toRat - (s.toRat - v.toRat)) := by ring
      rw [exactSum_cons, hsplit, List.length_cons, Nat.cast_add_one, add_one_mul]
      exact (abs_add_le _ _).trans (add_le_add (herror c hc (hstep.trans hs)) hone)

/-- Accounts have given and got so much, in so many roundings. -/
structure GaveAndGot (count : Nat) (before gave got after : ℚ) : Prop where
  gave_le : ∀ c, 1 ≤ c → before ≤ c → gave ≤ before + count * (2 / 3 * grain * c)
  after_le : after ≤ before + 2 * got + grain * after
  error : ∀ c, 1 ≤ c → before ≤ c → after ≤ c →
    |after - (before + got - gave)| ≤ count * (2 / 3 * grain * c)

theorem gaveAndGot_of_sub {ds : List Decimal} {s t : Decimal} (hds : AllNonneg ds)
    (h : ds.foldlM sub s = .ok t) (ht : 0 ≤ t.toRat) :
    GaveAndGot ds.length s.toRat (exactSum ds) 0 t.toRat := by
  obtain ⟨hle, herror⟩ := foldlM_sub_error hds h ht
  refine ⟨fun c hc hs => ?_, by linarith [grain_mul_nonneg ht], fun c hc hs _ => ?_⟩
  · linarith [(abs_le.mp (herror c hc hs)).2]
  · simpa using herror c hc hs

theorem gaveAndGot_of_add {ds : List Decimal} {s t : Decimal} (hds : AllNonneg ds)
    (h : ds.foldlM add s = .ok t) (hs : 0 ≤ s.toRat) :
    GaveAndGot ds.length s.toRat 0 (exactSum ds) t.toRat := by
  refine ⟨fun c hc _ => ?_, foldlM_add_le_twice hds h hs, fun c hc _ ht => ?_⟩
  · linarith [grain_mul_count_nonneg ds.length (by linarith : 0 ≤ c)]
  · simpa using foldlM_add_error hds h hs hc ht

/-! ### All accounts -/

namespace GaveAndGot

/-- All accounts together have given and got what each of them has. -/
theorem sum {K : Finset AgentId} {count : AgentId → Nat} {before gave got after : AgentId → ℚ}
    (h : ∀ a ∈ K, GaveAndGot (count a) (before a) (gave a) (got a) (after a))
    (hbefore : ∀ a ∈ K, 0 ≤ before a) (hafter : ∀ a ∈ K, 0 ≤ after a) :
    GaveAndGot (∑ a ∈ K, count a) (∑ a ∈ K, before a) (∑ a ∈ K, gave a) (∑ a ∈ K, got a)
      (∑ a ∈ K, after a) where
  gave_le := fun c hc hle => by
    rw [Nat.cast_sum, Finset.sum_mul, ← Finset.sum_add_distrib]
    refine Finset.sum_le_sum fun a ha => (h a ha).gave_le c hc ?_
    exact (Finset.single_le_sum hbefore ha).trans hle
  after_le := by
    rw [Finset.mul_sum, Finset.mul_sum, ← Finset.sum_add_distrib, ← Finset.sum_add_distrib]
    exact Finset.sum_le_sum fun a ha => (h a ha).after_le
  error := fun c hc hle hle' => by
    rw [Nat.cast_sum, Finset.sum_mul, ← Finset.sum_add_distrib, ← Finset.sum_sub_distrib,
      ← Finset.sum_sub_distrib]
    refine (Finset.abs_sum_le_sum_abs _ _).trans (Finset.sum_le_sum fun a ha => ?_)
    exact (h a ha).error c hc ((Finset.single_le_sum hbefore ha).trans hle)
      ((Finset.single_le_sum hafter ha).trans hle')

/-- Where what is given is what is got, little is lost or won. -/
theorem abs_sub_le {n : Nat} {before moved after : ℚ}
    (h : GaveAndGot (2 * n) before moved moved after) (hafter : 0 ≤ after) :
    |after - before| ≤ n * (10 * (grain * max 1 before)) := by
  have hone : (1 : ℚ) ≤ max 1 before := le_max_left _ _
  have hsize : before ≤ max 1 before := le_max_right _ _
  generalize max 1 before = c at hone hsize ⊢
  have hmoved := h.gave_le c hone hsize
  have hgrown := h.after_le
  have hgrain := hundred_grains_le hafter
  rw [Nat.cast_mul, Nat.cast_ofNat] at hmoved
  rcases le_total (n * (grain * c)) c with hfew | hmany
  · have herror := h.error (6 * c) (by linarith) (by linarith) (by linarith)
    have hroundings := grain_mul_count_nonneg n (by linarith : 0 ≤ c)
    rw [Nat.cast_mul, Nat.cast_ofNat, add_sub_cancel_right] at herror
    linarith
  · -- With so many handovers the bound is larger than anything that there is.
    rw [abs_le]
    constructor
    · linarith
    · linarith

end GaveAndGot

/-- Share accounts are what they hold for any parties that theirs are among. -/
theorem Shares.sum_held {r : Shares} {K : Finset AgentId} (hK : ∀ a ∈ r.holders.keys, a ∈ K) :
    ∑ a ∈ K, (r.held a).toRat = r.holders.exactTotal := by
  rw [← Finset.sum_map_toList]
  exact r.holders.sum_amounts K.nodup_toList fun a ha => Finset.mem_toList.mpr (hK a ha)

/-! ### Handovers -/

namespace Handover

variable {outside : AgentId → Prop} {r r' r'' : Shares} {h : Handover} {hs : List Handover}
  {a : AgentId}

/-- The quantities of those handovers in which a party has the part. -/
def quantities (part : Handover → AgentId) (a : AgentId) (hs : List Handover) : List Decimal :=
  (hs.filter fun h => part h == a).map quantity

theorem quantities_append (part : Handover → AgentId) (a : AgentId) (hs hs' : List Handover) :
    quantities part a (hs ++ hs') = quantities part a hs ++ quantities part a hs' := by
  unfold quantities
  rw [List.filter_append, List.map_append]

theorem quantities_singleton (part : Handover → AgentId) (a : AgentId) (h : Handover) :
    quantities part a [h] = if part h = a then [h.quantity] else [] := by
  unfold quantities
  by_cases ha : part h = a
  · rw [if_pos ha, List.filter_cons_of_pos (by simpa using ha)]
    rfl
  · rw [if_neg ha, List.filter_cons_of_neg (by simpa using ha)]
    rfl

theorem length_quantities_le (part : Handover → AgentId) (a : AgentId) (hs : List Handover) :
    (quantities part a hs).length ≤ hs.length :=
  (List.length_map _).trans_le (List.length_filter_le ..)

/-- Every handover counts for one party. -/
theorem sum_quantities {part : Handover → AgentId} {K : Finset AgentId} {hs : List Handover}
    (hK : ∀ h ∈ hs, part h ∈ K) : ∑ a ∈ K, exactSum (quantities part a hs)
        = exactSum (hs.map quantity) ∧
      ∑ a ∈ K, (quantities part a hs).length = hs.length := by
  induction hs with
  | nil => exact ⟨Finset.sum_const_zero, Finset.sum_const_zero⟩
  | cons h rest ih =>
      obtain ⟨hfirst, hrest⟩ := List.forall_mem_cons.mp hK
      obtain ⟨hsum, hlength⟩ := ih hrest
      have hcons : ∀ a, quantities part a (h :: rest)
          = quantities part a [h] ++ quantities part a rest := fun a =>
        quantities_append part a [h] rest
      simp only [hcons, quantities_singleton, exactSum_append, List.length_append,
        Finset.sum_add_distrib, hsum, hlength, apply_ite exactSum, apply_ite List.length,
        exactSum_nil, List.length_nil, Finset.sum_ite_eq, hfirst, if_true]
      simp [add_comm]

/-- A handover moves shares from an account of those outside to one of all others. -/
structure Moves (outside : AgentId → Prop) (r : Shares) (h : Handover) (r' : Shares) : Prop where
  source : outside h.source
  holder : ¬ outside h.holder
  nonneg : 0 ≤ h.quantity.toRat
  debited : (r.held h.source).sub h.quantity = .ok (r'.held h.source)
  credited : (r.held h.holder).add h.quantity = .ok (r'.held h.holder)
  others : ∀ a, a ≠ h.source → a ≠ h.holder → r'.held a = r.held a

theorem moves_of_transfer {source creditor holder : AgentId} {q moved value : Decimal}
    (h : r.transfer source holder q = .ok (r', moved)) (hsource : outside source)
    (hholder : ¬ outside holder) : Moves outside r ⟨source, creditor, holder, moved, value⟩ r' := by
  have hne : source ≠ holder := fun heq => hholder (heq ▸ hsource)
  exact {
    source := hsource
    holder := hholder
    nonneg := (Shares.transfer_eq_ok h).1 ▸ Shares.movable_nonneg r source q
    debited := Shares.sub_held_transfer h hne
    credited := Shares.held_transfer_target h hne
    others := fun a => Shares.held_transfer_of_ne h }

/-- Handovers one after the other. -/
inductive Moved (outside : AgentId → Prop) (r : Shares) : List Handover → Shares → Prop
  | nil : Moved outside r [] r
  | snoc {hs : List Handover} {h : Handover} {r' r'' : Shares} (before : Moved outside r hs r')
      (last : Moves outside r' h r'') : Moved outside r (hs ++ [h]) r''

namespace Moved

theorem sources (h : Moved outside r hs r') : ∀ x ∈ hs, outside x.source := by
  induction h with
  | nil => exact List.forall_mem_nil _
  | snoc _ last ih =>
      exact List.forall_mem_append.mpr ⟨ih, List.forall_mem_singleton.mpr last.source⟩

theorem nonneg (h : Moved outside r hs r') : AllNonneg (hs.map quantity) := by
  induction h with
  | nil => exact List.forall_mem_nil _
  | snoc _ last ih =>
      rw [List.map_append]
      exact List.forall_mem_append.mpr ⟨ih, List.forall_mem_singleton.mpr last.nonneg⟩

theorem quantities_nonneg (h : Moved outside r hs r') (part : Handover → AgentId) (a : AgentId) :
    AllNonneg (quantities part a hs) :=
  fun d hd => h.nonneg d (List.map_subset _ (List.filter_subset_self _) hd)

/-- The account of somebody outside only gives. -/
theorem sub_taken (h : Moved outside r hs r') (ha : outside a) :
    quantities holder a hs = [] ∧
      (quantities source a hs).foldlM sub (r.held a) = .ok (r'.held a) := by
  induction h with
  | nil => exact ⟨rfl, rfl⟩
  | @snoc hs h r' r'' _ last ih =>
      obtain ⟨hput, htaken⟩ := ih
      have hholder : a ≠ h.holder := fun heq => last.holder (heq ▸ ha)
      rw [quantities_append, quantities_append, quantities_singleton, quantities_singleton, hput,
        if_neg hholder.symm, List.foldlM_append, htaken]
      refine ⟨rfl, ?_⟩
      split_ifs with hsource
      · exact (bind_pure _).trans (hsource ▸ last.debited)
      · rw [last.others a (Ne.symm hsource) hholder]
        rfl

/-- All other accounts only take. -/
theorem add_put (h : Moved outside r hs r') (ha : ¬ outside a) :
    quantities source a hs = [] ∧
      (quantities holder a hs).foldlM add (r.held a) = .ok (r'.held a) := by
  induction h with
  | nil => exact ⟨rfl, rfl⟩
  | @snoc hs h r' r'' _ last ih =>
      obtain ⟨htaken, hput⟩ := ih
      have hsource : a ≠ h.source := fun heq => ha (heq ▸ last.source)
      rw [quantities_append, quantities_append, quantities_singleton, quantities_singleton, htaken,
        if_neg hsource.symm, List.foldlM_append, hput]
      refine ⟨rfl, ?_⟩
      split_ifs with hholder
      · exact (bind_pure _).trans (hholder ▸ last.credited)
      · rw [last.others a hsource (Ne.symm hholder)]
        rfl

/-- Every account has given or got what the handovers say. -/
theorem gaveAndGot (h : Moved outside r hs r') (hr : r.holders.Nonneg) (hr' : r'.holders.Nonneg)
    (a : AgentId) :
    GaveAndGot ((quantities source a hs).length + (quantities holder a hs).length)
      (r.held a).toRat (exactSum (quantities source a hs)) (exactSum (quantities holder a hs))
      (r'.held a).toRat := by
  by_cases ha : outside a
  · obtain ⟨hput, hsub⟩ := h.sub_taken ha
    rw [hput]
    exact gaveAndGot_of_sub (h.quantities_nonneg source a) hsub (Accounts.amount_nonneg hr' a)
  · obtain ⟨htaken, hadd⟩ := h.add_put ha
    rw [htaken, List.length_nil, Nat.zero_add]
    exact gaveAndGot_of_add (h.quantities_nonneg holder a) hadd (Accounts.amount_nonneg hr a)

/-- Whoever is outside has no more than before, and all others have no less. -/
theorem held_le (h : Moved outside r hs r') (hr' : r'.holders.Nonneg) (ha : outside a) :
    (r'.held a).toRat ≤ (r.held a).toRat :=
  (foldlM_sub_error (h.quantities_nonneg source a) (h.sub_taken ha).2
    (Accounts.amount_nonneg hr' a)).1

theorem le_held (h : Moved outside r hs r') (ha : ¬ outside a) :
    (r.held a).toRat ≤ (r'.held a).toRat :=
  (foldlM_add_bounds (h.quantities_nonneg holder a) (h.add_put ha).2).1

/-- No more is taken from an account than it held, but for the roundings. -/
theorem taken_le (h : Moved outside r hs r') (hr : r.holders.Nonneg) (hr' : r'.holders.Nonneg)
    (a : AgentId) : exactSum (quantities source a hs)
      ≤ (r.held a).toRat + hs.length * (10 * (grain * max 1 r.holders.exactTotal)) := by
  have hle := (h.gaveAndGot hr hr' a).gave_le (max 1 r.holders.exactTotal) (le_max_left _ _)
    ((Accounts.amount_le_exactTotal hr a).trans (le_max_right _ _))
  have hcount : ((quantities source a hs).length + (quantities holder a hs).length : ℚ)
      ≤ 2 * hs.length := by
    have htaken := length_quantities_le source a hs
    have hput := length_quantities_le holder a hs
    rw [two_mul]
    exact add_le_add (by exact_mod_cast htaken) (by exact_mod_cast hput)
  have hgrain := grain_mul_nonneg (by linarith [le_max_left 1 r.holders.exactTotal] :
    0 ≤ max 1 r.holders.exactTotal)
  have hroundings := mul_le_mul_of_nonneg_right hcount hgrain
  have hslack := mul_nonneg hs.length.cast_nonneg hgrain
  rw [Nat.cast_add] at hle
  linarith

/-- **Moving shares keeps their number, but for the roundings.** -/
theorem abs_total_sub_le (h : Moved outside r hs r') (hr : r.holders.Nonneg)
    (hr' : r'.holders.Nonneg) : |r'.holders.exactTotal - r.holders.exactTotal|
      ≤ hs.length * (10 * (grain * max 1 r.holders.exactTotal)) := by
  obtain ⟨K, hbefore, hafter, hsources, hholders⟩ : ∃ K : Finset AgentId,
      (∀ a ∈ r.holders.keys, a ∈ K) ∧ (∀ a ∈ r'.holders.keys, a ∈ K) ∧
      (∀ x ∈ hs, x.source ∈ K) ∧ ∀ x ∈ hs, x.holder ∈ K := by
    refine ⟨r.holders.keys.toFinset ∪ r'.holders.keys.toFinset
      ∪ (hs.map source).toFinset ∪ (hs.map holder).toFinset, ?_⟩
    simp +contextual [List.mem_map_of_mem]
  have hsum := GaveAndGot.sum (K := K) (fun a _ => h.gaveAndGot hr hr' a)
    (fun a _ => Accounts.amount_nonneg hr a) fun a _ => Accounts.amount_nonneg hr' a
  obtain ⟨hgave, hcount⟩ := sum_quantities hsources
  obtain ⟨hgot, hcount'⟩ := sum_quantities hholders
  rw [hgave, hgot, Finset.sum_add_distrib, hcount, hcount', ← Nat.two_mul, Shares.sum_held hbefore,
    Shares.sum_held hafter] at hsum
  exact hsum.abs_sub_le (Accounts.exactTotal_nonneg hr')

end Moved

end Handover

end Insolvency
