/-
Holding less never weighs more.

Risk-weighted assets are added up over the entries of a book, each product and each sum
rounded.  The entries of two books need not match, since sweeping takes entries out and
crediting puts some in.  But a class without an entry counts like one of nothing, so the
sum may as well go over all classes (`weighted_eq`).  There it is one term against
another, and no rounding changes their order.
-/
import Insolvency.Capital.RiskWeights
import Insolvency.Proofs.Ledger.BalanceSheet

namespace Insolvency

open Decimal

/-! ### Over all keys -/

/-- A loop over the entries of a table is one over all keys, where an entry of nothing changes
nothing. -/
theorem Accounts.foldlM_entries {κ β ε : Type} [Ord κ] [Std.TransOrd κ] [Std.LawfulEqOrd κ]
    {f : β → κ → Decimal → Except ε β} (hzero : ∀ b k, f b k 0 = .ok b) {keys : List κ}
    (hkeys : Ascending keys) {es : List (κ × Decimal)} (hes : Ascending (es.map Prod.fst))
    (hall : ∀ e ∈ es, e.1 ∈ keys) {amount : κ → Decimal}
    (hamount : ∀ k ∈ keys, amount k = (Table.lookup k es).getD 0) (b : β) :
    es.foldlM (fun b e => f b e.1 e.2) b = keys.foldlM (fun b k => f b k (amount k)) b := by
  induction keys generalizing es b with
  | nil =>
      cases es with
      | nil => rfl
      | cons e rest => cases hall e (List.mem_cons_self ..)
  | cons k ks ih =>
      obtain ⟨hbelow, hks⟩ := List.pairwise_cons.mp hkeys
      obtain ⟨hfirst, hothers⟩ := List.forall_mem_cons.mp hamount
      by_cases hentry : k ∈ es.map Prod.fst
      · cases es with
        | nil => cases hentry
        | cons e rest =>
            obtain ⟨k', v⟩ := e
            obtain ⟨habove, hrest⟩ := List.pairwise_cons.mp hes
            -- The first of the keys that has an entry has the first entry.
            obtain rfl : k' = k := by
              rcases List.mem_cons.mp (hall _ (List.mem_cons_self ..)) with heq | hmem
              · exact heq
              · rcases List.mem_cons.mp hentry with heq | hlater
                · exact heq.symm
                · have := Std.TransCmp.lt_trans (habove k hlater) (hbelow k' hmem)
                  simp [Std.ReflCmp.compare_self] at this
            have hv : amount k' = v := by
              rw [hfirst]
              simp [Table.lookup, Std.ReflCmp.compare_self]
            rw [List.foldlM_cons, List.foldlM_cons, hv]
            refine bind_congr fun b' => ih hks hrest (fun e he => ?_) (fun j hj => ?_) b'
            · rcases List.mem_cons.mp (hall e (List.mem_cons_of_mem _ he)) with heq | hmem
              · exact absurd (List.mem_map_of_mem he) (heq ▸ Table.notMem_of_ascending hes)
              · exact hmem
            · have hne : compare j k' ≠ .eq := by
                intro heq
                obtain rfl := Std.LawfulEqCmp.eq_of_compare heq
                exact Table.notMem_of_ascending hkeys hj
              rw [hothers j hj]
              simp [Table.lookup, hne]
      · rw [Table.lookup_eq_none hentry, Option.getD_none] at hfirst
        rw [List.foldlM_cons, hfirst, hzero]
        refine ih hks hes (fun e he => ?_) hothers b
        rcases List.mem_cons.mp (hall e he) with heq | hmem
        · exact absurd (heq ▸ List.mem_map_of_mem he) hentry
        · exact hmem

theorem AssetClass.mem_all (cls : AssetClass) : cls ∈ all := by
  cases cls <;> decide

theorem AssetClass.ascending_all : Ascending all := by
  unfold Ascending
  decide

/-! ### Class against class -/

namespace RiskWeights

variable {w : RiskWeights}

theorem weight_nonneg (h : w.fault? = none) (cls : AssetClass) : 0 ≤ (w.weight cls).toRat := by
  unfold fault? at h
  split_ifs at h with hfallback
  have hweights : Accounts.Nonneg w.weights := by
    intro v hv
    obtain ⟨e, he, rfl⟩ := List.mem_map.mp hv
    have := List.find?_eq_none.mp (Option.map_eq_none_iff.mp h) e he
    simpa [lt_iff_toRat] using this
  unfold weight
  cases hget : w.weights.get? cls with
  | none => simpa [lt_iff_toRat] using hfallback
  | some v =>
      have := Accounts.amount_nonneg hweights cls
      rwa [Accounts.amount, hget] at this

/-- The sum over all classes, with or without an entry. -/
theorem weighted_eq (w : RiskWeights) (a : Assets) : w.weighted a =
    AssetClass.all.foldlM (fun sum cls => do sum.add (← (a.holding cls).mul (w.weight cls))) 0 := by
  refine Accounts.foldlM_entries
    (f := fun (sum : Decimal) cls v => do sum.add (← v.mul (w.weight cls)))
    (fun sum cls => ?_) AssetClass.ascending_all a.holdings.ascending
    (fun e _ => e.1.mem_all) (fun _ _ => rfl) 0
  rw [zero_mul_eq_ok]
  exact add_zero_eq_ok sum

/-- **Books that weigh no more in any class weigh no more in all.** -/
theorem weighted_mono {w' : RiskWeights} {a b : Assets} {t t' : Decimal}
    (hle : ∀ cls, (a.holding cls).toRat * (w.weight cls).toRat
      ≤ (b.holding cls).toRat * (w'.weight cls).toRat)
    (h : w.weighted a = .ok t) (h' : w'.weighted b = .ok t') : t.toRat ≤ t'.toRat := by
  rw [weighted_eq] at h h'
  refine foldlM_add_mono (fun cls _ x y hx hy => ?_) le_rfl h h'
  exact (rounds_mul hx).mono (rounds_mul hy) (hle cls)

theorem weighted_nonneg {a : Assets} {t : Decimal} (hw : w.fault? = none)
    (ha : a.holdings.Nonneg) (h : w.weighted a = .ok t) : 0 ≤ t.toRat := by
  unfold weighted at h
  refine foldlM_induction (P := fun sum : Decimal => 0 ≤ sum.toRat) h toRat_zero.ge ?_
  intro e he sum sum' hsum hstep
  obtain ⟨product, hproduct, hadd⟩ := bind_eq_ok.mp hstep
  have hv : 0 ≤ e.2.toRat := ha _ (List.mem_map_of_mem he)
  have hproduct0 := (rounds_mul hproduct).nonneg (mul_nonneg hv (weight_nonneg hw e.1))
  exact (rounds_add hadd).nonneg (add_nonneg hsum hproduct0)

end RiskWeights

end Insolvency
