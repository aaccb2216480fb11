/-
Who the books name.

An institution's books name its creditors and its shareholders, and an episode deals with
nobody else but the government.  A party is named just when it has an entry, be it one of
nothing.

Listed by creditor the liabilities are the same: every loan and every deposit is under its
creditor, and under no other.
-/
import Mathlib.Algebra.BigOperators.Group.Finset.Basic
import Insolvency.Proofs.Ledger.BalanceSheet

namespace Insolvency

namespace Table

variable {κ α : Type} [Ord κ]

theorem contains_of_mem_keys [Std.TransOrd κ] {t : Table κ α} {k : κ} (h : k ∈ t.keys) :
    t.contains k = true := by
  obtain ⟨es, hes⟩ := t
  show (lookup k es).isSome = true
  change k ∈ es.map Prod.fst at h
  clear hes
  induction es with
  | nil => cases h
  | cons e rest ih =>
      unfold lookup
      split_ifs with he
      · rfl
      · rcases List.mem_cons.mp h with rfl | hk
        · exact absurd Std.ReflCmp.compare_self he
        · exact ih hk

theorem mem_values_of_get? {t : Table κ α} {k : κ} {v : α} (h : t.get? k = some v) :
    v ∈ t.values := by
  obtain ⟨es, hes⟩ := t
  show v ∈ es.map Prod.snd
  change lookup k es = some v at h
  clear hes
  induction es with
  | nil => cases h
  | cons e rest ih =>
      unfold lookup at h
      split_ifs at h
      · obtain rfl := Option.some.inj h
        exact List.mem_cons_self ..
      · exact List.mem_cons_of_mem _ (ih h)

theorem mem_keys_of_get? [Std.LawfulEqOrd κ] {t : Table κ α} {k : κ} {v : α}
    (h : t.get? k = some v) : k ∈ t.keys := by
  by_contra hk
  cases h.symm.trans (lookup_eq_none hk)

/-- No key comes twice. -/
theorem nodup_keys [Std.TransOrd κ] (t : Table κ α) : t.keys.Nodup :=
  t.ascending.imp fun hlt heq => by simp [heq, Std.ReflCmp.compare_self] at hlt

/-- Every entry is found under its key. -/
theorem get?_of_mem_entries [Std.TransOrd κ] [Std.LawfulEqOrd κ] {t : Table κ α} {x : κ × α}
    (h : x ∈ t.entries) : t.get? x.1 = some x.2 := by
  obtain ⟨es, hes⟩ := t
  show lookup x.1 es = some x.2
  induction es with
  | nil => cases h
  | cons e rest ih =>
      unfold lookup
      rcases List.mem_cons.mp h with rfl | hrest
      · rw [if_pos Std.ReflCmp.compare_self]
      · have hne : x.1 ≠ e.1 := fun heq =>
          notMem_of_ascending hes (heq ▸ List.mem_map_of_mem hrest)
        rw [if_neg fun heq => hne (Std.LawfulEqCmp.eq_of_compare heq)]
        exact ih (List.pairwise_cons.mp hes).2 hrest

section OfList

variable [Std.TransOrd κ] [Std.LawfulEqOrd κ]

theorem mem_values_insert {t : Table κ α} {k : κ} {v w : α} (h : w ∈ (t.insert k v).values) :
    w = v ∨ w ∈ t.values := by
  obtain ⟨x, hx, rfl⟩ := List.mem_map.mp h
  rcases mem_insertEntry hx with rfl | hx
  · exact Or.inl rfl
  · exact Or.inr (List.mem_map_of_mem hx)

theorem mem_entries_foldl_insert {pairs : List (κ × α)} {t : Table κ α} {x : κ × α}
    (h : x ∈ (pairs.foldl (fun t e => t.insert e.1 e.2) t).entries) :
    x ∈ pairs ∨ x ∈ t.entries := by
  induction pairs generalizing t with
  | nil => exact Or.inr h
  | cons e rest ih =>
      rcases ih h with hx | hx
      · exact Or.inl (List.mem_cons_of_mem _ hx)
      · rcases mem_insertEntry hx with rfl | hx
        · exact Or.inl (List.mem_cons_self ..)
        · exact Or.inr hx

/-- The entries of a table are among the pairs it is made of. -/
theorem mem_of_mem_entries_ofList {pairs : List (κ × α)} {x : κ × α}
    (h : x ∈ (ofList pairs).entries) : x ∈ pairs :=
  (mem_entries_foldl_insert h).resolve_right fun hx => by cases hx

/-- So its keys are among theirs. -/
theorem mem_keys_of_mem_keys_ofList {pairs : List (κ × α)} {k : κ} (h : k ∈ (ofList pairs).keys) :
    k ∈ pairs.map Prod.fst := by
  obtain ⟨x, hx, rfl⟩ := List.mem_map.mp h
  exact List.mem_map_of_mem (mem_of_mem_entries_ofList hx)

theorem mem_keys_foldl_insert [DecidableEq κ] {pairs : List (κ × α)} {t : Table κ α} {k : κ}
    (h : k ∈ pairs.map Prod.fst ∨ k ∈ t.keys) :
    k ∈ (pairs.foldl (fun t e => t.insert e.1 e.2) t).keys := by
  induction pairs generalizing t with
  | nil => exact h.resolve_left fun hk => by cases hk
  | cons e rest ih =>
      have hself : e.1 ∈ (t.insert e.1 e.2).keys :=
        mem_keys_of_get? (v := e.2) (by rw [get?_insert, if_pos rfl])
      rcases h with hk | hk
      · rcases List.mem_cons.mp hk with rfl | hk
        · exact ih (Or.inr hself)
        · exact ih (Or.inl hk)
      · refine ih (Or.inr ?_)
        by_cases hke : k = e.1
        · exact hke ▸ hself
        · obtain ⟨v, hv⟩ := Option.isSome_iff_exists.mp (contains_of_mem_keys hk)
          exact mem_keys_of_get? (v := v) (by rw [get?_insert, if_neg hke, hv])

/-- And theirs are among its own. -/
theorem mem_keys_ofList_of_mem [DecidableEq κ] {pairs : List (κ × α)} {k : κ}
    (h : k ∈ pairs.map Prod.fst) : k ∈ (ofList pairs).keys :=
  mem_keys_foldl_insert (Or.inl h)

theorem length_foldl_insert_le (pairs : List (κ × α)) (t : Table κ α) :
    (pairs.foldl (fun t e => t.insert e.1 e.2) t).entries.length
      ≤ t.entries.length + pairs.length := by
  induction pairs generalizing t with
  | nil => exact le_rfl
  | cons e rest ih =>
      have hone := length_insert_le t e.1 e.2
      have hrest := ih (t.insert e.1 e.2)
      rw [List.foldl_cons, List.length_cons]
      omega

/-- A table has no more entries than pairs it is made of. -/
theorem length_ofList_le (pairs : List (κ × α)) : (ofList pairs).entries.length ≤ pairs.length :=
  (length_foldl_insert_le pairs ∅).trans_eq (Nat.zero_add _)

end OfList

end Table

/-! ### Creditors -/

namespace Liabilities

variable {l : Liabilities} {a : AgentId}

theorem isCreditor_of_mem_loans (h : a ∈ l.loans.keys) : l.isCreditor a = true := by
  rw [isCreditor, Table.contains_of_mem_keys h, Bool.true_or]

theorem isCreditor_of_mem_deposits (h : a ∈ l.deposits.keys) : l.isCreditor a = true := by
  rw [isCreditor, Table.contains_of_mem_keys h, Bool.or_true]

/-- Whoever is listed among the creditors has a loan or a deposit booked. -/
theorem isCreditor_of_mem_byCreditor (h : a ∈ l.byCreditor.keys) : l.isCreditor a = true := by
  have hkeys := Table.mem_keys_of_mem_keys_ofList h
  rw [List.map_map, List.mem_map] at hkeys
  obtain ⟨c, hc, rfl⟩ := hkeys
  rcases List.mem_append.mp hc with hc | hc
  · exact isCreditor_of_mem_loans hc
  · exact isCreditor_of_mem_deposits hc

/-- There are no more creditors than loans and deposits. -/
theorem length_byCreditor_le (l : Liabilities) :
    l.byCreditor.entries.length ≤ l.entryCount := by
  have hkeys : (l.loans.keys ++ l.deposits.keys).length = l.entryCount := by
    rw [List.length_append, Table.keys, Table.keys, List.length_map, List.length_map]
    rfl
  rw [← hkeys]
  exact (Table.length_ofList_le _).trans_eq (List.length_map ..)

end Liabilities

/-! ### What each creditor is owed -/

/-- Accounts are what they hold under any keys that theirs are among. -/
theorem Accounts.sum_amounts {κ : Type} [Ord κ] [Std.TransOrd κ] [Std.LawfulEqOrd κ] [DecidableEq κ]
    (a : Accounts κ) {ks : List κ} (hks : ks.Nodup) (hsub : ∀ k ∈ a.keys, k ∈ ks) :
    (ks.map fun k => (a.amount k).toRat).sum = a.exactTotal := by
  have hvalues : a.values.map Decimal.toRat = a.keys.map fun k => (a.amount k).toRat := by
    rw [Table.values, Table.keys, List.map_map, List.map_map]
    refine List.map_congr_left fun x hx => ?_
    show x.2.toRat = (a.amount x.1).toRat
    rw [amount, Table.get?_of_mem_entries hx, Option.getD_some]
  rw [exactTotal, Decimal.exactSum, hvalues, ← List.sum_toFinset _ hks,
    ← List.sum_toFinset _ (Table.nodup_keys a)]
  refine (Finset.sum_subset (fun k hk => ?_) fun k _ hk => ?_).symm
  · exact List.mem_toFinset.mpr (hsub k (List.mem_toFinset.mp hk))
  · have hnone : a.get? k = none :=
      Table.lookup_eq_none fun hmem => hk (List.mem_toFinset.mpr hmem)
    rw [amount, hnone]
    exact Decimal.toRat_zero

/-- All that the creditor is owed, as a number. -/
def Owed.exactTotal (o : Owed) : ℚ := o.loanValue.toRat + o.depositValue.toRat

namespace Liabilities

theorem eq_of_mem_byCreditor {l : Liabilities} {x : AgentId × Owed} (h : x ∈ l.byCreditor.entries) :
    x.2 = ⟨l.loan x.1, l.deposit x.1⟩ := by
  obtain ⟨c, -, rfl⟩ := List.mem_map.mp (Table.mem_of_mem_entries_ofList h)
  rfl

theorem nonneg_of_mem_byCreditor {l : Liabilities} (hloans : l.loans.Nonneg)
    (hdeposits : l.deposits.Nonneg) {x : AgentId × Owed} (h : x ∈ l.byCreditor.entries) :
    0 ≤ x.2.exactTotal := by
  rw [eq_of_mem_byCreditor h]
  exact add_nonneg (Accounts.amount_nonneg hloans x.1) (Accounts.amount_nonneg hdeposits x.1)

theorem mem_byCreditor_of_mem {l : Liabilities} {a : AgentId}
    (h : a ∈ l.loans.keys ++ l.deposits.keys) :
    a ∈ l.byCreditor.keys := by
  refine Table.mem_keys_ofList_of_mem ?_
  rw [List.map_map, List.mem_map]
  exact ⟨a, h, rfl⟩

/-- The creditors are listed, all of them and nobody else. -/
theorem mem_byCreditor_iff {l : Liabilities} {a : AgentId} :
    a ∈ l.byCreditor.keys ↔ l.isCreditor a = true := by
  refine ⟨isCreditor_of_mem_byCreditor, fun h => mem_byCreditor_of_mem ?_⟩
  rw [isCreditor, Bool.or_eq_true, Table.contains, Table.contains, Option.isSome_iff_exists,
    Option.isSome_iff_exists] at h
  rcases h with ⟨v, hv⟩ | ⟨v, hv⟩
  · exact List.mem_append_left _ (Table.mem_keys_of_get? hv)
  · exact List.mem_append_right _ (Table.mem_keys_of_get? hv)

/-- **What the creditors are owed comes to the liabilities.** -/
theorem sum_byCreditor (l : Liabilities) :
    (l.byCreditor.entries.map fun x => x.2.exactTotal).sum = l.exactTotal := by
  have hnodup := Table.nodup_keys l.byCreditor
  have hloans := l.loans.sum_amounts hnodup fun k hk =>
    mem_byCreditor_of_mem (List.mem_append_left _ hk)
  have hdeposits := l.deposits.sum_amounts hnodup fun k hk =>
    mem_byCreditor_of_mem (List.mem_append_right _ hk)
  rw [Table.keys, List.map_map] at hloans hdeposits
  rw [exactTotal, ← hloans, ← hdeposits, ← List.sum_map_add]
  refine congrArg List.sum (List.map_congr_left fun x hx => ?_)
  rw [Owed.exactTotal, eq_of_mem_byCreditor hx]
  rfl

/-- What is owed, added up, is not below nothing. -/
theorem total_nonneg {l : Liabilities} {t : Decimal} (hloans : l.loans.Nonneg)
    (hdeposits : l.deposits.Nonneg) (h : l.total = .ok t) : 0 ≤ t.toRat := by
  simp only [total, bind_eq_ok] at h
  obtain ⟨loans, hsumLoans, deposits, hsumDeposits, hadd⟩ := h
  exact (Decimal.rounds_add hadd).nonneg (add_nonneg (Accounts.total_nonneg hsumLoans hloans)
    (Accounts.total_nonneg hsumDeposits hdeposits))

end Liabilities

/-! ### All parties -/

namespace BalanceSheet

/-- The books name the party as a creditor or as a shareholder. -/
def names (s : BalanceSheet) (a : AgentId) : Bool :=
  s.liabilities.isCreditor a || s.shares.holders.contains a

variable {s : BalanceSheet} {a : AgentId}

theorem names_of_isCreditor (h : s.liabilities.isCreditor a = true) : s.names a = true := by
  rw [names, h, Bool.true_or]

theorem names_of_mem_holders (h : a ∈ s.shares.holders.keys) : s.names a = true := by
  rw [names, Table.contains_of_mem_keys h, Bool.or_true]

/-- A party that the books do not name holds no shares. -/
theorem held_eq_zero_of_not_names (h : s.names a = false) : s.shares.held a = 0 := by
  rw [names, Bool.or_eq_false_iff, Table.contains, Option.isSome_eq_false_iff,
    Option.isNone_iff_eq_none] at h
  rw [Shares.held, Accounts.amount, h.2]
  rfl

end BalanceSheet

end Insolvency
