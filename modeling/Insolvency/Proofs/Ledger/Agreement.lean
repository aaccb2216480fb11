/-
Books that say the same.

An entry of nothing says what no entry says: the amount under its key is nothing.  Books agree
when they have the same amount under every key, be it by an entry or by none.  What is worked
out of amounts is then the same for both: totals, because nothing is added where an entry of
nothing is, and whatever is swept afterwards, because sweeping leaves only what the amounts
tell (`agree_iff`).

Not all that books are asked hangs on amounts.  Who has an entry (`Liabilities.isCreditor`, the
keys of a table) differs between books that agree.
-/
import Mathlib.Data.List.Sort
import Insolvency.Party.Institution
import Insolvency.Proofs.Ledger.Creditors
import Insolvency.Proofs.Parallel

namespace Insolvency

open Decimal

/-! ### Tables with the same in them -/

namespace Table

variable {κ α β ε : Type} [Ord κ]

theorem mem_entries_of_get? [Std.LawfulEqOrd κ] {t : Table κ α} {k : κ} {v : α}
    (h : t.get? k = some v) : (k, v) ∈ t.entries := by
  obtain ⟨es, hes⟩ := t
  show (k, v) ∈ es
  change lookup k es = some v at h
  clear hes
  induction es with
  | nil => cases h
  | cons e rest ih =>
      unfold lookup at h
      split_ifs at h with he
      · obtain rfl := Option.some.inj h
        obtain rfl := Std.LawfulEqCmp.eq_of_compare he
        exact List.mem_cons_self ..
      · exact List.mem_cons_of_mem _ (ih h)

/-- Entries in the order of their keys are known once it is known which there are. -/
theorem eq_of_mem_iff [Std.TransOrd κ] {es fs : List (κ × α)} (hes : Ascending (es.map Prod.fst))
    (hfs : Ascending (fs.map Prod.fst)) (h : ∀ x, x ∈ es ↔ x ∈ fs) : es = fs := by
  have hirrefl : Std.Irrefl fun x y : κ × α => compare x.1 y.1 = .lt :=
    ⟨fun x hlt => by simp [Std.ReflCmp.compare_self] at hlt⟩
  have hantisymm : Std.Antisymm fun x y : κ × α => compare x.1 y.1 = .lt :=
    ⟨fun x y hlt hgt => by simp [Std.OrientedCmp.gt_of_lt hlt] at hgt⟩
  exact (List.pairwise_map.mp hes).eq_of_mem_iff (List.pairwise_map.mp hfs) h

/-- Tables have the same in them if what counts is found in both alike. -/
theorem sameKept_of_get? [Std.TransOrd κ] [Std.LawfulEqOrd κ] {keep : κ × α → Bool}
    {s t : Table κ α}
    (h : ∀ k v, keep (k, v) = true → (s.get? k = some v ↔ t.get? k = some v)) :
    SameKept keep s.entries t.entries := by
  refine eq_of_mem_iff (ascending_filter keep s.ascending) (ascending_filter keep t.ascending)
    fun x => ?_
  obtain ⟨k, v⟩ := x
  rw [List.mem_filter, List.mem_filter]
  refine and_congr_left fun hkeep => ⟨fun hmem => ?_, fun hmem => ?_⟩
  · exact mem_entries_of_get? ((h k v hkeep).mp (get?_of_mem_entries hmem))
  · exact mem_entries_of_get? ((h k v hkeep).mpr (get?_of_mem_entries hmem))

/-- A table is determined by what it holds under each key. -/
theorem eq_of_get? [Std.TransOrd κ] [Std.LawfulEqOrd κ] {s t : Table κ α}
    (h : ∀ k, s.get? k = t.get? k) : s = t := by
  have hentries : SameKept (fun _ => true) s.entries t.entries :=
    sameKept_of_get? fun k v _ => by rw [h k]
  rw [SameKept, List.filter_true, List.filter_true] at hentries
  exact ext_entries hentries

/-- Of two entries under different keys it does not matter which is put in first. -/
theorem insert_comm [DecidableEq κ] [Std.TransOrd κ] [Std.LawfulEqOrd κ] (t : Table κ α) {j k : κ}
    (hne : j ≠ k) (v w : α) : (t.insert j v).insert k w = (t.insert k w).insert j v := by
  refine eq_of_get? fun l => ?_
  rw [get?_insert, get?_insert, get?_insert, get?_insert]
  by_cases hj : l = j
  · have hk : l ≠ k := hj ▸ hne
    rw [if_neg hk, if_pos hj, if_pos hj]
  · rw [if_neg hj, if_neg hj]

/-- Changing the values of a table is changing the values of its entries. -/
theorem entries_traverse (f : κ → α → Except ε β) (t : Table κ α) :
    Table.entries <$> t.traverse f = t.entries.mapM fun x => (fun w => (x.1, w)) <$> f x.1 x.2 := by
  obtain ⟨es, hes⟩ := t
  have hlists : Subtype.val <$> traverseEntries f es
      = es.mapM fun x => (fun w => (x.1, w)) <$> f x.1 x.2 := by
    clear hes
    induction es with
    | nil => rfl
    | cons x rest ih =>
        rw [List.mapM_cons, ← ih]
        show Subtype.val <$> (f x.1 x.2 >>= fun w => _) = _
        cases f x.1 x.2 with
        | error err => rfl
        | ok w =>
            cases traverseEntries f rest with
            | error err => rfl
            | ok out => rfl
  rw [← hlists]
  show Table.entries <$> (traverseEntries f es >>= fun out => _) = _
  cases traverseEntries f es with
  | error err => rfl
  | ok out => rfl

/-- Values are changed alike where the tables have the same in them. -/
theorem parallel_traverse {f : κ → α → Except ε β} {keep : κ × α → Bool} {keep' : κ × β → Bool}
    {s t : Table κ α} (h : SameKept keep s.entries t.entries)
    (hskip : ∀ k v, keep (k, v) = false → ∃ w, f k v = .ok w ∧ keep' (k, w) = false) :
    Parallel (fun s' t' => SameKept keep' s'.entries t'.entries) (s.traverse f) (t.traverse f) := by
  refine Parallel.of_map ?_
  rw [entries_traverse, entries_traverse]
  refine parallel_mapM h fun x _ hx => ?_
  obtain ⟨w, hw, hnot⟩ := hskip x.1 x.2 hx
  exact ⟨(x.1, w), by rw [hw]; rfl, hnot⟩

end Table

/-! ### Accounts -/

namespace Accounts

variable {κ : Type} [Ord κ]

/-- The entry is not one of nothing. -/
def counts (x : κ × Decimal) : Bool := x.2 != 0

/-- The entry was not one of nothing before it was scaled. -/
def scaledCounts (x : κ × Decimal × Decimal) : Bool := x.2 != (0, 0)

/-- The accounts hold the same under every key. -/
def Agree (a b : Accounts κ) : Prop := ∀ k, a.amount k = b.amount k

variable {a b c : Accounts κ}

theorem Agree.refl (a : Accounts κ) : a.Agree a := fun _ => rfl

theorem Agree.symm (h : a.Agree b) : b.Agree a := fun k => (h k).symm

theorem Agree.trans (h : a.Agree b) (h' : b.Agree c) : a.Agree c := fun k => (h k).trans (h' k)

theorem get?_eq_some_iff {k : κ} {v : Decimal} (hv : v ≠ 0) :
    a.get? k = some v ↔ a.amount k = v := by
  unfold amount
  cases a.get? k with
  | none => simp [hv.symm]
  | some w => simp

theorem hasNegative_swept (a : Accounts κ) : a.swept.hasNegative = a.hasNegative := by
  rw [Bool.eq_iff_iff]
  unfold hasNegative
  rw [values_swept, List.any_eq_true, List.any_eq_true]
  refine exists_congr fun v => ?_
  rw [List.mem_filter, and_assoc, decide_eq_true_eq]
  refine and_congr_right fun _ => ⟨And.right, fun hneg => ⟨?_, hneg⟩⟩
  rw [bne_iff_ne]
  rintro rfl
  exact absurd hneg (by decide)

theorem mem_keys_of_amount_ne_zero [Std.LawfulEqOrd κ] {k : κ} (h : a.amount k ≠ 0) :
    k ∈ a.keys := by
  by_contra hk
  refine h ?_
  rw [amount, Table.get?, Table.lookup_eq_none hk]
  rfl

variable [Std.TransOrd κ] [Std.LawfulEqOrd κ]

/-- Accounts agree just when they have the same in them, entries of nothing aside. -/
theorem agree_iff : a.Agree b ↔ SameKept counts a.entries b.entries := by
  refine ⟨fun h => Table.sameKept_of_get? fun k v hv => ?_, fun h k => ?_⟩
  · have hne : v ≠ 0 := bne_iff_ne.mp hv
    rw [get?_eq_some_iff hne, get?_eq_some_iff hne, h k]
  · have hswept : a.swept = b.swept := Table.ext_entries h
    rw [← amount_swept a, hswept, amount_swept]

theorem Agree.swept_eq (h : a.Agree b) : a.swept = b.swept := Table.ext_entries (agree_iff.mp h)

theorem Agree.total (h : a.Agree b) : a.total = b.total := by
  rw [← total_swept a, h.swept_eq, total_swept]

theorem Agree.hasNegative (h : a.Agree b) : a.hasNegative = b.hasNegative := by
  rw [← hasNegative_swept a, h.swept_eq, hasNegative_swept]

/-- An entry that is not of nothing is the amount under its key. -/
theorem amount_of_mem_entries {x : κ × Decimal} (h : x ∈ a.entries) : a.amount x.1 = x.2 := by
  rw [amount, Table.get?_of_mem_entries h]
  rfl

/-- Accounts that agree and are booked for the same have the same entries. -/
theorem Agree.entries_eq (h : a.Agree b) (hkeys : a.keys = b.keys) : a.entries = b.entries := by
  have hentries : ∀ c : Accounts κ, c.entries = c.keys.map fun k => (k, c.amount k) := by
    intro c
    refine (List.map_id _).symm.trans ?_
    rw [Table.keys, List.map_map]
    exact List.map_congr_left fun x hx => Prod.ext rfl (amount_of_mem_entries hx).symm
  rw [hentries a, hentries b, hkeys]
  exact List.map_congr_left fun k _ => Prod.ext rfl (h k)

theorem Agree.insert [DecidableEq κ] (h : a.Agree b) (k : κ) (v : Decimal) :
    Agree (Table.insert a k v) (Table.insert b k v) := by
  intro j
  unfold amount
  rw [Table.get?_insert, Table.get?_insert]
  split_ifs
  · rfl
  · exact h j

/-- An entry of nothing put in where there was none changes no amount. -/
theorem agree_insert_amount [DecidableEq κ] (a : Accounts κ) (k : κ) :
    Agree (Table.insert a k (a.amount k)) a := by
  intro j
  unfold amount
  rw [Table.get?_insert]
  split_ifs with hj
  · rw [hj, Option.getD_some]
  · rfl

/-- One more entry of nothing says nothing. -/
theorem agree_insert_zero [DecidableEq κ] {k : κ} (h : a.get? k = none) :
    a.Agree (Table.insert a k 0) := by
  have hamount : a.amount k = 0 := by
    rw [amount, h]
    rfl
  exact (hamount ▸ agree_insert_amount a k).symm

theorem Agree.credit [DecidableEq κ] (h : a.Agree b) (k : κ) (v : Decimal) :
    Parallel Agree (a.credit k v) (b.credit k v) := by
  unfold Accounts.credit
  rw [h k]
  exact parallel_bind rfl fun new _ => parallel_pure (h.insert k new)

/-- Scaled by the same factor, accounts still agree, and so do the accounts of what was lost. -/
theorem Agree.scale (h : a.Agree b) (factor : Decimal) :
    Parallel (fun p q => p.1.Agree q.1 ∧ p.2.Agree q.2) (a.scale factor) (b.scale factor) := by
  have hskip : ∀ (k : κ) v, counts (k, v) = false →
      ∃ w, scaleOne factor v = .ok w ∧ scaledCounts (k, w) = false := by
    intro k v hv
    have hzero : v = 0 := by simpa [counts] using hv
    exact ⟨(0, 0), by rw [hzero, scaleOne_zero], rfl⟩
  refine (Table.parallel_traverse (agree_iff.mp h) hskip).bind fun s t hsame => ?_
  refine parallel_pure ⟨agree_iff.mpr ?_, agree_iff.mpr ?_⟩
  all_goals
    refine SameKept.map (fun x hx => ?_) hsame
    have hzero : x.2 = (0, 0) := by simpa [scaledCounts] using hx
    rw [counts, hzero]
    rfl

end Accounts

/-! ### Assets -/

namespace Assets

variable {a b : Assets}

theorem agree_creditHolding (h : a.holdings.Agree b.holdings) (cls : AssetClass) (v : Decimal) :
    Parallel Eq (a.creditHolding cls v) (b.creditHolding cls v) :=
  (h.credit cls v).bind fun _ _ h' => parallel_pure (congrArg Assets.mk h'.swept_eq)

/-- A credit of nothing only sweeps the holdings. -/
theorem creditHolding_nothing (a : Assets) (cls : AssetClass) :
    ∃ b, a.creditHolding cls 0 = .ok b ∧ b.holdings.Agree a.holdings := by
  refine ⟨⟨Accounts.swept (a.holdings.insert cls (a.holdings.amount cls))⟩, ?_, fun c => ?_⟩
  · rw [creditHolding, Accounts.credit, add_zero_eq_ok]
    rfl
  · rw [Accounts.amount_swept]
    exact a.holdings.agree_insert_amount cls c

end Assets

/-! ### Liabilities -/

namespace Liabilities

/-- The loans agree, and so do the deposits. -/
structure Agree (l m : Liabilities) : Prop where
  loans : l.loans.Agree m.loans
  deposits : l.deposits.Agree m.deposits

variable {l m : Liabilities}

theorem Agree.refl (l : Liabilities) : l.Agree l := ⟨.refl _, .refl _⟩

theorem Agree.symm (h : l.Agree m) : m.Agree l := ⟨h.loans.symm, h.deposits.symm⟩

theorem Agree.swept_eq (h : l.Agree m) : l.swept = m.swept := by
  rw [swept, swept, h.loans.swept_eq, h.deposits.swept_eq]

theorem Agree.total (h : l.Agree m) : l.total = m.total := by
  rw [Liabilities.total, Liabilities.total, h.loans.total, h.deposits.total]

theorem Agree.creditLoan (h : l.Agree m) (creditor : AgentId) (v : Decimal) :
    Parallel Eq (l.creditLoan creditor v) (m.creditLoan creditor v) :=
  (h.loans.credit creditor v).bind fun _ _ hloans =>
    parallel_pure (Agree.swept_eq ⟨hloans, h.deposits⟩)

theorem Agree.scaleLoans (h : l.Agree m) (factor : Decimal) :
    Parallel (fun p q => p.1.Agree q.1 ∧ p.2.Agree q.2) (l.scaleLoans factor)
      (m.scaleLoans factor) := by
  refine (h.loans.scale factor).bind fun p q hpq => parallel_pure ⟨?_, hpq.2⟩
  have hswept : swept { l with loans := p.1 } = swept { m with loans := q.1 } :=
    Agree.swept_eq ⟨hpq.1, h.deposits⟩
  exact hswept ▸ .refl _

theorem Agree.scaleDeposits (h : l.Agree m) (factor : Decimal) :
    Parallel (fun p q => p.1.Agree q.1 ∧ p.2.Agree q.2) (l.scaleDeposits factor)
      (m.scaleDeposits factor) := by
  refine (h.deposits.scale factor).bind fun p q hpq => parallel_pure ⟨?_, hpq.2⟩
  have hswept : swept { l with deposits := p.1 } = swept { m with deposits := q.1 } :=
    Agree.swept_eq ⟨h.loans, hpq.1⟩
  exact hswept ▸ .refl _

/-- The creditor is owed something. -/
def owes (x : AgentId × Owed) : Bool := x.2 != ⟨0, 0⟩

/-- Whoever is owed something is listed among the creditors, with just that. -/
theorem get?_byCreditor {creditor : AgentId} {owed : Owed} (howed : owed ≠ ⟨0, 0⟩) :
    l.byCreditor.get? creditor = some owed ↔ owed = ⟨l.loan creditor, l.deposit creditor⟩ := by
  refine ⟨fun h => eq_of_mem_byCreditor (Table.mem_entries_of_get? h), fun h => ?_⟩
  have hmem : creditor ∈ l.loans.keys ++ l.deposits.keys := by
    by_contra hnone
    rw [List.mem_append, not_or] at hnone
    have hloan := mt Accounts.mem_keys_of_amount_ne_zero hnone.1
    have hdeposit := mt Accounts.mem_keys_of_amount_ne_zero hnone.2
    rw [not_not] at hloan hdeposit
    refine howed ?_
    rw [h, loan, deposit, hloan, hdeposit]
  obtain ⟨x, hx, rfl⟩ := List.mem_map.mp (mem_byCreditor_of_mem hmem)
  rw [Table.get?_of_mem_entries hx, eq_of_mem_byCreditor hx, ← h]

/-- The same is owed to the same creditors, entries of nothing aside. -/
theorem Agree.byCreditor (h : l.Agree m) :
    SameKept owes l.byCreditor.entries m.byCreditor.entries :=
  Table.sameKept_of_get? fun creditor owed howed => by
    have hne : owed ≠ ⟨0, 0⟩ := bne_iff_ne.mp howed
    rw [get?_byCreditor hne, get?_byCreditor hne, loan, deposit, h.loans creditor,
      h.deposits creditor, loan, deposit]

end Liabilities

/-! ### Shares -/

namespace Shares

variable {r s : Shares}

theorem agree_issue (h : r.holders.Agree s.holders) (holder : AgentId) (q : Decimal) :
    Parallel Eq (r.issue holder q) (s.issue holder q) :=
  (h.credit holder q).bind fun _ _ h' => parallel_pure (congrArg Shares.mk h'.swept_eq)

theorem agree_transfer (h : r.holders.Agree s.holders) (source target : AgentId) (q : Decimal) :
    Parallel Eq (r.transfer source target q) (s.transfer source target q) := by
  have hmovable : r.movable source q = s.movable source q := by
    rw [movable, movable, held, held, h source]
  unfold transfer
  rw [hmovable]
  refine (agree_issue h source _).bind fun _ debited hdebited => ?_
  subst hdebited
  exact parallel_bind rfl fun _ _ => parallel_pure rfl

end Shares

/-! ### The sheet, and whose it is -/

/-- The books have the same amount under every key. -/
structure BalanceSheet.Agree (s t : BalanceSheet) : Prop where
  assets : s.assets.holdings.Agree t.assets.holdings
  liabilities : s.liabilities.Agree t.liabilities
  shares : s.shares.holders.Agree t.shares.holders

namespace BalanceSheet

variable {s t : BalanceSheet}

theorem Agree.symm (h : s.Agree t) : t.Agree s :=
  ⟨h.assets.symm, h.liabilities.symm, h.shares.symm⟩

theorem Agree.equity (h : s.Agree t) : s.equity = t.equity := by
  rw [BalanceSheet.equity, BalanceSheet.equity, totalAssets, totalAssets, totalLiabilities,
    totalLiabilities, Assets.total, Assets.total, h.assets.total, h.liabilities.total]

theorem Agree.fault? (h : s.Agree t) : s.fault? = t.fault? := by
  rw [BalanceSheet.fault?, BalanceSheet.fault?, Assets.hasNegative, Assets.hasNegative,
    Liabilities.hasNegative, Liabilities.hasNegative, Shares.hasNegative, Shares.hasNegative,
    h.assets.hasNegative, h.liabilities.loans.hasNegative, h.liabilities.deposits.hasNegative,
    h.shares.hasNegative]

end BalanceSheet

/-- The institutions are the same, entries of nothing in their books aside. -/
structure Institution.Agree (i j : Institution) : Prop where
  sheet : i.sheet.Agree j.sheet
  others : { i with sheet := j.sheet } = j

namespace Institution

variable {i j : Institution}

theorem Agree.symm (h : i.Agree j) : j.Agree i where
  sheet := h.sheet.symm
  others := (congrArg (fun k : Institution => { k with sheet := i.sheet }) h.others).symm

theorem Agree.id (h : i.Agree j) : i.id = j.id := (congrArg Institution.id h.others :)

theorem Agree.kind (h : i.Agree j) : i.kind = j.kind := (congrArg Institution.kind h.others :)

theorem Agree.isDeleted (h : i.Agree j) : i.isDeleted = j.isDeleted :=
  (congrArg Institution.isDeleted h.others :)

theorem Agree.agentId (h : i.Agree j) : i.agentId = j.agentId :=
  (congrArg Institution.agentId h.others :)

theorem Agree.withSheet {s t : BalanceSheet} (h : i.Agree j) (hsheet : s.Agree t) :
    Agree { i with sheet := s } { j with sheet := t } where
  sheet := hsheet
  others := congrArg (fun k : Institution => { k with sheet := t }) h.others

theorem Agree.standing (h : i.Agree j) (status : InstitutionStatus) (updated : Timestamp) :
    Agree { i with status, updated } { j with status, updated } where
  sheet := h.sheet
  others := congrArg (fun k : Institution => { k with status, updated }) h.others

end Institution

end Insolvency
