/-
Accounts: amounts kept by key.

A book is read as a total function that is nothing where it has no entry.  Entries
of nothing can come in from outside and are kept until an operation sweeps them out:
`setTo` drops the one it writes, `credit` and `scale` are followed by `swept` at the
ledger they belong to, because they sweep all of its accounts.

Totals add up from the left in key order and round after each term.
-/
import Insolvency.Decimal.Basic
import Insolvency.Table

namespace Insolvency

/-- Amounts by key. -/
abbrev Accounts (κ : Type) [Ord κ] := Table κ Decimal

namespace Accounts

variable {κ : Type} [Ord κ]

/-- The amount under a key; nothing where there is no entry. -/
def amount (a : Accounts κ) (k : κ) : Decimal := (a.get? k).getD 0

/-- The accounts without those that hold nothing. -/
def swept (a : Accounts κ) : Accounts κ := a.filter fun _ v => v != 0

/-- The sum of all amounts. -/
def total (a : Accounts κ) : Except Decimal.Fault Decimal := Decimal.sum a.values

/-- Every account holds nothing. -/
def isZero (a : Accounts κ) : Bool := a.values.all (· == 0)

/-- Some account is below nothing. -/
def hasNegative (a : Accounts κ) : Bool := a.values.any (· < 0)

/-- An account set to an amount; one set to nothing is dropped. -/
def setTo [Std.TransOrd κ] [Std.LawfulEqOrd κ] (a : Accounts κ) (k : κ) (v : Decimal) :
    Accounts κ :=
  if v = 0 then a.erase k else a.insert k v

/-- An amount added to an account, opened if need be. -/
def credit [Std.TransOrd κ] [Std.LawfulEqOrd κ] (a : Accounts κ) (k : κ) (v : Decimal) :
    Except Decimal.Fault (Accounts κ) :=
  return a.insert k (← (a.amount k).add v)

/-! ### What accounts hold afterwards -/

theorem lookup_filter_ne_zero [Std.TransOrd κ] [Std.LawfulEqOrd κ] (k : κ)
    {es : List (κ × Decimal)} (h : Ascending (es.map Prod.fst)) :
    (Table.lookup k (es.filter fun e => e.2 != 0)).getD 0 = (Table.lookup k es).getD 0 := by
  induction es with
  | nil => rfl
  | cons e rest ih =>
    have hrest := ih (List.pairwise_cons.mp h).2
    by_cases hv : e.2 = 0
    · rw [List.filter_cons_of_neg (by simp [hv]), hrest]
      by_cases hk : compare k e.1 = .eq
      · rw [Std.LawfulEqCmp.eq_of_compare hk]
        simp [Table.lookup, Std.ReflCmp.compare_self, hv,
          Table.lookup_eq_none (Table.notMem_of_ascending h)]
      · simp [Table.lookup, hk]
    · rw [List.filter_cons_of_pos (by simp [hv])]
      by_cases hk : compare k e.1 = .eq
      · simp [Table.lookup, hk]
      · simp [Table.lookup, hk, hrest]

/-- Sweeping changes no amount. -/
@[simp] theorem amount_swept [Std.TransOrd κ] [Std.LawfulEqOrd κ] (a : Accounts κ) (k : κ) :
    a.swept.amount k = a.amount k :=
  lookup_filter_ne_zero k a.ascending

/-- An account that is set holds what it was set to, and nothing changes in the others. -/
theorem amount_setTo [DecidableEq κ] [Std.TransOrd κ] [Std.LawfulEqOrd κ] (a : Accounts κ)
    (k j : κ) (v : Decimal) :
    (a.setTo k v).amount j = if j = k then v else a.amount j := by
  unfold setTo amount
  by_cases hv : v = 0
  · rw [if_pos hv, Table.get?_erase, hv]
    split <;> rfl
  · rw [if_neg hv, Table.get?_insert]
    split <;> rfl

/-- An account that is credited holds the sum, and nothing changes in the others. -/
theorem amount_credit [DecidableEq κ] [Std.TransOrd κ] [Std.LawfulEqOrd κ] {a b : Accounts κ}
    {k : κ} {v : Decimal} (h : a.credit k v = .ok b) (j : κ) :
    if j = k then (a.amount k).add v = .ok (b.amount k) else b.amount j = a.amount j := by
  unfold credit at h
  cases hsum : (a.amount k).add v with
  | error f => simp [hsum, bind, Except.bind] at h
  | ok d =>
    simp only [hsum, bind, Except.bind, pure, Except.pure, Except.ok.injEq] at h
    subst h
    split
    · simp [amount, Table.get?_insert]
    · rename_i hj
      simp [amount, Table.get?_insert, hj]

/-! ### Scaling -/

/-- What scaling makes of one amount, and by how much that is less. -/
def scaleOne (factor v : Decimal) : Except Decimal.Fault (Decimal × Decimal) := do
  let scaled ← v.mul factor
  return (scaled, ← v.sub scaled)

/-- All amounts multiplied by a factor, and by how much each account shrank. -/
def scale (a : Accounts κ) (factor : Decimal) :
    Except Decimal.Fault (Accounts κ × Accounts κ) := do
  let both ← a.traverse fun _ v => scaleOne factor v
  return (both.map fun _ p => p.1, both.map fun _ p => p.2)

end Accounts

end Insolvency
