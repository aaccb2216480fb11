/-
Tables: finite maps whose entries are kept in the order of their keys.

Every account list of the project is one of these, and the order of the entries
shows in the answers: totals are rounded after each term in that order, and claims,
share issues and written maps follow it.  So the entries are a list, and the type
carries the proof that its keys strictly ascend.  A table is then determined by what
it holds, and a sum over it is a sum over a list.
-/

namespace Insolvency

/-- The keys strictly ascend, so no key comes twice. -/
def Ascending {κ : Type} [Ord κ] (keys : List κ) : Prop :=
  keys.Pairwise fun a b => compare a b = .lt

/-- A finite map, as its entries in the order of their keys. -/
structure Table (κ : Type) (α : Type) [Ord κ] where
  entries : List (κ × α)
  ascending : Ascending (entries.map Prod.fst)

namespace Table

variable {κ α β ε : Type} [Ord κ]

theorem ext_entries {s t : Table κ α} (h : s.entries = t.entries) : s = t := by
  cases s
  cases t
  cases h
  rfl

instance [DecidableEq κ] [DecidableEq α] : DecidableEq (Table κ α) := fun s t =>
  if h : s.entries = t.entries then isTrue (ext_entries h)
  else isFalse fun e => h (e ▸ rfl)

/-- The table without entries. -/
def empty : Table κ α := ⟨[], List.Pairwise.nil⟩

instance : EmptyCollection (Table κ α) := ⟨empty⟩

instance : Inhabited (Table κ α) := ⟨empty⟩

/-- The keys, in order. -/
def keys (t : Table κ α) : List κ := t.entries.map Prod.fst

/-- The values, in the order of their keys. -/
def values (t : Table κ α) : List α := t.entries.map Prod.snd

/-! ### Looking up -/

/-- What is listed under a key. -/
def lookup (k : κ) : List (κ × α) → Option α
  | [] => none
  | (k', v) :: rest => if compare k k' = .eq then some v else lookup k rest

/-- What the table holds under a key. -/
def get? (t : Table κ α) (k : κ) : Option α := lookup k t.entries

/-- The key has an entry. -/
def contains (t : Table κ α) (k : κ) : Bool := (t.get? k).isSome

@[simp] theorem get?_empty (k : κ) : (empty : Table κ α).get? k = none := rfl

theorem lookup_eq_none [Std.LawfulEqOrd κ] {k : κ} {es : List (κ × α)}
    (h : k ∉ es.map Prod.fst) : lookup k es = none := by
  induction es with
  | nil => rfl
  | cons e rest ih =>
    simp only [List.map_cons, List.mem_cons, not_or] at h
    have hne : compare k e.1 ≠ .eq := fun he => h.1 (Std.LawfulEqCmp.eq_of_compare he)
    simp [lookup, hne, ih h.2]

theorem notMem_of_ascending [Std.TransOrd κ] {k : κ} {ks : List κ} (h : Ascending (k :: ks)) :
    k ∉ ks := fun hk => by
  have hlt := (List.pairwise_cons.mp h).1 k hk
  simp [Std.ReflCmp.compare_self] at hlt

/-! ### Inserting -/

/-- The entries with one put in its place, instead of an older one of the same key. -/
def insertEntry (k : κ) (v : α) : List (κ × α) → List (κ × α)
  | [] => [(k, v)]
  | (k', v') :: rest =>
    match compare k k' with
    | .lt => (k, v) :: (k', v') :: rest
    | .eq => (k, v) :: rest
    | .gt => (k', v') :: insertEntry k v rest

theorem mem_keys_insertEntry {k j : κ} {v : α} {es : List (κ × α)}
    (h : j ∈ (insertEntry k v es).map Prod.fst) : j = k ∨ j ∈ es.map Prod.fst := by
  induction es with
  | nil => simpa [insertEntry] using h
  | cons e rest ih =>
    unfold insertEntry at h
    split at h
    · simpa using h
    · simp only [List.map_cons, List.mem_cons] at h ⊢
      exact h.imp id Or.inr
    · simp only [List.map_cons, List.mem_cons] at h ⊢
      rcases h with h | h
      · exact Or.inr (Or.inl h)
      · exact (ih h).imp id Or.inr

theorem ascending_insertEntry [Std.TransOrd κ] [Std.LawfulEqOrd κ] (k : κ) (v : α)
    {es : List (κ × α)} (h : Ascending (es.map Prod.fst)) :
    Ascending ((insertEntry k v es).map Prod.fst) := by
  induction es with
  | nil => exact List.pairwise_singleton ..
  | cons e rest ih =>
    obtain ⟨k', v'⟩ := e
    have hrest := List.pairwise_cons.mp h
    unfold insertEntry
    split
    · rename_i hlt
      refine List.pairwise_cons.mpr ⟨fun j hj => ?_, h⟩
      rcases List.mem_cons.mp hj with rfl | hj
      · exact hlt
      · exact Std.TransCmp.lt_trans hlt (hrest.1 j hj)
    · rename_i heq
      rw [Std.LawfulEqCmp.eq_of_compare heq]
      exact h
    · rename_i hgt
      refine List.pairwise_cons.mpr ⟨fun j hj => ?_, ih hrest.2⟩
      rcases mem_keys_insertEntry hj with rfl | hj
      · exact Std.OrientedCmp.lt_of_gt hgt
      · exact hrest.1 j hj

/-- The table with an entry put in, instead of an older one of the same key. -/
def insert [Std.TransOrd κ] [Std.LawfulEqOrd κ] (t : Table κ α) (k : κ) (v : α) : Table κ α :=
  ⟨insertEntry k v t.entries, ascending_insertEntry k v t.ascending⟩

theorem lookup_insertEntry [DecidableEq κ] [Std.TransOrd κ] [Std.LawfulEqOrd κ] (k j : κ) (v : α)
    (es : List (κ × α)) :
    lookup j (insertEntry k v es) = if j = k then some v else lookup j es := by
  induction es with
  | nil => simp [insertEntry, lookup, Std.LawfulEqCmp.compare_eq_iff_eq]
  | cons e rest ih =>
    obtain ⟨k', v'⟩ := e
    unfold insertEntry
    split
    · simp [lookup, Std.LawfulEqCmp.compare_eq_iff_eq]
    · rename_i heq
      rw [Std.LawfulEqCmp.eq_of_compare heq]
      simp only [lookup, Std.LawfulEqCmp.compare_eq_iff_eq]
      split <;> rfl
    · rename_i hgt
      have hne : k' ≠ k := fun e => by simp [e, Std.ReflCmp.compare_self] at hgt
      simp only [lookup, Std.LawfulEqCmp.compare_eq_iff_eq, ih]
      by_cases hj : j = k'
      · simp [hj, hne]
      · simp [hj]

/-- An entry put in is found under its key, and nothing changes under the others. -/
theorem get?_insert [DecidableEq κ] [Std.TransOrd κ] [Std.LawfulEqOrd κ] (t : Table κ α)
    (k j : κ) (v : α) :
    (t.insert k v).get? j = if j = k then some v else t.get? j :=
  lookup_insertEntry k j v t.entries

/-- The table of some pairs, the last of a key counting. -/
def ofList [Std.TransOrd κ] [Std.LawfulEqOrd κ] (pairs : List (κ × α)) : Table κ α :=
  pairs.foldl (fun t e => t.insert e.1 e.2) empty

/-! ### Leaving entries out -/

theorem ascending_filter (p : κ × α → Bool) {es : List (κ × α)}
    (h : Ascending (es.map Prod.fst)) : Ascending ((es.filter p).map Prod.fst) :=
  List.Pairwise.sublist (List.filter_sublist.map _) h

/-- The entries that pass a test. -/
def filter (p : κ → α → Bool) (t : Table κ α) : Table κ α :=
  ⟨t.entries.filter fun e => p e.1 e.2, ascending_filter _ t.ascending⟩

/-- The table without the entry of a key. -/
def erase (t : Table κ α) (k : κ) : Table κ α :=
  t.filter fun j _ => compare k j != .eq

theorem lookup_filter_ne [DecidableEq κ] [Std.TransOrd κ] [Std.LawfulEqOrd κ] (k j : κ)
    (es : List (κ × α)) :
    lookup j (es.filter fun e => compare k e.1 != .eq) = if j = k then none else lookup j es := by
  induction es with
  | nil => simp [lookup]
  | cons e rest ih =>
    by_cases he : k = e.1
    · subst he
      by_cases hj : j = e.1
      · simpa [hj, Std.ReflCmp.compare_self] using ih
      · simpa [hj, lookup, Std.ReflCmp.compare_self, Std.LawfulEqCmp.compare_eq_iff_eq] using ih
    · by_cases hj : j = k
      · subst hj
        simpa [he, lookup, Std.LawfulEqCmp.compare_eq_iff_eq] using ih
      · simp [hj, he, lookup, Std.LawfulEqCmp.compare_eq_iff_eq] at ih ⊢
        rw [ih]

/-- Nothing is left under a key whose entry was taken out, and nothing changes under the others. -/
theorem get?_erase [DecidableEq κ] [Std.TransOrd κ] [Std.LawfulEqOrd κ] (t : Table κ α)
    (k j : κ) :
    (t.erase k).get? j = if j = k then none else t.get? j :=
  lookup_filter_ne k j t.entries

/-! ### Changing the values -/

/-- The table with every value changed by a rule. -/
def map (f : κ → α → β) (t : Table κ α) : Table κ β :=
  ⟨t.entries.map fun e => (e.1, f e.1 e.2), by
    simpa [List.map_map, Function.comp_def] using t.ascending⟩

/-- The entries with every value changed by a rule that can fail, the first failure counting. -/
def traverseEntries (f : κ → α → Except ε β) :
    (es : List (κ × α)) → Except ε { out : List (κ × β) // out.map Prod.fst = es.map Prod.fst }
  | [] => .ok ⟨[], rfl⟩
  | (k, v) :: rest => do
    let w ← f k v
    let ⟨out, h⟩ ← traverseEntries f rest
    return ⟨(k, w) :: out, by simp [h]⟩

/-- The table with every value changed by a rule that can fail, the first failure counting. -/
def traverse (f : κ → α → Except ε β) (t : Table κ α) : Except ε (Table κ β) := do
  let ⟨out, h⟩ ← traverseEntries f t.entries
  return ⟨out, by rw [h]; exact t.ascending⟩

end Table

end Insolvency
