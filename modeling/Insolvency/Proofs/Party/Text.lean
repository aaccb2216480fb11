/-
The text of a party.

Ledgers are stored with their keys as text, so what a stored ledger says hangs on the text of
a party being exact: reading it gives the party back, and what is read as a party is just its
text and no other spelling of it (`ofText?_eq_some`).  An id may hold anything, colons of its
own included, since none of the six words for a kind holds one.

All else follows.  Different parties have different texts, and the keys of a ledger come back
as they were, in their order, whatever is kept under them.
-/
import Mathlib.Data.List.Dedup
import Insolvency.Proofs.Ledger.Creditors
import Insolvency.Stored.Ledger

namespace Insolvency

/-! ### Tables put together again -/

namespace Table

variable {κ α β : Type}

/-- Two lists of entries go together entry by entry if their keys do and their values do. -/
theorem forall₂_entries {R : α → β → Prop} {es : List (κ × α)} {fs : List (κ × β)} :
    List.Forall₂ (fun x y => y.1 = x.1 ∧ R x.2 y.2) es fs ↔
      fs.map Prod.fst = es.map Prod.fst ∧ List.Forall₂ R (es.map Prod.snd) (fs.map Prod.snd) := by
  induction es generalizing fs with
  | nil => cases fs <;> simp
  | cons x rest ih =>
      cases fs with
      | nil => simp
      | cons y rest' =>
          simp only [List.map_cons, List.forall₂_cons, List.cons.injEq, ih]
          tauto

variable [Ord κ]

/-- An entry under a key above all others is put in last. -/
theorem insertEntry_of_above [Std.TransOrd κ] {k : κ} {v : α} {es : List (κ × α)}
    (h : ∀ x ∈ es, compare x.1 k = .lt) : insertEntry k v es = es ++ [(k, v)] := by
  induction es with
  | nil => rfl
  | cons e rest ih =>
      obtain ⟨he, hrest⟩ := List.forall_mem_cons.mp h
      have hgt : compare k e.1 = .gt := Std.OrientedCmp.gt_of_lt he
      rw [insertEntry, hgt, ih hrest]
      rfl

variable [Std.TransOrd κ] [Std.LawfulEqOrd κ]

theorem entries_foldl_insert {es : List (κ × α)} {t : Table κ α}
    (h : Ascending ((t.entries ++ es).map Prod.fst)) :
    (es.foldl (fun t e => t.insert e.1 e.2) t).entries = t.entries ++ es := by
  induction es generalizing t with
  | nil => rw [List.foldl_nil, List.append_nil]
  | cons e rest ih =>
      have habove : ∀ x ∈ t.entries, compare x.1 e.1 = .lt := fun x hx =>
        (List.pairwise_append.mp (List.map_append ▸ h)).2.2 x.1 (List.mem_map_of_mem hx) e.1
          (List.mem_cons_self ..)
      have hinsert : (t.insert e.1 e.2).entries = t.entries ++ [e] := insertEntry_of_above habove
      have hsplit : (t.insert e.1 e.2).entries ++ rest = t.entries ++ e :: rest := by
        rw [hinsert, List.append_assoc, List.singleton_append]
      rw [List.foldl_cons, ih (hsplit ▸ h), hsplit]

/-- Pairs in the order of their keys are the entries of their table. -/
theorem entries_ofList {es : List (κ × α)} (h : Ascending (es.map Prod.fst)) :
    (ofList es).entries = es :=
  entries_foldl_insert (t := empty) h

end Table

/-! ### A party and its text -/

theorem AgentKind.ofName?_eq_some {word : String} {k : AgentKind} :
    ofName? word = some k ↔ word = k.name := by
  constructor
  · intro h
    have hname : (k.name == word) = true :=
      List.find?_some (p := fun k : AgentKind => k.name == word) h
    exact (beq_iff_eq.mp hname).symm
  · rintro rfl
    exact ofName?_name k

namespace AgentId

/-- The words for the kinds. -/
def kindWords : List String :=
  ["institution", "intermediary", "household", "fund", "central_bank", "government"]

theorem mem_kindWords {word : String} : word ∈ kindWords ↔ ∃ k : AgentKind, word = k.name := by
  show word ∈ AgentKind.all.map AgentKind.name ↔ _
  rw [List.mem_map]
  constructor
  · rintro ⟨k, -, rfl⟩
    exact ⟨k, rfl⟩
  · rintro ⟨k, rfl⟩
    exact ⟨k, by cases k <;> decide, rfl⟩

/-- The text is split at its first colon. -/
structure Split (text before after : String) : Prop where
  whole : text = before ++ ":" ++ after
  first : ':' ∉ before.toList

/-- **What is read as a party is its text.** -/
theorem ofText?_eq_some {s : String} {a : AgentId} : ofText? s = some a ↔ s = a.toText := by
  refine ⟨fun h => ?_, fun h => h ▸ ofText?_toText a⟩
  unfold ofText? at h
  dsimp only at h
  split at h
  · cases h
  next c id hrest =>
    obtain ⟨k, hk, heq⟩ := Option.bind_eq_some_iff.mp h
    obtain rfl := Option.some.inj heq
    -- What is left from the first colon on starts with it.
    have hcolon : c = ':' := by
      have hne : s.toList.dropWhile (· != ':') ≠ [] := hrest ▸ List.cons_ne_nil c id
      simpa [hrest] using List.head_dropWhile_not (· != ':') hne
    have hkind := AgentKind.ofName?_eq_some.mp hk
    have hsplit := List.takeWhile_append_dropWhile (p := (· != ':')) (l := s.toList)
    rw [hrest, hcolon] at hsplit
    refine String.toList_inj.mp ?_
    rw [← hsplit]
    simp [toText, ← hkind]

/-- A text names a party just if it has a colon and the part before the first one is a word for
a kind. -/
theorem exists_ofText?_iff {s : String} :
    (∃ a, ofText? s = some a) ↔ ∃ kind ∈ kindWords, ∃ id, Split s kind id := by
  constructor
  · rintro ⟨a, ha⟩
    exact ⟨a.kind.name, mem_kindWords.mpr ⟨a.kind, rfl⟩, a.id, ofText?_eq_some.mp ha,
      AgentKind.colon_notMem_name a.kind⟩
  · rintro ⟨kind, hkind, id, hsplit⟩
    obtain ⟨k, rfl⟩ := mem_kindWords.mp hkind
    exact ⟨⟨k, id⟩, ofText?_eq_some.mpr hsplit.whole⟩

theorem toText_injective : Function.Injective toText := fun a b h =>
  Option.some.inj ((ofText?_toText a).symm.trans (h ▸ ofText?_toText b))

/-! ### Parties as keys -/

theorem mapM_ofText?_map_toText (parties : List AgentId) :
    (parties.map toText).mapM ofText? = some parties := by
  induction parties with
  | nil => rfl
  | cons a rest ih => simp [ofText?_toText, ih]

/-- Accounts are written under the texts of their keys. -/
theorem names_toJson (books : Accounts AgentId) :
    (books.entries.map fun e => (e.1.toText, e.2.toJson)).map Prod.fst = books.keys.map toText := by
  rw [Table.keys, List.map_map, List.map_map]
  rfl

/-- An entry that was written is read as one under the same key. -/
theorem readEntry_eq_some {x y : AgentId × Decimal} :
    (do return (← ofText? x.1.toText, ← Decimal.ofJson? x.2.toJson)) = some y ↔
      y.1 = x.1 ∧ Decimal.ofJson? x.2.toJson = some y.2 := by
  simp only [ofText?_toText, Option.bind_eq_bind, Option.bind_some, Option.bind_eq_some_iff,
    Option.pure_def, Option.some.injEq, Prod.ext_iff]
  constructor
  · rintro ⟨v, hv, hkey, rfl⟩
    exact ⟨hkey.symm, hv⟩
  · rintro ⟨hkey, hv⟩
    exact ⟨y.2, hv, hkey.symm, rfl⟩

/-- Accounts that are written and read again are kept for the same parties, and each amount is
read from its own text. -/
theorem accountsOfJson?_toJson {books read : Accounts AgentId} :
    accountsOfJson? (books.toJson toText) = some read ↔ read.keys = books.keys ∧
      List.Forall₂ (fun v w => Decimal.ofJson? v.toJson = some w) books.values read.values := by
  have hpairs : ∀ pairs, (books.entries.map fun e => (e.1.toText, e.2.toJson)).mapM
      (fun e => do return (← ofText? e.1, ← Decimal.ofJson? e.2)) = some pairs ↔
      pairs.map Prod.fst = books.keys ∧
        List.Forall₂ (fun v w => Decimal.ofJson? v.toJson = some w) books.values
          (pairs.map Prod.snd) := fun pairs => by
    rw [mapM_eq_some, List.forall₂_map_left_iff]
    simp only [readEntry_eq_some]
    exact Table.forall₂_entries (R := fun v w : Decimal => Decimal.ofJson? v.toJson = some w)
  simp only [accountsOfJson?, Accounts.ofJson?, Accounts.toJson, Json.obj?, Option.bind_eq_bind,
    Option.bind_some, Option.bind_eq_some_iff, Option.pure_def, Option.some.injEq]
  constructor
  · rintro ⟨pairs, hread, rfl⟩
    obtain ⟨hkeys, hvalues⟩ := (hpairs pairs).mp hread
    have hascending : Ascending (pairs.map Prod.fst) := hkeys ▸ books.ascending
    show (Table.ofList pairs).entries.map Prod.fst = books.keys ∧
      List.Forall₂ _ books.values ((Table.ofList pairs).entries.map Prod.snd)
    rw [Table.entries_ofList hascending]
    exact ⟨hkeys, hvalues⟩
  · intro h
    exact ⟨read.entries, (hpairs read.entries).mpr h,
      Table.ext_entries (Table.entries_ofList read.ascending)⟩

/-- **The text of a party is exact.**  It names the party and is the only text that does, and just
those texts name one that have a colon and a word for a kind before the first.  So different
parties have different texts, as many parties have as many, and they are read back in their order.
So are the keys of an account book: no two are written alike, and whatever is read from what was
written has the same keys, with each amount as it is read by itself. -/
theorem toText_exact (s : String) (a b : AgentId) (parties : List AgentId)
    (books read : Accounts AgentId) :
    (ofText? s = some a ↔ s = a.toText) ∧
    ((∃ c, ofText? s = some c) ↔ ∃ kind ∈ kindWords, ∃ id, Split s kind id) ∧
    ofJson? a.toJson = some a ∧
    (a.toText = b.toText ↔ a = b) ∧
    (parties.map toText).mapM ofText? = some parties ∧
    (parties.map toText).dedup.length = parties.dedup.length ∧
    (∃ fields, books.toJson toText = .obj fields ∧
      fields.map Prod.fst = books.keys.map toText ∧ (fields.map Prod.fst).Nodup) ∧
    (accountsOfJson? (books.toJson toText) = some read ↔ read.keys = books.keys ∧
      List.Forall₂ (fun v w => Decimal.ofJson? v.toJson = some w) books.values read.values) := by
  refine ⟨ofText?_eq_some, exists_ofText?_iff, ofText?_toText a, toText_injective.eq_iff,
    mapM_ofText?_map_toText parties, ?_, ⟨_, rfl, names_toJson books, ?_⟩, accountsOfJson?_toJson⟩
  · rw [List.dedup_map_of_injective toText_injective, List.length_map]
  · rw [names_toJson]
    exact books.nodup_keys.map toText_injective

/-- Only the first colon separates. -/
example : ofText? "fund:a:b" = some ⟨.fund, "a:b"⟩ ∧ ofText? "household:" = some ⟨.household, ""⟩ ∧
    ofText? "fund" = none ∧ ofText? "bakery:jerry" = none := by
  decide

end AgentId

end Insolvency
