/-
A ledger is a function of its keys.

What a ledger keeps are entries, and some of them may be of nothing.  What is read from it are
amounts, and under a key without an entry that is nothing too.  So a ledger can be taken for a
plain function, and this file says that nobody can tell the difference (`LedgerKind.IsFunction`):
whatever is done to it, and in whatever order, what is read afterwards is what the same operations
make of the function, and the ledger overflows just where they do.  Totals and tests see no more of
it than that.

The exception are the creditors.  A party is one that has an entry, be it of nothing.  Crediting
and scaling sweep such entries out of all books, and setting puts none in, so a ledger that was
empty to begin with has none.  There, an entry is an amount that is not nothing.
-/
import Insolvency.Proofs.Ledger.Agreement

namespace Insolvency

open Decimal

/-! ### Operations on one book -/

/-- What is done to one book of a ledger. -/
inductive BookOp (κ : Type)
  | setTo (k : κ) (v : Decimal)
  | credit (k : κ) (v : Decimal)
  | scale (factor : Decimal)
  | clear

namespace BookOp

variable {κ : Type}

/-- What becomes of the amount under a key, where amounts are a plain function of the key.  To
scale an amount is also to work out what it loses, and that may overflow as well. -/
def result [DecidableEq κ] (f : κ → Decimal) (j : κ) : BookOp κ → Except Fault Decimal
  | setTo k v => return if j = k then v else f j
  | credit k v => if j = k then (f j).add v else return f j
  | scale factor => do
    let scaled ← (f j).mul factor
    let _lost ← (f j).sub scaled
    return scaled
  | clear => return 0

/-- The operation makes one plain function of another, and no amount overflows. -/
def Turns [DecidableEq κ] (op : BookOp κ) (f g : κ → Decimal) : Prop :=
  ∀ j, op.result f j = .ok (g j)

theorem Turns.unique [DecidableEq κ] {op : BookOp κ} {f g g' : κ → Decimal} (h : op.Turns f g)
    (h' : op.Turns f g') : g = g' :=
  funext fun j => Except.ok.inj ((h j).symm.trans (h' j))

/-- Entries of nothing are swept out afterwards, of all books of the ledger. -/
def sweeps : BookOp κ → Bool
  | credit .. | scale .. => true
  | setTo .. | clear => false

/-- What the operation leaves of another book of the same ledger. -/
def leaves [Ord κ] (op : BookOp κ) (a : Accounts κ) : Accounts κ :=
  if op.sweeps then a.swept else a

@[simp] theorem amount_leaves [Ord κ] [Std.TransOrd κ] [Std.LawfulEqOrd κ] (op : BookOp κ)
    (a : Accounts κ) : (op.leaves a).amount = a.amount := by
  funext k
  unfold leaves
  split_ifs
  · exact Accounts.amount_swept a k
  · rfl

end BookOp

/-! ### Runs of operations -/

/-- Operations one after the other make one state of another. -/
inductive Runs {S O : Type} (turns : O → S → S → Prop) : S → List O → S → Prop
  | nil (f : S) : Runs turns f [] f
  | cons {f g h : S} {op : O} {rest : List O} (hop : turns op f g) (hrest : Runs turns g rest h) :
      Runs turns f (op :: rest) h

theorem runs_nil_iff {S O : Type} {turns : O → S → S → Prop} {f g : S} :
    Runs turns f [] g ↔ f = g :=
  ⟨fun h => by cases h; rfl, fun h => h ▸ .nil f⟩

theorem runs_cons_iff {S O : Type} {turns : O → S → S → Prop} {f h : S} {op : O} {rest : List O} :
    Runs turns f (op :: rest) h ↔ ∃ g, turns op f g ∧ Runs turns g rest h :=
  ⟨fun | .cons hop hrest => ⟨_, hop, hrest⟩, fun ⟨_, hop, hrest⟩ => .cons hop hrest⟩

/-- Where each operation does to what is read what it does to the state, so do any number of
them. -/
theorem runs_iff {L S O ε : Type} {view : L → S} {turns : O → S → S → Prop}
    {perform : L → O → Except ε L}
    (step : ∀ l op g, turns op (view l) g ↔ ∃ l', perform l op = .ok l' ∧ view l' = g) (l : L)
    (ops : List O) (g : S) :
    Runs turns (view l) ops g ↔ ∃ l', ops.foldlM perform l = .ok l' ∧ view l' = g := by
  induction ops generalizing l with
  | nil => simp [runs_nil_iff, pure_eq_ok]
  | cons op rest ih =>
      simp only [runs_cons_iff, List.foldlM_cons, bind_eq_ok]
      constructor
      · rintro ⟨mid, hop, hrest⟩
        obtain ⟨l₁, hl₁, rfl⟩ := (step l op mid).mp hop
        obtain ⟨l', hl', hg⟩ := (ih l₁).mp hrest
        exact ⟨l', ⟨l₁, hl₁, hl'⟩, hg⟩
      · rintro ⟨l', ⟨l₁, hl₁, hl'⟩, hg⟩
        exact ⟨view l₁, (step l op _).mpr ⟨l₁, hl₁, rfl⟩, (ih l₁).mpr ⟨l', hl', hg⟩⟩

/-! ### One book -/

namespace Accounts

variable {κ : Type} [Ord κ]

theorem isZero_iff [Std.TransOrd κ] [Std.LawfulEqOrd κ] {a : Accounts κ} :
    a.isZero = true ↔ ∀ k, a.amount k = 0 := by
  simp only [isZero, List.all_eq_true, beq_iff_eq]
  constructor
  · intro h k
    rcases lookup_getD_mem k a.entries with h0 | hmem
    · exact h0
    · exact h _ hmem
  · intro h v hv
    obtain ⟨x, hx, rfl⟩ := List.mem_map.mp hv
    rw [← amount_of_mem_entries hx]
    exact h x.1

theorem Agree.isZero [Std.TransOrd κ] [Std.LawfulEqOrd κ] {a b : Accounts κ} (h : a.Agree b) :
    a.isZero = b.isZero := by
  rw [Bool.eq_iff_iff, isZero_iff, isZero_iff]
  exact forall_congr' fun k => by rw [h k]

/-- Without entries of nothing, only an empty book has nothing in it. -/
theorem isZero_iff_eq_empty {a : Accounts κ} (h : 0 ∉ a.values) : a.isZero = true ↔ a = ∅ := by
  refine ⟨fun hzero => Table.ext_entries ?_, fun hempty => hempty ▸ rfl⟩
  refine List.eq_nil_iff_forall_not_mem.mpr fun x hx => h ?_
  have hmem : x.2 ∈ a.values := List.mem_map_of_mem hx
  simp only [isZero, List.all_eq_true, beq_iff_eq] at hzero
  exact hzero x.2 hmem ▸ hmem

/-- Without entries of nothing, a key with an entry is one with an amount. -/
theorem contains_iff {a : Accounts κ} (h : 0 ∉ a.values) (k : κ) :
    a.contains k = true ↔ a.amount k ≠ 0 := by
  unfold Table.contains amount
  cases hget : a.get? k with
  | none => simp
  | some v =>
      have hv : v ≠ 0 := fun hv => h (hv ▸ Table.mem_values_of_get? hget)
      simpa using hv

theorem zero_notMem_leaves {a : Accounts κ} {op : BookOp κ} (h : op.sweeps = true ∨ 0 ∉ a.values) :
    0 ∉ (op.leaves a).values := by
  unfold BookOp.leaves
  split_ifs with hop
  · exact a.zero_notMem_values_swept
  · exact h.resolve_left hop

variable [Std.TransOrd κ] [Std.LawfulEqOrd κ]

/-- The operation on a book, swept where the ledger is swept. -/
def perform (a : Accounts κ) : BookOp κ → Except Fault (Accounts κ)
  | .setTo k v => return a.setTo k v
  | .credit k v => return swept (← a.credit k v)
  | .scale factor => return swept (← a.scale factor).1
  | .clear => return ∅

variable {a b : Accounts κ} {op : BookOp κ}

/-- The operation does to each amount what it does to a plain function. -/
theorem turns_of_perform [DecidableEq κ] (h : a.perform op = .ok b) :
    op.Turns a.amount b.amount := by
  intro j
  cases op with
  | setTo k v =>
      obtain rfl := pure_eq_ok.mp h
      rw [BookOp.result, amount_setTo]
      rfl
  | credit k v =>
      simp only [perform, bind_eq_ok, pure_eq_ok] at h
      obtain ⟨credited, hcredit, rfl⟩ := h
      have hamount := amount_credit hcredit j
      rw [BookOp.result, amount_swept]
      split_ifs at hamount ⊢ with hj
      · rw [hj]
        exact hamount
      · rw [hamount]
        rfl
  | scale factor =>
      simp only [perform, bind_eq_ok, pure_eq_ok] at h
      obtain ⟨⟨scaled, lost⟩, hscale, rfl⟩ := h
      have hone := scaleOne_amount hscale j
      simp only [scaleOne, bind_eq_ok, pure_eq_ok, Prod.mk.injEq] at hone
      obtain ⟨_, hmul, _, hsub, rfl, -⟩ := hone
      simp only [BookOp.result, bind_eq_ok, pure_eq_ok, amount_swept]
      exact ⟨_, hmul, _, hsub, rfl⟩
  | clear =>
      obtain rfl := pure_eq_ok.mp h
      rfl

/-- Where no amount overflows the operation has a result. -/
theorem exists_perform [DecidableEq κ] {g : κ → Decimal} (h : op.Turns a.amount g) :
    ∃ b, a.perform op = .ok b := by
  cases op with
  | setTo k v => exact ⟨_, rfl⟩
  | credit k v =>
      have hsum := h k
      rw [BookOp.result, if_pos rfl] at hsum
      exact ⟨_, bind_eq_ok.mpr ⟨_, bind_eq_ok.mpr ⟨_, hsum, rfl⟩, rfl⟩⟩
  | scale factor =>
      -- An entry is the amount under its key, so it is scaled as that is.
      have hentries : ∀ x ∈ a.entries, ∃ p, scaleOne factor x.2 = .ok p := by
        intro x hx
        have hone := h x.1
        simp only [BookOp.result, bind_eq_ok, pure_eq_ok, amount_of_mem_entries hx] at hone
        obtain ⟨_, hmul, _, hsub, -⟩ := hone
        exact ⟨_, bind_eq_ok.mpr ⟨_, hmul, bind_eq_ok.mpr ⟨_, hsub, rfl⟩⟩⟩
      obtain ⟨both, hboth⟩ := Table.exists_traverse (f := fun _ v => scaleOne factor v) hentries
      exact ⟨_, bind_eq_ok.mpr ⟨_, bind_eq_ok.mpr ⟨both, hboth, rfl⟩, rfl⟩⟩
  | clear => exact ⟨_, rfl⟩

/-- A book goes the way of the plain function that is read from it. -/
theorem turns_iff [DecidableEq κ] (a : Accounts κ) (op : BookOp κ) (g : κ → Decimal) :
    op.Turns a.amount g ↔ ∃ b, a.perform op = .ok b ∧ b.amount = g := by
  constructor
  · intro h
    obtain ⟨b, hb⟩ := exists_perform h
    exact ⟨b, hb, (turns_of_perform hb).unique h⟩
  · rintro ⟨b, hb, rfl⟩
    exact turns_of_perform hb

/-! ### Entries of nothing -/

/-- An entry of nothing stays where nothing is swept, but none is put in. -/
theorem zero_notMem_perform (h : a.perform op = .ok b) (ha : op.sweeps = true ∨ 0 ∉ a.values) :
    0 ∉ b.values := by
  cases op with
  | setTo k v =>
      obtain rfl := pure_eq_ok.mp h
      have ha : 0 ∉ a.values := ha.resolve_left Bool.false_ne_true
      unfold setTo
      split_ifs with hv
      · intro hmem
        obtain ⟨x, hx, hzero⟩ := List.mem_map.mp hmem
        exact ha (hzero ▸ List.mem_map_of_mem (List.mem_of_mem_filter hx))
      · intro hmem
        rcases Table.mem_values_insert hmem with h0 | hmem
        · exact hv h0.symm
        · exact ha hmem
  | credit k v =>
      simp only [perform, bind_eq_ok, pure_eq_ok] at h
      obtain ⟨credited, -, rfl⟩ := h
      exact zero_notMem_values_swept credited
  | scale factor =>
      simp only [perform, bind_eq_ok, pure_eq_ok] at h
      obtain ⟨⟨scaled, lost⟩, -, rfl⟩ := h
      exact zero_notMem_values_swept scaled
  | clear =>
      obtain rfl := pure_eq_ok.mp h
      exact List.not_mem_nil

theorem zero_notMem_foldlM {ops : List (BookOp κ)} (h : ops.foldlM perform a = .ok b)
    (ha : 0 ∉ a.values) : 0 ∉ b.values :=
  foldlM_induction (P := fun a => 0 ∉ a.values) h ha fun _ _ _ _ hvalues hop =>
    zero_notMem_perform hop (Or.inr hvalues)

/-- After an operation that sweeps there is none, whatever comes next. -/
theorem zero_notMem_of_sweeps {ops : List (BookOp κ)} (h : (op :: ops).foldlM perform a = .ok b)
    (hop : op.sweeps = true) : 0 ∉ b.values := by
  rw [List.foldlM_cons, bind_eq_ok] at h
  obtain ⟨_, hfirst, hrest⟩ := h
  exact zero_notMem_foldlM hrest (zero_notMem_perform hfirst (Or.inl hop))

end Accounts

/-! ### Kinds of ledgers -/

/-- A kind of ledger: its books, what is done to it and what is asked of it.  Read by key it is a
plain function (`view`), and `turns` is what an operation does to such a function. -/
structure LedgerKind (κ L S O : Type) [Ord κ] where
  books : L → List (Accounts κ)
  view : L → S
  turns : O → S → S → Prop
  /-- The operation credits or scales. -/
  sweeps : O → Bool
  perform : L → O → Except Fault L
  empty : L
  total : L → Except Fault Decimal
  isZero : L → Bool
  hasNegative : L → Bool

namespace LedgerKind

variable {κ L S O : Type} [Ord κ]

/-- No book has an entry of nothing. -/
def Bare (K : LedgerKind κ L S O) (l : L) : Prop := ∀ a ∈ K.books l, 0 ∉ a.values

/-- Ledgers of this kind are functions of their keys. -/
structure IsFunction (K : LedgerKind κ L S O) : Prop where
  /-- What is read after any operations is what they make of the plain function, and they have a
  result where it has one. -/
  runs : ∀ l (ops : List O) g, Runs K.turns (K.view l) ops g ↔
    ∃ l', ops.foldlM K.perform l = .ok l' ∧ K.view l' = g
  total : ∀ l m, K.view l = K.view m → K.total l = K.total m
  totals : ∀ l m, K.view l = K.view m →
    (K.books l).map Accounts.total = (K.books m).map Accounts.total
  isZero : ∀ l m, K.view l = K.view m → K.isZero l = K.isZero m
  hasNegative : ∀ l m, K.view l = K.view m → K.hasNegative l = K.hasNegative m
  /-- Crediting and scaling leave no entry of nothing in any book. -/
  swept : ∀ l op l', K.sweeps op = true → K.perform l op = .ok l' → K.Bare l'
  /-- Nor does anything that is done to a ledger that was empty to begin with. -/
  bare : ∀ (ops : List O) l, ops.foldlM K.perform K.empty = .ok l → K.Bare l
  isZero_iff : ∀ (ops : List O) l, ops.foldlM K.perform K.empty = .ok l →
    (K.isZero l = true ↔ ∀ a ∈ K.books l, a = ∅)

/-- What single operations and books have to do with each other for that. -/
structure Steps (K : LedgerKind κ L S O) : Prop where
  step : ∀ l op g, K.turns op (K.view l) g ↔ ∃ l', K.perform l op = .ok l' ∧ K.view l' = g
  agree : ∀ l m, K.view l = K.view m → List.Forall₂ Accounts.Agree (K.books l) (K.books m)
  total : ∀ l m, (K.books l).map Accounts.total = (K.books m).map Accounts.total →
    K.total l = K.total m
  isZero : ∀ l, K.isZero l = ((K.books l).map Accounts.isZero).and
  hasNegative : ∀ l, K.hasNegative l = ((K.books l).map Accounts.hasNegative).or
  bare : ∀ l op l', K.perform l op = .ok l' → (K.sweeps op = true ∨ K.Bare l) → K.Bare l'
  empty : K.Bare K.empty

/-- What is the same of books that agree is the same of ledgers that read the same. -/
theorem Steps.map_books {γ : Type} {K : LedgerKind κ L S O} (h : K.Steps) {l m : L}
    (hview : K.view l = K.view m) {figure : Accounts κ → γ}
    (hfigure : ∀ a b, a.Agree b → figure a = figure b) :
    (K.books l).map figure = (K.books m).map figure :=
  (map_eq_map_of_forall₂ ((h.agree l m hview).imp fun a b hab => (hfigure a b hab).symm)).symm

theorem Steps.bare_foldlM {K : LedgerKind κ L S O} (h : K.Steps) {ops : List O} {l : L}
    (hl : ops.foldlM K.perform K.empty = .ok l) : K.Bare l :=
  foldlM_induction hl h.empty fun op _ l l' hbare hl' => h.bare l op l' hl' (Or.inr hbare)

/-- Where single operations are those of the plain function, the ledger is one. -/
theorem Steps.isFunction [Std.TransOrd κ] [Std.LawfulEqOrd κ] {K : LedgerKind κ L S O}
    (h : K.Steps) : K.IsFunction where
  runs := runs_iff h.step
  total l m hview := h.total l m (h.map_books hview fun _ _ => Accounts.Agree.total)
  totals l m hview := h.map_books hview fun _ _ => Accounts.Agree.total
  isZero l m hview := by
    rw [h.isZero, h.isZero, h.map_books hview fun _ _ => Accounts.Agree.isZero]
  hasNegative l m hview := by
    rw [h.hasNegative, h.hasNegative, h.map_books hview fun _ _ => Accounts.Agree.hasNegative]
  swept l op l' hop hl' := h.bare l op l' hl' (Or.inl hop)
  bare _ _ hl := h.bare_foldlM hl
  isZero_iff ops l hl := by
    rw [h.isZero, List.and, List.all_map, List.all_eq_true]
    exact forall₂_congr fun a ha => Accounts.isZero_iff_eq_empty (h.bare_foldlM hl a ha)

end LedgerKind

/-! ### Assets -/

/-- The operation on the holdings. -/
def Assets.perform (a : Assets) : BookOp AssetClass → Except Fault Assets
  | .setTo cls v => return a.setHolding cls v
  | .credit cls v => a.creditHolding cls v
  | .scale factor => return (← a.scaleHoldings factor).1
  | .clear => return .empty

theorem Assets.perform_eq (a : Assets) (op : BookOp AssetClass) :
    a.perform op = Assets.mk <$> a.holdings.perform op := by
  cases op with
  | setTo cls v => rfl
  | credit cls v => simp [perform, creditHolding, Accounts.perform]
  | scale factor => simp [perform, scaleHoldings, Accounts.perform]
  | clear => rfl

namespace LedgerKind

/-- Assets are read by class. -/
def assets : LedgerKind AssetClass Assets (AssetClass → Decimal) (BookOp AssetClass) where
  books a := [a.holdings]
  view := Assets.holding
  turns := BookOp.Turns
  sweeps := BookOp.sweeps
  perform := Assets.perform
  empty := .empty
  total := Assets.total
  isZero := Assets.isZero
  hasNegative := Assets.hasNegative

theorem assets_steps : assets.Steps where
  step a op g := by
    show op.Turns a.holdings.amount g ↔ ∃ a', a.perform op = .ok a' ∧ a'.holding = g
    rw [Accounts.turns_iff, Assets.perform_eq, exists_map_eq_ok]
    rfl
  agree a b hview := .cons (congrFun hview) .nil
  total a b htotals := (List.cons.inj htotals).1
  isZero a := (Bool.and_true _).symm
  hasNegative a := (Bool.or_false _).symm
  bare a op a' h hbare := by
    obtain ⟨b, hb, rfl⟩ := map_eq_ok.mp ((Assets.perform_eq a op).symm.trans h)
    have ha := hbare.imp id fun hbare => hbare a.holdings (List.mem_singleton_self _)
    exact List.forall_mem_singleton.mpr (Accounts.zero_notMem_perform hb ha)
  empty := List.forall_mem_singleton.mpr List.not_mem_nil

end LedgerKind

/-! ### Liabilities -/

/-- The two kinds of debts, each in a book of its own. -/
inductive DebtKind
  | loans
  | deposits
deriving DecidableEq

namespace Liabilities

/-- The book of a kind of debts. -/
def book (l : Liabilities) : DebtKind → Accounts AgentId
  | .loans => l.loans
  | .deposits => l.deposits

/-- What a creditor is owed, by kind. -/
def debt (l : Liabilities) : DebtKind → AgentId → Decimal
  | .loans => l.loan
  | .deposits => l.deposit

theorem debt_eq (l : Liabilities) (kind : DebtKind) : l.debt kind = (l.book kind).amount := by
  cases kind <;> rfl

/-- The operation on the loans or on the deposits. -/
def perform (l : Liabilities) : DebtKind × BookOp AgentId → Except Fault Liabilities
  | (.loans, .setTo creditor v) => return l.setLoan creditor v
  | (.loans, .credit creditor v) => l.creditLoan creditor v
  | (.loans, .scale factor) => return (← l.scaleLoans factor).1
  | (.loans, .clear) => return l.withoutLoans
  | (.deposits, .setTo creditor v) => return l.setDeposit creditor v
  | (.deposits, .credit creditor v) => l.creditDeposit creditor v
  | (.deposits, .scale factor) => return (← l.scaleDeposits factor).1
  | (.deposits, .clear) => return l.withoutDeposits

/-- The liabilities after an operation on the book of a kind has made it `b`. -/
def withBook (l : Liabilities) (op : BookOp AgentId) (b : Accounts AgentId) :
    DebtKind → Liabilities
  | .loans => ⟨b, op.leaves l.deposits⟩
  | .deposits => ⟨op.leaves l.loans, b⟩

theorem perform_eq (l : Liabilities) (kind : DebtKind) (op : BookOp AgentId) :
    l.perform (kind, op) = (fun b => l.withBook op b kind) <$> (l.book kind).perform op := by
  cases kind with
  | loans =>
      cases op with
      | setTo creditor v => rfl
      | credit creditor v =>
          simp only [perform, creditLoan, Accounts.perform, book, map_bind, map_pure]
          rfl
      | scale factor =>
          simp only [perform, scaleLoans, Accounts.perform, book, map_bind, map_pure, bind_assoc,
            pure_bind]
          rfl
      | clear => rfl
  | deposits =>
      cases op with
      | setTo creditor v => rfl
      | credit creditor v =>
          simp only [perform, creditDeposit, Accounts.perform, book, map_bind, map_pure]
          rfl
      | scale factor =>
          simp only [perform, scaleDeposits, Accounts.perform, book, map_bind, map_pure, bind_assoc,
            pure_bind]
          rfl
      | clear => rfl

/-- Of the debts of the other kind none changes. -/
theorem debt_withBook (l : Liabilities) (op : BookOp AgentId) (b : Accounts AgentId)
    (kind : DebtKind) : (l.withBook op b kind).debt = Function.update l.debt kind b.amount := by
  funext other
  cases kind with
  | loans =>
      cases other with
      | loans => rfl
      | deposits => exact op.amount_leaves l.deposits
  | deposits =>
      cases other with
      | loans => exact op.amount_leaves l.loans
      | deposits => rfl

end Liabilities

namespace LedgerKind

/-- Liabilities are read by kind and creditor, and an operation leaves the debts of the other kind
as they are. -/
def liabilities :
    LedgerKind AgentId Liabilities (DebtKind → AgentId → Decimal) (DebtKind × BookOp AgentId) where
  books l := [l.loans, l.deposits]
  view := Liabilities.debt
  turns op f g := op.2.Turns (f op.1) (g op.1) ∧ ∀ other, other ≠ op.1 → f other = g other
  sweeps op := op.2.sweeps
  perform := Liabilities.perform
  empty := .empty
  total := Liabilities.total
  isZero := Liabilities.isZero
  hasNegative := Liabilities.hasNegative

theorem liabilities_steps : liabilities.Steps where
  step l op g := by
    obtain ⟨kind, op⟩ := op
    show (op.Turns (l.debt kind) (g kind) ∧ ∀ other, other ≠ kind → l.debt other = g other) ↔
      ∃ l', l.perform (kind, op) = .ok l' ∧ l'.debt = g
    -- The one book goes the way of its function, and the other reads as before.
    rw [Liabilities.perform_eq, exists_map_eq_ok, l.debt_eq kind, Accounts.turns_iff]
    simp only [Liabilities.debt_withBook, Function.update_eq_iff, ← and_assoc, exists_and_right]
  agree l m hview := .cons (congrFun (congrFun hview .loans))
    (.cons (congrFun (congrFun hview .deposits)) .nil)
  total l m htotals := by
    obtain ⟨hloans, hrest⟩ := List.cons.inj htotals
    obtain ⟨hdeposits, -⟩ := List.cons.inj hrest
    show l.total = m.total
    rw [Liabilities.total, Liabilities.total, hloans, hdeposits]
  isZero l := congrArg (l.loans.isZero && ·) (Bool.and_true _).symm
  hasNegative l := congrArg (l.loans.hasNegative || ·) (Bool.or_false _).symm
  bare l op l' h hbare := by
    obtain ⟨kind, op⟩ := op
    obtain ⟨b, hb, rfl⟩ := map_eq_ok.mp ((l.perform_eq kind op).symm.trans h)
    have hbook : ∀ kind, op.sweeps = true ∨ 0 ∉ (l.book kind).values := fun kind =>
      hbare.imp id fun hbare => hbare _ (by cases kind <;> simp [liabilities, Liabilities.book])
    have hnew := Accounts.zero_notMem_perform hb (hbook kind)
    cases kind with
    | loans =>
        have hother := Accounts.zero_notMem_leaves (hbook .deposits)
        exact List.forall_mem_cons.mpr ⟨hnew, List.forall_mem_singleton.mpr hother⟩
    | deposits =>
        have hother := Accounts.zero_notMem_leaves (hbook .loans)
        exact List.forall_mem_cons.mpr ⟨hother, List.forall_mem_singleton.mpr hnew⟩
  empty := List.forall_mem_cons.mpr
    ⟨List.not_mem_nil, List.forall_mem_singleton.mpr List.not_mem_nil⟩

end LedgerKind

/-! ### Shares -/

/-- What is done to share accounts. -/
inductive ShareOp
  | book (op : BookOp AgentId)
  | issue (holder : AgentId) (q : Decimal)
  | transfer (source target : AgentId) (q : Decimal)
  | retire (holder : AgentId) (q : Decimal)

namespace ShareOp

/-- How many of the shares that are wanted a holder can give. -/
def movable (f : AgentId → Decimal) (holder : AgentId) (q : Decimal) : Decimal :=
  max (min q (f holder)) 0

/-- The operation as what is done to single accounts.  A transfer takes off one account what it
puts on the other afterwards, and the two may be the same. -/
def spell (f : AgentId → Decimal) : ShareOp → List (BookOp AgentId)
  | book op => [op]
  | issue holder q => [.credit holder q]
  | transfer source target q =>
    [.credit source (-movable f source q), .credit target (movable f source q)]
  | retire holder q => [.credit holder (-movable f holder q)]

/-- Shares are issued, moved and retired by crediting accounts. -/
def sweeps : ShareOp → Bool
  | book op => op.sweeps
  | issue .. | transfer .. | retire .. => true

theorem exists_sweeps_spell {op : ShareOp} (h : op.sweeps = true) (f : AgentId → Decimal) :
    ∃ first rest, op.spell f = first :: rest ∧ first.sweeps = true := by
  cases op with
  | book op => exact ⟨op, [], rfl, h⟩
  | issue holder q => exact ⟨_, [], rfl, rfl⟩
  | transfer source target q => exact ⟨_, _, rfl, rfl⟩
  | retire holder q => exact ⟨_, [], rfl, rfl⟩

end ShareOp

namespace Shares

/-- The operation on the share accounts. -/
def perform (r : Shares) : ShareOp → Except Fault Shares
  | .book (.setTo holder q) => return r.setHeld holder q
  | .book (.credit holder q) => r.issue holder q
  | .book (.scale factor) => return (← r.scaleHolders factor).1
  | .book .clear => return .empty
  | .issue holder q => r.issue holder q
  | .transfer source target q => return (← r.transfer source target q).1
  | .retire holder q => return (← r.retire holder q).1

theorem issue_eq (r : Shares) (holder : AgentId) (q : Decimal) :
    r.issue holder q = Shares.mk <$> r.holders.perform (.credit holder q) := by
  simp [issue, Accounts.perform]

theorem perform_eq (r : Shares) (op : ShareOp) :
    r.perform op = Shares.mk <$> (op.spell r.held).foldlM Accounts.perform r.holders := by
  cases op with
  | book op =>
      cases op with
      | setTo holder q => rfl
      | credit holder q => simp [perform, ShareOp.spell, issue_eq]
      | scale factor => simp [perform, scaleHolders, ShareOp.spell, Accounts.perform]
      | clear => rfl
  | issue holder q => simp [perform, ShareOp.spell, issue_eq]
  | transfer source target q =>
      simp only [perform, transfer, ShareOp.spell, issue_eq, List.foldlM_cons, List.foldlM_nil,
        map_bind, map_pure, bind_map_left, bind_assoc, pure_bind]
      rfl
  | retire holder q =>
      simp only [perform, retire, ShareOp.spell, issue_eq, List.foldlM_cons, List.foldlM_nil,
        map_bind, map_pure, bind_map_left, bind_assoc, pure_bind]
      rfl

end Shares

namespace LedgerKind

/-- Shares are read by holder. -/
def shares : LedgerKind AgentId Shares (AgentId → Decimal) ShareOp where
  books r := [r.holders]
  view := Shares.held
  turns op f g := Runs BookOp.Turns f (op.spell f) g
  sweeps := ShareOp.sweeps
  perform := Shares.perform
  empty := .empty
  total := Shares.total
  isZero := Shares.isZero
  hasNegative := Shares.hasNegative

theorem shares_steps : shares.Steps where
  step r op g := by
    show Runs BookOp.Turns r.holders.amount (op.spell r.held) g ↔
      ∃ r', r.perform op = .ok r' ∧ r'.held = g
    rw [runs_iff Accounts.turns_iff, Shares.perform_eq, exists_map_eq_ok]
    rfl
  agree r s hview := .cons (congrFun hview) .nil
  total r s htotals := (List.cons.inj htotals).1
  isZero r := (Bool.and_true _).symm
  hasNegative r := (Bool.or_false _).symm
  bare r op r' h hbare := by
    obtain ⟨b, hb, rfl⟩ := map_eq_ok.mp ((Shares.perform_eq r op).symm.trans h)
    refine List.forall_mem_singleton.mpr ?_
    rcases hbare with hop | hbare
    · -- What is swept first stays so: crediting an account after another puts no entry of
      -- nothing in.
      obtain ⟨first, rest, hspell, hfirst⟩ := ShareOp.exists_sweeps_spell hop r.held
      rw [hspell] at hb
      exact Accounts.zero_notMem_of_sweeps hb hfirst
    · exact Accounts.zero_notMem_foldlM hb (hbare r.holders (List.mem_singleton_self _))
  empty := List.forall_mem_singleton.mpr List.not_mem_nil

end LedgerKind

/-- **A ledger is a function of its keys, and nothing where it has no entry.**  For assets,
liabilities and shares, whatever is read after any operations is what they make of the plain
function, and all that is worked out from a ledger hangs on that alone.  In a ledger begun empty
the entries are just the amounts that are not nothing, so its creditors are who is owed
something. -/
theorem ledgers_are_functions :
    LedgerKind.assets.IsFunction ∧ LedgerKind.liabilities.IsFunction ∧
      LedgerKind.shares.IsFunction ∧
      ∀ (ops : List (DebtKind × BookOp AgentId)) (l : Liabilities) (creditor : AgentId),
        ops.foldlM Liabilities.perform .empty = .ok l →
        (l.isCreditor creditor = true ↔ l.loan creditor ≠ 0 ∨ l.deposit creditor ≠ 0) := by
  have hliabilities := LedgerKind.liabilities_steps.isFunction
  refine ⟨LedgerKind.assets_steps.isFunction, hliabilities, LedgerKind.shares_steps.isFunction, ?_⟩
  intro ops l creditor h
  have hbare := hliabilities.bare ops l h
  have hloans : 0 ∉ l.loans.values := hbare l.loans (by simp [LedgerKind.liabilities])
  have hdeposits : 0 ∉ l.deposits.values := hbare l.deposits (by simp [LedgerKind.liabilities])
  rw [Liabilities.isCreditor, Bool.or_eq_true, Accounts.contains_iff hloans,
    Accounts.contains_iff hdeposits]
  rfl

/-- A fund whose loan is paid back is no creditor any more. -/
theorem ledgers_are_functions_paidBack : ∃ l : Liabilities,
    [(.loans, .credit ⟨.fund, "alpha"⟩ 100.0), (.loans, .credit ⟨.fund, "alpha"⟩ (-100.0))].foldlM
      Liabilities.perform .empty = .ok l ∧ l.isCreditor ⟨.fund, "alpha"⟩ = false := by
  obtain ⟨l, hl, hnothing⟩ : ∃ l : Liabilities,
      [(.loans, .credit ⟨.fund, "alpha"⟩ 100.0), (.loans, .credit ⟨.fund, "alpha"⟩ (-100.0))].foldlM
        Liabilities.perform .empty = .ok l ∧
      ¬ (l.loan ⟨.fund, "alpha"⟩ ≠ 0 ∨ l.deposit ⟨.fund, "alpha"⟩ ≠ 0) := ⟨_, rfl, by decide⟩
  obtain ⟨-, -, -, hcreditor⟩ := ledgers_are_functions
  exact ⟨l, hl, Bool.eq_false_iff.mpr (mt (hcreditor _ l _ hl).mp hnothing)⟩

end Insolvency
