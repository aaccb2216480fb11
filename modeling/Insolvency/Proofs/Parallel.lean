/-
Two computations side by side.

A law may be about two runs at once: what is done to one institution and what is done to
another come to the same.  `Parallel` says it of two computations that can fail.  Either both
fail, and for the same reason, or both succeed, and their results are related.  It is followed
step by step, and through loops over the same elements.

The two runs need not go over the same elements where some of them change nothing.  To leave
these out is a matter of a single run (`foldlM_filter`, `parallel_mapM_filter`), so it is done
first, and then both runs are over what is left.
-/
import Insolvency.Proofs.Computation

namespace Insolvency

variable {ε α β γ δ : Type}

/-- Both computations fail for the same reason, or both succeed with results that are related. -/
inductive Parallel (R : α → β → Prop) : Except ε α → Except ε β → Prop
  | ok {a : α} {b : β} (h : R a b) : Parallel R (.ok a) (.ok b)
  | error (err : ε) : Parallel R (.error err) (.error err)

section Parallel

variable {R : α → β → Prop} {S : γ → δ → Prop} {x : Except ε α} {y : Except ε β}

theorem parallel_pure {a : α} {b : β} (h : R a b) : Parallel R (pure a : Except ε α) (pure b) :=
  .ok h

theorem Parallel.of_eq {x' : Except ε α} (h : x = x') : Parallel Eq x x' := by
  subst h
  cases x with
  | ok a => exact .ok rfl
  | error err => exact .error err

theorem Parallel.imp {R' : α → β → Prop} (h : Parallel R x y) (himp : ∀ a b, R a b → R' a b) :
    Parallel R' x y := by
  cases h with
  | ok h => exact .ok (himp _ _ h)
  | error err => exact .error err

/-- What is related are the results. -/
theorem Parallel.with_results (h : Parallel R x y) :
    Parallel (fun a b => R a b ∧ x = .ok a ∧ y = .ok b) x y := by
  cases h with
  | ok h => exact .ok ⟨h, rfl, rfl⟩
  | error err => exact .error err

theorem Parallel.symm (h : Parallel R x y) : Parallel (fun b a => R a b) y x := by
  cases h with
  | ok h => exact .ok h
  | error err => exact .error err

theorem Parallel.trans {R' : β → γ → Prop} {z : Except ε γ} (h : Parallel R x y)
    (h' : Parallel R' y z) : Parallel (fun a c => ∃ b, R a b ∧ R' b c) x z := by
  cases h with
  | ok h =>
      cases h' with
      | ok h' => exact .ok ⟨_, h, h'⟩
  | error err =>
      cases h' with
      | error => exact .error err

/-- One step after the other, and each side by side. -/
theorem Parallel.bind {f : α → Except ε γ} {g : β → Except ε δ} (h : Parallel R x y)
    (hstep : ∀ a b, R a b → Parallel S (f a) (g b)) : Parallel S (x >>= f) (y >>= g) := by
  cases h with
  | ok h => exact hstep _ _ h
  | error err => exact .error err

/-- The same step first, and what follows it side by side. -/
theorem parallel_bind {x' : Except ε α} {f : α → Except ε γ} {g : α → Except ε δ} (h : x = x')
    (hstep : ∀ a, x = .ok a → Parallel S (f a) (g a)) : Parallel S (x >>= f) (x' >>= g) := by
  subst h
  cases x with
  | ok a => exact hstep a rfl
  | error err => exact .error err

/-- Of two computations side by side one has a result if the other does. -/
theorem Parallel.exists_ok {a : α} (h : Parallel R x y) (hx : x = .ok a) :
    ∃ b, y = .ok b ∧ R a b := by
  subst hx
  cases h with
  | ok h => exact ⟨_, rfl, h⟩

/-- What a figure of the results is related by, they are. -/
theorem Parallel.of_map {f : α → γ} {g : β → δ} (h : Parallel S (f <$> x) (g <$> y)) :
    Parallel (fun a b => S (f a) (g b)) x y := by
  cases x with
  | ok a =>
      cases y with
      | ok b =>
          cases h with
          | ok h => exact .ok h
      | error err => cases h
  | error err =>
      cases y with
      | ok b => cases h
      | error err' =>
          cases h
          exact .error err

/-- Passed on as errors of another kind, those of both are still the same. -/
theorem Parallel.lift {x : Except Decimal.Fault α} {y : Except Decimal.Fault β}
    (h : Parallel R x y) :
    Parallel R (liftM x : Except Error α) (liftM y : Except Error β) := by
  cases h with
  | ok h => exact .ok h
  | error fault => exact .error (Error.arithmetic fault)

end Parallel

/-! ### Loops -/

/-- Two loops over the same elements run side by side if every step of theirs does. -/
theorem parallel_foldlM {σ τ : Type} {R : σ → τ → Prop} {f : σ → α → Except ε σ}
    {g : τ → α → Except ε τ} {xs : List α}
    (hstep : ∀ x ∈ xs, ∀ s t, R s t → Parallel R (f s x) (g t x)) {s : σ} {t : τ} (h : R s t) :
    Parallel R (xs.foldlM f s) (xs.foldlM g t) := by
  induction xs generalizing s t with
  | nil => exact .ok h
  | cons x rest ih =>
      obtain ⟨hx, hrest⟩ := List.forall_mem_cons.mp hstep
      rw [List.foldlM_cons, List.foldlM_cons]
      exact (hx s t h).bind fun s' t' h' => ih hrest h'

/-- A loop may leave out what changes nothing. -/
theorem foldlM_filter {σ : Type} {f : σ → α → Except ε σ} {keep : α → Bool} {xs : List α}
    (hskip : ∀ x ∈ xs, keep x = false → ∀ s, f s x = .ok s) (s : σ) :
    (xs.filter keep).foldlM f s = xs.foldlM f s := by
  induction xs generalizing s with
  | nil => rfl
  | cons x rest ih =>
      obtain ⟨hx, hrest⟩ := List.forall_mem_cons.mp hskip
      rw [List.foldlM_cons]
      cases hkeep : keep x with
      | true =>
          rw [List.filter_cons_of_pos hkeep, List.foldlM_cons]
          exact bind_congr fun s' => ih hrest s'
      | false =>
          rw [List.filter_cons_of_neg (by simp [hkeep]), hx hkeep s]
          exact ih hrest s

/-- Two lists have the same in them, beside what does not count. -/
def SameKept (keep : α → Bool) (xs ys : List α) : Prop := xs.filter keep = ys.filter keep

theorem sameKept_filter (keep : α → Bool) (xs : List α) : SameKept keep (xs.filter keep) xs := by
  rw [SameKept, List.filter_filter]
  simp only [Bool.and_self]

/-- Two loops over the same elements, beside what changes nothing. -/
theorem parallel_foldlM_kept {σ τ : Type} {R : σ → τ → Prop} {f : σ → α → Except ε σ}
    {g : τ → α → Except ε τ} {keep : α → Bool} {xs ys : List α} (hkept : SameKept keep xs ys)
    (hf : ∀ x, keep x = false → ∀ s, f s x = .ok s) (hg : ∀ x, keep x = false → ∀ t, g t x = .ok t)
    (hstep : ∀ x s t, R s t → Parallel R (f s x) (g t x)) {s : σ} {t : τ} (h : R s t) :
    Parallel R (xs.foldlM f s) (ys.foldlM g t) := by
  have hleft : (xs.filter keep).foldlM f s = xs.foldlM f s := foldlM_filter (fun x _ => hf x) s
  have hright : (ys.filter keep).foldlM g t = ys.foldlM g t := foldlM_filter (fun x _ => hg x) t
  rw [← hleft, ← hright, hkept]
  exact parallel_foldlM (fun x _ => hstep x) h

theorem SameKept.cons {keep : α → Bool} {xs ys : List α} (h : SameKept keep xs ys) (x : α) :
    SameKept keep (x :: xs) (x :: ys) := by
  rw [SameKept, List.filter_cons, List.filter_cons, h]

theorem SameKept.skip {keep : α → Bool} {xs ys : List α} (h : SameKept keep xs ys) {y : α}
    (hy : keep y = false) : SameKept keep xs (y :: ys) := by
  rw [SameKept, List.filter_cons_of_neg (by simp [hy]), h]

theorem SameKept.append {keep : α → Bool} {xs ys xs' ys' : List α} (h : SameKept keep xs ys)
    (h' : SameKept keep xs' ys') : SameKept keep (xs ++ xs') (ys ++ ys') := by
  rw [SameKept, List.filter_append, List.filter_append, h, h']

theorem SameKept.map {keep : α → Bool} {keep' : β → Bool} {f : α → β} {xs ys : List α}
    (hf : ∀ x, keep x = false → keep' (f x) = false) (h : SameKept keep xs ys) :
    SameKept keep' (xs.map f) (ys.map f) := by
  have hkept : ∀ zs : List α, (zs.map f).filter keep' = ((zs.filter keep).map f).filter keep' := by
    intro zs
    rw [List.filter_map, List.filter_map, List.filter_filter]
    congr 1
    refine List.filter_congr fun z _ => ?_
    cases hz : keep z with
    | true => rw [Bool.and_true]
    | false => exact (hf z hz).trans (Bool.and_false _).symm
  rw [SameKept, hkept xs, hkept ys, h]

/-- What does not count may be left out before the elements are worked on, if it is made into what
does not count. -/
theorem parallel_mapM_filter {f : α → Except ε β} {keep : α → Bool} {keep' : β → Bool} {xs : List α}
    (hskip : ∀ x ∈ xs, keep x = false → ∃ y, f x = .ok y ∧ keep' y = false) :
    Parallel (SameKept keep') ((xs.filter keep).mapM f) (xs.mapM f) := by
  induction xs with
  | nil => exact .ok rfl
  | cons x rest ih =>
      obtain ⟨hx, hrest⟩ := List.forall_mem_cons.mp hskip
      rw [List.mapM_cons]
      cases hkeep : keep x with
      | true =>
          rw [List.filter_cons_of_pos hkeep, List.mapM_cons]
          exact parallel_bind rfl fun y _ => (ih hrest).bind fun ys zs hsame => .ok (hsame.cons y)
      | false =>
          obtain ⟨y, hy, hnot⟩ := hx hkeep
          rw [List.filter_cons_of_neg (by simp [hkeep]), hy, ← bind_pure (List.mapM f _)]
          exact (ih hrest).bind fun ys zs hsame => .ok (hsame.skip hnot)

/-- Lists with the same in them are made into lists with the same in them. -/
theorem parallel_mapM {f : α → Except ε β} {keep : α → Bool} {keep' : β → Bool} {xs ys : List α}
    (h : SameKept keep xs ys)
    (hskip : ∀ x, x ∈ xs ∨ x ∈ ys → keep x = false → ∃ y, f x = .ok y ∧ keep' y = false) :
    Parallel (SameKept keep') (xs.mapM f) (ys.mapM f) := by
  have hleft : Parallel (SameKept keep') ((xs.filter keep).mapM f) (xs.mapM f) :=
    parallel_mapM_filter fun x hx => hskip x (Or.inl hx)
  have hright : Parallel (SameKept keep') ((ys.filter keep).mapM f) (ys.mapM f) :=
    parallel_mapM_filter fun x hx => hskip x (Or.inr hx)
  rw [h] at hleft
  refine (hleft.symm.trans hright).imp fun as bs hboth => ?_
  obtain ⟨cs, has, hbs⟩ := hboth
  exact has.symm.trans hbs

end Insolvency
