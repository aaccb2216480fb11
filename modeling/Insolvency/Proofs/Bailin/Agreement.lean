/-
Two bail-ins side by side.

The books of two banks agree, and so do the episodes that bail them in, stage by stage.  An
account of nothing that the bank holds in itself takes nothing off its assets, a liability of
nothing loses nothing, and whoever lost nothing gets no shares.

One question is put to the entries and not to the amounts: whether a shareholder is a creditor,
who is then not compensated for its shares.  The two episodes part unless the answer is the
same for both (`hstanding` in `agree_run`).

A loss of nothing leaves the claim as it is.  That is not so of every claim, because one that
is written down by more than it is for, as rounding may do, is written up again by it.  But a
creditor loses at most twice, by its loan and by its deposit, and what is written down first is
no more than the claim.
-/
import Insolvency.Proofs.Bailin.Books
import Insolvency.Proofs.Episode.Agreement
import Insolvency.Proofs.Episode.Validity

namespace Insolvency

open Decimal

/-! ### Claims that are written down twice -/

/-- No more is written down than the claim is for. -/
structure Claim.Sound (c : Claim) : Prop where
  nonneg : 0 ≤ c.writtenDown.toRat
  le : c.writtenDown.toRat ≤ c.amount.toRat

/-- What is written down of a claim first is at most the claim. -/
theorem Claim.sound_writeDown {c d : Claim} {v : Decimal} (h : c.writeDown v = .ok d)
    (hfresh : c.writtenDown = 0) (hamount : 0 ≤ c.amount.toRat) : d.Sound := by
  simp only [writeDown, remaining, hfresh, sub_zero_eq_ok, bind_eq_ok, pure_eq_ok] at h
  obtain ⟨left, hleft, down, hdown, rfl⟩ := h
  obtain rfl := Except.ok.inj hleft
  obtain rfl := Except.ok.inj ((zero_add_eq_ok _).symm.trans hdown)
  constructor
  · show 0 ≤ (min (max v 0) c.amount).toRat
    rw [toRat_min, toRat_max, toRat_zero]
    exact le_min (le_max_right _ _) hamount
  · show (min (max v 0) c.amount).toRat ≤ c.amount.toRat
    rw [toRat_min]
    exact min_le_right _ _

namespace Episode

variable {cs ds : List Claim} {a : AgentId} {ks : List AgentId} {v : Decimal}

/-- Each of the creditors is going to lose once more, and its claims are sound. -/
structure LosingLast (cs : List Claim) (ks : List AgentId) : Prop where
  distinct : ks.Nodup
  sound : ∀ c ∈ cs, c.creditor ∈ ks → c.Sound

/-- Each of the creditors is going to lose for the first time, and no claim is unsound. -/
structure LosingFirst (cs : List Claim) (ks : List AgentId) : Prop where
  distinct : ks.Nodup
  sound : ∀ c ∈ cs, c.Sound
  fresh : ∀ c ∈ cs, c.creditor ∈ ks → c.writtenDown = 0

theorem LosingFirst.last (h : LosingFirst cs ks) : LosingLast cs ks :=
  ⟨h.distinct, fun c hc _ => h.sound c hc⟩

/-- Claims on file that nothing is written down of yet. -/
def Unwritten (cs : List Claim) : Prop := ∀ c ∈ cs, c.writtenDown = 0 ∧ 0 ≤ c.amount.toRat

theorem unwritten_of_claimsOf {l : Liabilities} (h : claimsOf l = .ok cs) (hloans : l.loans.Nonneg)
    (hdeposits : l.deposits.Nonneg) : Unwritten cs := by
  have howed : ∀ x ∈ l.byCreditor.entries, 0 ≤ x.2.exactTotal := fun x hx =>
    Liabilities.nonneg_of_mem_byCreditor hloans hdeposits hx
  refine forall_mem_of_forall₂ ((List.forall₂_and_left _ _).mpr ⟨howed, freshClaims_of_claimsOf h⟩)
    fun x c hc => ⟨hc.2.2.2, ?_⟩
  exact (rounds_add hc.2.2.1).nonneg hc.1

theorem Unwritten.losingFirst (h : Unwritten cs) (hks : ks.Nodup) : LosingFirst cs ks where
  distinct := hks
  sound c hc := by
    obtain ⟨hdown, hamount⟩ := h c hc
    refine ⟨?_, ?_⟩
    · rw [hdown, toRat_zero]
    · rwa [hdown, toRat_zero]
  fresh c hc _ := (h c hc).1

theorem LosingLast.writeDownIn (h : LosingLast cs (a :: ks))
    (hdown : writeDownIn a v cs = .ok ds) : LosingLast ds ks where
  distinct := (List.nodup_cons.mp h.distinct).2
  sound d hd hmem := by
    rcases mem_of_writeDownIn hdown d hd with hmem' | ⟨c, -, rfl, hcd⟩
    · exact h.sound d hmem' (List.mem_cons_of_mem _ hmem)
    · rw [(Claim.writeDown_eq_ok hcd).1] at hmem
      exact absurd hmem (List.nodup_cons.mp h.distinct).1

theorem LosingFirst.writeDownIn (h : LosingFirst cs (a :: ks))
    (hdown : writeDownIn a v cs = .ok ds) : LosingFirst ds ks where
  distinct := (List.nodup_cons.mp h.distinct).2
  sound d hd := by
    rcases mem_of_writeDownIn hdown d hd with hmem | ⟨c, hc, rfl, hcd⟩
    · exact h.sound d hmem
    · have hsound := h.sound c hc
      exact c.sound_writeDown hcd (h.fresh c hc (List.mem_cons_self ..))
        (hsound.nonneg.trans hsound.le)
  fresh d hd hmem := by
    rcases mem_of_writeDownIn hdown d hd with hmem' | ⟨c, -, rfl, hcd⟩
    · exact h.fresh d hmem' (List.mem_cons_of_mem _ hmem)
    · rw [(Claim.writeDown_eq_ok hcd).1] at hmem
      exact absurd hmem (List.nodup_cons.mp h.distinct).1

/-- Sound claims stay as they are when nothing is written down of them. -/
theorem writeDownIn_nothing (h : ∀ c ∈ cs, c.creditor = a → c.Sound) :
    Episode.writeDownIn a 0 cs = .ok cs := by
  induction cs with
  | nil => rfl
  | cons c rest ih =>
      obtain ⟨hc, hrest⟩ := List.forall_mem_cons.mp h
      unfold Episode.writeDownIn
      split_ifs with ha
      · rw [Claim.writeDown_nothing (hc ha).nonneg (hc ha).le]
        rfl
      · rw [ih hrest]
        rfl

end Episode

namespace Bailin

variable {e e' : Episode} {ctx : Context} {price : Decimal}

/-! ### Cancelling the shares -/

theorem removeSelfHeld_nothing (h : e.Agree e') (hequity : 0 ≤ (e.assets.holding .equity).toRat)
    (price : Decimal) :
    ∃ r, removeSelfHeld e (some 0) price = .ok r ∧ r.Agree e' := by
  obtain ⟨assets, hassets, hagree⟩ := e.assets.creditHolding_nothing .equity
  have hremoved : selfHeldValue e 0 price = .ok 0 := by
    rw [selfHeldValue, zero_mul_eq_ok]
    exact congrArg Except.ok (zero_min hequity)
  have hneg : -(0 : Decimal) = 0 := rfl
  refine ⟨e.withAssets assets, ?_, ?_⟩
  · simp only [removeSelfHeld]
    rw [hremoved]
    simp only [bind, Except.bind, hneg, hassets, add_zero_eq_ok]
    rfl
  · have hwith : (e.withAssets assets).Agree (e'.withAssets e'.assets) :=
      h.withAssets (hagree.trans h.assets)
    exact hwith

theorem agree_removeSelfHeld (h : e.Agree e') (hequity : 0 ≤ (e.assets.holding .equity).toRat)
    {held held' : Option Decimal} (hheld : held.getD 0 = held'.getD 0) :
    Parallel Episode.Agree (removeSelfHeld e held price) (removeSelfHeld e' held' price) := by
  have hequity' : 0 ≤ (e'.assets.holding .equity).toRat := by
    rw [Assets.holding, ← h.assets]
    exact hequity
  cases held with
  | none =>
      cases held' with
      | none => exact parallel_pure h
      | some q =>
          obtain rfl : 0 = q := hheld
          obtain ⟨r, hr, hagree⟩ := removeSelfHeld_nothing h.symm hequity' price
          rw [hr]
          exact .ok hagree.symm
  | some q =>
      cases held' with
      | none =>
          obtain rfl : q = 0 := hheld
          obtain ⟨r, hr, hagree⟩ := removeSelfHeld_nothing h hequity price
          rw [hr]
          exact .ok hagree
      | some q' =>
          obtain rfl : q = q' := hheld
          have hvalue : selfHeldValue e q price = selfHeldValue e' q price := by
            rw [selfHeldValue, selfHeldValue, Assets.holding, Assets.holding, h.assets]
          refine parallel_bind hvalue fun removed _ => ?_
          refine (Assets.agree_creditHolding h.assets .equity _).bind fun assets _ hassets => ?_
          subst hassets
          rw [h.totals]
          refine parallel_bind rfl fun remaining _ => parallel_bind rfl fun due _ =>
            parallel_pure ?_
          exact (h.withAssets (.refl assets.holdings)).withTotals _

theorem agree_cancelSharesAtCost (h : e.Agree e') (hassets : e.assets.holdings.Nonneg) :
    Parallel Episode.Agree (cancelSharesAtCost e price) (cancelSharesAtCost e' price) := by
  have hheld : (e.shares.holders.get? e.institution.agentId).getD 0
      = (e'.shares.holders.get? e'.institution.agentId).getD 0 := by
    rw [← h.institution.agentId]
    exact h.shares e.institution.agentId
  refine (h.cancelShares price).with_results.bind fun gone gone' hgone => ?_
  obtain ⟨hagree, hcancel, -⟩ := hgone
  have hequity : 0 ≤ (gone.assets.holding .equity).toRat := by
    rw [(Episode.sameBooks_cancelShares hcancel).assets]
    exact Accounts.amount_nonneg hassets _
  exact (agree_removeSelfHeld hagree hequity hheld).bind fun _ _ hkept =>
    parallel_pure (hkept.reach _)

/-! ### Writing down the liabilities -/

/-- Episodes that have done the same, and accounts of losses that agree. -/
def AgreeLosing {κ : Type} [Ord κ] (p q : Episode × Accounts κ) : Prop :=
  p.1.Agree q.1 ∧ p.2.Agree q.2

theorem agree_scaleLoans (h : e.Agree e') :
    Parallel (fun p q => p.1.Agree q.1 ∧ p.2.Agree q.2) (scaleLoans e) (scaleLoans e') := by
  unfold scaleLoans
  rw [h.totals]
  refine parallel_bind h.liabilities.loans.total fun total _ => parallel_bind rfl fun factor _ => ?_
  cases factor with
  | none => exact parallel_pure ⟨h.liabilities, .refl ∅⟩
  | some q => exact h.liabilities.scaleLoans q

theorem agree_scaleDeposits (h : e.Agree e') :
    Parallel (fun p q => p.1.Agree q.1 ∧ p.2.Agree q.2) (scaleDeposits e) (scaleDeposits e') := by
  unfold scaleDeposits
  rw [h.totals]
  split_ifs
  · refine parallel_bind h.liabilities.deposits.total fun total _ =>
      parallel_bind rfl fun factor _ => ?_
    cases factor with
    | none => exact parallel_pure ⟨h.liabilities, .refl ∅⟩
    | some q => exact h.liabilities.scaleDeposits q
  · exact parallel_pure ⟨h.liabilities, .refl ∅⟩

/-- What is left to cover is worked out alike, and noted alike. -/
theorem agree_recover (h : e.Agree e') {p q : Liabilities × Accounts AgentId}
    (hpq : p.1.Agree q.1 ∧ p.2.Agree q.2) (due : Decimal) (totals : Decimal → Decimal → Totals)
    (stage : Stage) :
    Parallel AgreeLosing
      (do
        let recovered ← p.2.total
        let left ← leftAfter due recovered
        return ({ e.withLiabilities p.1 with totals := totals recovered left }.reach stage, p.2))
      (do
        let recovered ← q.2.total
        let left ← leftAfter due recovered
        return ({ e'.withLiabilities q.1 with totals := totals recovered left }.reach stage,
          q.2)) := by
  refine parallel_bind hpq.2.total fun recovered _ => parallel_bind rfl fun left _ => ?_
  exact parallel_pure ⟨((h.withLiabilities hpq.1).withTotals _).reach stage, hpq.2⟩

theorem agree_writeDownLoans (h : e.Agree e') :
    Parallel AgreeLosing (writeDownLoans e) (writeDownLoans e') := by
  unfold writeDownLoans
  rw [h.totals]
  exact (agree_scaleLoans h).bind fun _ _ hpq => agree_recover h hpq _ _ .loansWrittenDown

theorem agree_writeDownDeposits (h : e.Agree e') :
    Parallel AgreeLosing (writeDownDeposits e) (writeDownDeposits e') := by
  unfold writeDownDeposits
  rw [h.totals]
  exact (agree_scaleDeposits h).bind fun _ _ hpq => agree_recover h hpq _ _ .depositsWrittenDown

/-! ### Recording the losses -/

theorem agree_recordWriteDown {p q : Episode × Accounts Loser} (h : AgreeLosing p q)
    (loss : AgentId × Decimal) :
    Parallel AgreeLosing (recordWriteDown p loss) (recordWriteDown q loss) :=
  (h.1.writeDownClaim loss.1 loss.2).bind fun _ _ he =>
    (h.2.credit ⟨loss.1, .writeDown⟩ loss.2).bind fun _ _ hl => parallel_pure ⟨he, hl⟩

/-- A loss of nothing is put on the list of losses, and that is all. -/
theorem recordWriteDown_nothing {l : Accounts Loser} {a : AgentId}
    (h : ∀ c ∈ e.claims, c.creditor = a → c.Sound) :
    ∃ l', recordWriteDown (e, l) (a, 0) = .ok (e, l') ∧ l'.Agree l := by
  refine ⟨l.insert ⟨a, .writeDown⟩ (l.amount ⟨a, .writeDown⟩), ?_, l.agree_insert_amount _⟩
  have hclaim : e.writeDownClaim a 0 = .ok e := by
    rw [Episode.writeDownClaim, Episode.writeDownIn_nothing h]
    rfl
  simp only [recordWriteDown, hclaim, Accounts.credit, add_zero_eq_ok]
  rfl

/-- A loss is put on lists of losses that agree. -/
theorem parallel_recordWriteDown {l l' : Accounts Loser} (hl : l.Agree l')
    (loss : AgentId × Decimal) :
    Parallel (fun p q => p.1 = q.1 ∧ p.2.Agree q.2) (recordWriteDown (e, l) loss)
      (recordWriteDown (e, l') loss) :=
  parallel_bind rfl fun _ _ =>
    (hl.credit ⟨loss.1, .writeDown⟩ loss.2).bind fun _ _ hr => parallel_pure ⟨rfl, hr⟩

theorem losingLast_of_recordWriteDown {l : Accounts Loser} {p : Episode × Accounts Loser}
    {loss : AgentId × Decimal} {ks : List AgentId}
    (h : recordWriteDown (e, l) loss = .ok p) (hlast : Episode.LosingLast e.claims (loss.1 :: ks)) :
    Episode.LosingLast p.1.claims ks := by
  simp only [recordWriteDown, Episode.writeDownClaim, bind_eq_ok, pure_eq_ok] at h
  obtain ⟨_, ⟨claims, hclaims, rfl⟩, _, -, rfl⟩ := h
  exact hlast.writeDownIn hclaims

/-- Losses of nothing need not be recorded. -/
theorem recordWriteDowns_filter {lost : List (AgentId × Decimal)} {l l' : Accounts Loser}
    (h : Episode.LosingLast e.claims (lost.map Prod.fst)) (hl : l.Agree l') :
    Parallel (fun p q => p.1 = q.1 ∧ p.2.Agree q.2)
      ((lost.filter Accounts.counts).foldlM recordWriteDown (e, l))
      (lost.foldlM recordWriteDown (e, l')) := by
  induction lost generalizing e l l' with
  | nil => exact .ok ⟨rfl, hl⟩
  | cons loss rest ih =>
      rw [List.foldlM_cons]
      cases hcounts : Accounts.counts loss with
      | true =>
          rw [List.filter_cons_of_pos hcounts, List.foldlM_cons]
          refine (parallel_recordWriteDown hl loss).with_results.bind fun p q hpq => ?_
          obtain ⟨e1, l1⟩ := p
          obtain ⟨e2, l2⟩ := q
          obtain ⟨⟨rfl, hl12⟩, hp, -⟩ := hpq
          exact ih (losingLast_of_recordWriteDown hp h) hl12
      | false =>
          obtain ⟨a, v⟩ := loss
          obtain rfl : v = 0 := by simpa [Accounts.counts] using hcounts
          have hsound : ∀ c ∈ e.claims, c.creditor = a → c.Sound := fun c hc ha =>
            h.sound c hc (List.mem_cons.mpr (Or.inl ha))
          obtain ⟨l1, hl1, hagree⟩ := recordWriteDown_nothing (l := l') hsound
          rw [List.filter_cons_of_neg (by simp [hcounts]), hl1]
          refine ih ⟨(List.nodup_cons.mp h.distinct).2, fun c hc hmem => ?_⟩ (hl.trans hagree.symm)
          exact h.sound c hc (List.mem_cons_of_mem _ hmem)

/-- All claims are sound once the losses of one class are recorded. -/
theorem sound_of_recordWriteDowns {lost : List (AgentId × Decimal)} {l : Accounts Loser}
    {r : Episode × Accounts Loser} (h : lost.foldlM recordWriteDown (e, l) = .ok r)
    (hfirst : Episode.LosingFirst e.claims (lost.map Prod.fst)) : ∀ c ∈ r.1.claims, c.Sound := by
  induction lost generalizing e l with
  | nil =>
      obtain rfl := pure_eq_ok.mp h
      exact hfirst.sound
  | cons loss rest ih =>
      rw [List.foldlM_cons, bind_eq_ok] at h
      obtain ⟨mid, hmid, h⟩ := h
      simp only [recordWriteDown, Episode.writeDownClaim, bind_eq_ok, pure_eq_ok] at hmid
      obtain ⟨down, ⟨claims, hclaims, rfl⟩, l', -, rfl⟩ := hmid
      exact ih h (hfirst.writeDownIn hclaims)

/-- The losses of one class recorded on both sides. -/
theorem agree_recordWriteDowns {p q : Episode × Accounts Loser} (h : AgreeLosing p q)
    {lost lost' : Accounts AgentId} (hlost : lost.Agree lost')
    (hp : Episode.LosingLast p.1.claims lost.keys) (hq : Episode.LosingLast q.1.claims lost'.keys) :
    Parallel AgreeLosing (lost.entries.foldlM recordWriteDown p)
      (lost'.entries.foldlM recordWriteDown q) := by
  have hleft := recordWriteDowns_filter hp (.refl p.2)
  have hright := recordWriteDowns_filter hq (.refl q.2)
  have hsame : lost.entries.filter Accounts.counts = lost'.entries.filter Accounts.counts :=
    Accounts.agree_iff.mp hlost
  have hmiddle : Parallel AgreeLosing
      ((lost.entries.filter Accounts.counts).foldlM recordWriteDown p)
      ((lost'.entries.filter Accounts.counts).foldlM recordWriteDown q) := by
    rw [hsame]
    exact parallel_foldlM (fun loss _ _ _ hst => agree_recordWriteDown hst loss) h
  refine (hleft.symm.trans (hmiddle.trans hright)).imp fun r s hrs => ?_
  obtain ⟨r', ⟨hepisode, haccounts⟩, s', hagree, hepisode', haccounts'⟩ := hrs
  exact ⟨hepisode ▸ hepisode' ▸ hagree.1, haccounts.symm.trans (hagree.2.trans haccounts')⟩

/-! ### Compensating the losses -/

theorem recordCancellation_of_not_counts {before : Institution} {losses : Accounts Loser}
    {x : CancelledAccount} (h : x.counts = false) :
    recordCancellation before losses x = losses := by
  have hlost : x.lostValue = 0 := by simpa using (Bool.or_eq_false_iff.mp h).2
  have hnot : compensated before x = false := by
    rw [compensated, hlost]
    exact Bool.and_false _
  rw [recordCancellation, hnot]
  rfl

/-- The cancelled accounts are added to the losses alike, if they are compensated alike. -/
theorem agree_recordCancellations {i j : Institution} {cancelled cancelled' : List CancelledAccount}
    {losses losses' : Accounts Loser} (hlosses : losses.Agree losses')
    (hcancelled : SameKept CancelledAccount.counts cancelled cancelled')
    (hstanding : ∀ x ∈ cancelled, x.counts = true → compensated i x = compensated j x) :
    (cancelled.foldl (recordCancellation i) losses).Agree
      (cancelled'.foldl (recordCancellation j) losses') := by
  have hfilter : ∀ (before : Institution) (xs : List CancelledAccount) (l : Accounts Loser),
      (xs.filter CancelledAccount.counts).foldl (recordCancellation before) l
        = xs.foldl (recordCancellation before) l := by
    intro before xs l
    rw [List.foldl_filter]
    refine List.foldl_ext _ _ _ fun l' x _ => ?_
    split_ifs with hx
    · rfl
    · exact (recordCancellation_of_not_counts (Bool.not_eq_true _ ▸ hx)).symm
  rw [← hfilter i cancelled, ← hfilter j cancelled', ← hcancelled]
  have hkept : ∀ x ∈ cancelled.filter CancelledAccount.counts, compensated i x = compensated j x :=
    fun x hx => hstanding x (List.mem_of_mem_filter hx) (List.mem_filter.mp hx).2
  generalize cancelled.filter CancelledAccount.counts = xs at hkept
  induction xs generalizing losses losses' with
  | nil => exact hlosses
  | cons x rest ih =>
      obtain ⟨hx, hrest⟩ := List.forall_mem_cons.mp hkept
      refine ih ?_ hrest
      unfold recordCancellation
      rw [hx]
      split_ifs
      · exact hlosses.insert _ _
      · exact hlosses

theorem agree_compensate (h : e.Agree e') (base totalLoss : Decimal) (loss : Loser × Decimal) :
    Parallel Episode.Agree (compensate base totalLoss ctx e loss)
      (compensate base totalLoss ctx e' loss) := by
  unfold compensate
  split_ifs
  · exact parallel_pure h
  · exact parallel_bind rfl fun _ _ => parallel_bind rfl fun _ _ => h.allot _ _ _ _ ctx

theorem agree_compensateLosses (h : e.Agree e') (base totalLoss : Decimal)
    {losses losses' : Accounts Loser} (hlosses : losses.Agree losses') :
    Parallel Episode.Agree (losses.entries.foldlM (compensate base totalLoss ctx) e)
      (losses'.entries.foldlM (compensate base totalLoss ctx) e') := by
  have hskip : ∀ loss : Loser × Decimal, Accounts.counts loss = false →
      ∀ e, compensate base totalLoss ctx e loss = .ok e := by
    intro loss hloss e
    have hzero : loss.2 = 0 := by simpa [Accounts.counts] using hloss
    rw [compensate, hzero]
    rfl
  exact parallel_foldlM_kept (Accounts.agree_iff.mp hlosses) hskip hskip
    (fun loss _ _ hst => agree_compensate hst base totalLoss loss) h

theorem agree_compensateAll {i j : Institution} (h : e.Agree e') (base : Decimal)
    {loansLost loansLost' depositsLost depositsLost' : Accounts AgentId}
    (hloans : loansLost.Agree loansLost') (hdeposits : depositsLost.Agree depositsLost')
    (hunwritten : Episode.Unwritten e.claims) (hunwritten' : Episode.Unwritten e'.claims)
    (hstanding : ∀ x ∈ e.cancelled, x.counts = true → compensated i x = compensated j x) :
    Parallel Episode.AgreeBeside
      (compensateAll i base (loansLost.entries ++ depositsLost.entries) e ctx)
      (compensateAll j base (loansLost'.entries ++ depositsLost'.entries) e' ctx) := by
  unfold compensateAll
  rw [List.foldlM_append, List.foldlM_append, bind_assoc, bind_assoc]
  have hfirst := hunwritten.losingFirst (Table.nodup_keys loansLost)
  have hfirst' := hunwritten'.losingFirst (Table.nodup_keys loansLost')
  refine (agree_recordWriteDowns (p := (e, ∅)) (q := (e', ∅)) ⟨h, .refl ∅⟩ hloans hfirst.last
    hfirst'.last).with_results.bind fun p q hpq => ?_
  obtain ⟨hagree, hp, hq⟩ := hpq
  have hlast : Episode.LosingLast p.1.claims depositsLost.keys :=
    ⟨Table.nodup_keys _, fun c hc _ => sound_of_recordWriteDowns hp hfirst c hc⟩
  have hlast' : Episode.LosingLast q.1.claims depositsLost'.keys :=
    ⟨Table.nodup_keys _, fun c hc _ => sound_of_recordWriteDowns hq hfirst' c hc⟩
  refine (agree_recordWriteDowns hagree hdeposits hlast hlast').with_results.bind fun r s hrs => ?_
  obtain ⟨hrecorded, hr, -⟩ := hrs
  have hcancelled : r.1.cancelled = e.cancelled := by
    have hall :
        (loansLost.entries ++ depositsLost.entries).foldlM recordWriteDown (e, ∅) = .ok r := by
      rw [List.foldlM_append, hp]
      exact hr
    exact (recordWriteDowns_sameShares hall).cancelled
  obtain ⟨recorded, writeDowns⟩ := r
  obtain ⟨recorded', writeDowns'⟩ := s
  have hlosses := agree_recordCancellations hrecorded.2 hrecorded.1.cancelled
    (hcancelled.symm ▸ hstanding)
  refine parallel_bind hlosses.total fun totalLoss _ => ?_
  refine (agree_compensateLosses hrecorded.1 base totalLoss hlosses).bind fun c c' hc => ?_
  have hissued := hc.reach .sharesIssued
  refine parallel_bind (hissued.sharePrice base) fun newPrice _ => parallel_pure ?_
  obtain ⟨hpublished, hctx⟩ := hissued.publishPrice newPrice ctx
  exact hpublished.conclude .resolved hctx

/-! ### The whole course -/

theorem claims_cancelSharesAtCost (h : cancelSharesAtCost e price = .ok e') :
    e'.claims = e.claims := by
  simp only [cancelSharesAtCost, Episode.cancelShares, bind_eq_ok, pure_eq_ok] at h
  obtain ⟨_, ⟨lost, -, rfl⟩, kept, hkept, rfl⟩ := h
  cases hheld : e.shares.holders.get? e.institution.agentId with
  | none =>
      rw [hheld] at hkept
      obtain rfl := pure_eq_ok.mp hkept
      rfl
  | some quantity =>
      rw [hheld] at hkept
      simp only [removeSelfHeld, bind_eq_ok, pure_eq_ok] at hkept
      obtain ⟨_, -, _, -, _, -, _, -, rfl⟩ := hkept
      rfl

/-- Nothing is written down of the claims before the losses are recorded. -/
theorem Course.Of.unwritten {bank : Institution} {shortfall : Decimal} {c : Course}
    (h : c.Of bank shortfall ctx) (hsheet : bank.sheet.Nonneg) :
    Episode.Unwritten c.depositsDown.claims := by
  obtain ⟨filed, hfiled, hcancel⟩ := h.cancelling
  obtain ⟨claims, hclaims, rfl⟩ := Episode.fileClaims_eq_ok.mp hfiled
  obtain ⟨l1, _, _, -, -, -, he1⟩ := writeDownLoans_eq_ok h.loans
  obtain ⟨l2, _, _, -, -, -, he2⟩ := writeDownDeposits_eq_ok h.deposits
  have hkept : c.depositsDown.claims = c.cancelled.claims := by
    rw [he2, he1]
    rfl
  rw [hkept, claims_cancelSharesAtCost hcancel]
  exact Episode.unwritten_of_claimsOf hclaims hsheet.loans hsheet.deposits

/-- Whoever has a cancelled account on record that was not of nothing has held shares. -/
theorem Course.Of.held_ne_zero {bank : Institution} {shortfall : Decimal} {c : Course}
    (h : c.Of bank shortfall ctx) (hsheet : bank.sheet.Nonneg) :
    ∀ x ∈ c.depositsDown.cancelled, x.counts = true → bank.sheet.shares.held x.holder ≠ 0 := by
  obtain ⟨filed, gone, hfiled, hgone, hdown⟩ := (h.leaves hsheet).cancelling
  obtain ⟨lost, hlost, rfl⟩ := Episode.cancelShares_eq_ok.mp hgone
  rw [hdown.cancelled, hfiled.cancelled]
  show ∀ x ∈ [] ++ lost, _
  rw [List.nil_append]
  have hentries : ∀ x ∈ filed.shares.holders.entries, bank.sheet.shares.held x.1 = x.2 := by
    rw [hfiled.shares]
    exact fun x hx => Accounts.amount_of_mem_entries hx
  refine forall_mem_of_forall₂ ((List.forall₂_and_left _ _).mpr ⟨hentries, mapM_eq_ok.mp hlost⟩)
    fun x account hx => ?_
  obtain ⟨hheld, haccount⟩ := hx
  simp only [Episode.cancelledAccount, bind_eq_ok, pure_eq_ok] at haccount
  obtain ⟨value, hvalue, rfl⟩ := haccount
  intro hcounts hnone
  have hzero : x.2 = 0 := hheld.symm.trans hnone
  rw [hzero, zero_mul_eq_ok] at hvalue
  obtain rfl := Except.ok.inj hvalue
  rw [CancelledAccount.counts, hzero] at hcounts
  cases hcounts

/-- Who has held shares is compensated alike. -/
theorem compensated_of_agree {i j : Institution} (h : i.Agree j)
    (hstanding : ∀ a ≠ i.agentId, i.sheet.shares.held a ≠ 0 →
      i.sheet.liabilities.isCreditor a = j.sheet.liabilities.isCreditor a)
    {x : CancelledAccount} (hheld : i.sheet.shares.held x.holder ≠ 0) :
    compensated i x = compensated j x := by
  unfold compensated
  rw [← h.agentId]
  by_cases hself : x.holder = i.agentId
  · simp [hself]
  · rw [hstanding x.holder hself hheld]

/-- **Two bail-ins of banks with books that agree come to the same**, if the same of the
shareholders are creditors. -/
theorem agree_run {i j : Institution} (h : i.Agree j) (hi : i.sheet.Nonneg) (hj : j.sheet.Nonneg)
    (hstanding : ∀ a ≠ i.agentId, i.sheet.shares.held a ≠ 0 →
      i.sheet.liabilities.isCreditor a = j.sheet.liabilities.isCreditor a)
    (shortfall : Decimal) (ctx : Context) :
    Parallel Episode.AgreeBeside (run i shortfall ctx) (run j shortfall ctx) := by
  unfold run
  rw [← h.id]
  split_ifs with hdust
  · exact parallel_pure ⟨Episode.agree_opening h 0, rfl⟩
  have hopening := Episode.agree_opening h shortfall
  refine parallel_bind hopening.shareCount fun base hbase => ?_
  have hbase' := hopening.shareCount.symm.trans hbase
  refine hopening.fileClaims.with_results.bind fun filed filed' hfiled => ?_
  obtain ⟨hfiled, hfile, hfile'⟩ := hfiled
  have hassets : (filed.reach .start).assets.holdings.Nonneg := by
    obtain ⟨claims, -, rfl⟩ := Episode.fileClaims_eq_ok.mp hfile
    exact hi.assets
  refine (agree_cancelSharesAtCost (hfiled.reach .start) hassets).with_results.bind
    fun gone gone' hgone => ?_
  obtain ⟨hgone, hcancel, hcancel'⟩ := hgone
  refine (agree_writeDownLoans hgone).with_results.bind fun p q hloans => ?_
  obtain ⟨loansDown, loansLost⟩ := p
  obtain ⟨loansDown', loansLost'⟩ := q
  obtain ⟨⟨hloansDown, hloansLost⟩, hloans, hloans'⟩ := hloans
  refine (agree_writeDownDeposits hloansDown).with_results.bind fun p q hdeposits => ?_
  obtain ⟨down, depositsLost⟩ := p
  obtain ⟨down', depositsLost'⟩ := q
  obtain ⟨⟨hdown, hdepositsLost⟩, hdeposits, hdeposits'⟩ := hdeposits
  have hdue := not_le_iff.mp hdust
  have hcourse : Course.Of i shortfall ctx ⟨base, gone, loansDown, loansLost, down, depositsLost⟩ :=
    ⟨hdue, hbase, ⟨filed, hfile, hcancel⟩, hloans, hdeposits⟩
  have hcourse' : Course.Of j shortfall ctx
      ⟨base, gone', loansDown', loansLost', down', depositsLost'⟩ :=
    ⟨hdue, hbase', ⟨filed', hfile', h.id ▸ hcancel'⟩, hloans', hdeposits'⟩
  dsimp only
  rw [← hdown.totals]
  split_ifs
  · exact hdown.giveUp h ctx
  exact agree_compensateAll hdown base hloansLost hdepositsLost (hcourse.unwritten hi)
    (hcourse'.unwritten hj) fun x hx hcounts =>
      compensated_of_agree h hstanding (hcourse.held_ne_zero hi x hx hcounts)

end Bailin

end Insolvency
