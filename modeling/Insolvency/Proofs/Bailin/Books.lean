/-
What a bail-in makes of valid books, whatever the price.

`Shows` reads the figures of a bail-in off its stages and for that takes the price not to
be below nothing.  Whether the books stay valid does not hang on the price: the removal of
self-held shares is capped by the equity assets, also where a negative price makes it a
gain, and each class is scaled by a factor between nothing and one.
-/
import Insolvency.Proofs.Bailin.Compensation
import Insolvency.Proofs.Episode.SameShares
import Insolvency.Proofs.Ledger.Creditors

namespace Insolvency

namespace Accounts

variable {κ : Type} [Ord κ]

/-- The losses are listed under the keys of the accounts. -/
theorem keys_of_scale {a b lost : Accounts κ} {factor : Decimal}
    (h : a.scale factor = .ok (b, lost)) : lost.keys = a.keys := by
  simp only [scale, bind_eq_ok, pure_eq_ok, Prod.mk.injEq] at h
  obtain ⟨both, hboth, -, rfl⟩ := h
  have hentries := Table.traverse_eq_ok hboth
  show (both.entries.map fun e => (e.1, e.2.2)).map Prod.fst = a.entries.map Prod.fst
  rw [List.map_map]
  generalize a.entries = es at hentries
  generalize both.entries = bs at hentries
  induction hentries with
  | nil => rfl
  | cons hkey _ ih =>
      rw [List.map_cons, List.map_cons, ih, ← hkey.1]
      rfl

theorem mem_keys_of_mem_keys_swept {a : Accounts κ} {k : κ} (h : k ∈ a.swept.keys) : k ∈ a.keys :=
  (List.filter_sublist.map Prod.fst).subset h

end Accounts

namespace Bailin

open Decimal

theorem SameUpToSweeping.mem_keys {a b : Accounts AgentId} (h : SameUpToSweeping a b) {k : AgentId}
    (hk : k ∈ b.keys) : k ∈ a.keys := by
  rcases h with rfl | rfl
  · exact hk
  · exact Accounts.mem_keys_of_mem_keys_swept hk

/-! ### Cancelling the shares -/

/-- The self-held shares leave the assets and the shortfall changed, and nothing else. -/
theorem removeSelfHeld_keeps {e e' : Episode} {held : Option Decimal} {price : Decimal}
    (h : removeSelfHeld e held price = .ok e') (hassets : e.assets.holdings.Nonneg) :
    e.SameShares e' ∧ e'.liabilities = e.liabilities ∧ e'.assets.holdings.Nonneg := by
  cases held with
  | none =>
      obtain rfl := pure_eq_ok.mp h
      exact ⟨.refl e, rfl, hassets⟩
  | some quantity =>
      simp only [removeSelfHeld, selfHeldValue, bind_eq_ok, pure_eq_ok] at h
      obtain ⟨removed, ⟨value, -, rfl⟩, assets, hcredit, remaining, -, due, -, rfl⟩ := h
      refine ⟨⟨rfl, rfl, rfl, rfl, rfl, rfl⟩, rfl, ?_⟩
      refine Assets.nonneg_creditHolding hcredit hassets ?_
      rw [toRat_neg, toRat_min]
      linarith [min_le_right value.toRat (e.assets.holding .equity).toRat]

theorem cancelSharesAtCost_eq_ok {e e' : Episode} {price : Decimal}
    (h : cancelSharesAtCost e price = .ok e') (hassets : e.assets.holdings.Nonneg) :
    (∃ gone, e.cancelShares price = .ok gone ∧ gone.SameShares e') ∧
      e'.liabilities = e.liabilities ∧ e'.assets.holdings.Nonneg := by
  simp only [cancelSharesAtCost, bind_eq_ok, pure_eq_ok] at h
  obtain ⟨gone, hgone, removed, hremoved, rfl⟩ := h
  have hbooks : gone.assets = e.assets ∧ gone.liabilities = e.liabilities := by
    obtain ⟨lost, -, rfl⟩ := Episode.cancelShares_eq_ok.mp hgone
    exact ⟨rfl, rfl⟩
  obtain ⟨hsame, hliabilities, hnn⟩ := removeSelfHeld_keeps hremoved (hbooks.1 ▸ hassets)
  exact ⟨⟨gone, hgone, hsame.trans (Episode.sameShares_reach removed _)⟩,
    hliabilities.trans hbooks.2, hnn⟩

/-! ### Writing down the liabilities -/

theorem keys_of_scaleLoans {e : Episode} {l : Liabilities} {lost : Accounts AgentId}
    (h : scaleLoans e = .ok (l, lost)) : ∀ k ∈ lost.keys, k ∈ e.liabilities.loans.keys := by
  intro k hk
  simp only [scaleLoans, bind_eq_ok] at h
  obtain ⟨total, -, factor, -, h⟩ := h
  cases factor with
  | none =>
      obtain ⟨-, rfl⟩ := Prod.mk.inj (pure_eq_ok.mp h)
      cases hk
  | some q =>
      simp only [Liabilities.scaleLoans, bind_eq_ok, pure_eq_ok, Prod.mk.injEq] at h
      obtain ⟨⟨after, shrunk⟩, hscale, -, rfl⟩ := h
      exact Accounts.keys_of_scale hscale ▸ hk

theorem keys_of_scaleDeposits {e : Episode} {l : Liabilities} {lost : Accounts AgentId}
    (h : scaleDeposits e = .ok (l, lost)) : ∀ k ∈ lost.keys, k ∈ e.liabilities.deposits.keys := by
  intro k hk
  unfold scaleDeposits at h
  split_ifs at h
  · simp only [bind_eq_ok] at h
    obtain ⟨total, -, factor, -, h⟩ := h
    cases factor with
    | none =>
        obtain ⟨-, rfl⟩ := Prod.mk.inj (pure_eq_ok.mp h)
        cases hk
    | some q =>
        simp only [Liabilities.scaleDeposits, bind_eq_ok, pure_eq_ok, Prod.mk.injEq] at h
        obtain ⟨⟨after, shrunk⟩, hscale, -, rfl⟩ := h
        exact Accounts.keys_of_scale hscale ▸ hk
  · obtain ⟨-, rfl⟩ := Prod.mk.inj (pure_eq_ok.mp h)
    cases hk

/-! ### The whole course -/

/-- What the write-downs leave of valid books, and who loses by them. -/
structure Course.Leaves (bank : Institution) (shortfall : Decimal) (ctx : Context) (c : Course) :
    Prop where
  assets : c.depositsDown.assets.holdings.Nonneg
  loans : c.depositsDown.liabilities.loans.Nonneg
  deposits : c.depositsDown.liabilities.deposits.Nonneg
  lost_nonneg : AllNonneg (c.lost.map Prod.snd)
  lost_length : c.lost.length ≤ bank.sheet.liabilities.entryCount
  /-- Only creditors lose by a write-down. -/
  lost_creditor : ∀ x ∈ c.lost, bank.sheet.liabilities.isCreditor x.1 = true
  /-- Beside the cancellation nothing happens to the shares. -/
  cancelling : ∃ filed gone, (Episode.opening bank shortfall).SameShares filed ∧
    filed.cancelShares (ctx.book.value bank.id) = .ok gone ∧ gone.SameShares c.depositsDown

/-- The write-downs leave the assets alone. -/
theorem Course.Of.assets_depositsDown {bank : Institution} {shortfall : Decimal} {ctx : Context}
    {c : Course} (h : c.Of bank shortfall ctx) : c.depositsDown.assets = c.cancelled.assets := by
  obtain ⟨_, _, _, -, -, -, hloans⟩ := writeDownLoans_eq_ok h.loans
  obtain ⟨_, _, _, -, -, -, hdeposits⟩ := writeDownDeposits_eq_ok h.deposits
  rw [hdeposits, hloans]
  rfl

theorem Course.Of.leaves {bank : Institution} {shortfall : Decimal} {ctx : Context} {c : Course}
    (h : c.Of bank shortfall ctx) (hsheet : bank.sheet.Nonneg) : c.Leaves bank shortfall ctx := by
  obtain ⟨filed, hfiled, hcancel⟩ := h.cancelling
  have hsame := (Episode.sameShares_fileClaims hfiled).trans (Episode.sameShares_reach filed .start)
  have hfirm : filed.institution = bank := by
    obtain ⟨claims, -, rfl⟩ := Episode.fileClaims_eq_ok.mp hfiled
    rfl
  have hassets : (filed.reach .start).assets.holdings.Nonneg := by
    show filed.institution.sheet.assets.holdings.Nonneg
    exact hfirm ▸ hsheet.assets
  obtain ⟨⟨gone, hgone, hrest⟩, hliabilities, hassets'⟩ := cancelSharesAtCost_eq_ok hcancel hassets
  have howed : c.cancelled.liabilities = bank.sheet.liabilities :=
    hliabilities.trans (congrArg (fun i => i.sheet.liabilities) hfirm)
  obtain ⟨l1, fromLoans, afterLoans, hscale1, -, -, he1⟩ := writeDownLoans_eq_ok h.loans
  obtain ⟨l2, fromDeposits, afterDeposits, hscale2, -, -, he2⟩ := writeDownDeposits_eq_ok h.deposits
  have hl1 : c.loansDown.liabilities = l1 := by rw [he1]; rfl
  have hl2 : c.depositsDown.liabilities = l2 := by rw [he2]; rfl
  obtain ⟨⟨total, p, hloans⟩, hdepositsKept⟩ := scaleLoans_eq_ok hscale1 (howed ▸ hsheet.loans)
  rw [howed, ← hl1] at hdepositsKept
  have hdepositsNonneg : c.loansDown.liabilities.deposits.Nonneg :=
    hdepositsKept.nonneg hsheet.deposits
  obtain ⟨hdeposits, hloansKept⟩ := scaleDeposits_eq_ok hscale2 hdepositsNonneg
  rw [hl1] at hloansKept
  exact {
    assets := h.assets_depositsDown ▸ hassets'
    loans := hl2 ▸ hloansKept.nonneg hloans.scaled.after_nonneg
    deposits := hl2 ▸ (hdeposits.shrunk hdepositsNonneg).nonneg
    lost_nonneg := by
      rw [Course.lost, List.map_append]
      exact List.forall_mem_append.mpr ⟨hloans.scaled.lost_nonneg, hdeposits.lost_nonneg⟩
    lost_length := by
      have hloansLength := hloans.scaled.lost_length
      rw [howed, Accounts.length_values, Accounts.length_values] at hloansLength
      have hkept := hdepositsKept.length_le
      rw [Accounts.length_values, Accounts.length_values] at hkept
      rw [Course.lost, List.length_append]
      exact Nat.add_le_add hloansLength (hdeposits.lost_length.trans hkept)
    lost_creditor := by
      intro x hx
      rcases List.mem_append.mp hx with hx | hx
      · have hkey := keys_of_scaleLoans hscale1 x.1 (List.mem_map_of_mem hx)
        rw [howed] at hkey
        exact Liabilities.isCreditor_of_mem_loans hkey
      · have hkey := keys_of_scaleDeposits hscale2 x.1 (List.mem_map_of_mem hx)
        exact Liabilities.isCreditor_of_mem_deposits (hdepositsKept.mem_keys hkey)
    cancelling := by
      refine ⟨filed.reach .start, gone, hsame, hgone, hrest.trans ?_⟩
      rw [he2, he1]
      exact ⟨rfl, rfl, rfl, rfl, rfl, rfl⟩ }

end Bailin

end Insolvency
