/-
Spawned intermediaries beside their share accounts.

An intermediary keeps a count of its own, and the institution keeps an account for it.
The count grows by what was meant for the creditor, the account by what was really put
on it.  The two are the same for allotted shares.  For shares handed over they are the
same as long as the source can give what was asked of it, and the parts of what a holder
gives up are rounded one by one, so together they may be more than it has.

So what is preserved is not that count and account are equal.  The account never holds
more than the count, and where it holds less, a handover to it has emptied its source.
-/
import Insolvency.Proofs.Shares.Policies

namespace Insolvency

open Decimal

/-- Whom the ids stand for. -/
def spawnedAs (newId : Nat → IntermediaryId) (k : Nat) : AgentId := .ofIntermediary (newId k)

/-- Ids for intermediaries that are all different and that the books do not name. -/
structure FreshIds (newId : Nat → IntermediaryId) (s : BalanceSheet) : Prop where
  distinct : Function.Injective newId
  unnamed : ∀ k, s.names (spawnedAs newId k) = false

namespace FreshIds

variable {newId : Nat → IntermediaryId} {s : BalanceSheet}

theorem injective (h : FreshIds newId s) : Function.Injective (spawnedAs newId) :=
  fun _ _ heq => h.distinct (congrArg AgentId.id heq)

theorem ne_of_names (h : FreshIds newId s) {a : AgentId} (ha : s.names a = true) (k : Nat) :
    a ≠ spawnedAs newId k := by
  rintro rfl
  rw [h.unnamed k] at ha
  cases ha

end FreshIds

namespace Episode

variable {i : Institution} {newId : Nat → IntermediaryId} {e e' : Episode}
  {creditor holder : AgentId} {quantity moved : Decimal}

/-! ### Finding a holder -/

/-- What finding a holder for a creditor makes of the intermediaries. -/
inductive Assigned (newId : Nat → IntermediaryId) (creditor : AgentId) (quantity : Decimal)
    (ms : List Intermediary) : AgentId → List Intermediary → Prop
  /-- The creditor holds the shares itself. -/
  | itself : Assigned newId creditor quantity ms creditor ms
  /-- The intermediary that already holds for it counts so many more. -/
  | again {before after : List Intermediary} {m : Intermediary} {shares : Decimal}
      (hsplit : ms = before ++ m :: after) (hadd : m.shares.add quantity = .ok shares) :
      Assigned newId creditor quantity ms m.agentId (before ++ { m with shares } :: after)
  /-- An intermediary is spawned and counts so many. -/
  | spawned {m : Intermediary} (hagent : m.agentId = spawnedAs newId ms.length)
      (hshares : m.shares = quantity) : Assigned newId creditor quantity ms m.agentId (ms ++ [m])

theorem addToHolding_eq_some {stock : InstitutionId} {ms ms' : List Intermediary}
    {found : Intermediary} (h : addToHolding creditor stock quantity ms = .ok (some (ms', found))) :
    ∃ before m after shares, ms = before ++ m :: after ∧ m.shares.add quantity = .ok shares ∧
      found = { m with shares } ∧ ms' = before ++ { m with shares } :: after := by
  induction ms generalizing ms' with
  | nil => cases h
  | cons m rest ih =>
      unfold addToHolding at h
      split_ifs at h with hm
      · simp only [bind_eq_ok, pure_eq_ok, Option.some.injEq, Prod.mk.injEq] at h
        obtain ⟨shares, hadd, rfl, rfl⟩ := h
        exact ⟨[], m, rest, shares, rfl, hadd, rfl, rfl⟩
      · simp only [bind_eq_ok] at h
        obtain ⟨result, hrest, h⟩ := h
        cases result with
        | none => cases h
        | some x =>
            simp only [pure_eq_ok, Option.some.injEq, Prod.mk.injEq] at h
            obtain ⟨rfl, rfl⟩ := h
            obtain ⟨before, m', after, shares, rfl, hadd, hfound, hms⟩ := ih hrest
            exact ⟨m :: before, m', after, shares, rfl, hadd, hfound, by rw [hms]; rfl⟩

theorem assigned_of_assignHolder {ctx : Context}
    (h : e.assignHolder creditor quantity ctx = .ok (e', holder)) :
    Assigned ctx.newId creditor quantity e.intermediaries holder e'.intermediaries := by
  unfold assignHolder at h
  split_ifs at h
  · obtain ⟨rfl, rfl⟩ := Prod.mk.inj (pure_eq_ok.mp h)
    exact .itself
  · simp only [bind_eq_ok] at h
    obtain ⟨result, hresult, h⟩ := h
    cases result with
    | none =>
        obtain ⟨rfl, rfl⟩ := Prod.mk.inj (pure_eq_ok.mp h)
        exact .spawned rfl rfl
    | some x =>
        obtain ⟨rfl, rfl⟩ := Prod.mk.inj (pure_eq_ok.mp h)
        obtain ⟨before, m, after, shares, hsplit, hadd, hfound, hms⟩ := addToHolding_eq_some hresult
        rw [hfound]
        show Assigned ctx.newId creditor quantity e.intermediaries m.agentId x.1
        rw [hms]
        exact .again hsplit hadd

/-! ### Counts and accounts -/

/-- The account of an intermediary holds what the intermediary counts.  It may hold less if a
handover to it has emptied its source, and it never holds more. -/
structure Recorded (e : Episode) (m : Intermediary) : Prop where
  held_le : (e.shares.held m.agentId).toRat ≤ m.shares.toRat
  held_eq_or : e.shares.held m.agentId = m.shares ∨
    ∃ h ∈ e.handovers, h.holder = m.agentId ∧ e.shares.held h.source = 0

/-- Who hands over shares is a holder of before without a claim. -/
def OutsideSources (i : Institution) (e : Episode) : Prop :=
  ∀ h ∈ e.handovers, h.source ∈ i.sheet.shares.holders.keys ∧
    h.source ∉ i.sheet.liabilities.byCreditor.keys

/-- Every intermediary is recorded, and ids are used up in order. -/
structure InStep (i : Institution) (newId : Nat → IntermediaryId) (e : Episode) : Prop where
  nonneg : e.shares.holders.Nonneg
  agents : e.intermediaries.map Intermediary.agentId
    = (List.range e.intermediaries.length).map (spawnedAs newId)
  unused : ∀ k, e.intermediaries.length ≤ k → e.shares.held (spawnedAs newId k) = 0
  recorded : ∀ m ∈ e.intermediaries, e.Recorded m
  sources : e.OutsideSources i

theorem InStep.exists_spawnedAs (h : InStep i newId e) {m : Intermediary}
    (hm : m ∈ e.intermediaries) :
    ∃ k < e.intermediaries.length, m.agentId = spawnedAs newId k := by
  have hagent : m.agentId ∈ (List.range e.intermediaries.length).map (spawnedAs newId) :=
    h.agents ▸ List.mem_map_of_mem hm
  obtain ⟨k, hk, hagent⟩ := List.mem_map.mp hagent
  exact ⟨k, List.mem_range.mp hk, hagent.symm⟩

/-- An id that is not used up yet belongs to none of the intermediaries. -/
theorem InStep.ne_of_unused (h : InStep i newId e) (hfresh : FreshIds newId i.sheet)
    {m : Intermediary} (hm : m ∈ e.intermediaries) {k : Nat} (hk : e.intermediaries.length ≤ k) :
    spawnedAs newId k ≠ m.agentId := by
  obtain ⟨j, hj, hagent⟩ := h.exists_spawnedAs hm
  rw [hagent]
  exact fun heq => absurd (hfresh.injective heq) (by omega)

/-- Shares are put on the account of a holder.  What is put on it is what was meant for it, or
less if this has emptied the source; other intermediaries' accounts are as they were. -/
structure Delivers (i : Institution) (newId : Nat → IntermediaryId) (e e' : Episode)
    (holder : AgentId) (quantity moved : Decimal) : Prop where
  nonneg : e'.shares.holders.Nonneg
  credited : (e.shares.held holder).add moved = .ok (e'.shares.held holder)
  moved_le : moved.toRat ≤ quantity.toRat
  moved_eq_or : moved = quantity ∨
    ∃ h ∈ e'.handovers, h.holder = holder ∧ e'.shares.held h.source = 0
  others : ∀ k, spawnedAs newId k ≠ holder →
    e'.shares.held (spawnedAs newId k) = e.shares.held (spawnedAs newId k)
  stillEmpty : ∀ h ∈ e.handovers,
    h ∈ e'.handovers ∧ (e.shares.held h.source = 0 → e'.shares.held h.source = 0)
  sources : e'.OutsideSources i

namespace Delivers

variable {m : Intermediary}

/-- An intermediary that nothing is delivered to stays recorded. -/
theorem recorded_of_ne (h : Delivers i newId e e' holder quantity moved) (he : InStep i newId e)
    (hm : m ∈ e.intermediaries) (hne : m.agentId ≠ holder) : e'.Recorded m := by
  obtain ⟨k, -, hagent⟩ := he.exists_spawnedAs hm
  have hheld : e'.shares.held m.agentId = e.shares.held m.agentId := by
    rw [hagent] at hne ⊢
    exact h.others k hne
  have hrecorded := he.recorded m hm
  refine ⟨hheld ▸ hrecorded.held_le, ?_⟩
  rw [hheld]
  refine hrecorded.held_eq_or.imp id ?_
  rintro ⟨handover, hmem, hholder, hnone⟩
  exact ⟨handover, (h.stillEmpty handover hmem).1, hholder, (h.stillEmpty handover hmem).2 hnone⟩

/-- Count and account both grow, and stay recorded. -/
theorem recorded_of_add (h : Delivers i newId e e' m.agentId quantity moved) {shares : Decimal}
    (hm : e.Recorded m) (hadd : m.shares.add quantity = .ok shares) :
    e'.Recorded { m with shares } where
  held_le := by
    have hle := hm.held_le
    have hmoved := h.moved_le
    exact (rounds_add h.credited).mono (rounds_add hadd) (by linarith)
  held_eq_or := by
    rcases hm.held_eq_or with heq | ⟨handover, hmem, hholder, hnone⟩
    · rcases h.moved_eq_or with hmoved | hdrained
      · have hcredited := h.credited
        rw [heq, hmoved, hadd] at hcredited
        exact Or.inl (Except.ok.inj hcredited).symm
      · exact Or.inr hdrained
    · exact Or.inr
        ⟨handover, (h.stillEmpty handover hmem).1, hholder, (h.stillEmpty handover hmem).2 hnone⟩

/-- A new intermediary counts what it is spawned with, and its account was empty. -/
theorem recorded_of_unused (h : Delivers i newId e e' m.agentId m.shares moved)
    (hunused : e.shares.held m.agentId = 0) : e'.Recorded m := by
  have hheld : e'.shares.held m.agentId = moved := by
    have hround := rounds_add h.credited
    rw [hunused, toRat_zero, zero_add] at hround
    exact hround.eq_of_amount
  refine ⟨hheld ▸ h.moved_le, ?_⟩
  rw [hheld]
  exact h.moved_eq_or

theorem inStep_of_itself (h : Delivers i newId e e' creditor quantity moved)
    (he : InStep i newId e) (hcreditor : ∀ k, creditor ≠ spawnedAs newId k)
    (hms : e'.intermediaries = e.intermediaries) : InStep i newId e' where
  nonneg := h.nonneg
  agents := hms ▸ he.agents
  unused := fun k hk => by
    rw [h.others k (hcreditor k).symm]
    exact he.unused k (hms ▸ hk)
  recorded := fun m hm => by
    rw [hms] at hm
    obtain ⟨k, -, hagent⟩ := he.exists_spawnedAs hm
    exact h.recorded_of_ne he hm (hagent ▸ (hcreditor k).symm)
  sources := h.sources

theorem inStep_of_again {before after : List Intermediary} {shares : Decimal}
    (h : Delivers i newId e e' m.agentId quantity moved) (he : InStep i newId e)
    (hfresh : FreshIds newId i.sheet) (hsplit : e.intermediaries = before ++ m :: after)
    (hadd : m.shares.add quantity = .ok shares)
    (hms : e'.intermediaries = before ++ { m with shares } :: after) : InStep i newId e' := by
  have hmem : m ∈ e.intermediaries := hsplit ▸ List.mem_append_cons_self
  have hlength : e'.intermediaries.length = e.intermediaries.length := by
    rw [hms, hsplit, List.length_append, List.length_append, List.length_cons, List.length_cons]
  refine ⟨h.nonneg, ?_, fun k hk => ?_, fun m' hm' => ?_, h.sources⟩
  · rw [hlength, ← he.agents, hms, hsplit, List.map_append, List.map_append]
    rfl
  · rw [hlength] at hk
    rw [h.others k (he.ne_of_unused hfresh hmem hk)]
    exact he.unused k hk
  · -- All agents are different, so nobody else has this one's account.
    have hnodup : (e.intermediaries.map Intermediary.agentId).Nodup :=
      he.agents ▸ List.nodup_range.map hfresh.injective
    rw [hsplit, List.map_append, List.map_cons, List.nodup_middle, List.nodup_cons,
      ← List.map_append] at hnodup
    have hother : m' ∈ before ++ after → e'.Recorded m' := fun hm' => by
      refine h.recorded_of_ne he ?_ fun heq => hnodup.1 (heq ▸ List.mem_map_of_mem hm')
      rw [hsplit]
      exact List.mem_append.mpr ((List.mem_append.mp hm').imp id (List.mem_cons_of_mem _))
    rw [hms] at hm'
    rcases List.mem_append.mp hm' with hm' | hm'
    · exact hother (List.mem_append_left _ hm')
    · rcases List.mem_cons.mp hm' with rfl | hm'
      · exact h.recorded_of_add (he.recorded m hmem) hadd
      · exact hother (List.mem_append_right _ hm')

theorem inStep_of_spawned (h : Delivers i newId e e' m.agentId quantity moved)
    (he : InStep i newId e) (hfresh : FreshIds newId i.sheet)
    (hagent : m.agentId = spawnedAs newId e.intermediaries.length) (hshares : m.shares = quantity)
    (hms : e'.intermediaries = e.intermediaries ++ [m]) : InStep i newId e' := by
  have hlength : e'.intermediaries.length = e.intermediaries.length + 1 := by
    rw [hms, List.length_append, List.length_singleton]
  refine ⟨h.nonneg, ?_, fun k hk => ?_, fun m' hm' => ?_, h.sources⟩
  · rw [hlength, List.range_succ, List.map_append, ← he.agents, hms, List.map_append,
      List.map_singleton, List.map_singleton, hagent]
  · rw [hlength] at hk
    have hne : spawnedAs newId k ≠ m.agentId := by
      rw [hagent]
      exact fun heq => absurd (hfresh.injective heq) (by omega)
    rw [h.others k hne]
    exact he.unused k (Nat.le_of_succ_le hk)
  · rw [hms] at hm'
    rcases List.mem_append.mp hm' with hm' | hm'
    · exact h.recorded_of_ne he hm' (hagent ▸ (he.ne_of_unused hfresh hm' le_rfl).symm)
    · obtain rfl := List.mem_singleton.mp hm'
      exact (hshares ▸ h).recorded_of_unused (hagent ▸ he.unused _ le_rfl)

/-- Counts and accounts stay in step where a holder is found and shares are put on its account. -/
theorem inStep (h : Delivers i newId e e' holder quantity moved) (he : InStep i newId e)
    (hfresh : FreshIds newId i.sheet) (hcreditor : ∀ k, creditor ≠ spawnedAs newId k)
    (hassigned : Assigned newId creditor quantity e.intermediaries holder e'.intermediaries) :
    InStep i newId e' := by
  generalize hms : e'.intermediaries = ms at hassigned
  cases hassigned with
  | itself => exact h.inStep_of_itself he hcreditor hms
  | again hsplit hadd => exact h.inStep_of_again he hfresh hsplit hadd hms
  | spawned hagent hshares => exact h.inStep_of_spawned he hfresh hagent hshares hms

end Delivers

/-! ### Steps -/

/-- A holder that is found is the creditor or one of the intermediaries, and whoever is spawned for
it has the next id. -/
theorem Assigned.eq_or_spawnedAs {ms ms' : List Intermediary}
    (h : Assigned newId creditor quantity ms holder ms')
    (hms : ∀ m ∈ ms, ∃ k, m.agentId = spawnedAs newId k) :
    (holder = creditor ∨ ∃ k, holder = spawnedAs newId k) ∧
      ∀ m ∈ ms', ∃ k, m.agentId = spawnedAs newId k := by
  cases h with
  | itself => exact ⟨Or.inl rfl, hms⟩
  | @again before after m shares hsplit =>
      subst hsplit
      refine ⟨Or.inr (hms m List.mem_append_cons_self), fun m' hm' => ?_⟩
      rcases List.mem_append.mp hm' with hm' | hm'
      · exact hms m' (List.mem_append_left _ hm')
      · rcases List.mem_cons.mp hm' with rfl | hm'
        · exact hms m List.mem_append_cons_self
        · exact hms m' (List.mem_append_right _ (List.mem_cons_of_mem _ hm'))
  | @spawned m hagent =>
      refine ⟨Or.inr ⟨_, hagent⟩, fun m' hm' => ?_⟩
      rcases List.mem_append.mp hm' with hm' | hm'
      · exact hms m' hm'
      · obtain rfl := List.mem_singleton.mp hm'
        exact ⟨_, hagent⟩

theorem Assigned.holder_eq_or {ms : List Intermediary} (he : InStep i newId e)
    (h : Assigned newId creditor quantity e.intermediaries holder ms) :
    holder = creditor ∨ ∃ k, holder = spawnedAs newId k :=
  (h.eq_or_spawnedAs fun _ hm => (he.exists_spawnedAs hm).imp fun _ hk => hk.2).1

theorem InStep.of_sameShares (h : InStep i newId e) (hsame : e.SameShares e') :
    InStep i newId e' where
  nonneg := hsame.shares ▸ h.nonneg
  agents := hsame.intermediaries ▸ h.agents
  unused := by
    rw [hsame.intermediaries, hsame.shares]
    exact h.unused
  recorded := by
    rw [hsame.intermediaries]
    intro m hm
    refine ⟨hsame.shares ▸ (h.recorded m hm).held_le, ?_⟩
    rw [hsame.shares, hsame.handovers]
    exact (h.recorded m hm).held_eq_or
  sources := by
    unfold OutsideSources
    rw [hsame.handovers]
    exact h.sources

/-- Before any intermediary is spawned there is nothing to be out of step. -/
theorem inStep_of_none (hnonneg : e.shares.holders.Nonneg)
    (hunused : ∀ k, e.shares.held (spawnedAs newId k) = 0) (hms : e.intermediaries = [])
    (hhandovers : e.handovers = []) : InStep i newId e where
  nonneg := hnonneg
  agents := by
    rw [hms]
    rfl
  unused := fun k _ => hunused k
  recorded := fun m hm => by
    rw [hms] at hm
    cases hm
  sources := fun h hh => by
    rw [hhandovers] at hh
    cases hh

theorem inStep_opening (hfresh : FreshIds newId i.sheet) (hi : i.sheet.shares.holders.Nonneg)
    (shortfall : Decimal) : InStep i newId (opening i shortfall) :=
  inStep_of_none hi (fun k => BalanceSheet.held_eq_zero_of_not_names (hfresh.unnamed k)) rfl rfl

theorem inStep_of_cancelShares {shortfall price : Decimal} (h : e.cancelShares price = .ok e')
    (huntouched : (opening i shortfall).SameShares e) : InStep i newId e' := by
  have hms : e.intermediaries = [] := huntouched.intermediaries
  have hhandovers : e.handovers = [] := huntouched.handovers
  obtain ⟨lost, -, rfl⟩ := cancelShares_eq_ok.mp h
  exact inStep_of_none Accounts.nonneg_empty (fun _ => rfl) hms hhandovers

/-- Shares allotted are all put on the holder's account. -/
theorem delivers_allot {value : Decimal} {basis : Entitlement} {ctx : Context}
    (h : e.allot creditor quantity value basis ctx = .ok e') (he : InStep i newId e)
    (hq : 0 ≤ quantity.toRat) (hkept : e.handovers = []) : ∃ holder,
      Assigned ctx.newId creditor quantity e.intermediaries holder e'.intermediaries ∧
      Delivers i newId e e' holder quantity quantity := by
  have hnonneg := nonneg_shares_allot h he.nonneg hq
  have hhandovers := (handovers_allot h).trans hkept
  simp only [allot, bind_eq_ok, pure_eq_ok] at h
  obtain ⟨⟨assigned, holder⟩, hassign, shares, hissue, issued, -, rfl⟩ := h
  have hassigned := assigned_of_assignHolder hassign
  refine ⟨holder, hassigned, ?_⟩
  rw [assignHolder_eq_ok hassign] at hissue
  exact {
    nonneg := hnonneg
    credited := Shares.held_issue_self hissue
    moved_le := le_rfl
    moved_eq_or := Or.inl rfl
    others := fun k hne => Shares.held_issue_of_ne hissue hne
    stillEmpty := fun handover hmem => by
      rw [hkept] at hmem
      cases hmem
    sources := fun handover hmem => by
      rw [hhandovers] at hmem
      cases hmem }

/-- Of shares handed over, what is moved is put on the holder's account.  If that is less than
was asked for, it was all that the source had. -/
theorem delivers_handOver {source : AgentId} {value : Decimal} {shares : Shares}
    {assigned : Episode} {ctx : Context}
    (hassign : e.assignHolder creditor quantity ctx = .ok (assigned, holder))
    (hmove : assigned.shares.transfer source holder quantity = .ok (shares, moved))
    (hrecord : SameShares { assigned.withShares shares with
      handovers := assigned.handovers ++ [⟨source, creditor, holder, moved, value⟩] } e')
    (he : InStep i newId e) (hfresh : FreshIds newId i.sheet) (hq : 0 ≤ quantity.toRat)
    (hsource : source ∈ i.sheet.shares.holders.keys)
    (houtside : source ∉ i.sheet.liabilities.byCreditor.keys)
    (hholder : ∀ a ∈ i.sheet.shares.holders.keys, a ∉ i.sheet.liabilities.byCreditor.keys →
      a ≠ holder) : Delivers i newId e e' holder quantity moved := by
  rw [assignHolder_eq_ok hassign] at hmove hrecord
  change e.shares.transfer source holder quantity = .ok (shares, moved) at hmove
  have hshares : e'.shares = shares := hrecord.shares
  have hhandovers : e'.handovers
      = e.handovers ++ [⟨source, creditor, holder, moved, value⟩] := hrecord.handovers
  have hne := hholder source hsource houtside
  have hmoved : moved = e.shares.movable source quantity := (Shares.transfer_eq_ok hmove).1
  exact {
    nonneg := hshares ▸ Shares.nonneg_transfer hmove he.nonneg
    credited := hshares ▸ Shares.held_transfer_target hmove hne
    moved_le := hmoved ▸ Shares.movable_le e.shares source hq
    moved_eq_or := by
      rcases Shares.movable_eq_or he.nonneg source hq with hall | hall
      · exact Or.inl (hmoved.trans hall)
      · refine Or.inr ⟨_, hhandovers ▸ List.mem_append_right _ (List.mem_singleton_self _), rfl, ?_⟩
        rw [hshares]
        exact Shares.held_transfer_source hmove hne (hmoved.trans hall)
    others := fun k hk => by
      rw [hshares]
      exact Shares.held_transfer_of_ne hmove
        (hfresh.ne_of_names (BalanceSheet.names_of_mem_holders hsource) k).symm hk
    stillEmpty := fun handover hmem => by
      obtain ⟨hmem', houtside'⟩ := he.sources handover hmem
      refine ⟨hhandovers ▸ List.mem_append_left _ hmem, fun hnone => ?_⟩
      rw [hshares]
      by_cases heq : handover.source = source
      · rw [heq] at hnone ⊢
        refine Shares.held_transfer_source hmove hne (hmoved.trans ?_)
        exact Shares.movable_of_held_eq_zero hnone
      · rw [Shares.held_transfer_of_ne hmove heq (hholder _ hmem' houtside'), hnone]
    sources := fun handover hmem => by
      rw [hhandovers] at hmem
      rcases List.mem_append.mp hmem with hmem | hmem
      · exact he.sources handover hmem
      · obtain rfl := List.mem_singleton.mp hmem
        exact ⟨hsource, houtside⟩ }

/-- Every step keeps counts and accounts in step. -/
theorem ShareStep.inStep (h : ShareStep i newId e e') (hfresh : FreshIds newId i.sheet)
    (he : InStep i newId e) : InStep i newId e' := by
  cases h with
  | aside hsame => exact he.of_sameShares hsame
  | cancel h huntouched => exact inStep_of_cancelShares h huntouched
  | @allot creditor _ _ _ ctx h hnew hq hknown hkept =>
      subst hnew
      obtain ⟨holder, hassigned, hdelivers⟩ := delivers_allot h he hq hkept
      have hcreditor : ∀ k, creditor ≠ spawnedAs ctx.newId k := fun k => by
        rcases hknown with hnamed | hkind
        · exact hfresh.ne_of_names hnamed k
        · rintro rfl
          cases hkind
      exact hdelivers.inStep he hfresh hcreditor hassigned
  | @handOver _ _ creditor holder _ _ _ _ ctx hassign hmove hrecord hnew hq hsource houtside
      hcreditor hkept =>
      subst hnew
      have hassigned := assigned_of_assignHolder hassign
      have hnamed : i.sheet.names creditor = true := BalanceSheet.names_of_isCreditor
        (Liabilities.isCreditor_of_mem_byCreditor hcreditor)
      have hholder : ∀ a ∈ i.sheet.shares.holders.keys,
          a ∉ i.sheet.liabilities.byCreditor.keys → a ≠ holder := by
        intro a ha hout
        rcases hassigned.holder_eq_or he with rfl | ⟨k, rfl⟩
        · exact fun heq => hout (heq ▸ hcreditor)
        · exact hfresh.ne_of_names (BalanceSheet.names_of_mem_holders ha) k
      have hdelivers :=
        delivers_handOver hassign hmove hrecord he hfresh hq hsource houtside hholder
      exact hdelivers.inStep he hfresh (hfresh.ne_of_names hnamed)
        (hrecord.intermediaries ▸ hassigned)

end Episode

/-! ### All policies -/

open Episode in
/-- **The share accounts of spawned intermediaries against their own counts.**  No account
holds more than its intermediary counts, and one holds less only if a handover to it has
emptied the account that it came from. -/
theorem Policy.spawned_recorded_of_resolve {p : Policy} {i : Institution} {shortfall : Decimal}
    {ctx ctx' : Context} {e : Episode} (h : p.resolve i shortfall ctx = .ok (e, ctx'))
    (hfresh : FreshIds ctx.newId i.sheet) : ∀ m ∈ e.intermediaries,
      (e.shares.held m.agentId).toRat ≤ m.shares.toRat ∧
      (e.shares.held m.agentId = m.shares ∨
        ∃ h ∈ e.handovers, h.holder = m.agentId ∧ e.shares.held h.source = 0) := by
  obtain ⟨s, hsteps⟩ := shareSteps_of_resolve h
  have hsheet := (inOrder_of_objection? (resolve_eq_ok.mp h).1).1
  have hstep := hsteps.preserves (P := InStep i ctx.newId) (inStep_opening hfresh hsheet.shares s)
    fun _ _ hstep he => hstep.inStep hfresh he
  intro m hm
  have hrecorded := hstep.recorded m hm
  exact ⟨hrecorded.held_le, hrecorded.held_eq_or⟩

theorem freshIds_sampleContext {s : BalanceSheet}
    (h : ∀ k, s.names (spawnedAs sampleContext.newId k) = false) :
    FreshIds sampleContext.newId s where
  distinct := by
    intro a b heq
    have hchars := congrArg String.toList heq
    simp only [sampleContext, String.toList_append, List.append_cancel_left_eq,
      Nat.toString_eq_ofList_toDigits, String.toList_ofList] at hchars
    rw [← Nat.ofDigitChars_ten_toDigits (n := a), hchars, Nat.ofDigitChars_ten_toDigits]
  unnamed := h

/-- The household that the sample bank owes gets its shares through an intermediary. -/
theorem Policy.spawned_recorded_of_resolve_sampleBank :
    FreshIds sampleContext.newId sampleBank.sheet ∧
    ∃ e ctx', Policy.bailin.resolve sampleBank 700.0 sampleContext = .ok (e, ctx') ∧
      e.intermediaries ≠ [] ∧ ∀ m ∈ e.intermediaries,
        (e.shares.held m.agentId).toRat ≤ m.shares.toRat ∧
        (e.shares.held m.agentId = m.shares ∨
          ∃ h ∈ e.handovers, h.holder = m.agentId ∧ e.shares.held h.source = 0) := by
  have hfresh := freshIds_sampleContext (s := sampleBank.sheet) fun _ => rfl
  obtain ⟨e, ctx', h, hspawned⟩ : ∃ e ctx',
      Policy.bailin.resolve sampleBank 700.0 sampleContext = .ok (e, ctx') ∧
      e.intermediaries ≠ [] := ⟨_, _, rfl, by decide⟩
  exact ⟨hfresh, e, ctx', h, hspawned, Policy.spawned_recorded_of_resolve h hfresh⟩

/-- A firm that owes as much to each of three creditors, a household among them, and whose
only shareholder has shares worth just that. -/
def sharedFirm : Institution where
  id := "north"
  name := "North"
  kind := .macroFirm
  sheet := {
    assets := ⟨∅⟩
    liabilities := ⟨Table.ofList [(⟨.institution, "a"⟩, 2.0), (⟨.institution, "b"⟩, 2.0),
      (⟨.household, "jerry"⟩, 2.0)], ∅⟩
    shares := ⟨Table.ofList [(⟨.fund, "owner"⟩, 20.0)]⟩ }
  status := .operating
  active := true
  created := ⟨2024, 1, 1, 0, 0, 0⟩
  updated := ⟨2024, 1, 1, 0, 0, 0⟩
  deleted := none

/-- A third of the shares is rounded up for each of the three, so the last third is cut short,
and the household's intermediary counts more shares than are on its account. -/
theorem Policy.spawned_outOfStep_sharedFirm :
    FreshIds sampleContext.newId sharedFirm.sheet ∧
    ∃ e ctx', (Policy.assetThreshold .allCash).resolve sharedFirm 1
        { sampleContext with book := ⟨Table.ofList [("north", 0.3)]⟩ } = .ok (e, ctx') ∧
      e.outcome = .resolved ∧
      ∃ m ∈ e.intermediaries, e.shares.held m.agentId ≠ m.shares := by
  refine ⟨freshIds_sampleContext fun _ => rfl, _, _, rfl, by decide, ?_⟩
  decide

end Insolvency
