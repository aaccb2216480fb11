/-
One emergency loan at a time.

The central bank remembers what it lent and has not got back, and lends to nobody it
remembers.  What it remembers is what its history tells: the last loan of an institution, as
long as it has not been settled since (`remembers_iff`).  So between two loans to the same
institution there is a settlement (`oneAtATime_log`), whatever is asked and settled between,
and by whom.
-/
import Insolvency.Proofs.Credit.Lending
import Insolvency.Proofs.Episode.Ending

namespace Insolvency

open Decimal

namespace CentralBank

variable {b : CentralBank} {i borrower : Institution} {amount : Decimal} {now : Timestamp}

/-! ### Calls -/

/-- A call on the central bank. -/
inductive Call
  | request (i : Institution) (amount : Decimal) (now : Timestamp)
  | settle (id : InstitutionId)

/-- What a call is answered. -/
inductive Answer
  | approved (borrower : Institution)
  | denied (why : Denial)
  | failed (err : Error)
  | settled (amount : Option Decimal)

/-- The answer to a call, and the central bank as the call leaves it. -/
def Call.run (b : CentralBank) : Call → Answer × CentralBank
  | .request i amount now =>
    match perform i amount now b with
    | (.ok (.ok borrower), left) => (.approved borrower, left)
    | (.ok (.error why), left) => (.denied why, left)
    | (.error err, left) => (.failed err, left)
  | .settle id =>
    let (left, amount) := b.settle id
    (.settled amount, left)

/-- A call with its answer, between the central bank that it found and the one that it left. -/
structure Entry where
  call : Call
  found : CentralBank
  answer : Answer
  left : CentralBank

/-- The entry that a call makes. -/
def Call.entry (c : Call) (b : CentralBank) : Entry := ⟨c, b, (c.run b).1, (c.run b).2⟩

/-- The entries of calls made one after the other. -/
def log (b : CentralBank) : List Call → List Entry
  | [] => []
  | c :: rest => c.entry b :: (c.entry b).left.log rest

/-- The central bank that calls made one after the other leave. -/
def after (b : CentralBank) : List Call → CentralBank
  | [] => b
  | c :: rest => (c.entry b).left.after rest

namespace Entry

/-- The call got the institution a loan of the amount. -/
def Lends (x : Entry) (id : InstitutionId) (amount : Decimal) : Prop :=
  ∃ i now borrower, x.call = .request i amount now ∧ i.id = id ∧ x.answer = .approved borrower

/-- The call settled the loan of the institution. -/
def Settles (x : Entry) (id : InstitutionId) : Prop := x.call = .settle id

/-- The call is about the loan of the institution. -/
def Concerns (x : Entry) (id : InstitutionId) : Prop :=
  x.Settles id ∨ ∃ amount, x.Lends id amount

end Entry

section Kinds

variable {id id' : InstitutionId} {amount' : Decimal} {answer : Answer} {left : CentralBank}

@[simp] theorem lends_request :
    (Entry.mk (.request i amount now) b answer left).Lends id amount' ↔
      i.id = id ∧ amount = amount' ∧ ∃ borrower, answer = .approved borrower := by
  constructor
  · rintro ⟨i', now', borrower, hcall, hid, hanswer⟩
    obtain ⟨rfl, rfl, rfl⟩ := Call.request.inj hcall
    exact ⟨hid, rfl, borrower, hanswer⟩
  · rintro ⟨hid, rfl, borrower, hanswer⟩
    exact ⟨i, now, borrower, rfl, hid, hanswer⟩

@[simp] theorem not_lends_settle : ¬ (Entry.mk (.settle id') b answer left).Lends id amount :=
  fun ⟨_, _, _, hcall, _⟩ => by cases hcall

@[simp] theorem settles_settle : (Entry.mk (.settle id') b answer left).Settles id ↔ id' = id :=
  ⟨Call.settle.inj, congrArg Call.settle⟩

@[simp] theorem not_settles_request :
    ¬ (Entry.mk (.request i amount now) b answer left).Settles id :=
  fun hcall => by cases hcall

end Kinds

/-- The institution was lent the amount, and that loan is the last and has not been settled. -/
def Unsettled (log : List Entry) (id : InstitutionId) (amount : Decimal) : Prop :=
  ∃ earlier x later, log = earlier ++ x :: later ∧ x.Lends id amount ∧
    ∀ y ∈ later, ¬ y.Concerns id

/-- Between two loans to an institution the first of them is settled. -/
def OneAtATime (log : List Entry) : Prop :=
  ∀ earlier x between y later id amount amount',
    log = earlier ++ x :: (between ++ y :: later) → x.Lends id amount → y.Lends id amount' →
    ∃ z ∈ between, z.Settles id

/-! ### One call -/

/-- A request is answered with a loan just to those who are eligible and whose loan can be
booked; the loan is booked and remembered, and otherwise nothing happens. -/
structure Entry.Answered (x : Entry) (i : Institution) (amount : Decimal) (now : Timestamp) :
    Prop where
  approved_iff : (∃ borrower, x.answer = .approved borrower) ↔
    x.found.Eligible i amount ∧ x.found.Bookable i amount
  approved : ∀ borrower, x.answer = .approved borrower →
    x.found.Booked i amount now borrower ∧
    (∀ k, i.sheet.OnGrid k → OnGrid k amount.toRat → x.found.KeepsEquity k i amount borrower) ∧
    x.left = { x.found with outstanding := x.found.outstanding.insert i.id amount }
  otherwise : (∀ borrower, x.answer ≠ .approved borrower) → x.left = x.found

/-- A settlement tells what was lent and forgets it. -/
structure Entry.Settled (x : Entry) (id : InstitutionId) : Prop where
  answer : x.answer = .settled (x.found.outstanding.get? id)
  left : x.left = { x.found with outstanding := x.found.outstanding.erase id }

/-- The call is answered as it should be. -/
def Entry.Correct (x : Entry) : Prop :=
  match x.call with
  | .request i amount now => x.Answered i amount now
  | .settle id => x.Settled id

/-- A loan, a denial or an error: the entry that a request makes. -/
theorem run_request (b : CentralBank) (i : Institution) (amount : Decimal) (now : Timestamp) :
    (Call.request i amount now).run b = match b.request i amount now with
      | .ok (left, .ok borrower) => (.approved borrower, left)
      | .ok (left, .error why) => (.denied why, left)
      | .error err => (.failed err, b) := by
  unfold Call.run
  simp only [perform_apply]
  rcases b.request i amount now with err | ⟨left, why | borrower⟩
  · rfl
  · rfl
  · rfl

theorem Entry.answered_of_refused {x : Entry}
    (hnot : ¬ (x.found.Eligible i amount ∧ x.found.Bookable i amount))
    (hanswer : ∀ borrower, x.answer ≠ .approved borrower) (hleft : x.left = x.found) :
    x.Answered i amount now where
  approved_iff := ⟨fun ⟨borrower, h⟩ => absurd h (hanswer borrower), fun h => absurd h hnot⟩
  approved := fun borrower h => absurd h (hanswer borrower)
  otherwise := fun _ => hleft

theorem answered_request (b : CentralBank) (i : Institution) (amount : Decimal) (now : Timestamp) :
    ((Call.request i amount now).entry b).Answered i amount now := by
  have hrun := run_request b i amount now
  unfold Call.entry
  rcases request_cases b i amount now with
    ⟨borrower, heligible, hbook, hrequest⟩ | ⟨why, hnot, hrequest⟩ | ⟨err, hnot, hrequest⟩
  · rw [hrun, hrequest]
    refine ⟨⟨fun _ => ⟨heligible, exists_book_iff.mp ⟨borrower, hbook⟩⟩, fun _ => ⟨borrower, rfl⟩⟩,
      fun borrower' h => ?_, fun h => absurd rfl (h borrower)⟩
    obtain rfl := Answer.approved.inj h
    exact ⟨booked_of_book hbook,
      fun k hi hamount => keepsEquity_of_book hbook heligible.positive hi hamount, rfl⟩
  · rw [hrun, hrequest]
    exact Entry.answered_of_refused (fun h => hnot h.1) (fun _ h => nomatch h) rfl
  · rw [hrun, hrequest]
    exact Entry.answered_of_refused hnot (fun _ h => nomatch h) rfl

theorem correct_entry (c : Call) (b : CentralBank) : (c.entry b).Correct := by
  cases c with
  | request i amount now => exact answered_request b i amount now
  | settle id => exact ⟨rfl, rfl⟩

/-- A request leaves the loan remembered or the central bank as it was. -/
theorem left_request_cases (b : CentralBank) (i : Institution) (amount : Decimal)
    (now : Timestamp) :
    ((∃ borrower, ((Call.request i amount now).run b).1 = .approved borrower) ∧
      ((Call.request i amount now).entry b).left
        = { b with outstanding := b.outstanding.insert i.id amount }) ∨
    (¬ (∃ borrower, ((Call.request i amount now).run b).1 = .approved borrower) ∧
      ((Call.request i amount now).entry b).left = b) := by
  have hanswered := answered_request b i amount now
  by_cases happroved : ∃ borrower, ((Call.request i amount now).run b).1 = .approved borrower
  · obtain ⟨borrower, hborrower⟩ := happroved
    obtain ⟨-, -, hleft⟩ := hanswered.approved borrower hborrower
    exact Or.inl ⟨⟨borrower, hborrower⟩, hleft⟩
  · exact Or.inr ⟨happroved, hanswered.otherwise fun borrower h => happroved ⟨borrower, h⟩⟩

/-- A loan is remembered after a call if the call made it, or did not touch it. -/
theorem get?_left_iff (c : Call) (b : CentralBank) (id : InstitutionId) (amount : Decimal) :
    (c.entry b).left.outstanding.get? id = some amount ↔
      (c.entry b).Lends id amount ∨
        ¬ (c.entry b).Concerns id ∧ b.outstanding.get? id = some amount := by
  cases c with
  | settle id' =>
      have hleft : ((Call.settle id').entry b).left.outstanding = b.outstanding.erase id' := rfl
      rw [hleft, Table.get?_erase, Entry.Concerns, Call.entry]
      simp [eq_comm]
  | request i asked now =>
      rcases left_request_cases b i asked now with
        ⟨⟨borrower, happroved⟩, hleft⟩ | ⟨hnot, hleft⟩
      · rw [hleft, Table.get?_insert, Entry.Concerns, Call.entry]
        by_cases hid : id = i.id
        · simp [hid, happroved]
        · simp [hid, happroved, Ne.symm hid]
      · rw [hleft, Entry.Concerns, Call.entry]
        simp [hnot]

/-- Only the loans out ever change. -/
theorem left_eq (c : Call) (b : CentralBank) :
    (c.entry b).left = { b with outstanding := (c.entry b).left.outstanding } := by
  cases c with
  | settle id => rfl
  | request i amount now =>
      rcases left_request_cases b i amount now with ⟨-, hleft⟩ | ⟨-, hleft⟩
      · rw [hleft]
      · rw [hleft]

/-- Nobody gets a loan while one is out. -/
theorem free_of_lends {c : Call} {id : InstitutionId} (h : (c.entry b).Lends id amount) :
    b.outstanding.get? id = none := by
  obtain ⟨i, now, borrower, hcall, rfl, hanswer⟩ := h
  obtain rfl : c = .request i amount now := hcall
  have hanswered := answered_request b i amount now
  exact (hanswered.approved_iff.mp ⟨borrower, hanswer⟩).1.free

/-! ### Any number of calls -/

/-- What is left of a log is the log of what is left to do. -/
theorem exists_of_log_eq {calls : List Call} {earlier later : List Entry} {x : Entry}
    (h : b.log calls = earlier ++ x :: later) :
    ∃ c found rest, x = Call.entry c found ∧ later = x.left.log rest := by
  induction calls generalizing b earlier with
  | nil => cases earlier <;> cases h
  | cons c rest ih =>
      cases earlier with
      | nil =>
          obtain ⟨rfl, rfl⟩ := List.cons.inj h
          exact ⟨c, b, rest, rfl, rfl⟩
      | cons y earlier => exact ih (List.cons.inj h).2

/-- Every entry is a call on the central bank, but for the loans that are out by then. -/
theorem exists_of_mem_log {calls : List Call} {x : Entry} (h : x ∈ b.log calls) :
    ∃ c, x = Call.entry c x.found ∧ x.found = { b with outstanding := x.found.outstanding } := by
  induction calls generalizing b with
  | nil => cases h
  | cons c rest ih =>
      rcases List.mem_cons.mp h with rfl | hrest
      · exact ⟨c, rfl, rfl⟩
      · obtain ⟨c', hentry, hfound⟩ := ih hrest
        refine ⟨c', hentry, ?_⟩
        rw [hfound, left_eq]

theorem unsettled_cons {x : Entry} {log : List Entry} {id : InstitutionId} :
    Unsettled (x :: log) id amount ↔
      Unsettled log id amount ∨ x.Lends id amount ∧ ∀ y ∈ log, ¬ y.Concerns id := by
  constructor
  · rintro ⟨earlier, y, later, heq, hlends, hnone⟩
    cases earlier with
    | nil =>
        obtain ⟨rfl, rfl⟩ := List.cons.inj heq
        exact Or.inr ⟨hlends, hnone⟩
    | cons z earlier => exact Or.inl ⟨earlier, y, later, (List.cons.inj heq).2, hlends, hnone⟩
  · rintro (⟨earlier, y, later, rfl, hlends, hnone⟩ | ⟨hlends, hnone⟩)
    · exact ⟨x :: earlier, y, later, rfl, hlends, hnone⟩
    · exact ⟨[], x, log, rfl, hlends, hnone⟩

theorem not_unsettled_nil {id : InstitutionId} : ¬ Unsettled [] id amount := by
  rintro ⟨earlier, x, later, heq, -⟩
  cases earlier <;> cases heq

/-- Remembered is the last loan that has not been settled, or, where no call was about the
institution, what was remembered before. -/
theorem remembers_iff (b : CentralBank) (calls : List Call) (id : InstitutionId)
    (amount : Decimal) : (b.after calls).outstanding.get? id = some amount ↔
      Unsettled (b.log calls) id amount ∨
        (∀ x ∈ b.log calls, ¬ x.Concerns id) ∧ b.outstanding.get? id = some amount := by
  induction calls generalizing b with
  | nil => simp [after, log, not_unsettled_nil]
  | cons c rest ih =>
      rw [after, ih, get?_left_iff, log, unsettled_cons, List.forall_mem_cons]
      tauto

/-- A loan that is out is settled before the next. -/
theorem exists_settles {calls : List Call} {between later : List Entry} {y : Entry}
    {id : InstitutionId} {amount' : Decimal} (h : b.log calls = between ++ y :: later)
    (hout : b.outstanding.get? id = some amount) (hlends : y.Lends id amount') :
    ∃ z ∈ between, z.Settles id := by
  induction calls generalizing b between amount with
  | nil => cases between <;> cases h
  | cons c rest ih =>
      cases between with
      | nil =>
          obtain ⟨rfl, -⟩ := List.cons.inj h
          cases hout.symm.trans (free_of_lends hlends)
      | cons x between =>
          obtain ⟨rfl, hrest⟩ := List.cons.inj h
          by_cases hsettles : (c.entry b).Settles id
          · exact ⟨_, List.mem_cons_self .., hsettles⟩
          have hquiet : ¬ (c.entry b).Concerns id := by
            rintro (hs | ⟨_, hl⟩)
            · exact hsettles hs
            · cases hout.symm.trans (free_of_lends hl)
          have hstill := (get?_left_iff c b id amount).mpr (Or.inr ⟨hquiet, hout⟩)
          obtain ⟨z, hz, hzs⟩ := ih hrest hstill
          exact ⟨z, List.mem_cons_of_mem _ hz, hzs⟩

theorem oneAtATime_log (b : CentralBank) (calls : List Call) : OneAtATime (b.log calls) := by
  intro earlier x between y later id amount amount' heq hx hy
  obtain ⟨c, found, rest, rfl, hlater⟩ := exists_of_log_eq heq
  have hout := (get?_left_iff c found id amount).mpr (Or.inl hx)
  exact exists_settles hlater.symm hout hy

/-- **Emergency loans are given one at a time.**  From a new central bank on, whatever is asked
and settled, an institution has a loan out just if its last loan has not been settled since,
and just of that amount; between two loans of an institution one is settled; and every call is
answered by the rule, books the loan on both sides or does nothing, and leaves equity alone. -/
theorem lends_one_at_a_time {name : String} {approval : LoanApproval} {measure : RiskMeasure}
    (hfound : found name approval measure = .ok b) (calls : List Call) :
    (∀ id amount, (b.after calls).outstanding.get? id = some amount ↔
      Unsettled (b.log calls) id amount) ∧
    OneAtATime (b.log calls) ∧
    ∀ x ∈ b.log calls, x.found = { b with outstanding := x.found.outstanding } ∧ x.Correct := by
  have hnew : b.outstanding = ∅ := by
    simp only [found, bind_eq_ok, pure_eq_ok] at hfound
    obtain ⟨_, -, rfl⟩ := hfound
    rfl
  refine ⟨fun id amount => ?_, oneAtATime_log b calls, fun x hx => ?_⟩
  · rw [remembers_iff, hnew]
    exact or_iff_left fun ⟨_, h⟩ => by cases h
  · obtain ⟨c, hentry, hsame⟩ := exists_of_mem_log hx
    exact ⟨hsame, hentry ▸ correct_entry c x.found⟩

/-- The sample bank borrows, cannot borrow more, settles and borrows again. -/
def sampleCalls : List Call :=
  [.request sampleBank 50.0 sampleContext.now, .request sampleBank 20.0 sampleContext.now,
    .settle "north", .request sampleBank 20.0 sampleContext.now]

theorem lends_one_at_a_time_sampleBank : ∃ b,
    found "reserve" (.riskBased 10.0) .simpleLeverage = .ok b ∧
      (b.after sampleCalls).outstanding.get? "north" = some 20.0 ∧
      Unsettled (b.log sampleCalls) "north" 20.0 ∧ OneAtATime (b.log sampleCalls) ∧
      ∀ x ∈ b.log sampleCalls, x.Correct := by
  obtain ⟨b, hfound, hout⟩ : ∃ b, found "reserve" (.riskBased 10.0) .simpleLeverage = .ok b ∧
      (b.after sampleCalls).outstanding.get? "north" = some 20.0 :=
    ⟨_, rfl, rfl⟩
  obtain ⟨hremembers, hone, hcorrect⟩ := lends_one_at_a_time hfound sampleCalls
  exact ⟨b, hfound, hout, (hremembers "north" 20.0).mp hout, hone, fun x hx => (hcorrect x hx).2⟩

/-! ### Loans that do not fit -/

/-- A bank with as much cash as an amount can be. -/
def sampleHoard : Institution where
  __ := sampleBank
  sheet := ⟨⟨Table.ofList [(.cash, .largest)]⟩, .empty, .empty⟩

/-- A bank whose books have as much below nothing as above. -/
def sampleHedge : Institution where
  __ := sampleBank
  sheet := ⟨⟨Table.ofList [(.governmentBond, .largest), (.mortgage, -.largest)]⟩, .empty, .empty⟩

theorem largest_onGrid : Decimal.OnGrid 0 largest.toRat := by
  rw [toRat_of_whole (n := mantissaBound - 1) (by decide)]
  exact onGrid_intCast _

theorem sampleHedge_onGrid : sampleHedge.sheet.OnGrid 0 where
  holdings := by
    intro v hv
    have hvalues : v = largest ∨ v = -largest := by
      simpa using (show v ∈ [largest, -largest] from hv)
    rcases hvalues with rfl | rfl
    · exact largest_onGrid
    · rw [toRat_neg]
      exact largest_onGrid.neg
  loans := fun v hv => nomatch hv
  deposits := fun v hv => nomatch hv

/-- Being eligible is not enough where the sum of cash and loan is no amount.  And where what is
below nothing makes up for what is above, equity cannot be worked out after a loan of one,
although the totals are one and the equity was nothing. -/
theorem lending_overflows : ∃ b, found "cb" (.riskBased .largest) .simpleLeverage = .ok b ∧
    (b.Eligible sampleHoard 1 ∧ b.request sampleHoard 1 sampleContext.now
      = .error (.arithmetic .additionOverflow)) ∧
    sampleHedge.sheet.OnGrid 0 ∧
    ∃ left borrower, b.request sampleHedge 1 sampleContext.now = .ok (left, .ok borrower) ∧
      sampleHedge.sheet.assets.exactTotal = 0 ∧ borrower.sheet.assets.exactTotal = 1 ∧
      sampleHedge.sheet.liabilities.exactTotal = 0 ∧ borrower.sheet.liabilities.exactTotal = 1 ∧
      sampleHedge.equity = .ok 0 ∧
      borrower.equity = .error .additionOverflow := by
  have hassets : sampleHedge.sheet.assets.exactTotal = 0 := by
    show exactSum [largest, -largest] = 0
    simp [toRat_neg]
  have hliabilities : sampleHedge.sheet.liabilities.exactTotal = 0 := add_zero 0
  obtain ⟨b, hfound, hhoard, left, borrower, hbook, hrequest, hbefore, hafter⟩ :
      ∃ b, found "cb" (.riskBased .largest) .simpleLeverage = .ok b ∧
        (b.Eligible sampleHoard 1 ∧ b.request sampleHoard 1 sampleContext.now
          = .error (.arithmetic .additionOverflow)) ∧
        ∃ left borrower, b.book sampleHedge 1 sampleContext.now = .ok borrower ∧
          b.request sampleHedge 1 sampleContext.now = .ok (left, .ok borrower) ∧
          sampleHedge.equity = .ok 0 ∧ borrower.equity = .error .additionOverflow :=
    ⟨_, rfl, ⟨⟨by decide, rfl, rfl, ⟨_, rfl, by decide⟩⟩, rfl⟩, _, _, rfl, rfl, rfl, rfl⟩
  have hone : |(0 : Decimal).toRat + (1 : Decimal).toRat| < gridBound 0 := by
    rw [toRat_zero, toRat_one, gridBound_zero]
    norm_num [mantissaBound]
  have hwhole : Decimal.OnGrid 0 (1 : Decimal).toRat := by
    rw [toRat_one]
    exact onGrid_intCast 1
  obtain ⟨-, howned, howed⟩ := exact_of_book hbook sampleHedge_onGrid hwhole hone hone
  rw [hassets, toRat_one, zero_add] at howned
  rw [hliabilities, toRat_one, zero_add] at howed
  exact ⟨b, hfound, hhoard, sampleHedge_onGrid, left, borrower, hrequest, hassets, howned,
    hliabilities, howed, hbefore, hafter⟩

end CentralBank

end Insolvency
