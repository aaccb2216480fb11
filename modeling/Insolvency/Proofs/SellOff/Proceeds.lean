/-
Proceeds are forwarded once.

The market keeps a record of all fills, and an intermediary keeps a sum of what it has
forwarded.  The two are never compared while the economy runs, so that they agree is a
property of runs: from any world on, what an intermediary has forwarded is what it had
forwarded before, with the proceeds of its fills since then added one by one in the order of
the record (`ForwardedSince`).  It composes, so one call is enough: a call records nothing,
or the trades of one live intermediary (`Call`).

An intermediary that is deleted is never traded for again, for the check that every call
begins with refuses it.
-/
import Insolvency.Proofs.SellOff.InStep
import Insolvency.Proofs.World.Validity

namespace Insolvency

open Decimal

/-! ### The trades of one call -/

/-- Fills that a seller makes one after the other, from what it holds and has forwarded to what
it has forwarded in the end.  Each is for no more than is still held and no more than the depth
allows, at the listed price, and its proceeds are forwarded. -/
inductive Trades (book : PriceBook) (depth : Option Decimal) (seller : IntermediaryId)
    (stock : InstitutionId) : Decimal → Decimal → List Fill → Decimal → Prop
  | none {held forwarded : Decimal} : Trades book depth seller stock held forwarded [] forwarded
  | fill {held left price forwarded forwarded' last : Decimal} {sale : Sale} {rest : List Fill}
      (hheld : sale.quantity ≤ held) (hdepth : ∀ d ∈ depth, sale.quantity ≤ d)
      (hprice : book.price? stock = some price)
      (hproceeds : sale.quantity.mul price = .ok sale.proceeds)
      (hleft : held.sub sale.quantity = .ok left)
      (hforward : forwarded.add sale.proceeds = .ok forwarded')
      (hrest : Trades book depth seller stock left forwarded' rest last) :
      Trades book depth seller stock held forwarded (⟨seller, stock, sale⟩ :: rest) last

namespace Trades

variable {book : PriceBook} {depth : Option Decimal} {seller : IntermediaryId}
  {stock : InstitutionId} {held forwarded last : Decimal} {fills : List Fill}

theorem seller_eq (h : Trades book depth seller stock held forwarded fills last) :
    ∀ f ∈ fills, f.seller = seller := by
  induction h with
  | none => exact fun f hf => by cases hf
  | fill _ _ _ _ _ _ _ ih => exact List.forall_mem_cons.mpr ⟨rfl, ih⟩

/-- The first fill is for no more than is held. -/
theorem first_le (h : Trades book depth seller stock held forwarded fills last) :
    ∀ f ∈ fills.head?, f.sale.quantity ≤ held := by
  cases h with
  | none => exact nofun
  | fill hheld =>
      rintro _ ⟨⟩
      exact hheld

/-- The proceeds of trades are forwarded one by one. -/
theorem foldlM_proceeds (h : Trades book depth seller stock held forwarded fills last) :
    (fills.map fun f => f.sale.proceeds).foldlM Decimal.add forwarded = .ok last := by
  induction h with
  | none => rfl
  | fill _ _ _ _ _ hforward _ ih =>
      rw [List.map_cons, List.foldlM_cons, bind_eq_ok]
      exact ⟨_, hforward, ih⟩

end Trades

namespace Market

variable {market market' : Market} {seller : IntermediaryId} {stock : InstitutionId}
  {quantity held left forwarded forwarded' : Decimal} {sale : Sale}

theorem fillable_le_depth (market : Market) (quantity : Decimal) :
    ∀ d ∈ market.depth, market.fillable quantity ≤ d := by
  intro d hd
  unfold fillable
  rw [hd, le_iff_toRat, toRat_min]
  exact min_le_right _ _

/-- An order for part of the holding is a trade, or none, before all that is traded after it. -/
theorem Order.trades (h : market.Order seller stock quantity market' sale)
    (hq0 : 0 ≤ quantity.toRat) (hq : quantity.toRat ≤ held.toRat)
    (hleft : held.sub (min sale.quantity held) = .ok left)
    (hforward : forwarded.add sale.proceeds = .ok forwarded') :
    ∃ fills, market' = { market with fills := market.fills ++ fills } ∧
      ∀ {rest last}, Trades market.book market.depth seller stock left forwarded' rest last →
        Trades market.book market.depth seller stock held forwarded (fills ++ rest) last := by
  have hmin : min sale.quantity held = sale.quantity :=
    toRat_injective (by rw [toRat_min, min_eq_left ((h.quantity_le hq0).trans hq)])
  rw [hmin] at hleft
  cases h with
  | unfilled _ =>
      have hheld : left = held := Except.ok.inj (hleft.symm.trans (sub_zero_eq_ok held))
      obtain rfl : forwarded = forwarded' :=
        Except.ok.inj ((add_zero_eq_ok forwarded).symm.trans hforward)
      refine ⟨[], by rw [List.append_nil], fun h => ?_⟩
      rwa [hheld] at h
  | filled hprice hproceeds =>
      exact ⟨[_], rfl, fun h => .fill (le_iff_toRat.mpr ((fillable_le _ _).trans hq))
        (fillable_le_depth _ _) hprice hproceeds hleft hforward h⟩

end Market

namespace SellOff

variable {subject : Intermediary} {issuer : Institution} {market : Market} {now : Timestamp}
  {s : SellOff} {fills : List Fill}

/-- A period of a live intermediary's selling, with the fills it makes. -/
structure Sells (subject : Intermediary) (market : Market) (fills : List Fill) (s : SellOff) :
    Prop where
  live : subject.isDeleted = false
  sound : s.subject.Sound
  id : s.subject.id = subject.id
  recorded : s.market = { market with fills := market.fills ++ fills }
  trades : Trades market.book market.depth subject.id subject.stock subject.shares
    subject.forwarded fills s.subject.forwarded

theorem exists_sells_of_disband (hm : market.Sound) (h : subject.Sound)
    (hlast : disband subject issuer market now = .ok s) :
    ∃ fills, Sells subject market fills s := by
  obtain ⟨hcheck, market', sale, delivered, shares, writtenOff, forwarded, hsell, -, -, hforward,
    rfl⟩ := disband_eq_ok.mp hlast
  have horder := order_of_sellAll hsell h.shares
  have hsold : 0 ≤ (min sale.quantity subject.shares).toRat := by
    rw [toRat_min]
    exact le_min (horder.quantity_nonneg hm h.shares) h.shares
  obtain ⟨left, hleft⟩ := exists_sub_of_le (a := subject.shares) hsold (by
    rw [toRat_min]
    exact min_le_right _ _)
  obtain ⟨fills, hmarket, htrades⟩ := horder.trades h.shares le_rfl hleft hforward
  refine ⟨fills, (check_eq_ok_iff.mp hcheck).1, ⟨toRat_zero.ge, h.ratePos, h.rateLe⟩, rfl,
    hmarket, ?_⟩
  have := htrades (.none)
  rwa [List.append_nil] at this

theorem exists_sells_of_sellPart (h : subject.Sound) (hlive : subject.isDeleted = false)
    (hpart : sellPart subject issuer market now = .ok s) :
    ∃ fills, Sells subject market fills s ∧ s.subject.stock = subject.stock ∧
      ∀ {rest last},
        Trades market.book market.depth subject.id subject.stock s.subject.shares
          s.subject.forwarded rest last →
        Trades market.book market.depth subject.id subject.stock subject.shares
          subject.forwarded (fills ++ rest) last := by
  have hsound := sound_sellPart h hpart
  obtain ⟨offered, market', sale, shares, left, forwarded, residual, hoffer, hsell, -, hleft,
    hforward, -, rfl⟩ := sellPart_eq_ok.mp hpart
  obtain ⟨hq0, hq1⟩ := onOffer_bounds h hoffer
  obtain ⟨fills, hmarket, htrades⟩ := (Market.order_of_sell hsell).trades hq0 hq1 hleft hforward
  refine ⟨fills, ⟨hlive, hsound, rfl, hmarket, ?_⟩, rfl, htrades⟩
  have := htrades (.none)
  rwa [List.append_nil] at this

theorem exists_sells_of_review (hm : market.Sound) (h : subject.Sound)
    (hreview : review subject issuer market now = .ok s) :
    ∃ fills, Sells subject market fills s := by
  obtain ⟨hcheck, hcourse⟩ := review_eq_ok.mp hreview
  have hlive := (check_eq_ok_iff.mp hcheck).1
  cases hcourse with
  | ends _ _ hlast => exact exists_sells_of_disband hm h hlast
  | goesOn _ _ hpart _ =>
      obtain ⟨fills, hsells, -⟩ := exists_sells_of_sellPart h hlive hpart
      exact ⟨fills, hsells⟩
  | @endsAfter _ _ _ part last _ _ hpart _ hlast _ _ =>
      obtain ⟨fills, hsells, hstock, hthen⟩ := exists_sells_of_sellPart h hlive hpart
      have hm' : part.market.Sound := by
        rw [hsells.recorded]
        exact hm
      obtain ⟨rest, hrest⟩ := exists_sells_of_disband hm' hsells.sound hlast
      have htrades := hrest.trades
      rw [hsells.id, hstock, hsells.recorded] at htrades
      refine ⟨fills ++ rest, hlive, hrest.sound, hrest.id.trans hsells.id, ?_, hthen htrades⟩
      show last.market = _
      rw [hrest.recorded, hsells.recorded, List.append_assoc]

end SellOff

/-! ### Calls on the economy -/

/-- The step is a call on an intermediary, or sets a price or the clock. -/
def Step.isSelling : Step → Bool
  | .review .. | .disband .. | .setPrice .. | .setClock .. => true
  | _ => false

/-- Why a call on an intermediary fails.  All but an overflow are found out before an order is
placed. -/
def StepError.IsSellingRefusal (err : StepError) : Prop :=
  err = .noSuchModel ∨ ∃ e, err = .refused e ∧
    (e = .objectIsDeleted .intermediary ∨ (∃ id, e = .issuerMismatch id) ∨ e.IsOverflow)

namespace World

/-- The market has a depth that is not below nothing, and so are all holdings; their sellers are
stored under their own ids. -/
structure Selling (w : World) : Prop where
  market : w.market.Sound
  subjects : ∀ id m, w.intermediaries.get? id = some m → m.id = id ∧ m.Sound

/-- The fills on record for a seller. -/
def fillsOf (w : World) (id : IntermediaryId) : List Fill :=
  w.market.fills.filter (·.seller == id)

/-- What a call does to the record and to the intermediaries. -/
inductive Call (v v' : World) : Prop
  /-- Nothing, where it fails or is about prices or the clock. -/
  | idle (hfills : v'.market.fills = v.market.fills) (hdepth : v'.market.depth = v.market.depth)
      (hstored : v'.intermediaries = v.intermediaries)
  /-- A live intermediary trades, and what it has forwarded is stored. -/
  | sale {m m' : Intermediary} {fills : List Fill}
      (hm : v.intermediaries.get? m.id = some m) (hlive : m.isDeleted = false)
      (hid : m'.id = m.id) (hsound : m'.Sound)
      (hstored : v'.intermediaries = v.intermediaries.insert m.id m')
      (hmarket : v'.market = { v.market with fills := v.market.fills ++ fills })
      (htrades : Trades v.market.book v.market.depth m.id m.stock m.shares m.forwarded fills
        m'.forwarded)

variable {w v v' : World} {id : IntermediaryId} {m : Intermediary}

theorem intermediary_eq_ok : v.intermediary id = .ok m ↔ v.intermediaries.get? id = some m := by
  unfold intermediary
  cases v.intermediaries.get? id with
  | none => simp
  | some m' => simp

theorem call_of_sellOff (h : v.Selling) {issuer : Option InstitutionId}
    {run : Intermediary → Institution → Market → Timestamp → Except Error SellOff} {s : SellOff}
    (hstep : v.sellOff id issuer run = .ok (v', s))
    (hrun : ∀ {subject i}, subject.Sound → run subject i v.market v.now = .ok s →
      ∃ fills, SellOff.Sells subject v.market fills s) : v.Call v' := by
  obtain ⟨subject, i, hsubject, -, hs, rfl⟩ := sellOff_eq_ok hstep
  have hget := intermediary_eq_ok.mp hsubject
  obtain ⟨rfl, hsound⟩ := h.subjects id subject hget
  obtain ⟨fills, hsells⟩ := hrun hsound hs
  refine .sale hget hsells.live hsells.id hsells.sound ?_ hsells.recorded hsells.trades
  show v.intermediaries.insert s.subject.id s.subject = _
  rw [hsells.id]

theorem call_of_moves (h : v.Selling) {s : Step} (hs : s.isSelling = true)
    (hmoves : v.Moves s v') : v.Call v' := by
  cases hmoves with
  | review hsell => exact call_of_sellOff h hsell (SellOff.exists_sells_of_review h.market)
  | disband hsell => exact call_of_sellOff h hsell (SellOff.exists_sells_of_disband h.market)
  | setPrice => exact .idle rfl rfl rfl
  | setClock => exact .idle rfl rfl rfl
  | _ => cases hs

theorem call_next (h : v.Selling) {s : Step} (hs : s.isSelling = true) : v.Call (v.next s) := by
  rcases v.next_cases s with hsame | hmoves
  · rw [hsame]
    exact .idle rfl rfl rfl
  · exact call_of_moves h hs hmoves

/-! ### What a call leaves -/

theorem Call.selling (h : v.Call v') (hv : v.Selling) : v'.Selling := by
  cases h with
  | idle hfills hdepth hstored =>
      refine ⟨?_, hstored ▸ hv.subjects⟩
      unfold Market.Sound
      rw [hdepth]
      exact hv.market
  | @sale m m' fills hm hlive hid hsound hstored hmarket htrades =>
      refine ⟨?_, fun id k hk => ?_⟩
      · rw [hmarket]
        exact hv.market
      · rw [hstored, Table.get?_insert] at hk
        split_ifs at hk with heq
        · obtain rfl := Option.some.inj hk
          exact ⟨hid.trans heq.symm, hsound⟩
        · exact hv.subjects id k hk

theorem Call.depth (h : v.Call v') : v'.market.depth = v.market.depth := by
  cases h with
  | idle _ hdepth _ => exact hdepth
  | sale _ _ _ _ _ hmarket _ => rw [hmarket]

/-- From one world to another, an intermediary has forwarded the proceeds of its fills. -/
def ForwardedSince (w v : World) (id : IntermediaryId) : Prop :=
  ∀ m, w.intermediaries.get? id = some m →
    ∃ m' fills, v.intermediaries.get? id = some m' ∧ v.fillsOf id = w.fillsOf id ++ fills ∧
      (fills.map fun f => f.sale.proceeds).foldlM Decimal.add m.forwarded = .ok m'.forwarded

theorem ForwardedSince.refl (w : World) (id : IntermediaryId) : ForwardedSince w w id :=
  fun m hm => ⟨m, [], hm, (List.append_nil _).symm, rfl⟩

theorem ForwardedSince.trans (h : ForwardedSince w v id) (h' : ForwardedSince v v' id) :
    ForwardedSince w v' id := by
  intro m hm
  obtain ⟨m', fills, hm', hfills, hforward⟩ := h m hm
  obtain ⟨m'', fills', hm'', hfills', hforward'⟩ := h' m' hm'
  refine ⟨m'', fills ++ fills', hm'', by rw [hfills', hfills, List.append_assoc], ?_⟩
  rw [List.map_append, List.foldlM_append, hforward]
  exact hforward'

theorem fillsOf_append {fills : List Fill} (hmarket : v'.market.fills = v.market.fills ++ fills)
    (id : IntermediaryId) :
    v'.fillsOf id = v.fillsOf id ++ fills.filter (·.seller == id) := by
  rw [fillsOf, hmarket, List.filter_append]
  rfl

/-- The fills of a seller are its own, and nobody else's. -/
theorem filter_seller {fills : List Fill} {seller : IntermediaryId}
    (h : ∀ f ∈ fills, f.seller = seller) (id : IntermediaryId) :
    fills.filter (·.seller == id) = if id = seller then fills else [] := by
  split_ifs with heq
  · exact List.filter_eq_self.mpr fun f hf => by simp [h f hf, heq]
  · exact List.filter_eq_nil_iff.mpr fun f hf => by simpa [h f hf] using Ne.symm heq

theorem Call.forwarded (h : v.Call v') (id : IntermediaryId) : ForwardedSince v v' id := by
  cases h with
  | idle hfills _ hstored =>
      intro m hm
      exact ⟨m, [], hstored ▸ hm, by rw [fillsOf, fillsOf, hfills, List.append_nil], rfl⟩
  | @sale subject subject' fills hsubject _ _ _ hstored hmarket htrades =>
      intro m hm
      have hrecord : v'.market.fills = v.market.fills ++ fills := by rw [hmarket]
      have hfills := fillsOf_append hrecord id
      rw [filter_seller htrades.seller_eq] at hfills
      rw [hstored, Table.get?_insert]
      split_ifs at hfills ⊢ with heq
      · subst heq
        obtain rfl := Option.some.inj (hsubject.symm.trans hm)
        exact ⟨subject', fills, rfl, hfills, htrades.foldlM_proceeds⟩
      · exact ⟨m, [], hm, hfills, rfl⟩

/-- Nothing is traded for an intermediary that is deleted. -/
theorem Call.deleted (h : v.Call v') (hm : v.intermediaries.get? id = some m)
    (hdeleted : m.isDeleted = true) :
    v'.intermediaries.get? id = some m ∧ v'.fillsOf id = v.fillsOf id := by
  cases h with
  | idle hfills _ hstored => exact ⟨hstored ▸ hm, by rw [fillsOf, fillsOf, hfills]⟩
  | @sale subject subject' fills hsubject hlive _ _ hstored hmarket htrades =>
      have hne : id ≠ subject.id := by
        rintro rfl
        obtain rfl := Option.some.inj (hsubject.symm.trans hm)
        rw [hlive] at hdeleted
        cases hdeleted
      have hrecord : v'.market.fills = v.market.fills ++ fills := by rw [hmarket]
      have hfills := fillsOf_append hrecord id
      rw [filter_seller htrades.seller_eq, if_neg hne, List.append_nil] at hfills
      rw [hstored, Table.get?_insert, if_neg hne]
      exact ⟨hm, hfills⟩

/-! ### Calls that fail -/

theorem failsOnlyBy_intermediary (w : World) (id : IntermediaryId) :
    FailsOnlyBy StepError.IsSellingRefusal (w.intermediary id) := by
  unfold intermediary
  cases w.intermediaries.get? id with
  | none => exact fun err herr => Or.inl (Except.error.inj herr).symm
  | some m => exact failsOnlyBy_ok m

theorem failsOnlyBy_institution (w : World) (id : InstitutionId) :
    FailsOnlyBy StepError.IsSellingRefusal (w.institution id) := by
  unfold institution
  cases w.institutions.get? id with
  | none => exact fun err herr => Or.inl (Except.error.inj herr).symm
  | some i => exact failsOnlyBy_ok i

/-- A call that is not refused at once can only overflow. -/
theorem failsOnlyBy_sellOff (h : v.Selling) (id : IntermediaryId) (issuer : Option InstitutionId)
    {run : Intermediary → Institution → Market → Timestamp → Except Error SellOff}
    (hcheck : ∀ {subject i err}, SellOff.check subject i = .error err →
      run subject i v.market v.now = .error err)
    (hrun : ∀ {subject i}, subject.Sound → SellOff.check subject i = .ok () →
      FailsOnlyBy Error.IsOverflow (run subject i v.market v.now)) :
    FailsOnlyBy StepError.IsSellingRefusal (v.sellOff id issuer run) := by
  refine FailsOnlyBy.bind (failsOnlyBy_intermediary v id) fun subject hsubject => ?_
  refine FailsOnlyBy.bind (failsOnlyBy_institution v _) fun i _ => ?_
  refine FailsOnlyBy.bind ?_ fun s _ => failsOnlyBy_pure _
  obtain ⟨-, hsound⟩ := h.subjects id subject (intermediary_eq_ok.mp hsubject)
  cases hc : SellOff.check subject i with
  | ok u =>
      cases hs : run subject i v.market v.now with
      | ok s => exact failsOnlyBy_ok s
      | error e =>
          intro err herr
          exact Or.inr ⟨e, (Except.error.inj herr).symm, Or.inr (Or.inr (hrun hsound hc e hs))⟩
  | error e =>
      intro err herr
      rw [hcheck hc] at herr
      refine Or.inr ⟨e, (Except.error.inj herr).symm, ?_⟩
      unfold SellOff.check at hc
      split_ifs at hc
      · exact Or.inl (Except.error.inj hc).symm
      · exact Or.inr (Or.inl ⟨_, (Except.error.inj hc).symm⟩)

theorem review_of_check {subject : Intermediary} {i : Institution} {market : Market}
    {now : Timestamp} {err : Error} (h : SellOff.check subject i = .error err) :
    SellOff.review subject i market now = .error err := by
  rw [SellOff.review, h]
  rfl

theorem disband_of_check {subject : Intermediary} {i : Institution} {market : Market}
    {now : Timestamp} {err : Error} (h : SellOff.check subject i = .error err) :
    SellOff.disband subject i market now = .error err := by
  rw [SellOff.disband, h]
  rfl

theorem failsOnlyBy_step (h : v.Selling) {s : Step} (hs : s.isSelling = true) :
    FailsOnlyBy StepError.IsSellingRefusal (v.step s) := by
  cases s with
  | review id issuer =>
      refine FailsOnlyBy.bind ?_ fun _ _ => failsOnlyBy_pure _
      exact failsOnlyBy_sellOff h id issuer review_of_check fun hsound hcheck =>
        SellOff.failsOnlyBy_review hsound hcheck _ _
  | disband id issuer =>
      refine FailsOnlyBy.bind ?_ fun _ _ => failsOnlyBy_pure _
      exact failsOnlyBy_sellOff h id issuer disband_of_check fun hsound hcheck =>
        SellOff.failsOnlyBy_disband hsound hcheck _ _
  | setPrice stock price => exact failsOnlyBy_pure _
  | setClock now => exact failsOnlyBy_pure _
  | _ => cases hs

/-- Calls on an intermediary that is deleted are refused. -/
theorem refused_of_deleted (hm : v.intermediaries.get? id = some m) (hdeleted : m.isDeleted = true)
    {issuer : Option InstitutionId} {i : Institution}
    (hi : v.institution (issuer.getD m.stock) = .ok i) :
    v.step (.review id issuer) = .error (.refused (.objectIsDeleted .intermediary)) ∧
      v.step (.disband id issuer) = .error (.refused (.objectIsDeleted .intermediary)) := by
  have hcheck : SellOff.check m i = .error (.objectIsDeleted .intermediary) := by
    rw [SellOff.check, if_pos hdeleted]
  have hsubject := intermediary_eq_ok.mpr hm
  constructor
  · simp only [step, sellOff, hsubject, hi, bind, Except.bind, review_of_check hcheck]
    rfl
  · simp only [step, sellOff, hsubject, hi, bind, Except.bind, disband_of_check hcheck]
    rfl

/-! ### Whole runs -/

/-- What every call preserves a run preserves. -/
theorem Selling.after_induction {P : World → Prop} (hw : w.Selling) (hP : P w)
    (hcall : ∀ {v v'}, Call v v' → P v → P v') {steps : List Step}
    (hsteps : ∀ s ∈ steps, s.isSelling = true) : (w.after steps).Selling ∧ P (w.after steps) := by
  induction steps generalizing w with
  | nil => exact ⟨hw, hP⟩
  | cons s rest ih =>
      obtain ⟨hs, hrest⟩ := List.forall_mem_cons.mp hsteps
      have hfirst := call_next hw hs
      exact ih (hfirst.selling hw) (hcall hfirst hP) hrest

/-- **Proceeds are forwarded once**, in every run of selling: each intermediary has forwarded the
proceeds of its fills and nothing else, every call records the trades of one live intermediary or
none, and for one that is deleted nothing is traded again. -/
theorem proceeds_forwarded_once (hw : w.Selling) {steps : List Step}
    (hsteps : ∀ s ∈ steps, s.isSelling = true) :
    (∀ id, ForwardedSince w (w.after steps) id) ∧
    (w.after steps).market.depth = w.market.depth ∧
    (∀ s : Step, s.isSelling = true →
      Call (w.after steps) ((w.after steps).next s) ∧
        FailsOnlyBy StepError.IsSellingRefusal ((w.after steps).step s)) ∧
    ∀ id m, (w.after steps).intermediaries.get? id = some m → m.isDeleted = true →
      ∀ more : List Step, (∀ s ∈ more, s.isSelling = true) →
        ((w.after steps).after more).intermediaries.get? id = some m ∧
        ((w.after steps).after more).fillsOf id = (w.after steps).fillsOf id ∧
        ∀ issuer i, ((w.after steps).after more).institution (issuer.getD m.stock) = .ok i →
          ((w.after steps).after more).step (.review id issuer)
              = .error (.refused (.objectIsDeleted .intermediary)) ∧
            ((w.after steps).after more).step (.disband id issuer)
              = .error (.refused (.objectIsDeleted .intermediary)) := by
  have hrun : (w.after steps).Selling ∧ (∀ id, ForwardedSince w (w.after steps) id) ∧
      (w.after steps).market.depth = w.market.depth :=
    hw.after_induction
      (P := fun v => (∀ id, ForwardedSince w v id) ∧ v.market.depth = w.market.depth)
      ⟨ForwardedSince.refl w, rfl⟩
      (fun h hv => ⟨fun id => (hv.1 id).trans (h.forwarded id), h.depth.trans hv.2⟩) hsteps
  obtain ⟨hselling, hforwarded, hdepth⟩ := hrun
  refine ⟨hforwarded, hdepth, fun s hs => ⟨call_next hselling hs, failsOnlyBy_step hselling hs⟩,
    fun id m hm hdeleted more hmore => ?_⟩
  obtain ⟨-, hsame, hfills⟩ := hselling.after_induction
    (P := fun v => v.intermediaries.get? id = some m ∧ v.fillsOf id = (w.after steps).fillsOf id)
    ⟨hm, rfl⟩ (fun h hv => by
      obtain ⟨hsame, hfills⟩ := h.deleted hv.1 hdeleted
      exact ⟨hsame, hfills.trans hv.2⟩) hmore
  exact ⟨hsame, hfills, fun issuer i hi => refused_of_deleted hsame hdeleted hi⟩

/-! ### Two intermediaries of one stock -/

/-- The sample economy with two intermediaries of the bank's stock, at a market that takes sixty
shares at a time. -/
def marketWorld : World :=
  { sampleWorld with
    intermediaries := Table.ofList [("steward", sampleSeller 100.0 .standard),
      ("trustee", { sampleSeller 0.00001 .standard with id := "trustee" })]
    market := sampleMarket 2.0 (some 60.0) none }

/-- The price falls between the sales, and one of the two disbands in the middle. -/
def marketRun : List Step :=
  [.review "steward" none, .setPrice "north" 1.5, .review "trustee" none, .review "trustee" none,
    .disband "steward" none, .review "steward" none]

theorem selling_marketWorld : marketWorld.Selling where
  market := Market.sound_of_found
    (show Market.found marketWorld.market.book (some 60.0) none = .ok marketWorld.market from rfl)
  subjects := fun id m hm => by
    simp only [marketWorld, Table.ofList, List.foldl_cons, List.foldl_nil, Table.get?_insert,
      Table.get?_empty] at hm
    split_ifs at hm with htrustee hsteward
    · obtain rfl := Option.some.inj hm
      exact ⟨htrustee.symm, zero_le_iff.mp (by decide), zero_lt_iff.mp (by decide),
        le_one_iff.mp (by decide)⟩
    · obtain rfl := Option.some.inj hm
      exact ⟨hsteward.symm, zero_le_iff.mp (by decide), zero_lt_iff.mp (by decide),
        le_one_iff.mp (by decide)⟩

theorem proceeds_forwarded_once_marketWorld :
    marketWorld.Selling ∧ (∀ s ∈ marketRun, s.isSelling = true) ∧
    ((marketWorld.after marketRun).fillsOf "steward").map (fun f => f.sale.proceeds)
      = [40.0, 90.0] ∧
    (∀ id, ForwardedSince marketWorld (marketWorld.after marketRun) id) ∧
    ∃ m, (marketWorld.after marketRun).intermediaries.get? "steward" = some m ∧
      m.forwarded = 130.0 ∧ (marketWorld.after marketRun).step (.review "steward" none)
        = .error (.refused (.objectIsDeleted .intermediary)) := by
  have hsteps : ∀ s ∈ marketRun, s.isSelling = true := by decide
  obtain ⟨hforwarded, -, -, hdeleted⟩ := proceeds_forwarded_once selling_marketWorld hsteps
  refine ⟨selling_marketWorld, hsteps, by decide, hforwarded, _, rfl, by decide, ?_⟩
  exact ((hdeleted "steward" _ rfl rfl [] (by decide)).2.2 none _ rfl).1

end World

end Insolvency
