/-
Receipts and COD money over the sales of one order.

A run of the issuer writes a receipt when the sale is paid and the order has none, and
books COD money with the first receipt (`receiptsOf_planned`, `Synced.cod`).  Both look
at the whole past of the order, so a sale gets its own exactly when no earlier sale did.
-/
import BookHouse.Proofs.Books
import BookHouse.Proofs.History

namespace BookHouse

open DocumentIssuer

/-! ### What a run of the issuer adds -/

section added

variable {b b' : Books} {order : Order} {hint : SyncHint} {now : Instant}
  {ds : List FinancialDocument}

theorem numbered_receipts {ps : List FinancialDocument} (h : List.Forall₂ Numbered ps ds) :
    List.Forall₂ Numbered (receiptsOf ps) (receiptsOf ds) := by
  induction h with
  | nil => exact .nil
  | @cons p d _ _ hnum _ ih =>
      have hkind : d.kind = p.kind := by rw [hnum]
      rw [receiptsOf, receiptsOf, List.filter_cons, List.filter_cons, hkind]
      split
      · exact .cons hnum ih
      · exact ih

theorem receiptDue_eq : receiptDue b order =
    ((receiptsOf (docsOf b order.id)).isEmpty &&
      moneyIn order.paymentMethod order.status (order.paymentStatus ≠ .unpaid)) := by
  have hany : (!(papersOf b order.id).any (·.kind = .receipt)) =
      (receiptsOf (docsOf b order.id)).isEmpty := by
    rw [Bool.eq_iff_iff, Bool.not_eq_true', receipt_papersOf, List.isEmpty_iff]
  rw [receiptDue, hany]

/-- A receipt is planned when the sale is paid and the order has none. -/
theorem receiptsOf_planned :
    receiptsOf (plannedPapers b order hint (planOf b order hint) now) =
      if salePaid order && (receiptsOf (docsOf b order.id)).isEmpty then
        [snapshotBase b.toPaperSources order .receipt now] else [] := by
  cases hstatus : order.status with
  | pending =>
      rw [plannedPapers_pending hstatus]
      simp [salePaid, hstatus, OrderStatus.isLive, receiptsOf]
  | confirmed | processing | handedToCourier | outForDelivery | delivered =>
      have hlive : order.status.isLive = true := by rw [hstatus]; rfl
      rw [plannedPapers_live hlive, receiptsOf, List.filter_append, receiptDue_eq, salePaid, hlive,
        Bool.true_and, Bool.and_comm]
      have hinv : ∀ c : Bool, (if c then [] else
          [snapshotBase b.toPaperSources order .invoice now]).filter
            (fun d => decide (d.kind = .receipt)) = [] := by
        intro c
        cases c <;> simp [snapshotBase]
      rw [hinv, List.nil_append]
      split <;> simp [snapshotBase]
  | cancelled | returned =>
      have hdead : order.status.isDead = true := by rw [hstatus]; rfl
      have hlive : order.status.isLive = false := by rw [hstatus]; rfl
      rw [plannedPapers_dead hdead, salePaid, hlive]
      cases liveInvoice (papersOf b order.id) with
      | none => simp [receiptsOf]
      | some inv => simp [receiptsOf, creditNote]

/-- The receipts after a run of the issuer. -/
theorem Synced.receipts (h : Synced b b' order hint now ds) :
    receiptsOf (docsOf b' order.id) = receiptsOf (docsOf b order.id) ++ receiptsOf ds ∧
      if salePaid order && (receiptsOf (docsOf b order.id)).isEmpty then
        ∃ r, receiptsOf ds = [r] ∧ r.total = order.grandTotal
      else receiptsOf ds = [] := by
  refine ⟨by rw [h.docsOf_self, receiptsOf, List.filter_append]; rfl, ?_⟩
  have hnums := numbered_receipts h.papers
  rw [receiptsOf_planned] at hnums
  split
  · rename_i hdue
    rw [if_pos hdue] at hnums
    generalize receiptsOf ds = rs at hnums
    cases hnums with
    | @cons p r _ _ hnum hrest =>
        cases hrest
        exact ⟨r, rfl, by rw [hnum]; rfl⟩
  · rename_i hdue
    rw [if_neg hdue] at hnums
    generalize receiptsOf ds = rs at hnums
    cases hnums
    rfl

/-- COD money is booked for a paid COD sale, with its receipt or after it. -/
theorem codCashIn_eq : (planOf b order hint).codCashIn =
    (!order.paymentMethod.isPrepaid && order.status.isLive &&
      (salePaid order || !(receiptsOf (docsOf b order.id)).isEmpty) &&
      (codIn b order.id).isEmpty) := by
  have hany : (papersOf b order.id).any (·.kind = .receipt) =
      !(receiptsOf (docsOf b order.id)).isEmpty := by
    rw [← Bool.not_not ((papersOf b order.id).any _), Bool.not_inj_iff]
    rw [Bool.eq_iff_iff, Bool.not_eq_true', receipt_papersOf, List.isEmpty_iff]
  simp only [planOf, planBooks, booksState, hany, CashLedger.has, codIn, salePaid]
  cases order.paymentMethod.isPrepaid <;> cases order.status.isLive <;>
    cases (liveInvoice (papersOf b order.id)).isSome <;>
    cases (receiptsOf (docsOf b order.id)).isEmpty <;>
    cases moneyIn order.paymentMethod order.status (order.paymentStatus ≠ .unpaid) <;> simp

/-- The COD money after a run of the issuer. -/
theorem Synced.cod (hsound : CashLedger.Sound b.cash) (h : Synced b b' order hint now ds) :
    if (planOf b order hint).codCashIn then
      ∃ e, codIn b' order.id = codIn b order.id ++ [e] ∧ e.amount = round2 order.grandTotal
    else codIn b' order.id = codIn b order.id := by
  split
  · rename_i hcod
    obtain ⟨acc, hlive⟩ := CashLedger.live_post (m := codMatch order.id) hsound rfl (h.cashIn hcod)
    rw [if_pos (by rw [codMatch_holds]; simp [codEntry])] at hlive
    exact ⟨_, hlive, rfl⟩
  · rename_i hcod
    rw [codIn, h.noCash (by simpa using hcod)]
    rfl

theorem Synced.sound (hsound : CashLedger.Sound b.cash) (h : Synced b b' order hint now ds) :
    CashLedger.Sound b'.cash := by
  cases hcod : (planOf b order hint).codCashIn with
  | false =>
      rw [h.noCash hcod]
      exact hsound
  | true => exact hsound.post (fun _ hc => by cases hc) (h.cashIn hcod)

end added

/-! ### The sales of one order -/

/-- The order has no receipt and no COD money yet. -/
def NothingIn (b : Books) (orderId : OrderId) : Prop :=
  receiptsOf (docsOf b orderId) = [] ∧ codIn b orderId = []

/-- The order has its one receipt, and for COD its one cash-in. -/
def MoneyBooked (b : Books) (orderId : OrderId) (base : Order) : Prop :=
  ∃ r, receiptsOf (docsOf b orderId) = [r] ∧ r.total = base.grandTotal ∧
    (base.paymentMethod.isPrepaid = true → codIn b orderId = []) ∧
    (base.paymentMethod.isPrepaid = false →
      ∃ e, codIn b orderId = [e] ∧ e.amount = round2 base.grandTotal)

/-- A run of the issuer on a paid sale books the first money; afterwards nothing changes. -/
theorem Synced.money {b b' : Books} {order base : Order} {hint : SyncHint} {now : Instant}
    {ds : List FinancialDocument} (hsound : CashLedger.Sound b.cash)
    (h : Synced b b' order hint now ds) (hbase : order.billed = base.billed) :
    (NothingIn b order.id → salePaid order = false → NothingIn b' order.id) ∧
      (NothingIn b order.id → salePaid order = true → MoneyBooked b' order.id base) ∧
      (MoneyBooked b order.id base →
        receiptsOf (docsOf b' order.id) = receiptsOf (docsOf b order.id) ∧
          codIn b' order.id = codIn b order.id) := by
  have hmethod := Order.billed_method hbase
  have htotal := Order.billed_total hbase
  obtain ⟨happ, hrec⟩ := h.receipts
  have hcod := h.cod hsound
  rw [codCashIn_eq] at hcod
  refine ⟨?_, ?_, ?_⟩
  · rintro ⟨hr, hc⟩ hpaid
    rw [hr, hpaid] at hrec hcod
    simp only [Bool.false_and, Bool.false_eq_true, if_false, List.isEmpty_nil, Bool.not_true,
      Bool.or_false, Bool.and_false] at hrec hcod
    exact ⟨by rw [happ, hr, hrec]; rfl, by rw [hcod, hc]⟩
  · rintro ⟨hr, hc⟩ hpaid
    have hlive : order.status.isLive = true := by
      simp only [salePaid, Bool.and_eq_true] at hpaid
      exact hpaid.1
    rw [hr, hpaid] at hrec hcod
    rw [hc, hlive] at hcod
    simp only [List.isEmpty_nil, Bool.and_true, if_true, Bool.true_or] at hrec hcod
    obtain ⟨r, hds, hrt⟩ := hrec
    refine ⟨r, by rw [happ, hr, hds]; rfl, hrt.trans htotal, ?_, ?_⟩
    · intro hp
      rw [hmethod, hp] at hcod
      simpa using hcod
    · intro hp
      rw [hmethod, hp] at hcod
      obtain ⟨e, he, hamt⟩ := (by simpa using hcod : ∃ e, codIn b' order.id = [e] ∧ _)
      exact ⟨e, he, by rw [hamt, htotal]⟩
  · rintro ⟨r, hr, -, hpre, hpost⟩
    rw [hr] at hrec
    simp only [List.isEmpty_cons, Bool.and_false, Bool.false_eq_true, if_false] at hrec
    refine ⟨by rw [happ, hrec, List.append_nil], ?_⟩
    rw [hmethod] at hcod
    cases hp : base.paymentMethod.isPrepaid with
    | true => simpa [hp] using hcod
    | false =>
        obtain ⟨e, he, -⟩ := hpost hp
        rw [he] at hcod ⊢
        simpa using hcod

/-- Everything a step did. -/
theorem saleStep_ok {orderId : OrderId} {s s' : SaleState} {a : SaleAction}
    (h : saleStep orderId s a = some s') :
    ∃ o row sources hint books r ds, Rows.lookup Order.id orderId s.books.orders = some o ∧
      a.change.row o = .ok (row, hint) ∧
      Rows.lookup Order.id orderId sources.orders = some row ∧
      syncIn (s.books.withSources sources) orderId hint a.now = .ok (books, r) ∧
      Synced (s.books.withSources sources) books row hint a.now ds ∧
      s' = { ((s.began orderId o a.change).counted row) with books } := by
  unfold saleStep at h
  obtain ⟨o, ho, h⟩ := Option.bind_eq_some_iff.mp h
  obtain ⟨⟨sources, hint⟩, happly, h⟩ := Option.bind_eq_some_iff.mp h
  obtain ⟨row, hrow, h⟩ := Option.bind_eq_some_iff.mp h
  obtain ⟨⟨books, r⟩, hsync, h⟩ := Option.bind_eq_some_iff.mp h
  obtain rfl := Option.some.inj h
  have happly' := Result.toOption_some.mp happly
  obtain ⟨o', row', payments, hl, hchange, -, rfl⟩ := OrderChange.apply_ok happly'
  obtain rfl := Option.some.inj (ho.symm.trans hl)
  have hrow' := lookup_modify_row ho (Order.billed_id (OrderChange.row_billed hchange))
  obtain rfl := Option.some.inj (hrow.symm.trans hrow')
  have hsync' := Result.toOption_some.mp hsync
  rcases syncIn_ok hsync' with ⟨hnone, -⟩ | ⟨order, ds, hfound, hs⟩
  · exact absurd (hrow.symm.trans hnone) (by simp)
  obtain rfl := Option.some.inj (hrow.symm.trans hfound)
  exact ⟨o, row, _, hint, books, r, ds, ho, hchange, hrow, hsync', hs, rfl⟩

/-- What holds between two changes; `base` is the order's row as it was placed. -/
structure SaleInv (orderId : OrderId) (base : Order) (s : SaleState) : Prop where
  books : BooksInv s.books
  sound : CashLedger.Sound s.books.cash
  row : ∃ o, Rows.lookup Order.id orderId s.books.orders = some o ∧ o.billed = base.billed ∧
    (salePaid o = true → MoneyBooked s.books orderId base)
  money : NothingIn s.books orderId ∨ MoneyBooked s.books orderId base
  before : (s.receiptsBefore = [] ∧ s.codBefore = []) ∨
    (s.receiptsBefore = receiptsOf (docsOf s.books orderId) ∧ s.codBefore = codIn s.books orderId)
  paidSales : 0 < s.paidSales ↔ MoneyBooked s.books orderId base
  paidNow : s.paidNow = true → 0 < s.paidSales

theorem NothingIn.not_booked {b : Books} {orderId : OrderId} {base : Order}
    (h : NothingIn b orderId) : ¬MoneyBooked b orderId base := by
  rintro ⟨r, hr, -⟩
  rw [h.1] at hr
  cases hr

theorem MoneyBooked.congr {b b' : Books} {orderId : OrderId} {base : Order}
    (hr : receiptsOf (docsOf b' orderId) = receiptsOf (docsOf b orderId))
    (hc : codIn b' orderId = codIn b orderId) (h : MoneyBooked b orderId base) :
    MoneyBooked b' orderId base := by
  obtain ⟨r, h₁, h₂, h₃, h₄⟩ := h
  exact ⟨r, by rw [hr, h₁], h₂, by rwa [hc], by rwa [hc]⟩

/-- The figures remembered at the start of a sale stay empty or stay what the books hold. -/
theorem SaleState.began_before {orderId : OrderId} {s : SaleState} (o : Order) (c : OrderChange)
    (h : (s.receiptsBefore = [] ∧ s.codBefore = []) ∨
      (s.receiptsBefore = receiptsOf (docsOf s.books orderId) ∧
        s.codBefore = codIn s.books orderId)) :
    let s' := s.began orderId o c
    (s'.receiptsBefore = [] ∧ s'.codBefore = []) ∨
      (s'.receiptsBefore = receiptsOf (docsOf s.books orderId) ∧
        s'.codBefore = codIn s.books orderId) := by
  cases c with
  | reopen cmd actor now => exact .inr ⟨rfl, rfl⟩
  | _ => exact h

theorem SaleState.counted_before {s : SaleState} {o : Order} :
    (s.counted o).receiptsBefore = s.receiptsBefore ∧ (s.counted o).codBefore = s.codBefore := by
  unfold SaleState.counted
  split <;> exact ⟨rfl, rfl⟩

theorem SaleState.began_paid (orderId : OrderId) (s : SaleState) (o : Order) (c : OrderChange) :
    (s.began orderId o c).paidSales = s.paidSales ∧
      ((s.began orderId o c).paidNow = true → s.paidNow = true) := by
  cases c with
  | reopen cmd actor now => exact ⟨rfl, fun h => by cases h⟩
  | _ => exact ⟨rfl, fun h => h⟩

theorem SaleState.counted_paid {s : SaleState} {o : Order} :
    s.paidSales ≤ (s.counted o).paidSales ∧
      ((s.counted o).paidNow = true → s.paidNow = true ∨ 0 < (s.counted o).paidSales) ∧
      (salePaid o = false → (s.counted o).paidSales = s.paidSales) ∧
      (salePaid o = true → s.paidNow = true ∨ 0 < (s.counted o).paidSales) := by
  unfold SaleState.counted
  split
  · rename_i hpaid
    simp only [Bool.and_eq_true] at hpaid
    refine ⟨Nat.le_succ _, fun _ => .inr (Nat.succ_pos _), fun hno => ?_, fun _ => .inr (Nat.succ_pos _)⟩
    rw [hno] at hpaid
    cases hpaid.1
  · rename_i hpaid
    refine ⟨le_refl _, fun h => .inl h, fun _ => rfl, fun hyes => .inl ?_⟩
    simpa [hyes] using hpaid

/-- **A step keeps the invariant.** -/
theorem saleStep_inv {orderId : OrderId} {base : Order} {s s' : SaleState} {a : SaleAction}
    (h : SaleInv orderId base s) (hstep : saleStep orderId s a = some s') :
    SaleInv orderId base s' := by
  obtain ⟨o, row, sources, hint, books, r, ds, ho, hchange, hrow, hsync, hs, rfl⟩ :=
    saleStep_ok hstep
  obtain ⟨o', ho', hbilled, -⟩ := h.row
  obtain rfl := Option.some.inj (ho.symm.trans ho')
  have hbase : row.billed = base.billed := (OrderChange.row_billed hchange).trans hbilled
  have hid : row.id = orderId := Rows.key_of_lookup hrow
  have hbefore : BooksInv (s.books.withSources sources) := h.books.of_docs rfl h.books.cod
  have hsound : CashLedger.Sound (s.books.withSources sources).cash := h.sound
  obtain ⟨hnothing, hfirst, hlater⟩ := hs.money hsound hbase
  rw [hid] at hnothing hfirst hlater
  have hlookup : Rows.lookup Order.id orderId books.orders = some row := by
    rw [hs.sources]
    exact hrow
  -- nothing was booked and nothing is, the sale is the first one paid, or all stays
  have hmoney : (NothingIn books orderId ∧ salePaid row = false ∧ NothingIn s.books orderId) ∨
      (MoneyBooked books orderId base ∧ salePaid row = true ∧ NothingIn s.books orderId) ∨
      (MoneyBooked books orderId base ∧ MoneyBooked s.books orderId base ∧
        receiptsOf (docsOf books orderId) = receiptsOf (docsOf s.books orderId) ∧
        codIn books orderId = codIn s.books orderId) := by
    rcases h.money with hno | hyes
    · cases hpaid : salePaid row with
      | false => exact .inl ⟨hnothing hno hpaid, rfl, hno⟩
      | true => exact .inr (.inl ⟨hfirst hno hpaid, rfl, hno⟩)
    · obtain ⟨hr, hc⟩ := hlater hyes
      exact .inr (.inr ⟨hyes.congr hr hc, hyes, hr, hc⟩)
  obtain ⟨hcountR, hcountC⟩ := SaleState.counted_before (s := s.began orderId o a.change) (o := row)
  obtain ⟨hle, hnow, hsame, hpaid⟩ := SaleState.counted_paid (s := s.began orderId o a.change) (o := row)
  obtain ⟨hbeganS, hbeganN⟩ := SaleState.began_paid orderId s o a.change
  have hpos : (s.began orderId o a.change).paidNow = true →
      0 < ((s.began orderId o a.change).counted row).paidSales := fun hn =>
    lt_of_lt_of_le (h.paidNow (hbeganN hn)) (hbeganS ▸ hle)
  refine ⟨(syncIn_inv hbefore hsync).1, hs.sound hsound, ⟨row, hlookup, hbase, ?_⟩, ?_, ?_, ?_, ?_⟩
  · intro hp
    rcases hmoney with ⟨-, hno, -⟩ | ⟨hyes, -, -⟩ | ⟨hyes, -⟩
    · rw [hno] at hp
      cases hp
    · exact hyes
    · exact hyes
  · rcases hmoney with ⟨hno, -, -⟩ | ⟨hyes, -, -⟩ | ⟨hyes, -⟩
    · exact .inl hno
    · exact .inr hyes
    · exact .inr hyes
  · simp only [hcountR, hcountC]
    rcases SaleState.began_before o a.change h.before with hb | hb
    · exact .inl hb
    rcases hmoney with ⟨-, -, hno⟩ | ⟨-, -, hno⟩ | ⟨-, -, hr, hc⟩
    · exact .inl ⟨hb.1.trans hno.1, hb.2.trans hno.2⟩
    · exact .inl ⟨hb.1.trans hno.1, hb.2.trans hno.2⟩
    · exact .inr ⟨hb.1.trans hr.symm, hb.2.trans hc.symm⟩
  · rcases hmoney with ⟨hno, hp, hnos⟩ | ⟨hyes, hp, -⟩ | ⟨hyes, hyess, -⟩
    · rw [hsame hp, hbeganS, h.paidSales]
      exact ⟨fun hc => absurd hc hnos.not_booked, fun hc => absurd hc hno.not_booked⟩
    · refine ⟨fun _ => hyes, fun _ => ?_⟩
      rcases hpaid hp with hn | hgt
      · exact hpos hn
      · exact hgt
    · exact ⟨fun _ => hyes, fun _ => lt_of_lt_of_le (h.paidSales.mpr hyess) (hbeganS ▸ hle)⟩
  · intro hn
    rcases hnow hn with hb | hgt
    · exact hpos hb
    · exact hgt

/-- An order that was just placed, among books that are straight. -/
structure FirstSale (orderId : OrderId) (s : SaleState) : Prop where
  books : BooksInv s.books
  sound : CashLedger.Sound s.books.cash
  row : ∃ o, Rows.lookup Order.id orderId s.books.orders = some o ∧ o.status = .pending
  noPapers : docsOf s.books orderId = []
  noCod : codIn s.books orderId = []
  fresh : s = { books := s.books }

theorem FirstSale.inv {orderId : OrderId} {s : SaleState} (h : FirstSale orderId s) :
    ∃ base, SaleInv orderId base s := by
  obtain ⟨o, ho, hpending⟩ := h.row
  have hnothing : NothingIn s.books orderId := by
    refine ⟨?_, h.noCod⟩
    rw [h.noPapers]
    rfl
  have hfresh := h.fresh
  refine ⟨o, h.books, h.sound, ⟨o, ho, rfl, fun hp => ?_⟩, .inl hnothing, ?_, ?_, ?_⟩
  · simp [salePaid, hpending, OrderStatus.isLive] at hp
  · rw [hfresh]
    exact .inl ⟨rfl, rfl⟩
  · refine ⟨fun hp => ?_, fun hb => absurd hb hnothing.not_booked⟩
    rw [hfresh] at hp
    cases hp
  · intro hn
    rw [hfresh] at hn
    cases hn

/-- The current sale has a receipt and a COD cash-in of its own. -/
def SaleBooked (orderId : OrderId) (o : Order) (s : SaleState) : Prop :=
  let receipts := receiptsOf (docsOf s.books orderId)
  let cod := codIn s.books orderId
  receipts.length = s.receiptsBefore.length + 1 ∧ cod.length = s.codBefore.length + 1 ∧
    (∀ r ∈ receipts.drop s.receiptsBefore.length, r.total = o.grandTotal) ∧
    ∀ e ∈ cod.drop s.codBefore.length, e.amount = round2 o.grandTotal

instance (orderId : OrderId) (o : Order) (s : SaleState) : Decidable (SaleBooked orderId o s) :=
  inferInstanceAs (Decidable (_ ∧ _ ∧ _ ∧ _))

/--
**A delivered COD sale has its own receipt and cash-in exactly when no earlier sale of
the order has one**, and the receipts are as many as the paid sales exactly up to the
first.
-/
theorem sale_booked_iff (orderId : OrderId) (s₀ t : SaleState) (as : List SaleAction)
    (h : FirstSale orderId s₀) (hrun : Machine.runFrom (saleStep orderId) s₀ as = some t)
    (o : Order) (ho : Rows.lookup Order.id orderId t.books.orders = some o) :
    (o.paymentMethod.isPrepaid = false → o.status = .delivered →
      (SaleBooked orderId o t ↔ t.receiptsBefore = [])) ∧
    ((receiptsOf (docsOf t.books orderId)).length = t.paidSales ↔ t.paidSales ≤ 1) := by
  obtain ⟨base, hinv₀⟩ := h.inv
  have hinv : SaleInv orderId base t :=
    Machine.runFrom_invariant (fun _ _ _ hi hs => saleStep_inv hi hs) as s₀ t hinv₀ hrun
  obtain ⟨o', ho', hbilled, hpaidBooked⟩ := hinv.row
  obtain rfl := Option.some.inj (ho.symm.trans ho')
  constructor
  · intro hmethod hdelivered
    have hpaid : salePaid o = true := by
      simp [salePaid, moneyIn, hmethod, hdelivered, OrderStatus.isLive]
    obtain ⟨r, hr, htotal, -, hcod⟩ := hpaidBooked hpaid
    obtain ⟨e, he, hamount⟩ := hcod (Order.billed_method hbilled ▸ hmethod)
    have ho_total := Order.billed_total hbilled
    constructor
    · rintro ⟨hlen, -⟩
      rw [hr] at hlen
      exact List.length_eq_zero_iff.mp (by simpa using hlen.symm)
    · intro hnone
      have hcodNone : t.codBefore = [] := by
        rcases hinv.before with ⟨-, hc⟩ | ⟨hb, -⟩
        · exact hc
        · rw [hnone, hr] at hb
          cases hb
      refine ⟨by rw [hr, hnone]; rfl, by rw [he, hcodNone]; rfl, ?_, ?_⟩
      · rw [hr, hnone, ho_total]
        simpa using htotal
      · rw [he, hcodNone, ho_total]
        simpa using hamount
  · rcases hinv.money with hno | hyes
    · have hzero : t.paidSales = 0 := by
        by_contra hne
        exact hno.not_booked (hinv.paidSales.mp (Nat.pos_of_ne_zero hne))
      rw [hno.1, hzero]
      simp
    · have hpos : 0 < t.paidSales := hinv.paidSales.mpr hyes
      obtain ⟨r, hr, -⟩ := hyes
      rw [hr, List.length_singleton]
      omega

/-! ### Sold, returned, refunded and sold again -/

/-- A COD order of 560, just placed. -/
def codShop : SaleState :=
  { books :=
      { orders := [{ id := 1, orderNo := "CLO-2042", paymentMethod := .cod, itemsSubtotal := 500,
                     shippingFee := 60, grandTotal := 560, courierCost := 50 }] } }

def firstDelivery : List SaleAction :=
  [⟨.transition { toStatus := .confirmed } .staff 1, 1⟩,
   ⟨.transition { toStatus := .delivered } .staff 2, 2⟩]

/-- The parcel comes back, the customer gets the money back and orders again. -/
def secondDelivery : List SaleAction :=
  [⟨.transition { toStatus := .returned, credit := some ⟨"ফেরত", 40⟩ } .staff 3, 3⟩,
   ⟨.refund 560, 4⟩,
   ⟨.reopen { reason := "আবার নেবেন", toStatus := some .confirmed } .staff 5, 5⟩,
   ⟨.transition { toStatus := .delivered } .staff 6, 6⟩]

theorem codShop_firstSale : FirstSale 1 codShop := by
  refine ⟨Blank.inv ⟨rfl, rfl⟩, ?_, ⟨_, rfl, rfl⟩, rfl, rfl, rfl⟩
  intro r hr
  cases hr

/-- The first delivery is booked. -/
theorem sale_booked_iff_firstDelivery : ∃ t o,
    Machine.runFrom (saleStep 1) codShop firstDelivery = some t ∧
      Rows.lookup Order.id 1 t.books.orders = some o ∧ SaleBooked 1 o t := by
  have hruns : (Machine.runFrom (saleStep 1) codShop firstDelivery).any (fun t =>
      (Rows.lookup Order.id 1 t.books.orders).any fun o => o.paymentMethod = .cod ∧
        o.status = .delivered ∧ t.receiptsBefore = []) = true := by
    decide +kernel
  obtain ⟨t, ht, hrow⟩ := (Option.any_eq_true _ _).mp hruns
  obtain ⟨o, ho, hfacts⟩ := (Option.any_eq_true _ _).mp hrow
  obtain ⟨hmethod, hdelivered, hnone⟩ := of_decide_eq_true hfacts
  refine ⟨t, o, ht, ho, ?_⟩
  have hiff := (sale_booked_iff 1 codShop t firstDelivery codShop_firstSale ht o ho).1
  exact (hiff (by rw [hmethod]; rfl) hdelivered).mpr hnone

/-- The second delivery is not, though the first collection was refunded in full. -/
theorem second_delivery_not_booked : FirstSale 1 codShop ∧ ∃ t o,
    Machine.runFrom (saleStep 1) codShop (firstDelivery ++ secondDelivery) = some t ∧
      Rows.lookup Order.id 1 t.books.orders = some o ∧
      o.paymentMethod = .cod ∧ o.status = .delivered ∧ t.keptBefore = 0 ∧ t.paidSales = 2 ∧
      ¬SaleBooked 1 o t ∧ (receiptsOf (docsOf t.books 1)).length ≠ t.paidSales := by
  have hruns : (Machine.runFrom (saleStep 1) codShop (firstDelivery ++ secondDelivery)).any
      (fun t => (Rows.lookup Order.id 1 t.books.orders).any fun o =>
        o.paymentMethod = .cod ∧ o.status = .delivered ∧ t.keptBefore = 0 ∧ t.paidSales = 2 ∧
          ¬SaleBooked 1 o t ∧ (receiptsOf (docsOf t.books 1)).length ≠ t.paidSales) = true := by
    decide +kernel
  obtain ⟨t, ht, hrow⟩ := (Option.any_eq_true _ _).mp hruns
  obtain ⟨o, ho, hfacts⟩ := (Option.any_eq_true _ _).mp hrow
  exact ⟨codShop_firstSale, t, o, ht, ho, of_decide_eq_true hfacts⟩

end BookHouse
