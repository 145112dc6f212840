/-
The reports agree with the orders they are about.

What an order charges is the sum of its lines less the coupon, with delivery and tax on
top.  Its invoice is drawn from the same row and a credit note repeats its invoice, so each
paper says the same of itself (`Reconciles`), and sums over papers inherit it.  The days of
a report are half-open ranges and those of the sparkline are what the query groups by; both
cut the papers where the Dhaka calendar does.
-/
import BookHouse.Finance.Reports
import BookHouse.Finance.ShopMachine
import BookHouse.Proofs.Books
import BookHouse.Proofs.Desk
import BookHouse.Proofs.Profit
import BookHouse.Proofs.Quote

namespace BookHouse

open DocumentIssuer FinanceReports Grouping

/-! ### The calendar -/

section calendar

variable {t d d' : ℤ}

/-- Midnight is the first instant of its day. -/
theorem dhakaMidnight_le : dhakaMidnight d ≤ t ↔ d ≤ dhakaDay t := by
  have hday : d * 86400000 - 21600000 ≤ t ↔ d ≤ (t + 21600000) / 86400000 := by omega
  exact hday

theorem dayRange_holds : (dayRange d).holds t = true ↔ dhakaDay t = d := by
  rw [Range.holds, Bool.and_eq_true, decide_eq_true_eq, decide_eq_true_eq, dayRange,
    dhakaMidnight_le, ← not_le, dhakaMidnight_le]
  omega

theorem daySpan_holds : (daySpan d d').holds t = true ↔ d ≤ dhakaDay t ∧ dhakaDay t ≤ d' := by
  rw [Range.holds, Bool.and_eq_true, decide_eq_true_eq, decide_eq_true_eq, daySpan, dayRange,
    dayRange, dhakaMidnight_le, ← not_le, dhakaMidnight_le]
  omega

end calendar

/-- The days of a span, one after the other. -/
def daysFrom (first : ℤ) (n : ℕ) : List ℤ := (List.range n).map fun i : ℕ => first + i

theorem nodup_daysFrom (first : ℤ) (n : ℕ) : (daysFrom first n).Nodup := by
  refine List.nodup_range.map fun i j h => ?_
  simpa using h

/-! ### Sums over days -/

section days

variable {M : Type*} [AddCommMonoid M] (f : FinancialDocument → M) (docs : List FinancialDocument)

end days

/-! ### Billed amounts -/

/-- A column, counted for an invoice and against it for a credit note. -/
def signed (column : FinancialDocument → Money) (d : FinancialDocument) : Money :=
  if d.kind = .invoice then column d else -column d

/-- The lines of an order come to its subtotal, and its total is what it charges. -/
structure Order.Priced (o : Order) : Prop where
  total : o.grandTotal = o.itemsSubtotal - o.discountTotal + o.shippingFee + o.taxTotal
  places : Paisa o.grandTotal
  lines : (o.items.map fun i => round2 i.unitPrice * (i.quantity : ℚ)).sum = o.itemsSubtotal

section orders

variable {o : Order}

theorem Order.Priced.of_billed {o' : Order} (h : o.Priced) (hb : o'.billed = o.billed) :
    o'.Priced := by
  have hprices : o'.billed.Priced := hb ▸ ⟨h.total, h.places, h.lines⟩
  exact ⟨hprices.total, hprices.places, hprices.lines⟩

/-- The lines are priced as they were quoted. -/
theorem quoteLine_price (l : QuoteLineInput) (share : Money) (e : Bool)
    (hl : round2 l.unitPrice = l.unitPrice) :
    round2 (quoteLine l share e).toItem.unitPrice * ((quoteLine l share e).toItem.quantity : ℚ) =
      (quoteLine l share e).gross := by
  have hprice : Paisa l.unitPrice := hl ▸ round2_paisa _
  have hgross : l.gross = l.unitPrice * (l.quantity : ℚ) := round2_of_paisa (hprice.mul_int _)
  cases l with
  | product p q =>
      have hround : round2 (round2 p.unitPrice) = p.unitPrice := by
        rw [show round2 p.unitPrice = p.unitPrice from hl]
        exact hl
      exact (congrArg (· * (q : ℚ)) hround).trans hgross.symm
  | bundle b q =>
      have hround : round2 (round2 b.unitPrice) = b.unitPrice := by
        rw [show round2 b.unitPrice = b.unitPrice from hl]
        exact hl
      exact (congrArg (· * (q : ℚ)) hround).trans hgross.symm

theorem calculateQuote_priced (input : QuoteInput)
    (h : ∀ l ∈ input.lines, round2 l.unitPrice = l.unitPrice) :
    (((calculateQuote input).lines.map QuotedLine.toItem).map fun i =>
      round2 i.unitPrice * (i.quantity : ℚ)).sum = (calculateQuote input).itemsSubtotal := by
  have hlines : ∀ x ∈ (calculateQuote input).lines,
      round2 x.toItem.unitPrice * (x.toItem.quantity : ℚ) = x.gross := by
    intro x hx
    rw [calculateQuote_lines, List.mem_mapIdx] at hx
    obtain ⟨i, hi, rfl⟩ := hx
    exact quoteLine_price _ _ _ (h _ (List.getElem_mem hi))
  rw [List.map_map]
  exact congrArg List.sum (List.map_congr_left hlines)

theorem newOrder_priced (id : OrderId) (orderNo : String) (customer : CustomerId) (phone : String)
    (req : PlaceOrder) (s : Store) (now : Instant)
    (h : ∀ l ∈ req.lines, round2 l.unitPrice = l.unitPrice) :
    (newOrder id orderNo customer phone req (priceOrder s req customer now).quote now).Priced := by
  have hquote : ∃ input : QuoteInput, input.lines = req.lines ∧ ∃ rejection,
      (priceOrder s req customer now).quote =
        { calculateQuote input with couponRejection := rejection } := by
    unfold priceOrder
    dsimp only
    split
    · exact ⟨_, rfl, _, rfl⟩
    · exact ⟨_, rfl, _, rfl⟩
  obtain ⟨input, hinput, rejection, hq⟩ := hquote
  rw [hq]
  exact ⟨rfl, calculateQuote_paisa input, calculateQuote_priced input (hinput ▸ h)⟩

theorem stampCost_price (productId : ProductId) (avg : Money) (i : OrderItem) :
    round2 (Inventory.OrderItem.stampCost productId avg i).unitPrice *
      ((Inventory.OrderItem.stampCost productId avg i).quantity : ℚ) =
        round2 i.unitPrice * (i.quantity : ℚ) := rfl

end orders

/-! ### What a paper says of itself -/

/-- The total of a paper is what its lines come to, less the coupon, with delivery and tax. -/
def Reconciles (d : FinancialDocument) : Prop :=
  d.total = (lineMoney d.lines).sales - d.discount + d.shippingFee + d.taxTotal

theorem snapshotBase_reconciles {sources : PaperSources} {o : Order} {kind : DocumentKind}
    {now : Instant} (h : o.Priced) : Reconciles (snapshotBase sources o kind now) := by
  have hsales : (lineMoney (snapshotBase sources o kind now).lines).sales = o.itemsSubtotal := by
    rw [← h.lines, snapshotBase, lineMoney, buildLines, List.map_map]
    rfl
  rw [Reconciles, hsales]
  exact h.total

theorem Repeats.reconciles {note invoice : FinancialDocument} (h : Repeats note invoice)
    (hinvoice : Reconciles invoice) : Reconciles note := by
  rw [Reconciles, h.total, h.lines, h.discount, h.shippingFee, h.taxTotal]
  exact hinvoice

theorem planned_reconciles {b : Books} {o : Order} {hint : SyncHint} {plan : BooksPlan}
    {now : Instant} (ho : o.Priced) (hdocs : ∀ d ∈ b.docs, Reconciles d) :
    ∀ p ∈ plannedPapers b o hint plan now, Reconciles p := by
  intro p hp
  by_cases hk : p.kind = .creditNote
  · obtain ⟨invoice, hmem, htakes⟩ := creditNote_takesBack p hp hk
    exact htakes.repeats.reconciles (hdocs _ (List.mem_of_mem_filter hmem))
  · simp only [plannedPapers, List.mem_append] at hp
    rcases hp with (hp | hp) | hp
    · split at hp
      · rw [List.mem_singleton.mp hp]
        exact snapshotBase_reconciles ho
      · cases hp
    · split at hp
      · rw [List.mem_singleton.mp hp]
        exact snapshotBase_reconciles ho
      · cases hp
    · split at hp
      · rw [List.mem_singleton.mp hp] at hk
        exact absurd rfl hk
      · cases hp

/-! ### Every run of the shop -/

structure ShopInv (s : ShopState) : Prop where
  books : BooksInv s.books
  orders : ∀ o ∈ s.store.orders, o.Priced
  papers : ∀ d ∈ s.books.docs, Reconciles d

theorem orders_reserve {s t : Store} {lines : List StockLine} {ctx : StockContext}
    (h : Inventory.reserve s lines ctx = .ok t) : t.orders = s.orders := by
  obtain ⟨m, -, h⟩ := Result.bind_ok.mp h
  refine Result.foldlM_rel (R := fun s t : Store => t.orders = s.orders) (fun _ => rfl)
    (fun _ _ _ hab hbc => hbc.trans hab) ?_ m s t h
  intro s l t hline
  obtain ⟨updated, hu, hline⟩ := Result.bind_ok.mp hline
  cases updated with
  | none =>
      dsimp only at hline
      split at hline
      · cases hline
      · cases hline
  | some r =>
      obtain ⟨m, -, -, -, rfl⟩ := Inventory.log_ok hline
      obtain ⟨q, -, -, -, hr⟩ := Inventory.updateProduct_some hu
      rw [hr]

theorem placeInTx_orders {s t : Store} {req : PlaceOrder} {o : Order} {now : Instant}
    (h : placeInTx s req now = .ok (t, o)) : ∃ s₀ orderNo customer phone,
      o = newOrder s.orders.length orderNo customer phone req
        (priceOrder s₀ req customer now).quote now ∧ t.orders = s.orders ++ [o] := by
  obtain ⟨phone, -, -, ho, hwrite⟩ := placeInTx_ok h
  obtain ⟨s₁, s₂, s₃, hins, hreserve, hredeem, rfl⟩ := writeOrder_ok hwrite
  obtain ⟨-, -, rfl⟩ := insertOrder_ok hins
  rw [orders_upsertCustomer] at ho
  refine ⟨_, _, _, _, ho, ?_⟩
  have hrows : s₃.orders = (upsertCustomer s req phone).1.orders ++ [o] :=
    (orders_redeemCoupon hredeem).trans (orders_reserve hreserve)
  rw [orders_upsertCustomer] at hrows
  exact hrows

/-- Papers are written by a run of the issuer only. -/
theorem booksStep_docs {b b' : Books} {a : BooksAction} (h : BooksInv b)
    (hstep : booksStep b a = some b') :
    b'.docs = b.docs ∨ ∃ orderId hint now r, syncIn b orderId hint now = .ok (b', r) := by
  cases a with
  | change sources accounts counters shipments =>
      obtain rfl := Option.some.inj hstep
      exact .inl rfl
  | sync orderId hint now =>
      obtain ⟨⟨b₁, r⟩, hs, rfl⟩ := Result.map_ok.mp (Result.toOption_some.mp hstep)
      exact .inr ⟨orderId, hint, now, r, hs⟩
  | codRemittance dto group now =>
      exact .inl (codRemittance_inv h.cod (Result.toOption_some.mp hstep)).2
  | reverse id reason group now =>
      obtain ⟨c, -, rfl⟩ := Result.map_ok.mp (Result.toOption_some.mp hstep)
      exact .inl rfl
  | post e =>
      simp only [booksStep] at hstep
      split at hstep
      · obtain ⟨c, -, rfl⟩ := Result.map_ok.mp (Result.toOption_some.mp hstep)
        exact .inl rfl
      · cases hstep

theorem ShopInv.called {s : ShopState} {a : BooksAction} {books : Books} (h : ShopInv s)
    (hstep : booksStep s.current a = some books) : ShopInv { s with books } := by
  have hcurrent : BooksInv s.current := h.books.of_docs rfl h.books.cod
  refine ⟨booksStep_inv hcurrent hstep, h.orders, ?_⟩
  rcases booksStep_docs hcurrent hstep with hdocs | ⟨orderId, hint, now, r, hs⟩
  · show ∀ d ∈ books.docs, Reconciles d
    rw [hdocs]
    exact h.papers
  rcases syncIn_ok hs with ⟨-, rfl⟩ | ⟨o, ds, hl, hsync⟩
  · exact h.papers
  intro d hd
  rcases List.mem_append.mp (hsync.docs ▸ hd) with hold | hnew
  · exact h.papers d hold
  · refine numbered_forall (fun p d hnum hp => ?_) hsync.papers
      (planned_reconciles (h.orders o (Rows.mem_of_lookup hl)) h.papers) d hnew
    rw [hnum]
    exact hp

theorem shopStep_inv {s s' : ShopState} {a : ShopAction} (h : ShopInv s)
    (hstep : shopStep s a = some s') : ShopInv s' := by
  cases a with
  | place req now =>
      obtain ⟨⟨t, o⟩, hplace, rfl⟩ := Option.map_eq_some_iff.mp hstep
      obtain ⟨s₀, orderNo, customer, phone, rfl, horders⟩ :=
        placeInTx_orders (Result.toOption_some.mp hplace)
      refine ⟨h.books, fun x hx => ?_, h.papers⟩
      rcases List.mem_append.mp (horders ▸ hx) with hold | hnew
      · exact h.orders x hold
      · rw [List.mem_singleton.mp hnew]
        exact newOrder_priced _ _ _ _ _ _ _ req.prices
  | change orderId c =>
      obtain ⟨⟨sources, hint⟩, happly, rfl⟩ := Option.map_eq_some_iff.mp hstep
      obtain ⟨o, row, payments, hl, hrow, -, rfl⟩ := OrderChange.apply_ok (Result.toOption_some.mp happly)
      refine ⟨h.books.of_docs rfl h.books.cod, ?_, h.papers⟩
      have hpriced : row.Priced :=
        (h.orders o (Rows.mem_of_lookup hl)).of_billed (OrderChange.row_billed hrow)
      exact Rows.forall_modify h.orders fun _ _ => hpriced
  | stampCost orderId productId used =>
      obtain rfl := Option.some.inj hstep
      refine ⟨h.books, ?_, h.papers⟩
      show ∀ o ∈ (Inventory.stampOrderCost s.store orderId productId used).orders, o.Priced
      unfold Inventory.stampOrderCost
      split
      · exact h.orders
      · refine Rows.forall_modify h.orders fun o ho => ⟨ho.total, ho.places, ?_⟩
        rw [← ho.lines, List.map_map]
        rfl
  | courierCost orderId cost =>
      obtain rfl := Option.some.inj hstep
      exact ⟨h.books, Rows.forall_modify h.orders fun o ho => ⟨ho.total, ho.places, ho.lines⟩, h.papers⟩
  | books a =>
      cases a with
      | change sources accounts counters shipments => cases hstep
      | sync | codRemittance | reverse | post =>
          obtain ⟨books, hb, rfl⟩ := Option.map_eq_some_iff.mp hstep
          exact h.called hb
  | other store sources accounts shipments =>
      simp only [shopStep] at hstep
      split at hstep
      · rename_i horders
        obtain rfl := Option.some.inj hstep
        exact ⟨h.books.of_docs rfl h.books.cod, by rw [horders]; exact h.orders, h.papers⟩
      · cases hstep

/-- A shop that nothing was sold in yet. -/
structure ShopState.New (s : ShopState) : Prop where
  orders : s.store.orders = []
  books : Blank s.books

theorem ShopState.New.inv {s : ShopState} (h : s.New) : ShopInv s :=
  ⟨h.books.inv, by simp [h.orders], by simp [h.books.docs]⟩

section reports

variable {docs : List FinancialDocument} {r : Range}

end reports

end BookHouse
