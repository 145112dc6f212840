/-
What each call at the courier desk does to orders, shipments and books.

One lemma for each call: an order is placed, changes its row, is assigned a shipment or has
its papers drawn.  The proofs about what the courier owes and is owed use these and never
open a call again.
-/
import BookHouse.Finance.CourierDesk
import BookHouse.Proofs.Ledger
import BookHouse.Proofs.Reports

namespace BookHouse

open DocumentIssuer

/-! ### The charges of shipments -/

/-- Amounts of two places, none of them negative. -/
structure Shipment.Charged (s : Shipment) : Prop where
  delivery : Paisa s.deliveryCharge
  back : Paisa s.returnCharge

namespace ShipmentsService

variable {t t' : ShippingTables} {now : Instant}

theorem Charge.paisa (c : Charge) : Paisa c.amount := c.places ▸ round2_paisa _

/-- What was given, or what was there before. -/
theorem paisa_given {given : Option Charge} {old : Money} (h : Paisa old) :
    Paisa ((given.map (·.amount)).getD old) := by
  cases given with
  | none => exact h
  | some c => exact Charge.paisa c

theorem bill_paisa {rows : List Shipment} {i : OrderId} {bill : Money}
    (h : ∀ s ∈ rows, s.Charged) (hb : courierBill rows i = some bill) : Paisa bill := by
  unfold courierBill at hb
  simp only at hb
  split at hb
  · cases hb
  obtain rfl := Option.some.inj hb
  refine Rounding.HasPlaces.sum fun m hm => ?_
  obtain ⟨s, hs, hmem⟩ := List.mem_flatMap.mp hm
  have hcharged := h s (List.mem_of_mem_filter hs)
  rcases List.mem_cons.mp hmem with rfl | hmem
  · exact hcharged.delivery
  · rw [List.mem_singleton.mp hmem]
    exact hcharged.back

/-- Everything a write of an order's shipments did. -/
structure Written (t : ShippingTables) (i : OrderId) (rows : List Shipment) (t' : ShippingTables) :
    Prop where
  shipments : t'.shipments = rows
  couriers : t'.couriers = t.couriers
  zones : t'.zones = t.zones
  orders : t'.orders = match courierBill rows i with
    | none => t.orders
    | some bill => Rows.modify Order.id i (fun o => { o with courierCost := bill }) t.orders

theorem write_ok {i : OrderId} {rows : List Shipment} (h : write t i rows = .ok t') :
    Written t i rows t' := by
  obtain ⟨-, -, h⟩ := Result.bind_ok.mp h
  obtain rfl := Except.ok.inj h
  unfold syncCourierCost
  dsimp only
  split
  · rename_i hnone
    exact ⟨rfl, rfl, rfl, by rw [hnone]⟩
  · rename_i bill hbill
    exact ⟨rfl, rfl, rfl, by rw [hbill]⟩

theorem assign_ok {dto : AssignShipmentDto} (h : assign t dto now = .ok t') :
    ∃ order courier, Rows.lookup Order.id dto.orderId t.orders = some order ∧
      findCourier t dto.courier = some courier ∧ order.status ≠ .cancelled ∧
      order.status ≠ .returned ∧ Written t order.id (assignedRows t order courier dto now) t' := by
  unfold assign at h
  split at h
  · cases h
  rename_i order hl
  split at h
  · cases h
  rename_i hclosed
  simp only [Bool.or_eq_true, decide_eq_true_eq, not_or] at hclosed
  split at h
  · cases h
  rename_i courier hcourier
  split at h
  · cases h
  split at h
  · cases h
  exact ⟨order, courier, hl, hcourier, hclosed.1, hclosed.2, write_ok h⟩

theorem update_ok {id : ℕ} {dto : UpdateShipmentDto} (h : update t id dto now = .ok t') :
    ∃ cur, Rows.lookup Shipment.id id t.shipments = some cur ∧
      Written t cur.orderId (Rows.modify Shipment.id id (updated dto now) t.shipments) t' := by
  unfold update at h
  split at h
  · cases h
  rename_i cur hl
  split at h
  · cases h
  split at h
  · cases h
  exact ⟨cur, hl, write_ok h⟩

/-- A shipment after an assignment is one from before, taken over or cancelled, or the new one. -/
theorem mem_assignedRows {order : Order} {courier : Courier} {dto : AssignShipmentDto}
    {s : Shipment} (h : s ∈ assignedRows t order courier dto now) :
    (∃ r ∈ t.shipments, s = r ∨ s = reassigned dto now r ∨ s = cancelled r) ∨
      s = newShipment t.shipments.length order courier
        (t.zones.find? (·.code = order.shipZoneCode)) dto now := by
  unfold assignedRows at h
  have hmodify : ∀ (id : ℕ) (f : Shipment → Shipment), s ∈ Rows.modify Shipment.id id f t.shipments →
      ∃ r ∈ t.shipments, s = r ∨ s = f r := by
    intro id f hs
    obtain ⟨r, hr, rfl⟩ := List.mem_map.mp hs
    refine ⟨r, hr, ?_⟩
    by_cases hid : r.id = id
    · exact .inr (if_pos hid)
    · exact .inl (if_neg hid)
  simp only at h
  split at h
  · rcases List.mem_append.mp h with hold | hnew
    · exact .inl ⟨s, hold, .inl rfl⟩
    · exact .inr (List.mem_singleton.mp hnew)
  · split at h
    · obtain ⟨r, hr, hs⟩ := hmodify _ _ h
      exact .inl ⟨r, hr, hs.imp_right .inl⟩
    · rcases List.mem_append.mp h with hold | hnew
      · obtain ⟨r, hr, hs⟩ := hmodify _ _ hold
        exact .inl ⟨r, hr, hs.imp_right .inr⟩
      · exact .inr (List.mem_singleton.mp hnew)

theorem charged_assigned {order : Order} {courier : Courier} {dto : AssignShipmentDto}
    (h : ∀ s ∈ t.shipments, s.Charged) : ∀ s ∈ assignedRows t order courier dto now, s.Charged := by
  intro s hs
  rcases mem_assignedRows hs with ⟨r, hr, rfl | rfl | rfl⟩ | rfl
  · exact h _ hr
  · exact ⟨paisa_given (h r hr).delivery, (h r hr).back⟩
  · exact ⟨(h r hr).delivery, (h r hr).back⟩
  · refine ⟨paisa_given ?_, Rounding.HasPlaces.zero⟩
    cases t.zones.find? (·.code = order.shipZoneCode) with
    | none => exact Rounding.HasPlaces.zero
    | some zone =>
        show Paisa zone.courierCost
        exact zone.places ▸ round2_paisa _

/-- An update of a shipment is one of its charges, its status and its COD. -/
theorem updated_charges (now : Instant) (dto : UpdateShipmentDto) (s : Shipment) :
    (updated dto now s).deliveryCharge = (dto.deliveryCharge.map (·.amount)).getD s.deliveryCharge ∧
      (updated dto now s).returnCharge = (dto.returnCharge.map (·.amount)).getD s.returnCharge := by
  have hstamped : ∀ status (s : Shipment), (stamped status now s).deliveryCharge = s.deliveryCharge ∧
      (stamped status now s).returnCharge = s.returnCharge := by
    intro status s
    cases status <;> exact ⟨rfl, rfl⟩
  have hcod : ∀ codStatus (s : Shipment), (codStamped codStatus now s).deliveryCharge =
      s.deliveryCharge ∧ (codStamped codStatus now s).returnCharge = s.returnCharge := by
    intro codStatus s
    cases codStatus <;> exact ⟨rfl, rfl⟩
  unfold updated
  cases dto.status <;> cases dto.codStatus <;> simp [hstamped, hcod]

theorem charged_updated {id : ℕ} {dto : UpdateShipmentDto} (h : ∀ s ∈ t.shipments, s.Charged) :
    ∀ s ∈ Rows.modify Shipment.id id (updated dto now) t.shipments, s.Charged := by
  refine Rows.forall_modify h fun s hs => ?_
  obtain ⟨hdelivery, hback⟩ := updated_charges now dto s
  exact ⟨hdelivery ▸ paisa_given hs.delivery, hback ▸ paisa_given hs.back⟩

/-- An update keeps what a shipment has to collect. -/
theorem updated_cod (now : Instant) (dto : UpdateShipmentDto) (s : Shipment) :
    (updated dto now s).id = s.id ∧ (updated dto now s).orderId = s.orderId ∧
      (updated dto now s).codAmount = s.codAmount ∧
      (updated dto now s).codStatus = dto.codStatus.getD s.codStatus := by
  have hstamped : ∀ status (s : Shipment), (stamped status now s).id = s.id ∧
      (stamped status now s).orderId = s.orderId ∧ (stamped status now s).codAmount = s.codAmount ∧
      (stamped status now s).codStatus = s.codStatus := by
    intro status s
    cases status <;> exact ⟨rfl, rfl, rfl, rfl⟩
  have hcod : ∀ codStatus (s : Shipment), (codStamped codStatus now s).id = s.id ∧
      (codStamped codStatus now s).orderId = s.orderId ∧
      (codStamped codStatus now s).codAmount = s.codAmount ∧
      (codStamped codStatus now s).codStatus = s.codStatus := by
    intro codStatus s
    cases codStatus <;> exact ⟨rfl, rfl, rfl, rfl⟩
  unfold updated
  cases dto.status <;> cases dto.codStatus <;> simp [hstamped, hcod]

/-- An assignment leaves every shipment its order and the state of its COD. -/
theorem assignedRows_keeps {order : Order} {courier : Courier} {dto : AssignShipmentDto}
    {r : Shipment} (h : r ∈ t.shipments) : ∃ r' ∈ assignedRows t order courier dto now,
      r'.orderId = r.orderId ∧ r'.codStatus = r.codStatus := by
  have hmodify : ∀ (id : ℕ) (f : Shipment → Shipment),
      (∀ s, (f s).orderId = s.orderId ∧ (f s).codStatus = s.codStatus) →
      ∃ r' ∈ Rows.modify Shipment.id id f t.shipments,
        r'.orderId = r.orderId ∧ r'.codStatus = r.codStatus := by
    intro id f hf
    refine ⟨if r.id = id then f r else r, List.mem_map_of_mem h, ?_⟩
    by_cases hid : r.id = id
    · rw [if_pos hid]
      exact hf r
    · rw [if_neg hid]
      exact ⟨rfl, rfl⟩
  unfold assignedRows
  dsimp only
  split
  · exact ⟨r, List.mem_append_left _ h, rfl, rfl⟩
  split
  · exact hmodify _ _ fun _ => ⟨rfl, rfl⟩
  · obtain ⟨r', hr', hsame⟩ := hmodify _ cancelled fun _ => ⟨rfl, rfl⟩
    exact ⟨r', List.mem_append_left _ hr', hsame⟩

end ShipmentsService

/-! ### The calls -/

/-- Only a reopen brings a closed order back. -/
theorem OrderChange.row_stays_dead {o row : Order} {c : OrderChange} {hint : SyncHint}
    (h : c.row o = .ok (row, hint)) (hclosed : c.reopens = false) :
    o.status.isDead → row.status.isDead := by
  intro hdead
  have hplan : ∀ {x : Order} {req : TransitionRequest} {plan : TransitionPlan},
      planTransition x req = .ok plan → x.status.isDead = false := by
    intro x req plan hp
    rw [OrderStatus.isDead_eq_isTerminal]
    exact (planTransition_cases hp).1
  cases c with
  | transition cmd actor now =>
      obtain ⟨⟨r, plan⟩, ht, -⟩ := Result.map_ok.mp h
      rw [hplan (Order.transition_ok ht).1] at hdead
      cases hdead
  | reopen cmd actor now => cases hclosed
  | markPaid version now =>
      obtain ⟨r, hr, heq⟩ := Result.map_ok.mp h
      obtain ⟨rfl, -⟩ := Prod.mk.inj heq
      rw [(Order.markPaid_ok hr).2]
      exact hdead
  | gatewaySuccess e now =>
      rcases gatewaySuccessRow_ok h with ⟨-, rfl, -⟩ | ⟨-, -, rfl, -⟩ | ⟨-, hp, plan, -, -, -⟩
      · exact hdead
      · exact hdead
      · rw [hp] at hdead
        cases hdead
  | refund amount =>
      obtain ⟨r, hr, heq⟩ := Result.map_ok.mp h
      obtain ⟨rfl, -⟩ := Prod.mk.inj heq
      obtain ⟨-, a, rfl⟩ := refundRow_ok hr
      exact hdead
  | attempt id amount =>
      rw [(Prod.mk.inj (Except.ok.inj h)).1] at hdead
      exact hdead
  | capture id fee =>
      rw [(Prod.mk.inj (Except.ok.inj h)).1] at hdead
      exact hdead

/-- Delivery is expected to cost what the zone's courier charges. -/
theorem expectedCourierCost_eq (input : ShippingInput) :
    (resolveShipping input).expectedCourierCost = input.zone.map (·.courierCost) := by
  unfold resolveShipping
  dsimp only
  repeat' split
  all_goals rfl

namespace CourierDesk

variable {s s' : CourierDesk} {now : Instant}

/-- A new order: nothing is paid, and its courier costs what its zone says. -/
structure Placed (s : CourierDesk) (req : ZonedOrder) (o : Order) (s' : CourierDesk) : Prop where
  id : o.id = s.orders.length
  status : o.status = .pending
  unpaid : o.amountPaid = 0
  cost : o.courierCost = req.zone.courierCost
  orders : s'.orders = s.orders ++ [o]
  books : s'.books = s.books
  settled : s'.settled = s.settled

theorem place_ok {req : ZonedOrder} (h : s.place req now = some s') :
    ∃ o, Placed s req o s' := by
  obtain ⟨⟨t, o⟩, hplace, rfl⟩ := Option.map_eq_some_iff.mp h
  obtain ⟨s₀, orderNo, customer, phone, rfl, horders⟩ :=
    placeInTx_orders (Result.toOption_some.mp hplace)
  refine ⟨_, rfl, rfl, rfl, ?_, horders, rfl, rfl⟩
  have hquote : ∃ input : QuoteInput, input.zone = some req.zone ∧
      (priceOrder s₀ req.toPlaceOrder customer now).quote.shipping = (calculateQuote input).shipping := by
    unfold priceOrder
    dsimp only
    split
    · exact ⟨_, rfl, rfl⟩
    · exact ⟨_, rfl, rfl⟩
  obtain ⟨input, hzone, hshipping⟩ := hquote
  have hexpected : (calculateQuote input).shipping.expectedCourierCost =
      input.zone.map (·.courierCost) := expectedCourierCost_eq _
  show (priceOrder s₀ req.toPlaceOrder customer now).quote.shipping.expectedCourierCost.getD 0 =
    req.zone.courierCost
  rw [hshipping, hexpected, hzone]
  rfl

/-- One order's row is changed; papers, cash and shipments are as before. -/
structure Changed (s : CourierDesk) (orderId : OrderId) (c : OrderChange) (hint : SyncHint)
    (o row : Order) (s' : CourierDesk) : Prop where
  found : Rows.lookup Order.id orderId s.orders = some o
  moved : c.row o = .ok (row, hint)
  orders : s'.orders = Rows.modify Order.id orderId (fun _ => row) s.orders
  docs : s'.books.docs = s.books.docs
  cash : s'.books.cash = s.books.cash
  shipments : s'.books.shipments = s.books.shipments
  settled : s'.settled = s.settled

theorem change_ok {orderId : OrderId} {c : OrderChange} {hint : SyncHint}
    (h : s.change orderId c = some (s', hint)) : ∃ o row, Changed s orderId c hint o row s' := by
  obtain ⟨⟨sources, hint'⟩, happly, heq⟩ := Option.map_eq_some_iff.mp h
  obtain ⟨rfl, rfl⟩ := Prod.mk.inj heq
  obtain ⟨o, row, payments, hl, hrow, -, rfl⟩ := OrderChange.apply_ok (Result.toOption_some.mp happly)
  exact ⟨o, row, hl, hrow, rfl, rfl, rfl, rfl, rfl⟩

/-- The shipments of an order are written, and its courier cost with them. -/
structure Billed (s : CourierDesk) (i : OrderId) (rows : List Shipment) (s' : CourierDesk) :
    Prop where
  shipments : s'.books.shipments = rows
  orders : s'.orders = match ShipmentsService.courierBill rows i with
    | none => s.orders
    | some bill => Rows.modify Order.id i (fun o => { o with courierCost := bill }) s.orders
  docs : s'.books.docs = s.books.docs
  cash : s'.books.cash = s.books.cash
  settled : s'.settled = s.settled

theorem billed_of_written {t : ShippingTables} {i : OrderId} {rows : List Shipment}
    (h : ShipmentsService.Written s.tables i rows t) : Billed s i rows (s.withTables t) :=
  ⟨h.shipments, h.orders, rfl, rfl, rfl⟩

theorem assign_ok {dto : AssignShipmentDto} (h : s.assign dto now = some s') :
    ∃ order courier, Rows.lookup Order.id dto.orderId s.orders = some order ∧
      ShipmentsService.findCourier s.tables dto.courier = some courier ∧
      order.status ≠ .cancelled ∧ order.status ≠ .returned ∧
      Billed s order.id (ShipmentsService.assignedRows s.tables order courier dto now) s' := by
  obtain ⟨t, hassign, rfl⟩ := Option.map_eq_some_iff.mp h
  obtain ⟨order, courier, hl, hcourier, hcancelled, hreturned, hw⟩ :=
    ShipmentsService.assign_ok (Result.toOption_some.mp hassign)
  exact ⟨order, courier, hl, hcourier, hcancelled, hreturned, billed_of_written hw⟩

theorem update_ok {id : ℕ} {dto : UpdateShipmentDto} (h : s.update id dto now = some s') :
    ∃ cur, Rows.lookup Shipment.id id s.books.shipments = some cur ∧
      Billed s cur.orderId
        (Rows.modify Shipment.id id (ShipmentsService.updated dto now) s.books.shipments) s' := by
  obtain ⟨t, hupdate, rfl⟩ := Option.map_eq_some_iff.mp h
  obtain ⟨cur, hl, hw⟩ := ShipmentsService.update_ok (Result.toOption_some.mp hupdate)
  exact ⟨cur, hl, billed_of_written hw⟩

/-- A call on the books leaves orders and shipments alone. -/
structure SameRows (s s' : CourierDesk) : Prop where
  orders : s'.orders = s.orders
  shipments : s'.books.shipments = s.books.shipments
  settled : s'.settled = s.settled

theorem sync_ok {orderId : OrderId} {hint : SyncHint} (h : s.sync orderId hint now = some s') :
    SameRows s s' ∧ ∃ r, syncIn s.shop.current orderId hint now = .ok (s'.books, r) := by
  obtain ⟨⟨b, r⟩, hsync, rfl⟩ := Option.map_eq_some_iff.mp h
  have hok := Result.toOption_some.mp hsync
  have hshipments : b.shipments = s.shop.current.shipments := syncIn_shipments hok
  exact ⟨⟨rfl, hshipments, rfl⟩, r, hok⟩

/-- The posting of a courier payment. -/
structure CourierEntry (order : Order) (amount : Money) (e : PostEntry) : Prop where
  direction : e.direction = .out
  kind : e.kind = .courierPayment
  amount : e.amount = amount
  orderId : e.orderId = some order.id
  single : e.transferGroupId = none
  original : e.reversesId = none

theorem courierPayment_ok {dto : CourierPaymentDto} (h : s.courierPayment dto now = some s') :
    ∃ order e, Rows.lookup Order.id dto.orderId s.orders = some order ∧ order.status ≠ .pending ∧
      CashLedger.has s.books.cash (CashbookService.courierMatch order.id) = false ∧
      CourierEntry order (dto.amount.getD order.courierCost) e ∧
      CashLedger.post s.books.cash e = .ok s'.books.cash ∧ SameRows s s' ∧
      s'.books.docs = s.books.docs := by
  obtain ⟨b, hpay, rfl⟩ := Option.map_eq_some_iff.mp h
  obtain ⟨at_, -, hpay⟩ := Result.bind_ok.mp (Result.toOption_some.mp hpay)
  split at hpay
  · cases hpay
  rename_i order hl
  split at hpay
  · cases hpay
  rename_i hpending
  split at hpay
  · cases hpay
  rename_i hhas
  simp only at hpay
  split at hpay
  · cases hpay
  obtain ⟨cash, hpost, hpay⟩ := Result.bind_ok.mp hpay
  obtain rfl := Except.ok.inj hpay
  exact ⟨order, _, hl, hpending, (Bool.not_eq_true _).mp hhas, ⟨rfl, rfl, rfl, rfl, rfl, rfl⟩, hpost,
    ⟨rfl, rfl, rfl⟩, rfl⟩

theorem reverse_ok {id : EntryId} {reason : String} {group : ℕ}
    (h : s.reverse id reason group now = some s') :
    CashbookService.reverse s.books.cash id reason group now = .ok s'.books.cash ∧ SameRows s s' ∧
      s'.books.docs = s.books.docs := by
  obtain ⟨cash, hrev, rfl⟩ := Option.map_eq_some_iff.mp h
  exact ⟨Result.toOption_some.mp hrev, ⟨rfl, rfl, rfl⟩, rfl⟩

end CourierDesk

end BookHouse
