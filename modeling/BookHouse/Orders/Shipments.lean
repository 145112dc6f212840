/-
Courier consignments: `orders/shipping/application/shipments.service.ts`.

An order has at most one shipment that is neither cancelled nor returned.  Assigning the same
courier again updates it in place; another courier's cancels it and starts a new one, which
carries the order's COD anew.  After either call the actual courier bill flows into
`orders.courier_cost`.
-/
import BookHouse.Finance.DocumentIssuer
import BookHouse.Finance.Purchasing
import BookHouse.Orders.Shipping

namespace BookHouse

structure Courier where
  id : ℕ
  code : String
  name : String
  isActive : Bool := true
deriving DecidableEq, Repr

/-- An amount as the requests and the `Decimal(12, 2)` columns have it: `@Min(0)`, two places. -/
structure Charge where
  amount : Money
  nonneg : 0 ≤ amount
  places : round2 amount = amount
deriving Repr

instance : DecidableEq Charge := fun a b =>
  decidable_of_iff (a.amount = b.amount)
    ⟨fun h => by cases a; cases b; cases h; rfl, congrArg Charge.amount⟩

/-- A row of `shipping_zones`. -/
structure ShippingZone extends ZoneInfo where
  nonneg : 0 ≤ courierCost
  places : round2 courierCost = courierCost
deriving DecidableEq, Repr

/-- The tables a shipment is assigned over. -/
structure ShippingTables where
  orders : List Order := []
  shipments : List Shipment := []
  couriers : List Courier := []
  zones : List ShippingZone := []
deriving DecidableEq, Repr

/-- `CLOSED` -/
def ShipmentStatus.isClosed : ShipmentStatus → Bool
  | .cancelled | .returned => true
  | _ => false

inductive CourierRef
  | id (id : ℕ)
  | code (code : String)
deriving DecidableEq, Repr

structure AssignShipmentDto where
  orderId : OrderId
  courier : CourierRef
  trackingNo : Option String := none
  consignmentId : Option String := none
  deliveryCharge : Option Charge := none
  weightGrams : Option ℕ := none
deriving DecidableEq, Repr

/-- A field that is left out stays as it is; a text may be set to `null`. -/
structure UpdateShipmentDto where
  status : Option ShipmentStatus := none
  codStatus : Option CodStatus := none
  deliveryCharge : Option Charge := none
  returnCharge : Option Charge := none
  trackingNo : Option (Option String) := none
  consignmentId : Option (Option String) := none
deriving DecidableEq, Repr

namespace ShipmentsService

/-- A text is given when it is there and not empty. -/
def given (text : Option String) : Bool := text.any (· ≠ "")

def findCourier (t : ShippingTables) : CourierRef → Option Courier
  | .id id => Rows.lookup Courier.id id t.couriers
  | .code code => Rows.lookup Courier.code code.toLower t.couriers

/-- The shipment of an order that is still on its way. -/
def active (t : ShippingTables) (orderId : OrderId) : Option Shipment :=
  t.shipments.find? fun s => s.orderId = orderId && !s.status.isClosed

/-- What the courier has to collect of an order. -/
def codDue (order : Order) : Money :=
  if order.paymentStatus = .unpaid then round2 (order.grandTotal - order.amountPaid) else 0

/-- The same courier again. -/
def reassigned (dto : AssignShipmentDto) (now : Instant) (s : Shipment) : Shipment :=
  let books := given dto.trackingNo && s.bookedAt.isNone
  { s with
    trackingNo := dto.trackingNo.orElse fun _ => s.trackingNo,
    consignmentId := dto.consignmentId.orElse fun _ => s.consignmentId,
    deliveryCharge := (dto.deliveryCharge.map (·.amount)).getD s.deliveryCharge,
    weightGrams := dto.weightGrams.orElse fun _ => s.weightGrams,
    status := if books then .booked else s.status,
    bookedAt := if books then some now else s.bookedAt }

def newShipment (id : ℕ) (order : Order) (courier : Courier) (zone : Option ShippingZone)
    (dto : AssignShipmentDto) (now : Instant) : Shipment :=
  { id, orderId := order.id, courierId := courier.id,
    trackingNo := dto.trackingNo, consignmentId := dto.consignmentId,
    status := if given dto.trackingNo then .booked else .pending,
    bookedAt := if given dto.trackingNo then some now else none,
    deliveryCharge :=
      (dto.deliveryCharge.map (·.amount)).getD ((zone.map (·.courierCost)).getD 0),
    weightGrams := dto.weightGrams,
    codAmount := if 0 < codDue order then codDue order else 0,
    codStatus := if 0 < codDue order then .pending else .notApplicable }

def cancelled (s : Shipment) : Shipment := { s with status := .cancelled }

/-- The shipments after an assignment: the same courier updates in place, another one takes over. -/
def assignedRows (t : ShippingTables) (order : Order) (courier : Courier)
    (dto : AssignShipmentDto) (now : Instant) : List Shipment :=
  let zone := t.zones.find? (·.code = order.shipZoneCode)
  let new := newShipment t.shipments.length order courier zone dto now
  match active t order.id with
  | none => t.shipments ++ [new]
  | some s =>
    if s.courierId = courier.id then
      Rows.modify Shipment.id s.id (reassigned dto now) t.shipments
    else Rows.modify Shipment.id s.id cancelled t.shipments ++ [new]

/-- The unique indexes of the table. -/
def checkIndexes (rows : List Shipment) : Except Failure Unit :=
  if ¬ rows.Pairwise fun r s =>
      ¬ (r.trackingNo.isSome ∧ r.courierId = s.courierId ∧ r.trackingNo = s.trackingNo) then
    .error (.unique "shipments_courier_id_tracking_no_key")
  else if ¬ rows.Pairwise fun r s =>
      ¬ (r.orderId = s.orderId ∧ r.status.isClosed = false ∧ s.status.isClosed = false) then
    .error (.unique "shipments_one_active")
  else .ok ()

/-- Σ (delivery + return charge) of the order's shipments that were not cancelled, if any. -/
def courierBill (rows : List Shipment) (orderId : OrderId) : Option Money :=
  let counted := rows.filter fun s => s.orderId = orderId && s.status ≠ .cancelled
  if counted = [] then none
  else some (counted.flatMap fun s => [s.deliveryCharge, s.returnCharge]).sum

/-- orders.courier_cost = what the shipments come to; unchanged when there are none. -/
def syncCourierCost (t : ShippingTables) (orderId : OrderId) : ShippingTables :=
  match courierBill t.shipments orderId with
  | none => t
  | some bill =>
      let billed (o : Order) : Order := { o with courierCost := bill }
      { t with orders := Rows.modify Order.id orderId billed t.orders }

/-- The order that a courier's tracking number is already on. -/
def trackingTaken (t : ShippingTables) (order : Order) (courier : Courier)
    (dto : AssignShipmentDto) : Option Shipment :=
  if given dto.trackingNo then
    t.shipments.find? fun s =>
      s.courierId = courier.id && s.trackingNo = dto.trackingNo && s.orderId ≠ order.id
  else none

def orderNoIn (t : ShippingTables) (orderId : OrderId) : String :=
  ((Rows.lookup Order.id orderId t.orders).map (·.orderNo)).getD ""

/-- Write the shipments of an order, and what they cost. -/
def write (t : ShippingTables) (orderId : OrderId) (shipments : List Shipment) :
    Except Failure ShippingTables := do
  checkIndexes shipments
  return syncCourierCost { t with shipments } orderId

/-- Assign courier + tracking. -/
def assign (t : ShippingTables) (dto : AssignShipmentDto) (now : Instant) :
    Except Failure ShippingTables :=
  match Rows.lookup Order.id dto.orderId t.orders with
  | none => .error (.notFound "Order" (toString dto.orderId))
  | some order =>
    if order.status = .cancelled || order.status = .returned then
      .error (.rule "shipment.order_closed" "বাতিল/ফেরত অর্ডারে কুরিয়ার দেওয়া যায় না")
    else
      match findCourier t dto.courier with
      | none => .error (.notFound "Courier" (match dto.courier with
          | .id id => toString id
          | .code code => code))
      | some courier =>
        if !courier.isActive then .error (.rule "courier.inactive" "এই কুরিয়ার বন্ধ করা আছে")
        else
          match trackingTaken t order courier dto with
          | some dup => .error (.conflict "shipment.tracking_taken"
              s!"এই ট্র্যাকিং নম্বর {orderNoIn t dup.orderId}-এ আছে")
          | none => write t order.id (assignedRows t order courier dto now)

/-- The date a status stamps, the first time only. -/
def stamped (status : ShipmentStatus) (now : Instant) (s : Shipment) : Shipment :=
  match status with
  | .booked => { s with bookedAt := s.bookedAt.orElse fun _ => some now }
  | .pickedUp => { s with pickedUpAt := s.pickedUpAt.orElse fun _ => some now }
  | .delivered => { s with deliveredAt := s.deliveredAt.orElse fun _ => some now }
  | .returned => { s with returnedAt := s.returnedAt.orElse fun _ => some now }
  | _ => s

/-- The dates of the COD, the first time only. -/
def codStamped (codStatus : CodStatus) (now : Instant) (s : Shipment) : Shipment :=
  match codStatus with
  | .collected => { s with codCollectedAt := s.codCollectedAt.orElse fun _ => some now }
  | .remitted =>
      { s with codRemittedAt := s.codRemittedAt.orElse fun _ => some now,
               codCollectedAt := s.codCollectedAt.orElse fun _ => some now }
  | _ => s

def updated (dto : UpdateShipmentDto) (now : Instant) (s : Shipment) : Shipment :=
  let s := match dto.status with
    | none => s
    | some status => stamped status now { s with status }
  let s := match dto.codStatus with
    | none => s
    | some codStatus => codStamped codStatus now { s with codStatus }
  { s with
    deliveryCharge := (dto.deliveryCharge.map (·.amount)).getD s.deliveryCharge,
    returnCharge := (dto.returnCharge.map (·.amount)).getD s.returnCharge,
    trackingNo := dto.trackingNo.getD s.trackingNo,
    consignmentId := dto.consignmentId.getD s.consignmentId }

def update (t : ShippingTables) (id : ℕ) (dto : UpdateShipmentDto) (now : Instant) :
    Except Failure ShippingTables :=
  match Rows.lookup Shipment.id id t.shipments with
  | none => .error (.notFound "Shipment" (toString id))
  | some cur =>
    if cur.status.isClosed && dto.status.any (· ≠ cur.status) then
      .error (.rule "shipment.closed" "বাতিল/ফেরত শিপমেন্টের স্ট্যাটাস বদলানো যায় না")
    else if dto.codStatus.any (· ≠ .notApplicable) && cur.codAmount = 0 then
      .error (.rule "shipment.no_cod" "এই শিপমেন্টে COD নেই")
    else write t cur.orderId (Rows.modify Shipment.id id (updated dto now) t.shipments)

end ShipmentsService

end BookHouse
