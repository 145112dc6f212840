/-
What the courier is owed and what it collects: `courierPayment` and `payables` of
`finance/cashbook/application/cashbook.service.ts`, over the orders, their shipments, their
papers and the cashbook.

An invoice freezes the courier cost of its order; a payment takes the cost as it stands.
The COD of an order is booked once, and settled shipment by shipment.  `settled` remembers
the orders whose shipments a settlement named: no table of the shop does.
-/
import BookHouse.Finance.Purchasing
import BookHouse.Finance.ReversalDesk
import BookHouse.Finance.ShopMachine
import BookHouse.Orders.Shipments

namespace BookHouse

/-! ### The courier's due -/

/-- What a paper adds to the courier's bill. -/
def FinancialDocument.courierAccrual (d : FinancialDocument) : Money :=
  if d.kind = .invoice then d.shippingCost
  else if d.kind = .creditNote && d.reverseCourier then -d.shippingCost
  else 0

/-- What an entry pays the courier. -/
def CashTransaction.courierPaid (e : CashTransaction) : Money :=
  if e.kind = .courierPayment then
    match e.direction with
    | .out => e.amount
    | .in_ => -e.amount
  else 0

structure Payables where
  supplierDue : Money
  courierDue : Money
deriving DecidableEq, Repr

structure CourierPaymentDto where
  orderId : OrderId
  accountId : AccountId
  amount : Option Money := none
  memo : Option String := none
  /-- what `parseWhen` makes of the text -/
  occurredAt : Option Instant
deriving DecidableEq, Repr

namespace CashbookService

def payables (purchases : List Purchase) (b : Books) : Payables :=
  let accrued := (b.docs.map (·.courierAccrual)).sum
  let paid := (b.cash.entries.map (·.courierPaid)).sum
  { supplierDue := ((purchases.filter (·.status ≠ .cancelled)).map fun p => p.total - p.amountPaid).sum,
    courierDue := if accrued - paid < 0 then 0 else accrued - paid }

/-- The live payment of an order's courier, as the ledger is asked for it. -/
def courierMatch (orderId : OrderId) : CashLedger.Match :=
  { orderId := some orderId, kind := .courierPayment, direction := some .out }

/-- Pay the courier for one order. -/
def courierPayment (b : Books) (dto : CourierPaymentDto) (now : Instant) : Except Failure Books := do
  let occurredAt ← when_ dto.occurredAt now
  match Rows.lookup Order.id dto.orderId b.orders with
  | none => .error (.notFound "Order" (toString dto.orderId))
  | some order =>
    if order.status = .pending then
      .error (.rule "cash.courier_order_pending" "অর্ডার এখনো নিশ্চিত হয়নি")
    else if CashLedger.has b.cash (courierMatch order.id) then
      .error (.conflict "cash.courier_already_paid"
        (order.orderNo ++ " — কুরিয়ার আগেই পরিশোধ হয়েছে"))
    else
      let amount := dto.amount.getD order.courierCost
      if amount ≤ 0 then
        .error (.rule "cash.courier_cost_missing"
          "এই অর্ডারে কুরিয়ার খরচ নেই — টাকার পরিমাণ দিন")
      else do
        let cash ← CashLedger.post b.cash
          { account := .accountId dto.accountId, direction := .out, kind := .courierPayment,
            amount, memo := (DocumentIssuer.firstText [dto.memo]).getD ("কুরিয়ার " ++ order.orderNo),
            orderId := some order.id, occurredAt }
        return { b with cash }

end CashbookService

/-! ### The desk -/

/-- A checkout request whose zone is a row of `shipping_zones`. -/
structure ZonedOrder extends CatalogueOrder where
  zoneCost : round2 zone.courierCost = zone.courierCost
deriving DecidableEq, Repr

structure CourierDesk where
  shop : ShopState := {}
  couriers : List Courier := []
  zones : List ShippingZone := []
  settled : List OrderId := []
deriving DecidableEq, Repr

namespace CourierDesk

def orders (s : CourierDesk) : List Order := s.shop.store.orders

def books (s : CourierDesk) : Books := s.shop.books

def tables (s : CourierDesk) : ShippingTables :=
  { orders := s.orders, shipments := s.books.shipments, couriers := s.couriers, zones := s.zones }

/-- The orders and shipments as a call of the shipping module left them. -/
def withTables (s : CourierDesk) (t : ShippingTables) : CourierDesk :=
  { s with shop :=
    { store := { s.shop.store with orders := t.orders },
      books := { s.shop.books with shipments := t.shipments } } }

def withBooks (s : CourierDesk) (books : Books) : CourierDesk :=
  { s with shop := { s.shop with books } }

/-- One change of an order's history, with the hint of its event. -/
def change (s : CourierDesk) (orderId : OrderId) (c : OrderChange) :
    Option (CourierDesk × SyncHint) :=
  ((c.apply s.shop.current.toPaperSources orderId).toOption).map fun r =>
    ({ s with shop := s.shop.withSources r.1 }, r.2)

def place (s : CourierDesk) (req : ZonedOrder) (now : Instant) : Option CourierDesk :=
  ((placeInTx s.shop.store req.toPlaceOrder now).toOption).map fun r =>
    { s with shop := { s.shop with store := r.1 } }

def assign (s : CourierDesk) (dto : AssignShipmentDto) (now : Instant) : Option CourierDesk :=
  ((ShipmentsService.assign s.tables dto now).toOption).map s.withTables

def update (s : CourierDesk) (id : ℕ) (dto : UpdateShipmentDto) (now : Instant) :
    Option CourierDesk :=
  ((ShipmentsService.update s.tables id dto now).toOption).map s.withTables

def sync (s : CourierDesk) (orderId : OrderId) (hint : SyncHint) (now : Instant) :
    Option CourierDesk :=
  ((DocumentIssuer.syncIn s.shop.current orderId hint now).toOption).map fun r => s.withBooks r.1

def courierPayment (s : CourierDesk) (dto : CourierPaymentDto) (now : Instant) :
    Option CourierDesk :=
  ((CashbookService.courierPayment s.shop.current dto now).toOption).map s.withBooks

def reverse (s : CourierDesk) (id : EntryId) (reason : String) (group : ℕ) (now : Instant) :
    Option CourierDesk :=
  ((CashbookService.reverse s.books.cash id reason group now).toOption).map fun cash =>
    s.withBooks { s.books with cash }

/-- The shipments a settlement names. -/
def named (s : CourierDesk) (dto : CodRemittanceDto) : List Shipment :=
  s.books.shipments.filter (·.id ∈ dto.shipmentIds)

def codRemittance (s : CourierDesk) (dto : CodRemittanceDto) (group : ℕ) (now : Instant) :
    Option CourierDesk :=
  ((CashbookService.codRemittance s.shop.current dto group now).toOption).map fun books =>
    { s.withBooks books with settled := s.settled ++ (s.named dto).map (·.orderId) }

end CourierDesk

/-! ### The COD, call by call -/

inductive CodAction
  | place (req : ZonedOrder) (now : Instant)
  | change (orderId : OrderId) (c : OrderChange)
  | assign (dto : AssignShipmentDto) (now : Instant)
  | update (id : ℕ) (dto : UpdateShipmentDto) (now : Instant)
  | sync (orderId : OrderId) (hint : SyncHint) (now : Instant)
  | courierPayment (dto : CourierPaymentDto) (now : Instant)
  | reverse (id : EntryId) (reason : String) (group : ℕ) (now : Instant)
  | codRemittance (dto : CodRemittanceDto) (group : ℕ) (now : Instant)
  /-- a posting of another flow -/
  | post (e : PostEntry)
  /-- couriers and zones as the admin leaves them -/
  | settings (couriers : List Courier) (zones : List ShippingZone)
deriving DecidableEq, Repr

/-- One committed call. -/
def codStep (s : CourierDesk) : CodAction → Option CourierDesk
  | .place req now => s.place req now
  | .change orderId c => (s.change orderId c).map Prod.fst
  | .assign dto now => s.assign dto now
  | .update id dto now => s.update id dto now
  | .sync orderId hint now => s.sync orderId hint now
  | .courierPayment dto now => s.courierPayment dto now
  | .reverse id reason group now => s.reverse id reason group now
  | .codRemittance dto group now => s.codRemittance dto group now
  | .post e =>
      if BooksAction.otherFlow e then
        ((CashLedger.post s.books.cash e).toOption).map fun cash =>
          s.withBooks { s.books with cash }
      else none
  | .settings couriers zones => some { s with couriers, zones }

/-! ### The courier's bill, with the papers drawn after every change -/

inductive DuesAction
  | place (req : ZonedOrder) (now : Instant)
  | change (orderId : OrderId) (c : OrderChange) (now : Instant)
  | assign (dto : AssignShipmentDto) (now : Instant)
  | update (id : ℕ) (dto : UpdateShipmentDto) (now : Instant)
  /-- `courierPayment` without an amount -/
  | pay (orderId : OrderId) (accountId : AccountId) (memo : Option String)
      (occurredAt : Option Instant) (now : Instant)
  /-- a payment of the courier is reversed -/
  | reverse (id : EntryId) (reason : String) (group : ℕ) (now : Instant)
  | settings (couriers : List Courier) (zones : List ShippingZone)
deriving DecidableEq, Repr

/-- A change of the row, a payment or an attempt; not one that opens the order again. -/
def OrderChange.reopens : OrderChange → Bool
  | .reopen .. => true
  | _ => false

def CourierDesk.isCourierPayment (s : CourierDesk) (id : EntryId) : Bool :=
  (Rows.lookup CashTransaction.id id s.books.cash.entries).any (·.kind = .courierPayment)

/-- One call, and the run of the issuer that follows it. -/
def duesStep (s : CourierDesk) : DuesAction → Option CourierDesk
  | .place req now => (s.place req now).bind fun s' => s'.sync s.orders.length {} now
  | .change orderId c now =>
      if c.reopens then none
      else (s.change orderId c).bind fun r => r.1.sync orderId r.2 now
  | .assign dto now => (s.assign dto now).bind fun s' => s'.sync dto.orderId {} now
  | .update id dto now =>
      (Rows.lookup Shipment.id id s.books.shipments).bind fun cur =>
        (s.update id dto now).bind fun s' => s'.sync cur.orderId {} now
  | .pay orderId accountId memo occurredAt now =>
      s.courierPayment { orderId, accountId, memo, occurredAt } now
  | .reverse id reason group now =>
      if s.isCourierPayment id then s.reverse id reason group now else none
  | .settings couriers zones => some { s with couriers, zones }

end BookHouse
