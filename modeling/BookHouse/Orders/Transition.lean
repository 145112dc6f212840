/-
Applying the order state machine: `orders/application/order-transition.service.ts`.

`apply` is plan (pure) → version-checked update → stock effect → coupon and CRM
bookkeeping, all in the caller's transaction.  `reopen` brings a cancelled order back
as a fresh sale and reserves its stock again.
-/
import BookHouse.Inventory
import BookHouse.Orders.CouponLookup
import BookHouse.Orders.Status

namespace BookHouse

structure TransitionCommand where
  toStatus : OrderStatus
  mode : TransitionMode := .advance
  note : Option String := none
  credit : Option CreditInput := none
  expectedVersion : Option ℤ := none
deriving DecidableEq, Repr

structure OrderPaidEvent where
  orderId : OrderId
  amount : Money
  method : PaymentMethod
deriving DecidableEq, Repr

structure OrderStatusChangedEvent where
  orderId : OrderId
  fromStatus : OrderStatus
  toStatus : OrderStatus
  credit : Option CreditInput := none
deriving DecidableEq, Repr

/-- Everything to publish once the transaction has committed. -/
structure PendingEvents where
  statusChanged : OrderStatusChangedEvent
  paid : Option OrderPaidEvent := none
  lowStock : List LowStockHit := []
deriving DecidableEq, Repr

/-- The units an order holds or has taken, line by line. -/
def stockLinesOf (items : List OrderItem) : List StockLine :=
  items.flatMap fun i =>
    (match i.kind, i.productId with
      | .product, some id => [⟨id, i.quantity⟩]
      | _, _ => []) ++ i.components.map fun c => ⟨c.productId, c.quantity⟩

def Failure.versionConflict (details : List Detail := []) : Failure :=
  .conflict "order.version_conflict"
    "অর্ডারটি এইমাত্র অন্য কেউ বদলেছে — রিফ্রেশ করে আবার চেষ্টা করুন" details

def PlanRefusal.toFailure (r : PlanRefusal) (details : List Detail) : Failure :=
  .rule r.code r.message details

/-- `UPDATE orders SET … WHERE id AND version`, with the CHECKs of the table. -/
def updateOrder (s : Store) (id : OrderId) (version : ℤ) (f : Order → Order) :
    Except Failure Store :=
  match (Rows.lookup Order.id id s.orders).filter (·.version = version) with
  | none => .error .versionConflict
  | some o => do
      (f o).check
      return { s with orders := Rows.modify Order.id id f s.orders }

/-- The columns a transition sets. -/
def Order.transitioned (o : Order) (plan : TransitionPlan) (note : Option String)
    (now : Instant) : Order :=
  { o with
    status := plan.toStatus,
    confirmedAt := plan.set.confirmedAt.orElse fun _ => o.confirmedAt,
    shippedAt := plan.set.shippedAt.orElse fun _ => o.shippedAt,
    deliveredAt := plan.set.deliveredAt.orElse fun _ => o.deliveredAt,
    cancelledAt := plan.set.cancelledAt.orElse fun _ => o.cancelledAt,
    cancelledFrom := plan.set.cancelledFrom.orElse fun _ => o.cancelledFrom,
    stockReserved := plan.set.stockReserved.getD o.stockReserved,
    version := o.version + 1,
    cancelReason :=
      if plan.voids then (plan.credit.map (·.reason)).orElse fun _ => note else o.cancelReason,
    courierLoss := (plan.credit.map (·.courierLoss)).getD o.courierLoss,
    paymentStatus := if plan.markPaid then .paid else o.paymentStatus,
    amountPaid := if plan.markPaid then o.grandTotal else o.amountPaid,
    paidAt := if plan.markPaid then some now else o.paidAt }

/-- What leaving the open set and being voided do to the customer's counters. -/
def Customer.afterTransition (plan : TransitionPlan) (grandTotal : Money) (c : Customer) :
    Customer :=
  { c with
    liveOrders := if plan.closes then max (c.liveOrders - 1) 0 else c.liveOrders,
    cancelledOrders := if plan.voids then c.cancelledOrders + 1 else c.cancelledOrders,
    totalSpent := if plan.voids then c.totalSpent - grandTotal else c.totalSpent }

/-- The stock effect of a plan on the order's lines. -/
def applyStock (clamp : ℤ → ℤ) (s : Store) (effect : StockEffect) (lines : List StockLine)
    (ctx : StockContext) : Except Failure (Store × List LowStockHit) :=
  if lines = [] then .ok (s, [])
  else match effect with
    | .none => .ok (s, [])
    | .fulfil => Inventory.fulfill clamp s lines ctx
    | .release => (Inventory.release clamp s lines ctx).map fun s => (s, [])
    | .restock => (Inventory.restock s lines ctx).map fun s => (s, [])

/-- What a command asks of the state machine. -/
def TransitionCommand.request (cmd : TransitionCommand) (actor : TransitionActor)
    (now : Instant) : TransitionRequest :=
  { toStatus := cmd.toStatus, mode := cmd.mode, actor,
    credit := cmd.credit.map fun c => { c with courierLoss := round2 c.courierLoss }, now }

/-- Coupon and CRM bookkeeping of a transition. -/
def bookTransition (s : Store) (order : Order) (plan : TransitionPlan) (now : Instant) : Store :=
  let s := if plan.revokeCoupon then Coupons.revoke s order.id now else s
  let counters := Customer.afterTransition plan order.grandTotal
  { s with customers := Rows.modify Customer.id order.customerId counters s.customers }

structure Applied where
  orderId : OrderId
  plan : TransitionPlan
  events : PendingEvents
deriving DecidableEq, Repr

/-- What a transition of `order` returns to its caller. -/
def Applied.of (order : Order) (plan : TransitionPlan) (lowStock : List LowStockHit) : Applied :=
  { orderId := order.id, plan,
    events :=
      { statusChanged := { orderId := order.id, fromStatus := plan.fromStatus,
                           toStatus := plan.toStatus, credit := plan.credit },
        paid := if plan.markPaid then
            some { orderId := order.id, amount := order.grandTotal, method := order.paymentMethod }
          else none,
        lowStock } }

/-- Transition inside a caller's transaction. -/
def applyTransition (clamp : ℤ → ℤ) (s : Store) (ref : OrderId) (cmd : TransitionCommand)
    (actor : TransitionActor) (now : Instant) : Except Failure (Store × Applied) :=
  match Rows.lookup Order.id ref s.orders with
  | none => .error (.notFound "Order" (toString ref))
  | some order =>
    if cmd.expectedVersion.any (· ≠ order.version) then
      .error (.versionConflict [.num "version" order.version])
    else
      match planTransition order (cmd.request actor now) with
      | .error r => .error (r.toFailure [.status "from" order.status, .status "to" cmd.toStatus])
      | .ok plan => do
        let s ← updateOrder s order.id order.version
          fun o => o.transitioned plan cmd.note now
        let (s, lowStock) ← applyStock clamp s plan.stock (stockLinesOf order.items)
          { orderId := some order.id, now }
        return (bookTransition s order plan now, Applied.of order plan lowStock)

/-- One step back (PROCESSING → CONFIRMED), target derived from the current status. -/
def regress (clamp : ℤ → ℤ) (s : Store) (ref : OrderId) (note : Option String)
    (expectedVersion : Option ℤ) (actor : TransitionActor) (now : Instant) :
    Except Failure (Store × Applied) :=
  match Rows.lookup Order.id ref s.orders with
  | none => .error (.notFound "Order" (toString ref))
  | some cur =>
      match cur.status.regressTarget with
      | none => .error (.rule "order.regress_not_allowed" "এই ধাপ থেকে আগের ধাপে ফেরানো যায় না")
      | some target =>
          applyTransition clamp s ref { toStatus := target, mode := .regress, note, expectedVersion }
            actor now

structure ReopenCommand where
  reason : String
  toStatus : Option ReopenTarget := none
  expectedVersion : Option ℤ := none
deriving DecidableEq, Repr

/-- The columns a reopen sets: the order starts over. -/
def Order.reopened (o : Order) (target : ReopenTarget) (now : Instant) : Order :=
  { o with
    status := target.status, version := o.version + 1,
    cancelledAt := none, cancelReason := none, cancelledFrom := none, courierLoss := 0,
    shippedAt := none, deliveredAt := none,
    confirmedAt := if target = .confirmed then some now else none,
    stockReserved := true }

def Customer.afterReopen (grandTotal : Money) (c : Customer) : Customer :=
  { c with liveOrders := c.liveOrders + 1, totalSpent := c.totalSpent + grandTotal,
           cancelledOrders := max (c.cancelledOrders - 1) 0 }

/-- Coupon and CRM bookkeeping of a reopen. -/
def bookReopen (s : Store) (order : Order) : Store :=
  let s := Coupons.restore s order.id
  let counters := Customer.afterReopen order.grandTotal
  { s with customers := Rows.modify Customer.id order.customerId counters s.customers }

/-- Hold the lines of a reopened order again. -/
def holdStock (s : Store) (lines : List StockLine) (ctx : StockContext) : Except Failure Store :=
  if lines = [] then .ok s else Inventory.reserve s lines ctx

/--
Bring a cancelled or returned order back.  Re-reserves stock (fails if it is gone),
counts the coupon again, fixes the CRM counters and clears the cancel fields.
-/
def reopen (s : Store) (ref : OrderId) (cmd : ReopenCommand) (actor : TransitionActor)
    (now : Instant) : Except Failure (Store × OrderStatusChangedEvent) :=
  match Rows.lookup Order.id ref s.orders with
  | none => .error (.notFound "Order" (toString ref))
  | some order =>
    if cmd.expectedVersion.any (· ≠ order.version) then
      .error (.versionConflict [.num "version" order.version])
    else
      match planReopen order { toStatus := cmd.toStatus, reason := cmd.reason, actor } with
      | .error r => .error (r.toFailure [.status "status" order.status])
      | .ok plan => do
        let s ← updateOrder s order.id order.version fun o => o.reopened plan.toStatus now
        let s ← holdStock s (stockLinesOf order.items) { orderId := some order.id, now }
        return (bookReopen s order,
          { orderId := order.id, fromStatus := plan.fromStatus, toStatus := plan.toStatus.status })

end BookHouse
