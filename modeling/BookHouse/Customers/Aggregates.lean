/-
A customer's CRM numbers: `customers/domain/customer-stats.ts` and
`customers/application/customer-aggregates.service.ts`.

The order services keep the numbers by increments; `recompute` writes them afresh from the
customer's orders, under a lock on the customer's row, at whatever moment a listener or the
admin asks for it.
-/
import BookHouse.Orders.StockMachine

namespace BookHouse

namespace OrderStatus

/-- Purchases that count (confirmed, not cancelled/returned).  Pending is not a purchase yet. -/
def isLiveStatus : OrderStatus → Bool
  | confirmed | processing | handedToCourier | outForDelivery | delivered => true
  | _ => false

/-- Orders that went bad. -/
def isCancelledStatus : OrderStatus → Bool
  | cancelled | returned => true
  | _ => false

end OrderStatus

structure OrderFact where
  status : OrderStatus
  grandTotal : Money
  placedAt : Instant
deriving DecidableEq, Repr

structure CustomerAggregates where
  ordersCount : ℤ := 0
  liveOrders : ℤ := 0
  cancelledOrders : ℤ := 0
  totalSpent : Money := 0
  firstOrderAt : Option Instant := none
  lastOrderAt : Option Instant := none
deriving DecidableEq, Repr

namespace CustomerAggregates

/-- One round of the loop over the orders. -/
def add (agg : CustomerAggregates) (o : OrderFact) : CustomerAggregates :=
  { agg with
    liveOrders := if o.status.isLiveStatus then agg.liveOrders + 1 else agg.liveOrders,
    totalSpent := if o.status.isLiveStatus then agg.totalSpent + o.grandTotal else agg.totalSpent,
    cancelledOrders := if o.status.isLiveStatus then agg.cancelledOrders
      else if o.status.isCancelledStatus then agg.cancelledOrders + 1 else agg.cancelledOrders,
    firstOrderAt := if agg.firstOrderAt.all (o.placedAt < ·) then some o.placedAt
      else agg.firstOrderAt,
    lastOrderAt := if agg.lastOrderAt.all (· < o.placedAt) then some o.placedAt
      else agg.lastOrderAt }

end CustomerAggregates

/-- Recompute a customer's cached CRM numbers from their orders. -/
def aggregateOrders (orders : List OrderFact) : CustomerAggregates :=
  let agg := orders.foldl CustomerAggregates.add {}
  { agg with ordersCount := orders.length, totalSpent := round2 agg.totalSpent }

def Order.fact (o : Order) : OrderFact :=
  { status := o.status, grandTotal := o.grandTotal, placedAt := o.placedAt }

/-- The orders of a customer, as the recompute reads them. -/
def Store.factsOf (s : Store) (customerId : CustomerId) : List OrderFact :=
  (s.orders.filter (·.customerId = customerId)).map Order.fact

def Customer.withAggregates (agg : CustomerAggregates) (c : Customer) : Customer :=
  { c with ordersCount := agg.ordersCount, liveOrders := agg.liveOrders,
           cancelledOrders := agg.cancelledOrders, totalSpent := agg.totalSpent,
           firstOrderAt := agg.firstOrderAt, lastOrderAt := agg.lastOrderAt }

/-- Lock the customer, read their orders, write the numbers. -/
def recompute (s : Store) (customerId : CustomerId) : Store :=
  match Rows.lookup Customer.id customerId s.customers with
  | none => s
  | some _ =>
      let write := Customer.withAggregates (aggregateOrders (s.factsOf customerId))
      { s with customers := Rows.modify Customer.id customerId write s.customers }

/-- A committed call of the shop, or a recompute between two of them. -/
inductive CrmAction
  | call (a : StockAction)
  | recompute (customerId : CustomerId)
deriving DecidableEq, Repr

def crmStep (s : Store) : CrmAction → Option Store
  | .call a => stockStep clampZero s a
  | .recompute customerId => some (recompute s customerId)

/-- The calls of a run without the recomputes. -/
def callsOf (as : List CrmAction) : List StockAction :=
  as.filterMap fun
    | .call a => some a
    | .recompute _ => none

end BookHouse
