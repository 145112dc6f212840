/-
The rows the modelled services read and write, as `prisma/schema.prisma` has them.

A table is a list of rows and a `Store` is the tables of one database.  What a service
does in a transaction is a function from a store to a new store or a failure; a
failure leaves nothing behind, so a failed transaction has no store to return.
-/
import BookHouse.Lib.Rows
import BookHouse.Orders.Quote

namespace BookHouse

abbrev OrderId := ℕ
abbrev CustomerId := ℕ
abbrev PurchaseId := ℕ
abbrev LotId := ℕ

inductive OrderStatus
  | pending | confirmed | processing | handedToCourier | outForDelivery | delivered
  | cancelled | returned
deriving DecidableEq, Repr

inductive OrderPaymentStatus
  | unpaid | paid | partiallyRefunded | refunded
deriving DecidableEq, Repr

inductive PaymentMethod
  | cod | sslcommerz | bkash | nagad | bankTransfer | cash
deriving DecidableEq, Repr

inductive OrderSource
  | web | admin | phone | social
deriving DecidableEq, Repr

inductive StockMovementType
  | opening | purchaseReceipt | orderReserve | orderRelease | orderFulfill | returnRestock
  | adjustment | damage | writeOff
deriving DecidableEq, Repr

inductive LotSource
  | opening | purchase | restock | return | adjust
deriving DecidableEq, Repr

/-! ### Failures -/

inductive Detail
  | num (name : String) (value : ℤ)
  | money (name : String) (value : Money)
  | status (name : String) (value : OrderStatus)
  | field (path : String)
  | coupon (details : RejectionDetails)
deriving DecidableEq, Repr

/-- Why a service call failed: a domain error, or the database's refusal. -/
inductive Failure
  /-- `BusinessRuleError` -/
  | rule (code message : String) (details : List Detail := [])
  /-- `ConflictError` -/
  | conflict (code message : String) (details : List Detail := [])
  /-- `NotFoundError` -/
  | notFound (entity : String) (id : String)
  /-- a CHECK constraint -/
  | check (constraint : String)
  /-- a unique index (P2002) -/
  | unique (index : String)
deriving DecidableEq, Repr

/-! ### Stock -/

structure Product where
  id : ProductId
  title : String := ""
  price : Money := 0
  costPrice : Option Money := none
  stockOnHand : ℤ := 0
  stockReserved : ℤ := 0
  trackInventory : Bool := true
  allowBackorder : Bool := false
  soldCount : ℤ := 0
  initialCopies : Option ℤ := none
  lowStockThreshold : Option ℤ := none
  deletedAt : Option Instant := none
deriving DecidableEq, Repr

/-- The CHECKs on the stock columns of a product. -/
def Product.check (p : Product) : Except Failure Unit :=
  if p.stockOnHand < 0 || p.stockReserved < 0 then .error (.check "products_stock_nonneg")
  else if !p.allowBackorder && p.stockOnHand < p.stockReserved then
    .error (.check "products_reserved_lte_hand")
  else .ok ()

/-- One append-only ledger row of a stock change. -/
structure StockMovement where
  productId : ProductId
  type : StockMovementType
  qtyOnHandDelta : ℤ
  qtyReservedDelta : ℤ := 0
  unitCost : Option Money := none
  /-- on-hand after this move -/
  balanceAfter : ℤ
  orderId : Option OrderId := none
  purchaseId : Option PurchaseId := none
deriving DecidableEq, Repr

/-- One batch on the shelf, with what it cost. -/
structure StockLot where
  id : LotId
  productId : ProductId
  source : LotSource
  qtyIn : ℤ
  qtyLeft : ℤ
  unitCost : Option Money := none
  salePrice : Option Money := none
  purchaseId : Option PurchaseId := none
  receivedAt : Instant
  createdAt : Instant
deriving DecidableEq, Repr

/-- What one order took from one batch. -/
structure StockLotConsumption where
  id : ℕ
  lotId : LotId
  productId : ProductId
  orderId : OrderId
  qty : ℤ
  unitCost : Option Money
  returned : ℤ := 0
  createdAt : Instant
deriving DecidableEq, Repr

/-! ### Orders -/

structure OrderItemComponent where
  productId : ProductId
  title : String := ""
  quantity : ℤ
  unitCost : Option Money := none
  allocatedRevenue : Money := 0
deriving DecidableEq, Repr

structure OrderItem where
  kind : LineKind
  productId : Option ProductId := none
  bundleId : Option BundleId := none
  title : String := ""
  sku : Option String := none
  sectionCode : String := ""
  categoryName : Option String := none
  quantity : ℤ
  unitPrice : Money := 0
  listPrice : Money := 0
  unitCost : Option Money := none
  discount : Money := 0
  taxAmount : Money := 0
  lineTotal : Money := 0
  components : List OrderItemComponent := []
deriving DecidableEq, Repr

structure Order where
  id : OrderId
  orderNo : String := ""
  customerId : CustomerId := 0
  source : OrderSource := .web
  status : OrderStatus := .pending
  paymentMethod : PaymentMethod
  paymentStatus : OrderPaymentStatus := .unpaid
  contactName : String := ""
  contactPhone : String := ""
  shipDivision : String := ""
  shipDistrict : String := ""
  shipUpazila : Option String := none
  shipUnion : Option String := none
  shipLine : String := ""
  shipZoneCode : String := ""
  itemsSubtotal : Money := 0
  discountTotal : Money := 0
  couponCode : Option String := none
  shippingFee : Money := 0
  shippingFeeReason : Option String := none
  taxTotal : Money := 0
  grandTotal : Money := 0
  amountPaid : Money := 0
  amountRefunded : Money := 0
  itemsCost : Option Money := none
  courierCost : Money := 0
  gatewayFee : Money := 0
  courierLoss : Money := 0
  stockReserved : Bool := false
  cancelReason : Option String := none
  /-- stage at which it was cancelled -/
  cancelledFrom : Option OrderStatus := none
  placedAt : Instant := 0
  confirmedAt : Option Instant := none
  shippedAt : Option Instant := none
  deliveredAt : Option Instant := none
  cancelledAt : Option Instant := none
  paidAt : Option Instant := none
  /-- optimistic lock: UPDATE … WHERE version = n -/
  version : ℤ := 0
  items : List OrderItem := []
deriving DecidableEq, Repr

/-- The CHECKs on the amounts and the cancel date of an order. -/
def Order.check (o : Order) : Except Failure Unit :=
  if o.itemsSubtotal < 0 || o.discountTotal < 0 || o.shippingFee < 0 || o.taxTotal < 0 ||
      o.grandTotal < 0 || o.amountPaid < 0 || o.amountRefunded < 0 || o.courierCost < 0 ||
      o.gatewayFee < 0 || o.courierLoss < 0 then
    .error (.check "orders_amounts_nonneg")
  else if o.itemsSubtotal < o.discountTotal then .error (.check "orders_discount_lte_subtotal")
  else if o.grandTotal ≠ o.itemsSubtotal - o.discountTotal + o.shippingFee + o.taxTotal then
    .error (.check "orders_total_math")
  else if o.amountPaid < o.amountRefunded then .error (.check "orders_refund_lte_paid")
  else if (o.status = .cancelled || o.status = .returned) && o.cancelledAt.isNone then
    .error (.check "orders_cancel_reason")
  else .ok ()

/-- The CHECKs on the lines of an order. -/
def OrderItem.check (i : OrderItem) : Except Failure Unit :=
  if (i.kind == .product) != (i.productId.isSome && i.bundleId.isNone) ||
      (i.kind == .bundle) != (i.bundleId.isSome && i.productId.isNone) then
    .error (.check "order_items_one_target")
  else if i.quantity ≤ 0 then .error (.check "order_items_qty")
  else if i.unitPrice < 0 || i.listPrice < 0 || i.discount < 0 || i.lineTotal < 0 ||
      i.unitCost.any (· < 0) then
    .error (.check "order_items_amounts")
  else if i.components.any (·.quantity ≤ 0) then .error (.check "order_item_components_qty")
  else .ok ()

/-! ### Customers, coupons, numbers -/

structure Customer where
  id : CustomerId
  userId : Option ℕ := none
  /-- E.164, the CRM identity -/
  phone : String
  email : Option String := none
  name : String := ""
  isBlocked : Bool := false
  ordersCount : ℤ := 0
  liveOrders : ℤ := 0
  cancelledOrders : ℤ := 0
  totalSpent : Money := 0
  firstOrderAt : Option Instant := none
  lastOrderAt : Option Instant := none
  deletedAt : Option Instant := none
deriving DecidableEq, Repr

structure CouponRedemption where
  couponId : CouponId
  orderId : OrderId
  customerId : CustomerId
  discount : Money
  /-- order cancelled → usage given back -/
  revokedAt : Option Instant := none
deriving DecidableEq, Repr

inductive CounterScope
  | order | invoice | receipt | creditNote | purchase
deriving DecidableEq, Repr

structure DocumentCounter where
  scope : CounterScope
  pfx : String
  nextValue : ℕ
  padding : ℕ
deriving DecidableEq, Repr

/-! ### Payments and refunds -/

inductive PaymentStatus
  | initiated | pending | success | failed | cancelled | expired | refunded
deriving DecidableEq, Repr

abbrev PaymentId := ℕ

/-- One attempt with a gateway (SSLCOMMERZ tran_id). -/
structure Payment where
  id : PaymentId
  orderId : OrderId
  method : PaymentMethod := .sslcommerz
  status : PaymentStatus := .initiated
  amount : Money
  fee : Money := 0
  currency : String := "BDT"
  /-- our id sent to the gateway -/
  tranId : Option String := none
  /-- SSLCOMMERZ validation id -/
  valId : Option String := none
  bankTranId : Option String := none
  cardType : Option String := none
  cardBrand : Option String := none
  riskLevel : Option ℤ := none
  failureReason : Option String := none
  initiatedAt : Instant := 0
  succeededAt : Option Instant := none
deriving DecidableEq, Repr

inductive RefundStatus
  | requested | processing | completed | failed
deriving DecidableEq, Repr

/-- A UUIDv7: its first characters are the millisecond it was created in. -/
abbrev RefundId := String

structure Refund where
  id : RefundId
  orderId : OrderId
  paymentId : Option PaymentId := none
  amount : Money
  method : PaymentMethod
  status : RefundStatus := .requested
  reason : String := ""
  providerRef : Option String := none
  processedAt : Option Instant := none
deriving DecidableEq, Repr

/-! ### The database -/

structure Store where
  products : List Product := []
  movements : List StockMovement := []
  lots : List StockLot := []
  consumptions : List StockLotConsumption := []
  orders : List Order := []
  customers : List Customer := []
  coupons : List CouponRule := []
  redemptions : List CouponRedemption := []
  counters : List DocumentCounter := []
deriving DecidableEq, Repr

end BookHouse
