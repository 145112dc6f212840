/-
Placing an order: `placeInTx` of `orders/application/order-placement.service.ts`.

One serializable transaction that prices the cart on the server, numbers and writes
the order, holds its stock, redeems its coupon and counts it for the customer.  What
the request's phone, district and lines resolve to comes in with the request.
-/
import BookHouse.Orders.Transition

namespace BookHouse

def sslMin : Money := 10

structure AuthUser where
  id : ℕ
  isCustomer : Bool := true
  customerId : Option CustomerId := none
deriving DecidableEq, Repr

structure StaffOrderOptions where
  source : OrderSource
deriving DecidableEq, Repr

/-- A checkout request, with its references resolved by the catalogue and the geo tables. -/
structure PlaceOrder where
  /-- `normalizeBdPhone` of the contact's phone -/
  phone : Option String
  name : String := ""
  email : Option String := none
  /-- the lines as the catalogue prices them right now -/
  lines : List QuoteLineInput
  couponCode : Option String := none
  /-- the delivery zone of the address' district -/
  zone : ZoneInfo
  shippingRules : List FreeShippingRule := []
  paymentMethod : PaymentMethod
  shipDivision : String := ""
  shipDistrict : String := ""
  shipUpazila : Option String := none
  shipUnion : Option String := none
  shipLine : String := ""
  user : Option AuthUser := none
  staff : Option StaffOrderOptions := none
deriving DecidableEq, Repr

/-- Fill in what is missing of a customer row, link the account when it is free. -/
def upsertCustomer (s : Store) (req : PlaceOrder) (phone : String) : Store × Customer :=
  let user := if req.staff.isSome then none else req.user
  let mine := (user.bind (·.customerId)).bind fun id =>
    (Rows.lookup Customer.id id s.customers).filter (·.deletedAt.isNone)
  let update (c : Customer) (f : Customer → Customer) : Store × Customer :=
    ({ s with customers := Rows.modify Customer.id c.id f s.customers }, f c)
  let linkUser := (user.filter (·.isCustomer)).map (·.id)
  let taken := linkUser.isSome && s.customers.any (·.userId == linkUser)
  match mine with
  -- a logged-in shopper keeps their own row even if they order with another phone
  | some c => update c fun c =>
      { c with name := if c.name = "" then req.name else c.name,
               email := c.email.orElse fun _ => req.email }
  | none =>
    match Rows.lookup Customer.phone phone s.customers with
    | some c => update c fun c =>
        { c with name := req.name, email := req.email.orElse fun _ => c.email,
                 userId := if linkUser.isSome && c.userId.isNone && !taken then linkUser
                   else c.userId,
                 deletedAt := none }
    | none =>
        let c : Customer :=
          { id := s.customers.length, phone, name := req.name, email := req.email,
            userId := if taken then none else linkUser }
        ({ s with customers := s.customers ++ [c] }, c)

structure PricedQuote where
  quote : Quote
  coupon : Option CouponRule
deriving DecidableEq, Repr

/-- `PricingService.quote` on resolved lines: find the coupon, count its usage, price. -/
def priceOrder (s : Store) (req : PlaceOrder) (customerId : CustomerId) (now : Instant) :
    PricedQuote :=
  let code := req.couponCode.filter (trim · ≠ "")
  let coupon := code.bind (Coupons.findRule s)
  let quote := calculateQuote
    { lines := req.lines,
      coupon := coupon.map fun rule =>
        { rule, usage := Coupons.usage s rule.id (some customerId) },
      zone := some req.zone, shippingRules := req.shippingRules, now }
  let notFound : CouponRejection := { code := "coupon.not_found", message := "কুপন সঠিক নয়" }
  if code.isSome && coupon.isNone then
    { quote := { quote with couponRejection := some notFound }, coupon }
  else { quote, coupon }

def QuotedLine.toItem (l : QuotedLine) : OrderItem :=
  { kind := l.kind, productId := l.productId, bundleId := l.bundleId, title := l.title,
    sku := l.sku, sectionCode := l.sectionCode, categoryName := l.categoryName,
    quantity := l.quantity, unitPrice := l.unitPrice, listPrice := l.listPrice,
    unitCost := l.unitCost, discount := l.discount, taxAmount := l.taxAmount,
    lineTotal := l.lineTotal,
    components := l.components.map fun c =>
      { productId := c.productId, title := c.title, quantity := c.quantity,
        unitCost := c.unitCost, allocatedRevenue := c.allocatedRevenue } }

/-- The order row of a priced cart. -/
def newOrder (id : OrderId) (orderNo : String) (customerId : CustomerId) (phone : String)
    (req : PlaceOrder) (q : Quote) (now : Instant) : Order :=
  { id, orderNo, customerId,
    source := (req.staff.map (·.source)).getD .web,
    paymentMethod := req.paymentMethod,
    contactName := req.name, contactPhone := phone,
    shipDivision := req.shipDivision, shipDistrict := req.shipDistrict,
    shipUpazila := req.shipUpazila, shipUnion := req.shipUnion, shipLine := req.shipLine,
    shipZoneCode := req.zone.code,
    itemsSubtotal := q.itemsSubtotal, discountTotal := q.discountTotal,
    couponCode := q.coupon.map (·.code),
    shippingFee := q.shippingFee.getD 0, shippingFeeReason := some q.shipping.reason,
    taxTotal := q.taxTotal, grandTotal := q.grandTotal, itemsCost := q.itemsCost,
    courierCost := q.shipping.expectedCourierCost.getD 0,
    stockReserved := true, placedAt := now, items := q.lines.map QuotedLine.toItem }

/-- `INSERT INTO orders`, with the CHECKs of the order and its lines. -/
def insertOrder (s : Store) (o : Order) : Except Failure Store :=
  if s.orders.any (·.orderNo = o.orderNo) then .error (.unique "orders_order_no_key")
  else do
    o.check
    o.items.forM OrderItem.check
    return { s with orders := s.orders ++ [o] }

def Customer.afterPlacement (grandTotal : Money) (now : Instant) (c : Customer) : Customer :=
  { c with ordersCount := c.ordersCount + 1, liveOrders := c.liveOrders + 1,
           totalSpent := c.totalSpent + grandTotal, lastOrderAt := some now,
           firstOrderAt := c.firstOrderAt.orElse fun _ => some now }

/-- Why a priced cart is not placed. -/
def placementRefusal (req : PlaceOrder) (q : Quote) : Option Failure :=
  match q.couponRejection with
  | some r => some (.rule r.code r.message (r.details.map Detail.coupon).toList)
  | none =>
    if q.lines = [] then some (.rule "cart.empty" "কার্ট খালি")
    else if q.shippingFee.isNone then
      some (.rule "geo.district_required" "জেলা বাছুন — তাহলে ডেলিভারি খরচ বসবে")
    else if req.paymentMethod = .sslcommerz && q.grandTotal < sslMin then
      some (.rule "payment.min_amount" "SSLCOMMERZ-এ সর্বনিম্ন ৳১০")
    else none

/-- Redeem the applied coupon, if any. -/
def redeemCoupon (s : Store) (priced : PricedQuote) (orderId : OrderId)
    (customerId : CustomerId) : Except Failure Store :=
  match priced.quote.coupon, priced.coupon with
  | some applied, some rule =>
      Coupons.redeem s { couponId := rule.id, orderId, customerId, discount := applied.discount }
  | _, _ => .ok s

/-- Write a priced order: the row, its stock hold, its coupon, the customer's counters. -/
def writeOrder (s : Store) (order : Order) (priced : PricedQuote) (now : Instant) :
    Except Failure Store := do
  let s ← insertOrder s order
  let s ← Inventory.reserve s priced.quote.stockUnits { orderId := some order.id, now }
  let s ← redeemCoupon s priced order.id order.customerId
  let counters := Customer.afterPlacement priced.quote.grandTotal now
  return { s with customers := Rows.modify Customer.id order.customerId counters s.customers }

/-- Place an order in the caller's transaction; returns the order as written. -/
def placeInTx (s : Store) (req : PlaceOrder) (now : Instant) : Except Failure (Store × Order) :=
  match req.phone with
  | none => .error (.rule "order.phone_invalid" "সঠিক মোবাইল নম্বর দিন" [.field "contact.phone"])
  | some phone =>
    let (s, customer) := upsertCustomer s req phone
    if customer.isBlocked && req.paymentMethod = .cod then
      .error (.rule "order.customer_blocked"
        "এই নম্বরে ক্যাশ অন ডেলিভারি বন্ধ আছে — অনলাইনে পেমেন্ট করুন বা হেল্পলাইনে যোগাযোগ করুন")
    else
      let priced := priceOrder s req customer.id now
      match placementRefusal req priced.quote with
      | some failure => .error failure
      | none =>
        let (orderNo, counters) := nextNumber s.counters .order
        let order := newOrder s.orders.length orderNo customer.id phone req priced.quote now
        (writeOrder { s with counters } order priced now).map fun s => (s, order)

end BookHouse
