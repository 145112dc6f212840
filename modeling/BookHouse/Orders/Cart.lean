/-
The cart and the placement of what is in it: `view` of
`orders/cart/application/cart.service.ts` and `placeInTx` of
`orders/application/order-placement.service.ts`, from references on.

Both price through `PricingService.quote`.  The view asks it for the cart's lines, coupon and
district; the placement also says who the customer is, and insists on every line.
-/
import BookHouse.Orders.Pricing

namespace BookHouse

abbrev CartId := ℕ
abbrev CartItemId := ℕ

structure CartItem where
  id : CartItemId
  productId : Option ProductId := none
  bundleId : Option BundleId := none
  quantity : ℤ
deriving DecidableEq, Repr

/-- A cart with its items, in the order they were added. -/
structure Cart where
  id : CartId
  customerId : Option CustomerId := none
  guestToken : Option String := none
  couponCode : Option String := none
  items : List CartItem
deriving DecidableEq, Repr

structure CartItemView where
  id : CartItemId
  kind : LineKind
  productId : Option ProductId
  bundleId : Option BundleId
  quantity : ℤ
  available : Bool
  stockOk : Bool
  maxAvailable : Option ℤ
  line : Option QuotedLine
deriving DecidableEq, Repr

structure CartView where
  id : Option CartId
  token : Option String
  items : List CartItemView
  couponCode : Option String
  count : ℤ
  quote : Option Quote
deriving DecidableEq, Repr

def CartItem.kind (i : CartItem) : LineKind := if i.productId.isSome then .product else .bundle

def toRefs (cart : Cart) : List LineRef :=
  cart.items.map fun i =>
    { kind := i.kind, productId := i.productId, bundleId := i.bundleId, quantity := i.quantity }

/-- A number is an id, anything else a name. -/
def districtRef (district : String) : Option DistrictRef :=
  if district = "" then none
  else if district.toList.all Char.isDigit then
    some { id := some (district.toList.foldl (fun n c => 10 * n + (c.toNat - '0'.toNat)) 0) }
  else some { name := some district }

namespace CartService

def viewItem (priced : PricedLines) (i : CartItem) : CartItemView :=
  let line := priced.quote.lines.find? fun l =>
    if i.productId.isSome then l.productId = i.productId else l.bundleId = i.bundleId
  let short := (line.map fun l => l.productId.toList ++ l.components.map (·.productId)).bind
    fun ids => ids.findSome? fun id => priced.shortfalls.find? (·.productId = id)
  { id := i.id, kind := i.kind, productId := i.productId, bundleId := i.bundleId,
    quantity := i.quantity,
    available := !priced.unavailable.any fun u =>
      u.kind = i.kind && some u.id = (if i.productId.isSome then i.productId else i.bundleId),
    stockOk := short.isNone, maxAvailable := short.map (·.available), line }

/-- What the view asks for: the lines, the coupon and the district. -/
def quoteRequest (cart : Cart) (district : String) (now : Instant) : QuoteRequest :=
  { lines := toRefs cart, couponCode := cart.couponCode, district := districtRef district, now }

def view (s : Store) (shop : Shop) (cart : Cart) (district : String) (now : Instant) :
    Except Failure CartView :=
  if cart.items = [] then
    .ok { id := some cart.id, token := cart.guestToken, items := [], couponCode := cart.couponCode,
          count := 0, quote := none }
  else
    (PricingService.quote s shop (quoteRequest cart district now)).map fun priced =>
      { id := some cart.id, token := cart.guestToken, items := cart.items.map (viewItem priced),
        couponCode := cart.couponCode, count := (cart.items.map (·.quantity)).sum,
        quote := some priced.quote }

end CartService

/-- A checkout request, with the references as they come in. -/
structure PlaceOrderDto where
  lines : List LineRef
  couponCode : Option String := none
  /-- `normalizeBdPhone` of the contact's phone -/
  phone : Option String
  name : String := ""
  email : Option String := none
  district : DistrictRef
  upazila : Option String := none
  union : Option String := none
  line : String := ""
  paymentMethod : PaymentMethod
deriving DecidableEq, Repr

namespace OrderPlacementService

/-- The request on resolved references, with these lines. -/
def resolved (shop : Shop) (dto : PlaceOrderDto) (user : Option AuthUser)
    (staff : Option StaffOrderOptions) (d : District) (lines : List QuoteLineInput) : PlaceOrder :=
  { phone := dto.phone, name := dto.name, email := dto.email, lines, couponCode := dto.couponCode,
    zone := d.zone, shippingRules := shop.rules.filter (·.isActive),
    paymentMethod := dto.paymentMethod, shipDivision := d.divisionNameBn,
    shipDistrict := d.nameBn, shipUpazila := dto.upazila, shipUnion := dto.union,
    shipLine := dto.line, user, staff }

/-- What the placement asks for: also whose order it is, and that every line can be sold. -/
def quoteRequest (dto : PlaceOrderDto) (d : District) (customerId : CustomerId) (now : Instant) :
    QuoteRequest :=
  { lines := dto.lines, couponCode := dto.couponCode, district := some { id := some d.id },
    customerId := some customerId, now, strict := true }

/-- Number and write a priced order. -/
def placePriced (s : Store) (req : PlaceOrder) (customerId : CustomerId) (phone : String)
    (priced : PricedQuote) (now : Instant) : Except Failure (Store × Order) :=
  match placementRefusal req priced.quote with
  | some failure => .error failure
  | none =>
    let (orderNo, counters) := nextNumber s.counters .order
    let order := newOrder s.orders.length orderNo customerId phone req priced.quote now
    (writeOrder { s with counters } order priced now).map fun s => (s, order)

def placeInTx (s : Store) (shop : Shop) (dto : PlaceOrderDto) (user : Option AuthUser)
    (staff : Option StaffOrderOptions) (now : Instant) : Except Failure (Store × Order) :=
  match dto.phone with
  | none => .error (.rule "order.phone_invalid" "সঠিক মোবাইল নম্বর দিন" [.field "contact.phone"])
  | some phone => do
    let district ← GeoService.resolveDistrict shop dto.district
    let req := resolved shop dto user staff district []
    let (s, customer) := upsertCustomer s req phone
    if customer.isBlocked && dto.paymentMethod = .cod then
      throw (.rule "order.customer_blocked"
        "এই নম্বরে ক্যাশ অন ডেলিভারি বন্ধ আছে — অনলাইনে পেমেন্ট করুন বা হেল্পলাইনে যোগাযোগ করুন")
    let priced ← PricingService.quote s shop (quoteRequest dto district customer.id now)
    placePriced s req customer.id phone ⟨priced.quote, priced.coupon⟩ now

end OrderPlacementService

/-! ### Placing a cart -/

/-- The shopper whose cart it is. -/
def Cart.shopper (cart : Cart) (userId : ℕ) : AuthUser :=
  { id := userId, customerId := cart.customerId }

/-- The request that places exactly the cart's lines with the cart's coupon; the rest of it
is what the checkout form asks for. -/
def Cart.order (cart : Cart) (form : PlaceOrderDto) : PlaceOrderDto :=
  { form with lines := toRefs cart, couponCode := cart.couponCode }

end BookHouse
