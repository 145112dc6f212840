/-
What a list of cart lines costs right now: `orders/pricing/application/pricing.service.ts`,
with `catalog/domain/effective-price.ts` and the district lookup of
`orders/geo/application/geo.service.ts`.

`PricingService.quote` is the one way from references to a quote: it merges them, loads the
catalogue, looks the coupon up with what its customer has used of it, and calculates.  The
cart, the checkout quote and the placement differ in what they ask it for.
-/
import BookHouse.Orders.Placement

namespace BookHouse

/-! ### The catalogue -/

inductive ContentStatus
  | draft | active | archived
deriving DecidableEq, Repr

structure DealLike where
  dealPrice : Money
  startsAt : Instant
  endsAt : Instant
  cancelledAt : Option Instant := none
deriving DecidableEq, Repr

/-- What pricing reads of a product besides its row in the store: the other columns, its
section and category, its deals. -/
structure Listing where
  productId : ProductId
  sku : String := ""
  sectionId : SectionId := 0
  sectionCode : String := ""
  categoryId : CategoryId := 0
  subcategoryId : Option CategoryId := none
  categoryName : String := ""
  taxRate : ℚ := 0
  freeShipping : Bool := false
  status : ContentStatus := .active
  deals : List DealLike := []
deriving DecidableEq, Repr

structure BundleItem where
  productId : ProductId
  quantity : ℤ
deriving DecidableEq, Repr

structure Bundle where
  id : BundleId
  title : String := ""
  sectionId : SectionId := 0
  sectionCode : String := ""
  price : Money
  compareAtPrice : Option Money := none
  freeShipping : Bool := false
  status : ContentStatus := .active
  deletedAt : Option Instant := none
  /-- by `sortOrder` -/
  items : List BundleItem
deriving DecidableEq, Repr

/-- A district with its zone; ids are numbered from 1. -/
structure District where
  id : ℕ
  id_pos : 0 < id
  nameBn : String
  nameEn : Option String := none
  divisionNameBn : String := ""
  zone : ZoneInfo
deriving DecidableEq, Repr

/-- The tables that pricing reads and no order writes. -/
structure Shop where
  listings : List Listing := []
  bundles : List Bundle := []
  districts : List District := []
  districts_nodup : (districts.map (·.id)).Nodup := by decide
  rules : List FreeShippingRule := []
deriving DecidableEq, Repr

/-- A live deal (started, not ended, not cancelled, cheaper than regular). -/
def DealLike.isLive (price : Money) (now : Instant) (d : DealLike) : Bool :=
  d.cancelledAt.isNone && d.startsAt ≤ now && now < d.endsAt && d.dealPrice < price

/-- What the customer pays now: the cheapest live deal wins. -/
def effectivePrice (price : Money) (deals : List DealLike) (now : Instant) : Money :=
  match ((deals.filter (·.isLive price now)).insertionSort fun a b =>
      a.dealPrice ≤ b.dealPrice).head? with
  | some live => live.dealPrice
  | none => price

def sellable (status : ContentStatus) (deletedAt : Option Instant) : Bool :=
  status = .active && deletedAt.isNone

def toPricedProduct (p : Product) (l : Listing) (now : Instant) : PricedProduct :=
  { id := p.id, title := p.title, sku := l.sku, sectionId := l.sectionId,
    sectionCode := l.sectionCode, categoryId := l.categoryId, subcategoryId := l.subcategoryId,
    categoryName := some l.categoryName, unitPrice := effectivePrice p.price l.deals now,
    listPrice := p.price, unitCost := p.costPrice.filter (0 < ·), taxRate := l.taxRate,
    freeShipping := l.freeShipping,
    available := if p.trackInventory && !p.allowBackorder
      then some (p.stockOnHand - p.stockReserved) else none }

/-! ### The lines -/

structure LineRef where
  kind : LineKind
  productId : Option ProductId := none
  bundleId : Option BundleId := none
  quantity : ℤ
deriving DecidableEq, Repr

/-- Which product or bundle a line is of. -/
structure LineKey where
  kind : LineKind
  id : ℕ
deriving DecidableEq, Repr

inductive UnavailableReason
  | notFound | inactive | componentUnavailable
deriving DecidableEq, Repr

structure UnavailableLine where
  index : ℕ
  kind : LineKind
  id : ℕ
  reason : UnavailableReason
deriving DecidableEq, Repr

/-- `resolveDistrict` takes an id or a name. -/
structure DistrictRef where
  id : Option ℕ := none
  name : Option String := none
deriving DecidableEq, Repr

structure QuoteRequest where
  lines : List LineRef
  couponCode : Option String := none
  district : Option DistrictRef := none
  customerId : Option CustomerId := none
  /-- `normalizeBdPhone` of the phone -/
  phone : Option String := none
  now : Instant
  /-- placement: lock the coupon row and require every line to be sellable -/
  strict : Bool := false
deriving DecidableEq, Repr

structure PricedLines where
  quote : Quote
  district : Option District
  coupon : Option CouponRule
  unavailable : List UnavailableLine
  shortfalls : List Shortfall
deriving DecidableEq, Repr

namespace GeoService

def lower (v : String) : String := String.ofList (v.toList.map Char.toLower)

/-- `!!(district?.id || district?.name?.trim())` -/
def isGiven (ref : DistrictRef) : Bool :=
  ref.id.any (0 < ·) || ref.name.any (trim · ≠ "")

/-- The row an id or a Bangla/English name finds. -/
def findDistrict (shop : Shop) (ref : DistrictRef) : Option District :=
  match ref.id.filter (0 < ·) with
  | some id => Rows.lookup District.id id shop.districts
  | none =>
    let name := trim (ref.name.getD "")
    shop.districts.find? fun d => d.nameBn = name || d.nameEn.any (lower · = lower name)

/-- District by id or Bangla/English name, with its shipping zone. -/
def resolveDistrict (shop : Shop) (ref : DistrictRef) : Except Failure District :=
  if isGiven ref then
    match findDistrict shop ref with
    | some d => .ok d
    | none => .error (.rule "geo.district_invalid" "জেলা খুঁজে পাওয়া যায়নি")
  else .error (.rule "geo.district_required" "জেলা বাছুন")

end GeoService

namespace PricingService

def key (l : LineRef) : Except Failure LineKey :=
  match l.kind, l.productId, l.bundleId with
  | .product, some id, _ => .ok ⟨.product, id⟩
  | .product, none, _ => .error (.rule "cart.line_invalid" "পণ্যের আইডি দিন")
  | .bundle, _, some id => .ok ⟨.bundle, id⟩
  | .bundle, _, none => .error (.rule "cart.line_invalid" "প্যাকেজের আইডি দিন")

/-- Merge duplicate refs so the same product twice becomes one line. -/
def mergeLines (lines : List LineRef) : Except Failure (List (Tally.Entry LineKey)) := do
  let entries ← lines.mapM fun l => (key l).map fun k => (⟨k, l.quantity⟩ : Tally.Entry LineKey)
  let merged := Tally.collect entries
  if merged.any (99 < ·.qty) then .error (.rule "cart.qty_limit" "একটি পণ্য সর্বোচ্চ ৯৯টি")
  else .ok merged

/-- A product with its listing. -/
def findProduct (s : Store) (shop : Shop) (id : ProductId) : Option (Product × Listing) :=
  (Rows.lookup Product.id id s.products).bind fun p =>
    (shop.listings.find? (·.productId = id)).map fun l => (p, l)

def loadProduct (s : Store) (shop : Shop) (now : Instant) (id : ProductId) (quantity : ℤ) :
    Except UnavailableReason QuoteLineInput :=
  match findProduct s shop id with
  | none => .error .notFound
  | some (p, l) =>
    if sellable l.status p.deletedAt then .ok (.product (toPricedProduct p l now) quantity)
    else .error .inactive

def loadBundle (s : Store) (shop : Shop) (now : Instant) (id : BundleId) (quantity : ℤ) :
    Except UnavailableReason QuoteLineInput :=
  match shop.bundles.find? (·.id = id) with
  | none => .error .notFound
  | some b =>
    let components := b.items.filterMap fun i =>
      ((findProduct s shop i.productId).filter (·.1.deletedAt.isNone)).map fun r =>
        ({ product := toPricedProduct r.1 r.2 now, quantity := i.quantity } : BundleComponent)
    if !sellable b.status b.deletedAt then .error .inactive
    else if b.items = [] || components.length ≠ b.items.length then .error .componentUnavailable
    else .ok (.bundle
      { id := b.id, title := b.title, sectionId := b.sectionId, sectionCode := b.sectionCode,
        unitPrice := b.price, compareAt := b.compareAtPrice, freeShipping := b.freeShipping,
        components } quantity)

def loadLine (s : Store) (shop : Shop) (now : Instant) (e : Tally.Entry LineKey) :
    Except UnavailableReason QuoteLineInput :=
  match e.key.kind with
  | .product => loadProduct s shop now e.key.id e.qty
  | .bundle => loadBundle s shop now e.key.id e.qty

/-- The lines that can be sold, and those that cannot. -/
def loadLines (s : Store) (shop : Shop) (now : Instant) (lines : List (Tally.Entry LineKey)) :
    List QuoteLineInput × List UnavailableLine :=
  (lines.filterMap fun e => (loadLine s shop now e).toOption,
   (lines.zipIdx).filterMap fun (e, index) =>
     match loadLine s shop now e with
     | .ok _ => none
     | .error reason => some { index, kind := e.key.kind, id := e.key.id, reason })

def customerIdByPhone (s : Store) (phone : Option String) : Option CustomerId :=
  phone.bind fun phone => (Rows.lookup Customer.phone phone s.customers).map (·.id)

/-- What can be sold of a product, as a map that later lines overwrite. -/
def availability (inputs : List QuoteLineInput) (id : ProductId) : Option ℤ :=
  let stock := inputs.flatMap fun l =>
    match l with
    | .product p _ => [(p.id, p.available)]
    | .bundle b _ => b.components.map fun c => (c.product.id, c.product.available)
  ((stock.reverse.find? (·.1 = id)).map Prod.snd).join

/-- The district of a quote, where one is given. -/
def districtOf (shop : Shop) (ref : Option DistrictRef) : Except Failure (Option District) :=
  match ref.filter GeoService.isGiven with
  | some ref => (GeoService.resolveDistrict shop ref).map some
  | none => .ok none

/-- The coupon of a quote; blanks are no code. -/
def couponOf (s : Store) (code : Option String) : Option CouponRule :=
  (code.filter (trim · ≠ "")).bind (Coupons.findRule s)

/-- What is calculated for merged lines, a district and a customer. -/
def quoteInput (s : Store) (shop : Shop) (req : QuoteRequest) (lines : List (Tally.Entry LineKey))
    (district : Option District) : QuoteInput :=
  let customerId := req.customerId.orElse fun _ => customerIdByPhone s req.phone
  { lines := (loadLines s shop req.now lines).1,
    coupon := (couponOf s req.couponCode).map fun rule =>
      { rule, usage := Coupons.usage s rule.id customerId },
    zone := district.map (·.zone), shippingRules := shop.rules.filter (·.isActive),
    now := req.now }

/-- A code without a coupon is noted on the quote. -/
def noteMissing (missing : Bool) (q : Quote) : Quote :=
  let notFound : CouponRejection := { code := "coupon.not_found", message := "কুপন সঠিক নয়" }
  if missing then { q with couponRejection := some notFound } else q

def quote (s : Store) (shop : Shop) (req : QuoteRequest) : Except Failure PricedLines := do
  let lines ← mergeLines req.lines
  let (inputs, unavailable) := loadLines s shop req.now lines
  let district ← districtOf shop req.district
  if req.strict && unavailable ≠ [] then
    throw (.rule "order.item_unavailable" "কিছু পণ্য এখন বিক্রি হচ্ছে না — কার্ট আপডেট করুন")
  let coupon := couponOf s req.couponCode
  let missing := req.couponCode.any (trim · ≠ "") && coupon.isNone
  let quote := noteMissing missing (calculateQuote (quoteInput s shop req lines district))
  return { quote, district, coupon, unavailable,
           shortfalls := stockShortfalls quote (availability inputs) }

end PricingService

end BookHouse
