/-
The single price calculation: `orders/domain/quote-calculator.ts`.

`calculateQuote` prices each line on its own (gross, its share of the coupon, its
tax) and takes every total as a sum over the priced lines.
-/
import BookHouse.Lib.Tally
import BookHouse.Orders.Shipping

namespace BookHouse

open Tally (Entry)

/-- A product as it sells right now (deal applied), ready for pricing. -/
structure PricedProduct where
  id : ProductId
  title : String := ""
  sku : String := ""
  sectionId : SectionId := 0
  sectionCode : String := ""
  categoryId : CategoryId := 0
  subcategoryId : Option CategoryId := none
  categoryName : Option String := none
  /-- effective price (deal applied) -/
  unitPrice : Money
  /-- regular price -/
  listPrice : Money
  unitCost : Option Money := none
  taxRate : ℚ := 0
  freeShipping : Bool := false
  /-- units that can still be sold; `none` = untracked / backorder allowed -/
  available : Option ℤ := none
deriving DecidableEq, Repr

structure BundleComponent where
  product : PricedProduct
  quantity : ℤ
deriving DecidableEq, Repr

structure PricedBundle where
  id : BundleId
  title : String := ""
  sectionId : SectionId := 0
  sectionCode : String := ""
  unitPrice : Money
  /-- bundle compare-at; `none` → Σ component list prices -/
  compareAt : Option Money := none
  freeShipping : Bool := false
  components : List BundleComponent
deriving DecidableEq, Repr

inductive QuoteLineInput
  | product (product : PricedProduct) (quantity : ℤ)
  | bundle (bundle : PricedBundle) (quantity : ℤ)
deriving DecidableEq, Repr

structure CouponInput where
  rule : CouponRule
  usage : CouponUsage
deriving DecidableEq, Repr

structure QuoteInput where
  lines : List QuoteLineInput
  coupon : Option CouponInput := none
  zone : Option ZoneInfo := none
  shippingRules : List FreeShippingRule := []
  now : Instant
deriving DecidableEq, Repr

structure QuotedComponent where
  productId : ProductId
  title : String
  /-- units for the whole line (bundle qty × per-bundle qty) -/
  quantity : ℤ
  unitCost : Option Money
  allocatedRevenue : Money
  taxAmount : Money
deriving DecidableEq, Repr

structure QuotedLine where
  kind : LineKind
  productId : Option ProductId
  bundleId : Option BundleId
  title : String
  sku : Option String
  sectionId : SectionId
  sectionCode : String
  categoryName : Option String
  quantity : ℤ
  unitPrice : Money
  listPrice : Money
  /-- per unit; `none` → at least one cost unknown -/
  unitCost : Option Money
  gross : Money
  discount : Money
  taxAmount : Money
  lineTotal : Money
  freeShipping : Bool
  couponEligible : Bool
  components : List QuotedComponent
deriving DecidableEq, Repr

structure QuotedCoupon where
  code : String
  type : CouponType
  discount : Money
  freeShipping : Bool
deriving DecidableEq, Repr

structure Quote where
  lines : List QuotedLine
  itemsSubtotal : Money
  discountTotal : Money
  netSubtotal : Money
  taxTotal : Money
  shippingFee : Option Money
  shipping : ShippingOutcome
  grandTotal : Money
  itemsCost : Option Money
  coupon : Option QuotedCoupon
  couponRejection : Option CouponRejection
  /-- product units that must be reserved (bundles expanded) -/
  stockUnits : List (Entry ProductId)
deriving DecidableEq, Repr

def bundleListPrice (b : PricedBundle) : Money :=
  b.compareAt.getD (b.components.map fun c => c.product.listPrice * (c.quantity : ℚ)).sum

def bundleUnitCost (b : PricedBundle) : Option Money :=
  if b.components = [] || b.components.any fun c => c.product.unitCost.isNone then none
  else some (round2 (b.components.map fun c => c.product.unitCost.getD 0 * (c.quantity : ℚ)).sum)

namespace QuoteLineInput

def quantity : QuoteLineInput → ℤ
  | product _ q => q
  | bundle _ q => q

def unitPrice : QuoteLineInput → Money
  | product p _ => p.unitPrice
  | bundle b _ => b.unitPrice

def gross (l : QuoteLineInput) : Money := round2 (l.unitPrice * (l.quantity : ℚ))

end QuoteLineInput

def toCouponLine (l : QuoteLineInput) : CouponLine :=
  match l with
  | .product p _ =>
      { kind := .product, productId := some p.id, bundleId := none, sectionCode := p.sectionCode,
        categoryIds := [some p.categoryId, p.subcategoryId].filterMap id, gross := l.gross }
  | .bundle b _ =>
      { kind := .bundle, productId := none, bundleId := some b.id, sectionCode := b.sectionCode,
        categoryIds := [], gross := l.gross }

/-- A product line with its share of the coupon. -/
def quoteProduct (p : PricedProduct) (quantity : ℤ) (gross discount : Money)
    (eligible : Bool) : QuotedLine :=
  let net := gross - discount
  let taxAmount := percentOf net p.taxRate
  { kind := .product, productId := some p.id, bundleId := none, title := p.title,
    sku := some p.sku, sectionId := p.sectionId, sectionCode := p.sectionCode,
    categoryName := p.categoryName, quantity := quantity, unitPrice := round2 p.unitPrice,
    listPrice := round2 p.listPrice, unitCost := p.unitCost.map round2, gross := gross,
    discount := discount, taxAmount := taxAmount, lineTotal := net + taxAmount,
    freeShipping := p.freeShipping, couponEligible := eligible, components := [] }

/-- The books of a bundle, each with its share of the net price by list price. -/
def quoteComponents (b : PricedBundle) (quantity : ℤ) (net : Money) : List QuotedComponent :=
  let weights := b.components.map fun c => c.product.listPrice * (c.quantity : ℚ)
  let shares := if b.components = [] then [] else allocate net weights
  List.zipWith (fun c share =>
    { productId := c.product.id, title := c.product.title, quantity := c.quantity * quantity,
      unitCost := c.product.unitCost.map round2, allocatedRevenue := share,
      taxAmount := percentOf share c.product.taxRate }) b.components shares

/-- A bundle line with its share of the coupon. -/
def quoteBundle (b : PricedBundle) (quantity : ℤ) (gross discount : Money)
    (eligible : Bool) : QuotedLine :=
  let net := gross - discount
  let components := quoteComponents b quantity net
  let taxAmount := (components.map (·.taxAmount)).sum
  { kind := .bundle, productId := none, bundleId := some b.id, title := b.title, sku := none,
    sectionId := b.sectionId, sectionCode := b.sectionCode, categoryName := none,
    quantity := quantity, unitPrice := round2 b.unitPrice,
    listPrice := round2 (bundleListPrice b), unitCost := bundleUnitCost b, gross := gross,
    discount := discount, taxAmount := taxAmount, lineTotal := net + taxAmount,
    freeShipping := b.freeShipping, couponEligible := eligible, components := components }

def quoteLine (l : QuoteLineInput) (allocation : Money) (eligible : Bool) : QuotedLine :=
  let discount := round2 allocation
  match l with
  | .product p q => quoteProduct p q l.gross discount eligible
  | .bundle b q => quoteBundle b q l.gross discount eligible

/-- The product units a priced line takes off the shelf. -/
def lineUnits (l : QuotedLine) : List (Entry ProductId) :=
  (match l.kind, l.productId with
    | .product, some id => [⟨id, l.quantity⟩]
    | _, _ => []) ++ l.components.map fun c => ⟨c.productId, c.quantity⟩

/-- The coupon's verdict on a cart; `none` without a coupon or without lines. -/
def evaluateCartCoupon (input : QuoteInput) : Option (Except CouponRejection CouponApplied) :=
  match input.coupon with
  | some c =>
      if input.lines = [] then none
      else some (evaluateCoupon c.rule (input.lines.map toCouponLine) c.usage input.now)
  | none => none

/--
The single price calculation for cart, checkout quote and order placement.  Totals
are sums of line amounts, so
`grandTotal = itemsSubtotal − discountTotal + shippingFee + taxTotal` holds exactly
(the `orders_total_math` CHECK).
-/
def calculateQuote (input : QuoteInput) : Quote :=
  let verdict := evaluateCartCoupon input
  let applied := match verdict with
    | some (.ok res) => some res
    | _ => none
  let couponRejection := match verdict with
    | some (.error rejection) => some rejection
    | _ => none
  let allocations := (applied.map (·.allocations)).getD (input.lines.map fun _ => 0)
  let eligible := (applied.map (·.eligible)).getD (input.lines.map fun _ => false)
  let lines := input.lines.mapIdx fun i l =>
    quoteLine l (allocations.getD i 0) (eligible.getD i false)
  let itemsSubtotal := (lines.map (·.gross)).sum
  let discountTotal := (lines.map (·.discount)).sum
  let taxTotal := (lines.map (·.taxAmount)).sum
  let netSubtotal := itemsSubtotal - discountTotal
  let shipping := resolveShipping
    { zone := input.zone,
      lines := lines.map fun l =>
        { kind := l.kind, sectionId := l.sectionId, freeShipping := l.freeShipping },
      netSubtotal := netSubtotal,
      couponFreeShipping := (applied.map (·.freeShipping)).getD false,
      rules := input.shippingRules, now := input.now }
  let shippingFee := shipping.fee.map round2
  let costs := lines.map fun l => l.unitCost.map fun c => c * (l.quantity : ℚ)
  { lines := lines, itemsSubtotal := itemsSubtotal, discountTotal := discountTotal,
    netSubtotal := netSubtotal, taxTotal := taxTotal, shippingFee := shippingFee,
    shipping := shipping, grandTotal := netSubtotal + shippingFee.getD 0 + taxTotal,
    itemsCost :=
      if lines ≠ [] && costs.all (·.isSome) then some (round2 (costs.map (·.getD 0)).sum)
      else none,
    coupon := applied.map fun res =>
      { code := res.code, type := res.type, discount := res.discount,
        freeShipping := res.freeShipping },
    couponRejection := couponRejection,
    stockUnits := Tally.collect (lines.flatMap lineUnits) }

structure Shortfall where
  productId : ProductId
  requested : ℤ
  available : ℤ
deriving DecidableEq, Repr

/-- Units short per product given availability (`none` = unlimited). -/
def stockShortfalls (quote : Quote) (available : ProductId → Option ℤ) : List Shortfall :=
  quote.stockUnits.filterMap fun u =>
    ((available u.key).filter (· < u.qty)).map fun a =>
      { productId := u.key, requested := u.qty, available := max 0 a }

end BookHouse
