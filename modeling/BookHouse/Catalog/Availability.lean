/-
What the shop says about stock: `customers/domain/stock-status.ts`,
`catalog/domain/stock.ts` and the SELLABLE condition of
`catalog/shared/product-list.repository.ts`.

The wishlist and the customer page count the units of a product and the packs of a bundle;
the catalogue shows a badge, and its lists filter in SQL.  `Number.POSITIVE_INFINITY` is
`none`, and so is the `null` that the page gets for it.
-/
import BookHouse.Catalog.StockWriter

namespace BookHouse

/-! ### Counts, for a customer's wishlist -/

inductive StockState
  | inStock | low | outOfStock
deriving DecidableEq, Repr

structure ShownStock where
  state : StockState
  available : Option ℤ
deriving DecidableEq, Repr

namespace StockFacts

/-- `DEFAULT_LOW` -/
def defaultLow : ℤ := 5

/-- Units a shopper can buy right now.  Untracked/backorder items are always available. -/
def availableUnits (p : Product) : Option ℤ :=
  if !p.trackInventory || p.allowBackorder then none
  else some (max 0 (p.stockOnHand - p.stockReserved))

def productStock (p : Product) : ShownStock :=
  match availableUnits p with
  | none => { state := .inStock, available := none }
  | some avail =>
    if avail ≤ 0 then { state := .outOfStock, available := some 0 }
    else
      { state := if avail ≤ p.lowStockThreshold.getD defaultLow then .low else .inStock,
        available := some avail }

/-- A component of a bundle with its product. -/
structure Part where
  quantity : ℤ
  product : Product
deriving DecidableEq, Repr

/-- `Math.min`, where `none` is infinity -/
def fewer : Option ℤ → Option ℤ → Option ℤ
  | none, b => b
  | some a, none => some a
  | some a, some b => some (min a b)

/-- How many packs the units of one component are enough for. -/
def packsOf (it : Part) : Option ℤ := (availableUnits it.product).map (· / max 1 it.quantity)

/-- A bundle is buyable only when every component has enough units for its quantity. -/
def bundleStock (items : List Part) : ShownStock :=
  if items = [] then { state := .outOfStock, available := some 0 }
  else
    match items.foldl (fun packs it => fewer packs (packsOf it)) none with
    | none => { state := .inStock, available := none }
    | some packs =>
      if packs ≤ 0 then { state := .outOfStock, available := some 0 }
      else { state := if packs ≤ 2 then .low else .inStock, available := some packs }

end StockFacts

/-! ### The storefront's badge -/

inductive StockStatus
  /-- `'in'` -/
  | inStock
  | low | out
deriving DecidableEq, Repr

namespace StockLike

def availableUnits (p : Product) : ℤ := max 0 (p.stockOnHand - p.stockReserved)

def thresholdOf (p : Product) (fallback : ℤ := defaultLowStock) : ℤ :=
  p.lowStockThreshold.getD fallback

/-- Deliberately coarse: shoppers never see exact on-hand or reserved counts. -/
def stockStatus (p : Product) (fallbackThreshold : ℤ := defaultLowStock) : StockStatus :=
  if !p.trackInventory || p.allowBackorder then .inStock
  else if availableUnits p ≤ 0 then .out
  else if availableUnits p ≤ thresholdOf p fallbackThreshold then .low
  else .inStock

end StockLike

namespace ProductList

/-- `AVAILABLE` -/
def available (p : Product) : ℤ := p.stockOnHand - p.stockReserved

/-- `SELLABLE`; none of its columns is null. -/
def sellable (p : Product) : Bool :=
  !p.trackInventory || p.allowBackorder || decide (0 < available p)

end ProductList

end BookHouse
