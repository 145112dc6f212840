/-
Who writes prices: the price columns of `product-admin.service.ts`, the bulk edits of
`product-bulk.service.ts` with `catalog/domain/pricing.ts`, and `restockLot` of
`product-stock.service.ts`.

One row of `products` is seen twice here: the catalogue has its prices, the store its stock.
`follow` writes what the catalogue changed into the stock's view, and `costed` the average
cost that the stock's writes leave back into the catalogue's.  Every write of a row goes
through `written`: the columns are `numeric(12, 2)`, and the CHECKs are the database's.
-/
import BookHouse.Catalog.Catalogue
import BookHouse.Catalog.StockWriter

namespace BookHouse

open Rounding

/-! ### `domain/pricing.ts` -/

/-- Bulk price edits snap to the nearest ৳5 and never go below ৳5. -/
def priceStep : Money := 5

inductive Direction
  | up | down
deriving DecidableEq, Repr

/-- Round to the nearest `step` taka. -/
def roundTo (v step : ℚ) : Money := toPlaces .halfUp 0 (v / step) * step

/-- "−২০%" badge: rounded (1 − price / old) × 100, 0 when old is missing or not higher. -/
def discountPct (price : Money) (compareAt : Option Money) : ℚ :=
  match compareAt with
  | none => 0
  | some old =>
    if old ≤ 0 ∨ old ≤ price then 0
    else toPlaces .halfUp 0 ((1 - price / old) * 100)

/-- Bulk "±N%" price change, rounded to the nearest ৳5 (never below ৳5). -/
def bulkAdjustedPrice (price percent : ℚ) (direction : Direction) : Money :=
  let factor := (100 + if direction = .up then percent else -percent) / 100
  let rounded := roundTo (price * factor) priceStep
  if rounded < priceStep then priceStep else rounded

/-- The struck price that makes `price` show `percent`% off; 0 or ≥100: none. -/
def compareAtForDiscount (price percent : ℚ) : Option Money :=
  if 0 < percent && percent < 100 then
    let old := toPlaces .halfUp 0 (price / (1 - percent / 100))
    if price < old then some old else none
  else none

/-- A struck price that is not above the price is meaningless (and violates a DB CHECK). -/
def normaliseCompareAt (price : Money) (compareAt : Option Money) : Option Money :=
  compareAt.filter (price < ·)

/-! ### Requests -/

/-- `@IsNumber({ maxDecimalPlaces: 2 }) @Min(0) @Max(MONEY_MAX)` -/
structure PriceOk (v : Money) : Prop where
  places : round2 v = v
  nonneg : 0 ≤ v
  max : v ≤ 9999999999

structure CreatePricedProduct extends CreateCatalogueProduct where
  priceOk : PriceOk price
  compareAtOk : ∀ c, compareAtPrice = some c → PriceOk c
  costOk : ∀ c, costPrice = some c → PriceOk c
  initialCopies : ℕ := 0

structure UpdatePricedProduct extends UpdateCatalogueProduct where
  priceOk : ∀ v, price = some v → PriceOk v
  compareAtOk : ∀ c, compareAtPrice = some (some c) → PriceOk c
  costOk : ∀ c, costPrice = some (some c) → PriceOk c

structure BulkPriceDto where
  ids : List ProductId
  unique : ids.Nodup
  percent : ℚ
  min : 1 / 100 ≤ percent
  max : percent ≤ 90
  direction : Direction

structure BulkDiscountDto where
  ids : List ProductId
  unique : ids.Nodup
  percent : ℚ
  min : 0 ≤ percent
  max : percent ≤ 95

structure RestockLotDto where
  qty : ℤ
  qtyPos : 1 ≤ qty
  unitCost : Money
  costOk : PriceOk unitCost
  salePrice : Option Money := none
  saleOk : ∀ v, salePrice = some v → PriceOk v
  saleMin : ∀ v, salePrice = some v → 1 / 100 ≤ v

/-! ### The rows -/

structure PriceDesk where
  catalogue : Catalogue := {}
  store : Store := {}
deriving DecidableEq, Repr

namespace PriceDesk

/-- What a `numeric(12, 2)` column keeps of a row's amounts. -/
def column (p : CatalogueProduct) : CatalogueProduct :=
  { p with price := round2 p.price, compareAtPrice := p.compareAtPrice.map round2,
           costPrice := p.costPrice.map round2 }

def columnMax : Money := 10000000000

/-- The amount columns of a row, and its CHECKs. -/
def check (p : CatalogueProduct) : Except Failure Unit :=
  if columnMax ≤ p.price || p.compareAtPrice.any (columnMax ≤ ·) ||
      p.costPrice.any (columnMax ≤ ·) then .error (.check "numeric(12, 2)")
  else if p.compareAtPrice.any (· < p.price) then .error (.check "products_compare_gte_price")
  else if p.costPrice.any (· < 0) then .error (.check "products_cost_nonneg")
  else if p.price < 0 then .error (.check "products_price_nonneg")
  else .ok ()

/-- The rows as the database has them after a write, or its refusal. -/
def written (c : Catalogue) : Except Failure Catalogue := do
  let rows := c.products.map column
  rows.forM check
  return { c with products := rows }

/-- What the catalogue says of its products, in the view of the stock. -/
def follow (store : Store) (c : Catalogue) : Store :=
  { store with products := c.products.map fun p =>
      { (Rows.lookup Product.id p.id store.products).getD { id := p.id } with
        id := p.id, title := p.title, price := p.price, costPrice := p.costPrice,
        deletedAt := p.deletedAt } }

/-- The average costs that the stock's writes left. -/
def costed (c : Catalogue) (store : Store) : Catalogue :=
  { c with products := c.products.map fun p =>
      { p with costPrice :=
          ((Rows.lookup Product.id p.id store.products).map (·.costPrice)).getD p.costPrice } }

/-- The desk after a write of the catalogue. -/
def save (s : PriceDesk) (c : Catalogue) : Except Failure PriceDesk := do
  let c ← written c
  return { catalogue := c, store := follow s.store c }

/-- The desk after a write of the stock. -/
def stocked (s : PriceDesk) (store : Store) : PriceDesk :=
  { catalogue := costed s.catalogue store, store }

/-! ### The calls -/

def create (s : PriceDesk) (dto : CreatePricedProduct) (slug sku : String) (now : Instant) :
    Except Failure PriceDesk := do
  let c ← ProductAdmin.create s.catalogue dto.toCreateCatalogueProduct slug sku now
  let s' ← s.save c
  if 0 < dto.initialCopies then
    let r ← StockWriter.setOnHand s'.store s.catalogue.products.length dto.initialCopies { now }
      .opening
    return s'.stocked r.1
  else return s'

def update (s : PriceDesk) (id : ProductId) (dto : UpdatePricedProduct) (now : Instant) :
    Except Failure PriceDesk := do
  let c ← ProductAdmin.update s.catalogue id dto.toUpdateCatalogueProduct now
  s.save c

def duplicate (s : PriceDesk) (id : ProductId) (slug sku : String) : Except Failure PriceDesk := do
  let c ← ProductAdmin.duplicate s.catalogue id slug sku
  s.save c

/-- Write the price columns of one row. -/
def setPrice (s : PriceDesk) (id : ProductId) (price : Money) (compareAtPrice : Option Money) :
    Except Failure PriceDesk :=
  s.save (s.catalogue.modifyProduct id fun q =>
    { q with price, compareAtPrice, version := q.version + 1 })

/-- The rows of a bulk edit, in the order they were asked for. -/
def rows (s : PriceDesk) (ids : List ProductId) : List CatalogueProduct :=
  ids.filterMap s.catalogue.product?

/-- ±N% rounded to the nearest ৳5; a struck price that is no longer above the price is dropped. -/
def bulkPrice (s : PriceDesk) (dto : BulkPriceDto) : Except Failure PriceDesk := do
  ProductBulk.load s.catalogue dto.ids
  (s.rows dto.ids).foldlM (fun s p =>
    let price := bulkAdjustedPrice p.price dto.percent dto.direction
    s.setPrice p.id price (normaliseCompareAt price p.compareAtPrice)) s

/-- Show N% off by setting the struck price from the current price; 0 removes it. -/
def bulkDiscount (s : PriceDesk) (dto : BulkDiscountDto) : Except Failure PriceDesk := do
  ProductBulk.load s.catalogue dto.ids
  (s.rows dto.ids).foldlM (fun s p =>
    s.save (s.catalogue.modifyProduct p.id fun q =>
      { q with compareAtPrice := compareAtForDiscount p.price dto.percent,
               version := q.version + 1 })) s

/-- A new selling price, when there is one; the struck price is not looked at. -/
def reprice (s : PriceDesk) (id : ProductId) (before price : Money) : Except Failure PriceDesk :=
  if price = before then .ok s
  else s.save (s.catalogue.modifyProduct id fun q => { q with price })

/-- New stock at a new cost (and optionally a new selling price). -/
def restockLot (s : PriceDesk) (id : ProductId) (dto : RestockLotDto) (now : Instant) :
    Except Failure PriceDesk := do
  match s.catalogue.product? id with
  | none => .error (.notFound "Product" (toString id))
  | some before =>
    let price := dto.salePrice.getD before.price
    let s ← s.reprice id before.price price
    let store ← Inventory.addBatch s.store id dto.qty
      { unitCost := some dto.unitCost, salePrice := some price, source := .restock } { now }
    return s.stocked store

end PriceDesk

/-! ### Calls, one after the other -/

inductive PriceCall
  | create (dto : CreatePricedProduct) (slug sku : String) (now : Instant)
  | update (id : ProductId) (dto : UpdatePricedProduct) (now : Instant)
  | duplicate (id : ProductId) (slug sku : String)
  | bulkPrice (dto : BulkPriceDto)
  | bulkDiscount (dto : BulkDiscountDto)
  | restockLot (id : ProductId) (dto : RestockLotDto) (now : Instant)

namespace PriceDesk

def call (s : PriceDesk) : PriceCall → Except Failure PriceDesk
  | .create dto slug sku now => s.create dto slug sku now
  | .update id dto now => s.update id dto now
  | .duplicate id slug sku => s.duplicate id slug sku
  | .bulkPrice dto => s.bulkPrice dto
  | .bulkDiscount dto => s.bulkDiscount dto
  | .restockLot id dto now => s.restockLot id dto now

/-- A call that is refused leaves everything as it was. -/
def after (s : PriceDesk) (c : PriceCall) : PriceDesk := (s.call c).toOption.getD s

end PriceDesk

end BookHouse
