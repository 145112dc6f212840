/-
The catalogue's stock writes: `catalog/products/application/stock-writer.ts`.

Both go through the inventory service, after a lock on a product that is not deleted, and
report the counts before and after, so that the caller can publish what became of them.
-/
import BookHouse.Inventory

namespace BookHouse

structure StockChange where
  productId : ProductId
  title : String
  before : ℤ
  after : ℤ
  threshold : ℤ
deriving DecidableEq, Repr

/-- `DEFAULT_LOW_STOCK` of the catalogue -/
def defaultLowStock : ℤ := 5

namespace StockWriter

def lock (s : Store) (productId : ProductId) : Except Failure Product :=
  match (Rows.lookup Product.id productId s.products).filter (·.deletedAt.isNone) with
  | none => .error (.notFound "Product" (toString productId))
  | some p => .ok p

def change (cur : Product) (after : ℤ) : StockChange :=
  { productId := cur.id, title := cur.title, before := cur.stockOnHand, after,
    threshold := cur.lowStockThreshold.getD defaultLowStock }

/-- Set an absolute on-hand figure (count correction, opening stock). -/
def setOnHand (s : Store) (productId : ProductId) (onHand : ℤ) (ctx : StockContext)
    (type : StockMovementType) : Except Failure (Store × Option StockChange) := do
  let cur ← lock s productId
  if cur.stockOnHand = onHand then return (s, none)
  else
    let t ← Inventory.setOnHand s productId onHand ctx (some type)
    return (t, some (change cur onHand))

/-- `UPDATE products SET initial_copies = COALESCE(initial_copies, 0) + units` -/
def growCopies (s : Store) (productId : ProductId) (units : ℤ) : Except Failure Store := do
  let updated ← Inventory.updateProduct s productId (fun _ => true)
    (fun p => { p with initialCopies := some (p.initialCopies.getD 0 + units) })
  return (updated.map Prod.snd).getD s

/-- +N units without a purchase (bulk restock / manual receipt), also growing the copies. -/
def add (s : Store) (productId : ProductId) (units : ℤ) (ctx : StockContext) :
    Except Failure (Store × StockChange) := do
  let cur ← lock s productId
  let after := cur.stockOnHand + units
  let t ← Inventory.setOnHand s productId after ctx (some .adjustment)
  let u ← growCopies t productId units
  return (u, change cur after)

end StockWriter

end BookHouse
