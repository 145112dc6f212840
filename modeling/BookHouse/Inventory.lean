/-
The stock ledger: `inventory/inventory.service.ts`, the only code that changes stock.

Every change is a conditional UPDATE on the product and one append-only movement with
the resulting balance.  `release` and `fulfill` take what `GREATEST(…, 0)` does to the
reserved count as a parameter, `clamp`; the code's is `clampZero`.  The batches on the
shelf are consumed oldest first and refilled by returns.
-/
import BookHouse.Schema

namespace BookHouse

open Tally (Entry)

abbrev StockLine := Entry ProductId

structure StockContext where
  orderId : Option OrderId := none
  purchaseId : Option PurchaseId := none
  now : Instant
deriving DecidableEq, Repr

structure LowStockHit where
  productId : ProductId
  title : String
  stockOnHand : ℤ
  threshold : ℤ
deriving DecidableEq, Repr

def defaultLow : ℤ := 5

/-- `GREATEST(x, 0)` -/
def clampZero (x : ℤ) : ℤ := max x 0

namespace Inventory

/-! ### Internals -/

/-- One line per product, in the order of their ids, so that rows are locked in one order. -/
def merge (lines : List StockLine) : Except Failure (List StockLine) :=
  if lines.any (·.qty ≤ 0) then .error (.rule "stock.qty_invalid" "কপি সংখ্যা সঠিক নয়")
  else .ok ((Tally.collect lines).insertionSort fun a b => a.key ≤ b.key)

/-- `UPDATE products SET … WHERE id AND cond RETURNING …`: the updated row, if any. -/
def updateProduct (s : Store) (id : ProductId) (cond : Product → Bool) (f : Product → Product) :
    Except Failure (Option (Product × Store)) :=
  match (Rows.lookup Product.id id s.products).filter cond with
  | none => .ok none
  | some p => do
      (f p).check
      return some (f p, { s with products := Rows.modify Product.id id f s.products })

def log (s : Store) (p : Product) (type : StockMovementType) (onHandDelta reservedDelta : ℤ)
    (ctx : StockContext) (unitCost : Option Money := none) : Except Failure Store :=
  if onHandDelta = 0 && reservedDelta = 0 then .error (.check "stock_movements_nonzero")
  else if p.stockOnHand < 0 then .error (.check "stock_movements_balance")
  else .ok { s with movements := s.movements ++
    [{ productId := p.id, type := type, qtyOnHandDelta := onHandDelta,
       qtyReservedDelta := reservedDelta, unitCost := unitCost, balanceAfter := p.stockOnHand,
       orderId := ctx.orderId, purchaseId := ctx.purchaseId }] }

def lowHit (p : Product) : Option LowStockHit :=
  let threshold := p.lowStockThreshold.getD defaultLow
  if p.stockOnHand ≤ threshold then
    some { productId := p.id, title := p.title, stockOnHand := p.stockOnHand,
           threshold := threshold }
  else none

/-! ### Batches, first in first out -/

structure Used where
  lotId : Option LotId
  qty : ℤ
  unitCost : Option Money
deriving DecidableEq, Repr

def createLot (s : Store) (productId : ProductId) (source : LotSource) (qty : ℤ)
    (unitCost salePrice : Option Money) (purchaseId : Option PurchaseId)
    (receivedAt : Option Instant) (now : Instant) : Except Failure Store :=
  if qty ≤ 0 then .error (.check "stock_lots_qty_chk")
  else if unitCost.any (· < 0) then .error (.check "stock_lots_cost_chk")
  else .ok { s with lots := s.lots ++
    [{ id := s.lots.length, productId := productId, source := source, qtyIn := qty,
       qtyLeft := qty, unitCost := unitCost, salePrice := salePrice, purchaseId := purchaseId,
       receivedAt := receivedAt.getD now, createdAt := now }] }

/-- The batches of a product that still have copies, oldest first. -/
def openLots (s : Store) (productId : ProductId) : List StockLot :=
  (s.lots.filter fun l => l.productId = productId && 0 < l.qtyLeft).insertionSort fun a b =>
    a.receivedAt < b.receivedAt ∨ a.receivedAt = b.receivedAt ∧
      (a.createdAt < b.createdAt ∨ a.createdAt = b.createdAt ∧ a.id ≤ b.id)

/-- Take `need` copies from the batches in turn; what could not be taken is left over. -/
def takeFrom (orderId : Option OrderId) (productId : ProductId) (now : Instant) :
    List StockLot → ℤ → Store → List Used → Store × ℤ × List Used
  | [], need, s, used => (s, need, used)
  | lot :: rest, need, s, used =>
    if need ≤ 0 then (s, need, used)
    else
      let take := min need lot.qtyLeft
      let lots := Rows.modify StockLot.id lot.id
        (fun l => { l with qtyLeft := l.qtyLeft - take }) s.lots
      let consumptions := match orderId with
        | none => s.consumptions
        | some o => s.consumptions ++
            [{ id := s.consumptions.length, lotId := lot.id, productId := productId, orderId := o,
               qty := take, unitCost := lot.unitCost, createdAt := now }]
      takeFrom orderId productId now rest (need - take)
        { s with lots := lots, consumptions := consumptions }
        (used ++ [{ lotId := some lot.id, qty := take, unitCost := lot.unitCost }])

/-- The average cost of the copies on the shelf whose cost is known. -/
def averageCost (s : Store) (productId : ProductId) : Option Money :=
  let lots := s.lots.filter fun l => l.productId = productId && 0 < l.qtyLeft && l.unitCost.isSome
  let units := (lots.map (·.qtyLeft)).sum
  if units = 0 then none
  else some (round2 ((lots.map fun l => l.unitCost.getD 0 * (l.qtyLeft : ℚ)).sum / (units : ℚ)))

/-- Cost price = average cost of copies still on the shelf (unchanged when it is empty). -/
def refreshCost (s : Store) (productId : ProductId) : Store :=
  match averageCost s productId with
  | none => s
  | some avg =>
      let price (p : Product) : Product := { p with costPrice := some avg }
      { s with products := Rows.modify Product.id productId price s.products }

def costPriceOf (s : Store) (productId : ProductId) : Option Money :=
  (Rows.lookup Product.id productId s.products).bind (·.costPrice)

def priceOf (s : Store) (productId : ProductId) : Option Money :=
  (Rows.lookup Product.id productId s.products).map (·.price)

/-- Take qty from the oldest batches first.  Returns what was used, at what cost. -/
def consume (s : Store) (productId : ProductId) (qty : ℤ) (orderId : Option OrderId)
    (now : Instant) : Store × List Used :=
  match takeFrom orderId productId now (openLots s productId) qty s [] with
  | (s, need, used) =>
    -- the shelf had more than the batches knew about: cost at today's price
    let used := if 0 < need then
        used ++ [{ lotId := none, qty := need, unitCost := costPriceOf s productId }]
      else used
    (refreshCost s productId, used)

/-- Give copies back to what an order took, as far as each taking goes. -/
def giveBack : List StockLotConsumption → ℤ → Store → Store × ℤ
  | [], left, s => (s, left)
  | u :: rest, left, s =>
    if left ≤ 0 then (s, left)
    else
      let back := min left (u.qty - u.returned)
      if back ≤ 0 then giveBack rest left s
      else
        let consumptions := Rows.modify StockLotConsumption.id u.id
          (fun c => { c with returned := c.returned + back }) s.consumptions
        let lots := Rows.modify StockLot.id u.lotId
          (fun l => { l with qtyLeft := min (l.qtyLeft + back) l.qtyIn }) s.lots
        giveBack rest (left - back) { s with consumptions := consumptions, lots := lots }

/-- What an order took of a product, newest first. -/
def consumptionsOf (s : Store) (orderId : OrderId) (productId : ProductId) :
    List StockLotConsumption :=
  (s.consumptions.filter fun c => c.orderId = orderId && c.productId = productId).insertionSort
    fun a b => b.createdAt ≤ a.createdAt

/-- What the batches of an order take back, and the copies that are left over. -/
def returnToLots (s : Store) (productId : ProductId) (qty : ℤ) (orderId : Option OrderId) :
    Store × ℤ :=
  match orderId with
  | none => (s, qty)
  | some o => giveBack (consumptionsOf s o productId) qty s

/-- A returned order: copies go back into the batches they left from (newest first). -/
def unconsume (s : Store) (productId : ProductId) (qty : ℤ) (ctx : StockContext) :
    Except Failure Store :=
  let r := returnToLots s productId qty ctx.orderId
  let filled :=
    if 0 < r.2 then
      createLot r.1 productId .return r.2 (costPriceOf r.1 productId) (priceOf r.1 productId) none
        none ctx.now
    else .ok r.1
  filled.map fun s => refreshCost s productId

/-- The average unit cost of what was used, when all of it is known. -/
def usedCost (used : List Used) : Option Money :=
  if used = [] || used.any (·.unitCost.isNone) then none
  else
    let units := (used.map (·.qty)).sum
    some (round2 ((used.map fun u => u.unitCost.getD 0 * (u.qty : ℚ)).sum / (units : ℚ)))

/-- A line and its components take the cost `avg` where they are the product's. -/
def OrderItem.stampCost (productId : ProductId) (avg : Money) (i : OrderItem) : OrderItem :=
  { i with
    unitCost := if i.kind = .product && i.productId = some productId then some avg else i.unitCost,
    components := i.components.map fun c =>
      { c with unitCost := if c.productId = productId then some avg else c.unitCost } }

/-- Real (FIFO) cost of what left the shelf → the order's lines. -/
def stampOrderCost (s : Store) (orderId : OrderId) (productId : ProductId) (used : List Used) :
    Store :=
  match usedCost used with
  | none => s
  | some avg =>
      let stamp (o : Order) : Order :=
        { o with items := o.items.map (OrderItem.stampCost productId avg) }
      { s with orders := Rows.modify Order.id orderId stamp s.orders }

/-! ### Holds, shipping, returns -/

def reserveLine (ctx : StockContext) (s : Store) (l : StockLine) : Except Failure Store := do
  let updated ← updateProduct s l.key
    (fun p => p.deletedAt.isNone &&
      (!p.trackInventory || p.allowBackorder || l.qty ≤ p.stockOnHand - p.stockReserved))
    (fun p => { p with stockReserved := p.stockReserved + l.qty })
  match updated with
  | some (p, s) => log s p .orderReserve 0 l.qty ctx
  | none =>
      match Rows.lookup Product.id l.key s.products with
      | none => .error (.notFound "Product" (toString l.key))
      | some p => .error (.rule "stock.insufficient" s!"{p.title} — স্টকে যথেষ্ট কপি নেই"
          [.num "productId" l.key, .num "requested" l.qty,
           .num "available" (max 0 (p.stockOnHand - p.stockReserved))])

/-- Hold units for an order (on-hand unchanged, reserved += qty). -/
def reserve (s : Store) (lines : List StockLine) (ctx : StockContext) : Except Failure Store := do
  let merged ← merge lines
  merged.foldlM (reserveLine ctx) s

def releaseLine (clamp : ℤ → ℤ) (ctx : StockContext) (s : Store) (l : StockLine) :
    Except Failure Store := do
  let updated ← updateProduct s l.key (fun _ => true)
    (fun p => { p with stockReserved := clamp (p.stockReserved - l.qty) })
  match updated with
  | some (p, s) => log s p .orderRelease 0 (-l.qty) ctx
  | none => .ok s

/-- Give a hold back (order cancelled before it left the shelf). -/
def release (clamp : ℤ → ℤ) (s : Store) (lines : List StockLine) (ctx : StockContext) :
    Except Failure Store := do
  let merged ← merge lines
  merged.foldlM (releaseLine clamp ctx) s

def fulfillLine (clamp : ℤ → ℤ) (ctx : StockContext) (r : Store × List LowStockHit)
    (l : StockLine) : Except Failure (Store × List LowStockHit) := do
  let updated ← updateProduct r.1 l.key (fun p => p.allowBackorder || l.qty ≤ p.stockOnHand)
    (fun p => { p with stockOnHand := p.stockOnHand - l.qty,
                       stockReserved := clamp (p.stockReserved - l.qty),
                       soldCount := p.soldCount + l.qty })
  match updated with
  | none => .error (.rule "stock.fulfil_failed" "শেলফে যথেষ্ট কপি নেই" [.num "productId" l.key])
  | some (p, s) =>
      let s ← log s p .orderFulfill (-l.qty) (-l.qty) ctx
      let (s, used) := consume s l.key l.qty ctx.orderId ctx.now
      let s := match ctx.orderId with
        | none => s
        | some o => stampOrderCost s o l.key used
      return (s, r.2 ++ (lowHit p).toList)

/-- Units physically leave (handed to courier): on-hand −qty, reserved −qty. -/
def fulfill (clamp : ℤ → ℤ) (s : Store) (lines : List StockLine) (ctx : StockContext) :
    Except Failure (Store × List LowStockHit) := do
  let merged ← merge lines
  merged.foldlM (fulfillLine clamp ctx) (s, [])

def restockLine (ctx : StockContext) (s : Store) (l : StockLine) : Except Failure Store := do
  let updated ← updateProduct s l.key (fun _ => true)
    (fun p => { p with stockOnHand := p.stockOnHand + l.qty,
                       soldCount := clampZero (p.soldCount - l.qty) })
  match updated with
  | some (p, s) => do
      let s ← log s p .returnRestock l.qty 0 ctx
      unconsume s l.key l.qty ctx
  | none => .ok s

/-- Returned goods back on the shelf. -/
def restock (s : Store) (lines : List StockLine) (ctx : StockContext) : Except Failure Store := do
  let merged ← merge lines
  merged.foldlM (restockLine ctx) s

/-! ### Receipts and corrections -/

structure Batch where
  unitCost : Option Money := none
  salePrice : Option Money := none
  source : LotSource
  receivedAt : Option Instant := none
deriving DecidableEq, Repr

/-- +qty copies as one batch with its own cost. -/
def addBatch (s : Store) (productId : ProductId) (qty : ℤ) (batch : Batch) (ctx : StockContext) :
    Except Failure Store := do
  if qty ≤ 0 then .error (.rule "stock.qty_invalid" "কপি সংখ্যা শূন্যের বেশি দিন")
  else match Rows.lookup Product.id productId s.products with
  | none => .error (.notFound "Product" (toString productId))
  | some cur =>
      let updated ← updateProduct s productId (fun _ => true)
        (fun p => { p with stockOnHand := p.stockOnHand + qty,
                           initialCopies := some (p.initialCopies.getD 0 + qty) })
      match updated with
      | none => .error (.notFound "Product" (toString productId))
      | some (p, s) =>
          let cost := (batch.unitCost.map round2).orElse fun _ => cur.costPrice
          let salePrice := (batch.salePrice.map round2).getD cur.price
          let s ← log s p .purchaseReceipt qty 0 ctx cost
          let s ← createLot s productId batch.source qty cost (some salePrice) ctx.purchaseId
            batch.receivedAt ctx.now
          return refreshCost s productId

/-- Goods received from a supplier: a new batch at this purchase's cost. -/
def receive (s : Store) (productId : ProductId) (qty : ℤ) (unitCost : Money)
    (ctx : StockContext) : Except Failure Store :=
  addBatch s productId qty { unitCost := some unitCost, source := .purchase } ctx

/-- Manual count correction to an absolute on-hand figure. -/
def setOnHand (s : Store) (productId : ProductId) (onHand : ℤ) (ctx : StockContext)
    (type : Option StockMovementType := none) : Except Failure Store := do
  if onHand < 0 then .error (.rule "stock.negative" "স্টক ঋণাত্মক হতে পারে না")
  else match Rows.lookup Product.id productId s.products with
  | none => .error (.notFound "Product" (toString productId))
  | some cur =>
      let delta := onHand - cur.stockOnHand
      if delta = 0 then .ok s
      else if onHand < cur.stockReserved then
        .error (.rule "stock.below_reserved"
          s!"চলমান অর্ডারে {cur.stockReserved}টি আটকানো — এর কম করা যাবে না")
      else
        let updated ← updateProduct s productId (fun _ => true)
          (fun p => { p with stockOnHand := onHand })
        match updated with
        | none => .error (.notFound "Product" (toString productId))
        | some (p, s) =>
            let s ← log s p (type.getD .adjustment) delta 0 ctx
            let batched :=
              if 0 < delta then
                createLot s productId (if type = some .opening then .opening else .adjust) delta
                  (costPriceOf s productId) (priceOf s productId) none none ctx.now
              else .ok (consume s productId (-delta) none ctx.now).1
            batched.map fun s => refreshCost s productId

end Inventory

end BookHouse
