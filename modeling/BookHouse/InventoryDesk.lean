/-
The calls of `inventory/inventory.service.ts`, in whatever order its callers commit them.

`fulfill` and `restock` are called by the transitions of an order, with the lines of that
order; `reserve`, `release`, receipts and count corrections come in between, and so do the
writes of the rest of the shop, which may change anything but the batches, the takings and
the counts on the shelf.
-/
import BookHouse.Inventory

namespace BookHouse

inductive ShelfAction where
  | reserve (lines : List StockLine) (ctx : StockContext)
  | release (lines : List StockLine) (ctx : StockContext)
  | fulfill (lines : List StockLine) (ctx : StockContext)
  | restock (lines : List StockLine) (ctx : StockContext)
  | receive (productId : ProductId) (qty : ℤ) (unitCost : Money) (ctx : StockContext)
  | addBatch (productId : ProductId) (qty : ℤ) (batch : Inventory.Batch) (ctx : StockContext)
  | setOnHand (productId : ProductId) (onHand : ℤ) (ctx : StockContext)
      (type : Option StockMovementType)
  /-- the rest of the shop writes the store `t` -/
  | elsewhere (t : Store)
deriving DecidableEq

/-- What only the inventory service writes is as it was. -/
def shelfUntouched (s t : Store) : Bool :=
  t.lots = s.lots && t.consumptions = s.consumptions &&
    t.products.map (fun p => (p.id, p.stockOnHand)) =
      s.products.map fun p => (p.id, p.stockOnHand)

/-- One committed call; a call that throws is rolled back and leaves nothing. -/
def shelfStep (s : Store) : ShelfAction → Option Store
  | .reserve lines ctx => (Inventory.reserve s lines ctx).toOption
  | .release lines ctx => (Inventory.release clampZero s lines ctx).toOption
  | .fulfill lines ctx => ((Inventory.fulfill clampZero s lines ctx).map Prod.fst).toOption
  | .restock lines ctx => (Inventory.restock s lines ctx).toOption
  | .receive productId qty unitCost ctx =>
      (Inventory.receive s productId qty unitCost ctx).toOption
  | .addBatch productId qty batch ctx => (Inventory.addBatch s productId qty batch ctx).toOption
  | .setOnHand productId onHand ctx type =>
      (Inventory.setOnHand s productId onHand ctx type).toOption
  | .elsewhere t => if shelfUntouched s t then some t else none

/-- The order whose units a call ships or takes back. -/
def ShelfAction.order? : ShelfAction → Option OrderId
  | .fulfill _ ctx => ctx.orderId
  | .restock _ ctx => ctx.orderId
  | _ => none

/--
The calls come in round trips of the order: it ships its lines, others do what they do, and
the same lines come back.  A reopened order that ships again starts another one.
-/
inductive RoundTrips (o : OrderId) : List ShelfAction → Prop
  | nil : RoundTrips o []
  | others {a : ShelfAction} {rest : List ShelfAction} (ha : a.order? ≠ some o)
      (h : RoundTrips o rest) : RoundTrips o (a :: rest)
  | trip {lines : List StockLine} {ctx ctx' : StockContext} {between rest : List ShelfAction}
      (ho : ctx.orderId = some o) (hb : ∀ a ∈ between, a.order? ≠ some o)
      (ho' : ctx'.orderId = some o) (h : RoundTrips o rest) :
      RoundTrips o (.fulfill lines ctx :: (between ++ .restock lines ctx' :: rest))

end BookHouse
