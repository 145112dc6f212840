/-
The shop as a machine on its stock: every committed operation that moves units.

An action is one service call with its arguments; a call that fails is not a step.
-/
import BookHouse.Lib.Machine
import BookHouse.Orders.Placement

namespace BookHouse

inductive StockAction
  | place (req : PlaceOrder) (now : Instant)
  | apply (ref : OrderId) (cmd : TransitionCommand) (actor : TransitionActor) (now : Instant)
  | regress (ref : OrderId) (note : Option String) (expectedVersion : Option ℤ)
      (actor : TransitionActor) (now : Instant)
  | reopen (ref : OrderId) (cmd : ReopenCommand) (actor : TransitionActor) (now : Instant)
  | receive (productId : ProductId) (qty : ℤ) (unitCost : Money) (ctx : StockContext)
  | addBatch (productId : ProductId) (qty : ℤ) (batch : Inventory.Batch) (ctx : StockContext)
  | setOnHand (productId : ProductId) (onHand : ℤ) (ctx : StockContext)
      (type : Option StockMovementType)
deriving DecidableEq, Repr

namespace StockAction

/-- The service call of an action, under a clamp for the reserved counts. -/
def call (clamp : ℤ → ℤ) (s : Store) : StockAction → Except Failure Store
  | place req now => (placeInTx s req now).map Prod.fst
  | apply ref cmd actor now => (applyTransition clamp s ref cmd actor now).map Prod.fst
  | regress ref note version actor now =>
      (BookHouse.regress clamp s ref note version actor now).map Prod.fst
  | reopen ref cmd actor now => (BookHouse.reopen s ref cmd actor now).map Prod.fst
  | receive p qty cost ctx => Inventory.receive s p qty cost ctx
  | addBatch p qty batch ctx => Inventory.addBatch s p qty batch ctx
  | setOnHand p onHand ctx type => Inventory.setOnHand s p onHand ctx type

/-- Who moves an order by an action. -/
def actor : StockAction → Option TransitionActor
  | apply _ _ actor _ | regress _ _ _ actor _ | reopen _ _ actor _ => some actor
  | _ => none

/-- Whether an action reopens an order. -/
def reopens : StockAction → Bool
  | reopen .. => true
  | _ => false

/-- The units of a product that an action brings into the shop, or counts away. -/
def received (s : Store) (p : ProductId) : StockAction → ℤ
  | receive q qty _ _ => if q = p then qty else 0
  | addBatch q qty _ _ => if q = p then qty else 0
  | setOnHand q onHand _ _ =>
      if q = p then onHand - ((Rows.lookup Product.id p s.products).map (·.stockOnHand)).getD 0
      else 0
  | _ => 0

end StockAction

/-- One committed call. -/
def stockStep (clamp : ℤ → ℤ) (s : Store) (a : StockAction) : Option Store :=
  (a.call clamp s).toOption

/-- The units of a product received and corrected over a run. -/
def receivedAlong (p : ProductId) : Store → List StockAction → ℤ
  | _, [] => 0
  | s, a :: rest => a.received s p + match stockStep clampZero s a with
    | none => 0
    | some s' => receivedAlong p s' rest

end BookHouse
