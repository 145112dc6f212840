/-
Holding and shipping one product: the reservations of many orders against one row.

The UPDATE of a reservation, the UPDATE of a fulfilment and the CHECKs of the table treat
the flags of the product differently.  An action is one committed call of the inventory
service on the product.
-/
import BookHouse.Inventory
import BookHouse.Lib.Machine

namespace BookHouse

/-- The units of the product that an order holds. -/
structure Hold where
  orderId : OrderId
  qty : ℤ
deriving DecidableEq, Repr

structure HoldState where
  store : Store
  held : List Hold := []
deriving DecidableEq, Repr

inductive HoldAction
  | reserve (h : Hold) (now : Instant)
  | release (i : ℕ) (now : Instant)
  | fulfill (i : ℕ) (now : Instant)
  /-- a parcel comes back -/
  | restock (h : Hold) (now : Instant)
  | addBatch (qty : ℤ) (batch : Inventory.Batch) (ctx : StockContext)
  | setOnHand (onHand : ℤ) (ctx : StockContext) (type : Option StockMovementType)
deriving DecidableEq, Repr

namespace Hold

variable (p : ProductId) (h : Hold)

def lines : List StockLine := [⟨p, h.qty⟩]

def ctx (now : Instant) : StockContext := { orderId := some h.orderId, now }

end Hold

/-- One call on product `p`. -/
def HoldAction.call (p : ProductId) (s : HoldState) : HoldAction → Except Failure HoldState
  | .reserve h now =>
      (Inventory.reserve s.store (h.lines p) (h.ctx now)).map fun store =>
        { store, held := s.held ++ [h] }
  | .release i now =>
    match s.held[i]? with
    | none => .error (.notFound "Order" (toString i))
    | some h =>
        (Inventory.release clampZero s.store (h.lines p) (h.ctx now)).map fun store =>
          { store, held := s.held.eraseIdx i }
  | .fulfill i now =>
    match s.held[i]? with
    | none => .error (.notFound "Order" (toString i))
    | some h =>
        (Inventory.fulfill clampZero s.store (h.lines p) (h.ctx now)).map fun r =>
          { store := r.1, held := s.held.eraseIdx i }
  | .restock h now =>
      (Inventory.restock s.store (h.lines p) (h.ctx now)).map fun store => { s with store }
  | .addBatch qty batch ctx =>
      (Inventory.addBatch s.store p qty batch ctx).map fun store => { s with store }
  | .setOnHand onHand ctx type =>
      (Inventory.setOnHand s.store p onHand ctx type).map fun store => { s with store }

def holdStep (p : ProductId) (s : HoldState) (a : HoldAction) : Option HoldState :=
  (a.call p s).toOption

/-- Fulfil the holds one after another. -/
def shipAll (p : ProductId) (now : Instant) (s : Store) (hs : List Hold) : Except Failure Store :=
  hs.foldlM (fun s h => (Inventory.fulfill clampZero s (h.lines p) (h.ctx now)).map Prod.fst) s

/-- Whatever is held can be shipped, one order after another and in any order. -/
def HeldShips (p : ProductId) (s : HoldState) : Prop :=
  ∀ hs now, hs.Perm s.held → ∃ t, shipAll p now s.store hs = .ok t

/-- An order can hold any number of copies of a product that is untracked or back-ordered. -/
def ReservesFreely (p : ProductId) (s : HoldState) : Prop :=
  ∀ row, Rows.lookup Product.id p s.store.products = some row →
    (!row.trackInventory || row.allowBackorder) → ∀ (h : Hold) now, 0 < h.qty →
      ∃ t, Inventory.reserve s.store (h.lines p) (h.ctx now) = .ok t

/-- The units held. -/
def heldQty (hs : List Hold) : ℤ := (hs.map Hold.qty).sum

/-- No back-order, or no more held than there is. -/
def coversHeld (row : Product) (hs : List Hold) : Bool :=
  !row.allowBackorder || heldQty hs ≤ row.stockOnHand

/-- Tracked without back-order, or back-ordered and not deleted. -/
def backordersFreely (row : Product) : Bool :=
  if row.allowBackorder then row.deletedAt.isNone else row.trackInventory

end BookHouse
