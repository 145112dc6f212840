/-
The shop as its books see it: orders are placed, go through their histories, and have
their papers drawn and their money booked, many orders side by side.

The orders are the store's, and the books are drawn from them as they stand.  A service
call that moves an order writes its row (`change`) and, when its copies leave the shelf, the
costs of its lines (`stampCost`); what it does to stock, customers and coupons, and all else
that writes neither an order nor a paper nor cash, is `other`.
-/
import BookHouse.Finance.History
import BookHouse.Orders.Placement

namespace BookHouse

structure ShopState where
  store : Store := {}
  /-- the papers, the cash and what else they are drawn from; the orders are the store's -/
  books : Books := {}
deriving DecidableEq, Repr

/-- The books over the orders as they stand. -/
def ShopState.current (s : ShopState) : Books := { s.books with orders := s.store.orders }

/-- A checkout request as the catalogue prices it: prices are `Decimal(12, 2)` columns. -/
structure CatalogueOrder extends PlaceOrder where
  prices : ∀ l ∈ lines, round2 l.unitPrice = l.unitPrice
deriving DecidableEq, Repr

inductive ShopAction
  | place (req : CatalogueOrder) (now : Instant)
  /-- one change of an order's history -/
  | change (orderId : OrderId) (c : OrderChange)
  /-- what left the shelf for an order is costed on its lines -/
  | stampCost (orderId : OrderId) (productId : ProductId) (used : List Inventory.Used)
  /-- `syncCourierCost`: the charges of an order's shipments changed -/
  | courierCost (orderId : OrderId) (cost : Money)
  /-- a call on the books -/
  | books (a : BooksAction)
  /-- any write of another module to the other tables -/
  | other (store : Store) (sources : PaperSources) (accounts : List CashAccount)
      (shipments : List Shipment)
deriving DecidableEq, Repr

namespace ShopState

def withSources (s : ShopState) (sources : PaperSources) : ShopState :=
  { store := { s.store with orders := sources.orders }, books := s.books.withSources sources }

def setCourierCost (s : ShopState) (orderId : OrderId) (cost : Money) : ShopState :=
  { s with store := { s.store with
      orders := Rows.modify Order.id orderId (fun o => { o with courierCost := cost }) s.store.orders } }

end ShopState

/-- One committed call. -/
def shopStep (s : ShopState) : ShopAction → Option ShopState
  | .place req now =>
      ((placeInTx s.store req.toPlaceOrder now).toOption).map fun r => { s with store := r.1 }
  | .change orderId c =>
      ((c.apply s.current.toPaperSources orderId).toOption).map fun r => s.withSources r.1
  | .stampCost orderId productId used =>
      some { s with store := Inventory.stampOrderCost s.store orderId productId used }
  | .courierCost orderId cost => some (s.setCourierCost orderId cost)
  | .books (.change ..) => none
  | .books a => (booksStep s.current a).map fun books => { s with books }
  | .other store sources accounts shipments =>
      if store.orders = s.store.orders then
        some { store, books := { s.books with
          toPaperSources := sources, cash := { s.books.cash with accounts }, shipments } }
      else none

end BookHouse
