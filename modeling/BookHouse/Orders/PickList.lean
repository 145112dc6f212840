/-
The warehouse pick list of `orders/domain/pick-list.ts`.

`groups` of the source is a `Map`: entries in the order their keys were first set, here a
list with the entry's key as a field.  `localeCompare` is the runtime's.
-/
import BookHouse.Orders.Transition

namespace BookHouse

structure PickHeader where
  orderNo : String
  contactName : String
  contactPhone : String
  address : String
deriving DecidableEq, Repr

structure PickOrderInput extends PickHeader where
  items : List OrderItem
deriving DecidableEq, Repr

structure StockLevel where
  stockOnHand : ℤ
  stockReserved : ℤ
  sku : Option String := none
deriving DecidableEq, Repr

structure PickGroup where
  productId : ProductId
  title : String
  sku : Option String
  quantity : ℤ := 0
  stockOnHand : Option ℤ
  /-- units missing from the shelf for this pick (0 = ok) -/
  shortfall : ℤ := 0
  orders : List String := []
  /-- bundles this product was picked for -/
  viaBundles : List String := []
deriving DecidableEq, Repr

structure PickList where
  groups : List PickGroup
  units : ℤ
  shortCount : ℕ
  orders : List PickHeader
deriving DecidableEq, Repr

/-- Units of one product that one order takes, through a bundle or not. -/
structure Pick where
  productId : ProductId
  title : String
  qty : ℤ
  orderNo : String
  via : Option String := none
deriving DecidableEq, Repr

namespace PickList

/-- `if (!list.includes(x)) list.push(x)` -/
def push (x : String) (list : List String) : List String :=
  if x ∈ list then list else list ++ [x]

variable (stock : ProductId → Option StockLevel)

def newGroup (p : Pick) : PickGroup :=
  let s := stock p.productId
  { productId := p.productId, title := p.title, sku := s.bind (·.sku),
    stockOnHand := s.map (·.stockOnHand) }

def took (p : Pick) (g : PickGroup) : PickGroup :=
  { g with
    quantity := g.quantity + p.qty
    orders := push p.orderNo g.orders
    viaBundles := match p.via with
      | some via => if via = "" then g.viaBundles else push via g.viaBundles
      | none => g.viaBundles }

/-- Add the units to the product's group, or to a new last one. -/
def add (p : Pick) : List PickGroup → List PickGroup
  | [] => [took p (newGroup stock p)]
  | g :: map => if g.productId = p.productId then took p g :: map else g :: add p map

/-- What one line takes: a bundle line is expanded into its books. -/
def picksOf (orderNo : String) (it : OrderItem) : List Pick :=
  match it.kind with
  | .bundle => it.components.map fun c =>
      { productId := c.productId, title := c.title, qty := c.quantity, orderNo, via := it.title }
  | .product =>
      match it.productId with
      | some productId => [{ productId, title := it.title, qty := it.quantity, orderNo }]
      | none => []

def withShortfall (g : PickGroup) : PickGroup :=
  { g with shortfall := match g.stockOnHand with
      | none => 0
      | some stockOnHand => max 0 (g.quantity - stockOnHand) }

/-- `b.quantity - a.quantity || a.title.localeCompare(b.title)` -/
def order (localeCompare : String → String → ℤ) (a b : PickGroup) : ℤ :=
  if b.quantity - a.quantity ≠ 0 then b.quantity - a.quantity else localeCompare a.title b.title

end PickList

open PickList in
/-- Every unit that must leave the shelf for the orders, grouped by product. -/
def buildPickList (localeCompare : String → String → ℤ) (orders : List PickOrderInput)
    (stock : ProductId → Option StockLevel) : PickList :=
  let map := orders.foldl (fun map o =>
    o.items.foldl (fun map it =>
      (picksOf o.orderNo it).foldl (fun map p => add stock p map) map) map) []
  let groups := (map.map withShortfall).insertionSort fun a b => order localeCompare a b ≤ 0
  { groups,
    units := (groups.map (·.quantity)).sum,
    shortCount := groups.countP (0 < ·.shortfall),
    orders := orders.map (·.toPickHeader) }

end BookHouse
