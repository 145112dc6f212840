/-
The carts: `orders/cart/application/cart.service.ts`, statement by statement.

Only `clear` and `merge` write in a transaction, and each is one step here; the other calls
look the cart up, write and touch it in statements of their own, and any statement may fail.
The lines of a cart are kept with it, in the order of the table, and the view that is made of
the cart a call answers with is the one of `Orders/Cart`.  What the catalogue and the coupons
say at a statement comes from the outside.  The desk also keeps which calls are under way and
what was answered, neither of which is a table.
-/
import BookHouse.Orders.Cart
import BookHouse.Platform.CounterDesk
import BookHouse.Runtime

namespace BookHouse

/-! ### Whose cart it is -/

/-- `/[A-Za-z0-9_-]/` -/
def isTokenChar (c : Char) : Bool := c.isAlphanum || c = '_' || c = '-'

/-- A guest's token, as `/^[A-Za-z0-9_-]{16,64}$/` accepts it. -/
structure CartToken where
  text : String
  chars : text.toList.all isTokenChar = true
  long : 16 ≤ text.length ∧ text.length ≤ 64
deriving DecidableEq

def CartToken.read (text : String) : Option CartToken :=
  if h : text.toList.all isTokenChar = true ∧ 16 ≤ text.length ∧ text.length ≤ 64 then
    some ⟨text, h.1, h.2⟩
  else none

inductive CartOwner
  | customer (id : CustomerId)
  | guest (token : CartToken)
deriving DecidableEq

def CartOwner.customerId : CartOwner → Option CustomerId
  | customer id => some id
  | guest _ => none

/-- Customer cart when logged in as a shopper, otherwise the guest token (if any). -/
def CartService.owner (user : Option AuthUser) (token : Option String) : Option CartOwner :=
  match user.bind (·.customerId) with
  | some id => some (.customer id)
  | none => (token.bind CartToken.read).map .guest

/-! ### The tables -/

/-- A row of `carts` with its rows of `cart_items`. -/
structure CartRow extends Cart where
  expiresAt : Option Instant := none
  updatedAt : Instant := 0
deriving DecidableEq

/-- `GUEST_TTL_DAYS` -/
def guestTtl : Instant := 30 * 86400000

/-- The filters of `find`, but for the time. -/
def CartOwner.owns : CartOwner → CartRow → Bool
  | customer id, c => c.customerId = some id
  | guest token, c => c.guestToken = some token.text && c.customerId.isNone

def CartItem.key (i : CartItem) : LineKey :=
  match i.productId with
  | some id => ⟨.product, id⟩
  | none => ⟨.bundle, i.bundleId.getD 0⟩

/-- A line of `⟨kind, id⟩`, `cart_items_one_target`. -/
def LineKey.item (k : LineKey) (id : CartItemId) (quantity : ℤ) : CartItem :=
  match k.kind with
  | .product => { id, productId := some k.id, quantity }
  | .bundle => { id, bundleId := some k.id, quantity }

/-- `dto.kind === 'PRODUCT' ? i.productId === id : i.bundleId === id` -/
def CartItem.isOf (k : LineKey) (i : CartItem) : Bool :=
  match k.kind with
  | .product => i.productId = some k.id
  | .bundle => i.bundleId = some k.id

/-- `g.productId ? m.productId === g.productId : m.bundleId === g.bundleId` -/
def CartItem.same (g m : CartItem) : Bool :=
  if g.productId.isSome then m.productId = g.productId else m.bundleId = g.bundleId

namespace CartRow

/-- A guest's cart is found until its time is over. -/
def live (now : Instant) (c : CartRow) : Bool :=
  c.customerId.isSome || c.expiresAt.all (now < ·)

def setItem (id : CartItemId) (quantity : ℤ) (c : CartRow) : CartRow :=
  { c with items := c.items.map fun i => if i.id = id then { i with quantity } else i }

def dropItem (id : CartItemId) (c : CartRow) : CartRow :=
  { c with items := c.items.filter (·.id ≠ id) }

def addItem (item : CartItem) (c : CartRow) : CartRow := { c with items := c.items ++ [item] }

def clear (c : CartRow) : CartRow := { c with items := [], couponCode := none }

def touch (now : Instant) (guest : Bool) (c : CartRow) : CartRow :=
  { c with updatedAt := now, expiresAt := if guest then some (now + guestTtl) else c.expiresAt }

/-- `f` on the cart with this id. -/
def only (id : CartId) (f : CartRow → CartRow) (c : CartRow) : CartRow :=
  if c.id = id then f c else c

/-- One line of the guest's: quantities add up, max 99. -/
def takeItem (mine : CartRow) (acc : CartRow × CartItemId) (g : CartItem) : CartRow × CartItemId :=
  match mine.items.find? g.same with
  | some same => (acc.1.setItem same.id (min 99 (same.quantity + g.quantity)), acc.2)
  | none => (acc.1.addItem { g with id := acc.2 }, acc.2 + 1)

/-- The guest's lines and coupon in the customer's cart; new lines are numbered from `next`. -/
def take (mine guest : CartRow) (next : CartItemId) : CartRow × CartItemId :=
  let (taken, next) := guest.items.foldl (takeItem mine) (mine, next)
  (if mine.couponCode.all (· = "") && guest.couponCode.any (· ≠ "") then
    { taken with couponCode := guest.couponCode }
  else taken, next)

end CartRow

/-! ### Requests -/

structure AddCartItemDto where
  kind : LineKind
  productId : Option ProductId := none
  bundleId : Option BundleId := none
  quantity : Option ℤ := none
  bounds : ∀ q ∈ quantity, 1 ≤ q ∧ q ≤ 99

namespace AddCartItemDto

/-- What is to be added. -/
def key (dto : AddCartItemDto) : Option LineKey :=
  match dto.kind with
  | .product => dto.productId.map fun id => ⟨.product, id⟩
  | .bundle => dto.bundleId.map fun id => ⟨.bundle, id⟩

def qty (dto : AddCartItemDto) : ℤ := dto.quantity.getD 1

end AddCartItemDto

/-- 0 removes the line -/
structure UpdateCartItemDto where
  quantity : ℤ
  bounds : 0 ≤ quantity ∧ quantity ≤ 99

inductive CartRequest
  | get (owner : Option CartOwner)
  | create (owner : Option CartOwner)
  | add (owner : Option CartOwner) (dto : AddCartItemDto)
  | setQuantity (owner : Option CartOwner) (itemId : CartItemId) (dto : UpdateCartItemDto)
  | clear (owner : Option CartOwner)
  | applyCoupon (owner : Option CartOwner) (code : String)
  | removeCoupon (owner : Option CartOwner)
  | merge (customerId : CustomerId) (guestToken : CartToken)
  /-- an order has been placed -/
  | clearForOrder (owner : Option CartOwner)
  | purgeExpiredGuestCarts

/-- Whose carts a call is about. -/
def CartRequest.owners : CartRequest → List CartOwner
  | get owner | create owner | add owner _ | setQuantity owner _ _ | clear owner
  | applyCoupon owner _ | removeCoupon owner | clearForOrder owner => owner.toList
  | merge customerId guestToken => [.customer customerId, .guest guestToken]
  | purgeExpiredGuestCarts => []

/-- What a call answers: the cart that its view is made of. -/
abbrev CartAnswer := Except Fault (Option CartRow)

/-- A call that has been answered. -/
structure CartEvent where
  thread : TxId
  request : CartRequest
  answer : CartAnswer
  arrived : Instant
  answered : Instant

/-- A call under way. -/
structure Visit where
  thread : TxId
  request : CartRequest
  /-- whose carts it works on; a guest's that it has created is one of them -/
  owners : List CartOwner
  arrived : Instant
  /-- their carts when it came to them -/
  before : CartOwner → Option CartRow

/-- The call has created the cart of a guest. -/
def Visit.drawn (token : CartToken) (v : Visit) : Visit :=
  { v with owners := .guest token :: v.owners,
           before := Function.update v.before (.guest token) none }

structure CartDesk where
  carts : List CartRow
  nextCart : CartId
  nextItem : CartItemId
  now : Instant
  underway : List Visit := []
  /-- the last one first -/
  history : List CartEvent := []

/-- The cart that `find` looks for, whether its time is over or not. -/
def CartDesk.cart (s : CartDesk) (o : CartOwner) : Option CartRow := s.carts.find? o.owns

/-! ### Statements -/

inductive CartOp
  /-- the request comes in -/
  | arrive (request : CartRequest)
  | find (owner : CartOwner)
  /-- `PricingService.loadLines` of one line: why it cannot be sold -/
  | loadLines (key : LineKey) (quantity : ℤ)
  /-- `PricingService.quote` of a cart with a coupon -/
  | quote (cart : CartRow) (code : String) (customerId : Option CustomerId)
  | createCart (customerId : Option CustomerId)
  | updateItem (id : CartItemId) (quantity : ℤ)
  | createItem (cartId : CartId) (key : LineKey) (quantity : ℤ)
  | deleteItem (id : CartItemId)
  | clear (cartId : CartId)
  | setCoupon (cartId : CartId) (code : Option String)
  | merge (customerId : CustomerId) (guestToken : CartToken)
  | findToken (cartId : CartId)
  | touch (cartId : CartId) (guest : Bool)
  | clearForOrder (owner : CartOwner)
  | purge
  /-- the answer goes out -/
  | answer (answer : CartAnswer)

@[reducible] def CartOp.Res : CartOp → Type
  | find _ => Option CartRow
  | loadLines .. => Option UnavailableReason
  | quote .. => PricedLines
  | createCart _ | touch .. => CartRow
  | merge .. => Option CartId
  | findToken _ => Option String
  | arrive _ | updateItem .. | createItem .. | deleteItem _ | clear _ | setCoupon ..
  | clearForOrder _ | purge | answer _ => Unit

/-- What the outside adds to a statement. -/
structure CartInput where
  now : Instant
  fault : Option Fault := none
  /-- `randomBytes(24).toString('base64url')` -/
  token : CartToken
  /-- the shop's tables -/
  store : Store
  shop : Shop := {}

namespace CartDesk

def notFound : Fault := .database "P2025" "Record not found"

/-- An update of `carts` or `cart_items`. -/
def edit (s : CartDesk) (f : CartRow → CartRow) : CartDesk := { s with carts := s.carts.map f }

/-- `findFirst`, the one that was updated last first -/
def findFirst (s : CartDesk) (p : CartRow → Bool) : Option CartRow :=
  ((s.carts.filter p).insertionSort fun a b => b.updatedAt ≤ a.updatedAt).head?

def newCart (s : CartDesk) (customerId : Option CustomerId) (token : CartToken) : CartRow :=
  match customerId with
  | some id => { id := s.nextCart, customerId := some id, items := [], updatedAt := s.now }
  | none =>
    { id := s.nextCart, guestToken := some token.text, items := [],
      expiresAt := some (s.now + guestTtl), updatedAt := s.now }

def push (s : CartDesk) (c : CartRow) : CartDesk :=
  { s with carts := s.carts ++ [c], nextCart := s.nextCart + 1 }

/-- `guest_token` is unique. -/
def insertCart (s : CartDesk) (customerId : Option CustomerId) (token : CartToken) :
    Except Fault CartRow × CartDesk :=
  let c := s.newCart customerId token
  if c.guestToken.isSome && s.carts.any (·.guestToken = c.guestToken) then
    (.error (Failure.unique "carts_guest_token_key").fault, s)
  else (.ok c, s.push c)

def hasItem (s : CartDesk) (id : CartItemId) : Bool := s.carts.any (·.items.any (·.id = id))

def inRange (quantity : ℤ) : Bool := 0 < quantity && quantity ≤ 99

def badQuantity : Fault := (Failure.check "cart_items_qty_pos").fault

def updateItem (s : CartDesk) (id : CartItemId) (quantity : ℤ) : Except Fault Unit × CartDesk :=
  if !s.hasItem id then (.error notFound, s)
  else if !inRange quantity then (.error badQuantity, s)
  else (.ok (), s.edit (·.setItem id quantity))

def lineIndex : LineKind → String
  | .product => "cart_items_cart_id_product_id_key"
  | .bundle => "cart_items_cart_id_bundle_id_key"

/-- Of each product and each bundle a cart has one line. -/
def createItem (s : CartDesk) (cartId : CartId) (key : LineKey) (quantity : ℤ) :
    Except Fault Unit × CartDesk :=
  match s.carts.find? (·.id = cartId) with
  | none => (.error (.database "P2003" "Foreign key constraint violated"), s)
  | some c =>
    if !inRange quantity then (.error badQuantity, s)
    else if c.items.any (·.isOf key) then
      (.error (Failure.unique (lineIndex key.kind)).fault, s)
    else
      (.ok (), { s.edit (CartRow.only cartId (·.addItem (key.item s.nextItem quantity))) with
                 nextItem := s.nextItem + 1 })

def deleteItem (s : CartDesk) (id : CartItemId) : Except Fault Unit × CartDesk :=
  if s.hasItem id then (.ok (), s.edit (·.dropItem id)) else (.error notFound, s)

/-- `@updatedAt` -/
def stamp (s : CartDesk) (f : CartRow → CartRow) (c : CartRow) : CartRow :=
  { f c with updatedAt := s.now }

/-- An update of one cart. -/
def update (s : CartDesk) (id : CartId) (f : CartRow → CartRow) : Except Fault Unit × CartDesk :=
  if s.carts.any (·.id = id) then (.ok (), s.edit (CartRow.only id (s.stamp f)))
  else (.error notFound, s)

def touch (s : CartDesk) (id : CartId) (guest : Bool) : Except Fault CartRow × CartDesk :=
  match s.carts.find? (·.id = id) with
  | none => (.error notFound, s)
  | some c =>
    (.ok (c.touch s.now guest), s.edit (CartRow.only id (·.touch s.now guest)))

/-- After login: move the guest cart's lines into the customer's cart. -/
def merge (s : CartDesk) (customerId : CustomerId) (guestToken : CartToken) :
    Option CartId × CartDesk :=
  let guest := s.carts.find? (·.guestToken = some guestToken.text)
  let mine := s.findFirst fun c => c.customerId = some customerId && c.guestToken.isNone
  match guest.filter (·.customerId ≠ some customerId) with
  | none => (mine.map (·.id), s)
  | some guest =>
    let (s, mine) := match mine with
      | some mine => (s, mine)
      | none =>
        let mine := s.newCart (some customerId) guestToken
        (s.push mine, mine)
    let (taken, next) := mine.take guest s.nextItem
    (some mine.id,
      { s with carts := (s.carts.map (CartRow.only mine.id fun _ => taken)).filter
                 (·.id ≠ guest.id),
               nextItem := next })

/-- Empty the caller's cart after an order is placed (inside the order tx). -/
def clearForOrder (s : CartDesk) (owner : CartOwner) : CartDesk :=
  let mine : CartRow → Bool := fun c =>
    match owner with
    | .customer id => c.customerId = some id
    | .guest token => c.guestToken = some token.text
  s.edit fun c => if mine c then s.stamp CartRow.clear c else c

/-- A guest's cart whose time is over at `now`. -/
def lapsed (now : Instant) (c : CartRow) : Bool :=
  c.customerId.isNone && c.expiresAt.any (· < now)

/-- Nobody asked for it, so it is answered at once. -/
def purge (s : CartDesk) (i : TxId) : CartDesk :=
  { s with
    carts := s.carts.filter fun c => !lapsed s.now c
    history := { thread := i, request := .purgeExpiredGuestCarts, answer := .ok none,
                 arrived := s.now, answered := s.now } :: s.history }

/-- A request comes in. -/
def arrive (s : CartDesk) (i : TxId) (request : CartRequest) : CartDesk :=
  { s with underway := { thread := i, request, owners := request.owners, arrived := s.now,
                         before := s.cart } :: s.underway }

def draw (s : CartDesk) (i : TxId) (token : CartToken) : CartDesk :=
  { s with underway := s.underway.map fun v => if v.thread = i then v.drawn token else v }

/-- The call of the thread is answered. -/
def answered (s : CartDesk) (i : TxId) (answer : CartAnswer) : CartDesk :=
  { s with
    underway := s.underway.filter (·.thread ≠ i)
    history := (s.underway.find? (·.thread = i)).toList.map (fun v =>
      { thread := i, request := v.request, answer, arrived := v.arrived, answered := s.now }) ++
      s.history }

end CartDesk

namespace CartOp

def loadLine (x : CartInput) (key : LineKey) (quantity : ℤ) : Option UnavailableReason :=
  (PricingService.loadLines x.store x.shop x.now [⟨key, quantity⟩]).2.head?.map (·.reason)

def priced (x : CartInput) (cart : CartRow) (code : String) (customerId : Option CustomerId) :
    Except Fault PricedLines :=
  (PricingService.quote x.store x.shop
    { lines := toRefs cart.toCart, couponCode := some code, customerId, now := x.now }).mapError
    (·.fault)

/-- What a statement answers and leaves behind. -/
def perform (i : TxId) (x : CartInput) (s : CartDesk) : (o : CartOp) → Except Fault o.Res × CartDesk
  | arrive request => (.ok (), s.arrive i request)
  | find owner => (.ok (s.findFirst fun c => owner.owns c && c.live s.now), s)
  | loadLines key quantity => (.ok (loadLine x key quantity), s)
  | quote cart code customerId => (priced x cart code customerId, s)
  | createCart (some id) => s.insertCart (some id) x.token
  | createCart none =>
    let (c, t) := s.insertCart none x.token
    (c, if c.isOk then t.draw i x.token else t)
  | updateItem id quantity => s.updateItem id quantity
  | createItem cartId key quantity => s.createItem cartId key quantity
  | deleteItem id => s.deleteItem id
  | clear cartId => s.update cartId (·.clear)
  | setCoupon cartId code => s.update cartId ({ · with couponCode := code })
  | merge customerId guestToken =>
    let (id, t) := s.merge customerId guestToken
    (.ok id, t)
  | findToken cartId =>
    match s.carts.find? (·.id = cartId) with
    | some c => (.ok c.guestToken, s)
    | none => (.error CartDesk.notFound, s)
  | touch cartId guest => s.touch cartId guest
  | clearForOrder owner => (.ok (), s.clearForOrder owner)
  | purge => (.ok (), s.purge i)
  | answer a => (.ok (), s.answered i a)

/-- A request that comes in, and an answer, are no statements. -/
def canFail : CartOp → Bool
  | arrive _ | answer _ => false
  | _ => true

/-- Time does not go back. -/
def exec (i : TxId) (o : CartOp) (x : CartInput) (s : CartDesk) :
    Option (Except Fault o.Res × CartDesk) :=
  if x.now < s.now then none
  else
    let s := { s with now := x.now }
    match x.fault.filter fun _ => o.canFail with
    | some fault => some (.error fault, s)
    | none => some (o.perform i x s)

end CartOp

/-! ### The calls -/

/-- A service call whose statements others can come between. -/
abbrev CartCall := Prog CartOp CartOp.Res Fault

namespace CartService

def run (o : CartOp) : CartCall o.Res := Prog.perform o

def find : Option CartOwner → CartCall (Option CartRow)
  | some owner => run (.find owner)
  | none => pure none

def requireCart (owner : Option CartOwner) : CartCall CartRow := do
  match ← find owner with
  | some cart => return cart
  | none => throw (.domain (.notFound "Cart" ""))

/-- Create (or return) the caller's cart; guests get a fresh token. -/
def ensure (owner : Option CartOwner) : CartCall CartRow := do
  match ← find owner with
  | some found => return found
  | none =>
    match owner with
    | some (.customer id) => run (.createCart (some id))
    | _ => run (.createCart none)

/-- `touchAndView`, but for the view. -/
def touch (cartId : CartId) : CartCall CartRow := do
  let token ← run (.findToken cartId)
  run (.touch cartId token.isSome)

def lineInvalid : LineKind → Fault
  | .product => .domain (.rule "cart.line_invalid" "পণ্যের আইডি দিন")
  | .bundle => .domain (.rule "cart.line_invalid" "প্যাকেজের আইডি দিন")

def add (owner : Option CartOwner) (dto : AddCartItemDto) : CartCall CartRow := do
  match dto.key with
  | none => throw (lineInvalid dto.kind)
  | some key =>
    if (← run (.loadLines key dto.qty)).isSome then
      throw (.domain (.rule "cart.item_unavailable" "পণ্যটি এখন বিক্রি হচ্ছে না"))
    let cart ← ensure owner
    match cart.items.find? (·.isOf key) with
    | some existing => run (.updateItem existing.id (min 99 (existing.quantity + dto.qty)))
    | none =>
      if 50 ≤ cart.items.length then
        throw (.domain (.rule "cart.full" "কার্টে সর্বোচ্চ ৫০টি আলাদা পণ্য রাখা যায়"))
      run (.createItem cart.id key dto.qty)
    touch cart.id

def setQuantity (owner : Option CartOwner) (itemId : CartItemId) (quantity : ℤ) :
    CartCall CartRow := do
  let cart ← requireCart owner
  match cart.items.find? (·.id = itemId) with
  | none => throw (.domain (.notFound "CartItem" (toString itemId)))
  | some _ =>
    if quantity = 0 then run (.deleteItem itemId) else run (.updateItem itemId quantity)
    touch cart.id

def clear (owner : Option CartOwner) : CartCall (Option CartRow) := do
  match ← find owner with
  | none => return none
  | some cart =>
    run (.clear cart.id)
    some <$> touch cart.id

/-- Apply only when the coupon actually fits this cart (same rules as checkout). -/
def applyCoupon (host : Host) (owner : Option CartOwner) (code : String) : CartCall CartRow := do
  let cart ← requireCart owner
  if cart.items = [] then throw (.domain (.rule "cart.empty" "কার্ট খালি"))
  let priced ← run (.quote cart code (owner.bind CartOwner.customerId))
  if let some bad := priced.quote.couponRejection then
    throw (.domain (.rule bad.code bad.message (bad.details.map Detail.coupon).toList))
  run (.setCoupon cart.id
    (some ((priced.quote.coupon.map (·.code)).getD (host.toUpperCase (trim code)))))
  touch cart.id

def removeCoupon (owner : Option CartOwner) : CartCall CartRow := do
  let cart ← requireCart owner
  run (.setCoupon cart.id none)
  touch cart.id

/-- After login: move the guest cart's lines into the customer's cart. -/
def merge (customerId : CustomerId) (guestToken : CartToken) : CartCall (Option CartRow) := do
  match ← run (.merge customerId guestToken) with
  | some merged => some <$> touch merged
  | none => return none

/-- `POST /cart` -/
def create (owner : Option CartOwner) : CartCall (Option CartRow) := do
  let cart ← ensure owner
  match owner with
  | some (.customer id) => find (some (.customer id))
  | _ => find ((cart.guestToken.bind CartToken.read).map .guest)

end CartService

namespace CartRequest

open CartService in
def body (host : Host) : CartRequest → CartCall (Option CartRow)
  | get owner => find owner
  | create owner => CartService.create owner
  | add owner dto => some <$> CartService.add owner dto
  | setQuantity owner itemId dto => some <$> CartService.setQuantity owner itemId dto.quantity
  | clear owner => CartService.clear owner
  | applyCoupon owner code => some <$> CartService.applyCoupon host owner code
  | removeCoupon owner => some <$> CartService.removeCoupon owner
  | merge customerId guestToken => CartService.merge customerId guestToken
  | clearForOrder (some owner) => do
      run (.clearForOrder owner)
      return none
  | clearForOrder none | purgeExpiredGuestCarts => return none

/-- A call from when its request comes in until its answer goes out. -/
def served (host : Host) (request : CartRequest) : CartCall (Option CartRow) := do
  CartService.run (.arrive request)
  match ← (request.body host).catching with
  | .ok cart => do
      CartService.run (.answer (.ok cart))
      return cart
  | .error fault => do
      CartService.run (.answer (.error fault))
      throw fault

/-- The nightly purge is one statement. -/
def serve (host : Host) : CartRequest → CartCall (Option CartRow)
  | purgeExpiredGuestCarts => do
      CartService.run .purge
      return none
  | request => request.served host

end CartRequest

abbrev CartWorld := Prog.World CartOp CartOp.Res Fault (Option CartRow) CartDesk

/-- Calls come in at any time and their statements interleave. -/
def cartStep (host : Host) (w : CartWorld) : Prog.Act CartRequest CartInput → Option CartWorld :=
  Prog.World.step CartOp.exec (CartRequest.serve host) w

/-! ### What the carts are for

Every shopper has at most one cart, and a call does what it is for in one go: it adds to a
line or changes it, empties the cart, sets its coupon, or moves a guest's lines into a
customer's cart.  Only the calls themselves say what is in a cart; how the tables look, and
in which order statements come, is not to be seen here.
-/

/-- Whose cart is which. -/
abbrev Baskets := CartOwner → Option CartRow

def Baskets.put (B : Baskets) (o : CartOwner) (c : CartRow) : Baskets :=
  Function.update B o (some c)

def Baskets.remove (B : Baskets) (o : CartOwner) : Baskets := Function.update B o none

/-- The cart that a guest's lines go into. -/
def Baskets.Mine (B : Baskets) (id : CustomerId) (m : CartRow) : Prop :=
  B (.customer id) = some m ∨ B (.customer id) = none ∧ m.items = [] ∧ m.couponCode = none

namespace CartRow

/-- How many of something are in the cart. -/
def quantity (c : CartRow) (k : LineKey) : ℤ :=
  ((c.items.find? (·.key = k)).map (·.quantity)).getD 0

/-- The coupon of the customer's cart, else the guest's. -/
def joinedCoupon (m g : CartRow) : Option String :=
  if m.couponCode.all (· = "") && g.couponCode.any (· ≠ "") then g.couponCode else m.couponCode

/-- The same cart with other quantities and another coupon. -/
structure Becomes (c c' : CartRow) (wanted : LineKey → ℤ) (coupon : Option String) : Prop where
  id : c'.id = c.id
  customerId : c'.customerId = c.customerId
  guestToken : c'.guestToken = c.guestToken
  quantity : ∀ k, c'.quantity k = wanted k
  coupon : c'.couponCode = coupon
  /-- a line that stays keeps its id -/
  lines : ∀ i ∈ c.items, wanted i.key ≠ 0 → ∃ j ∈ c'.items, j.id = i.id ∧ j.key = i.key

end CartRow

namespace CartEvent

variable (e : CartEvent) (B : Baskets)

/-- The caller has no cart, or its time is over. -/
def Missing (asked : Option CartOwner) : Prop :=
  ∀ o, asked = some o → ∀ c, B o = some c → c.live e.answered = false

/-- The cart that the caller has. -/
def Found (asked : Option CartOwner) (o : CartOwner) (c : CartRow) : Prop :=
  asked = some o ∧ B o = some c ∧ c.live e.arrived = true

/-- A new cart: the customer's, or that of a guest who has not had one. -/
structure New (asked : Option CartOwner) (o : CartOwner) (c : CartRow) : Prop where
  missing : e.Missing B asked
  customer : ∀ id, asked = some (.customer id) → o = .customer id
  guest : (∀ id, asked ≠ some (.customer id)) → ∃ token, o = .guest token
  none_before : B o = none
  no_lines : c.items = []
  no_coupon : c.couponCode = none

/-- The caller's cart, or a new one. -/
def Opened (asked : Option CartOwner) (o : CartOwner) (c : CartRow) : Prop :=
  e.Found B asked o c ∨ e.New B asked o c

/-- What a call wants of a cart: which quantities it holds then, and which coupon. -/
inductive Wish : CartRequest → CartOwner → CartRow → (LineKey → ℤ) → Option String → Prop
  | add {asked o c dto key} (h : e.Opened B asked o c) (hkey : dto.key = some key) :
      Wish (.add asked dto) o c
        (fun k => if k = key then min 99 (c.quantity k + dto.qty) else c.quantity k) c.couponCode
  | setQuantity {asked o c i dto} (h : e.Found B asked o c) (hi : i ∈ c.items) :
      Wish (.setQuantity asked i.id dto) o c
        (fun k => if k = i.key then dto.quantity else c.quantity k) c.couponCode
  | clear {asked o c} (h : e.Found B asked o c) : Wish (.clear asked) o c (fun _ => 0) none
  | applyCoupon {asked o c code applied} (h : e.Found B asked o c) (hlines : c.items ≠ []) :
      Wish (.applyCoupon asked code) o c c.quantity (some applied)
  | removeCoupon {asked o c} (h : e.Found B asked o c) :
      Wish (.removeCoupon asked) o c c.quantity none

/-- A guest's cart is kept for another while. -/
def Touched (o : CartOwner) (c c' : CartRow) : Prop :=
  match o with
  | .customer _ => c'.expiresAt = c.expiresAt
  | .guest _ => ∃ t, e.arrived ≤ t ∧ t ≤ e.answered ∧ c'.expiresAt = some (t + guestTtl)

/-- What an answered call has made of the carts. -/
inductive Outcome : Baskets → Prop
  | refused {fault} (ha : e.answer = .error fault) : Outcome B
  | seen {asked o c} (hr : e.request = .get asked) (h : e.Found B asked o c)
      (ha : e.answer = .ok (some c)) : Outcome B
  | missed {asked} (hr : e.request = .get asked ∨ e.request = .clear asked)
      (h : e.Missing B asked) (ha : e.answer = .ok none) : Outcome B
  | opened {asked o c} (hr : e.request = .create asked) (h : e.Opened B asked o c)
      (ha : e.answer = .ok none → c.live e.answered = false)
      (hc : ∀ c', e.answer = .ok (some c') → c' = c) : Outcome (B.put o c)
  | done {o c c' wanted coupon} (h : e.Wish B e.request o c wanted coupon)
      (hc : c.Becomes c' wanted coupon) (ht : e.Touched o c c') (ha : e.answer = .ok (some c')) :
      Outcome (B.put o c')
  /-- the database failed on the way -/
  | broken {o c c' wanted coupon fault} (h : e.Wish B e.request o c wanted coupon)
      (hc : c' = c ∨ c.Becomes c' wanted coupon ∧ c'.expiresAt = c.expiresAt)
      (ha : e.answer = .error fault) :
      Outcome (B.put o c')
  | joined {id token g m m'} (hr : e.request = .merge id token) (hg : B (.guest token) = some g)
      (hm : B.Mine id m)
      (hc : m.Becomes m' (fun k => min 99 (m.quantity k + g.quantity k)) (m.joinedCoupon g))
      (ha : ∀ a, e.answer = .ok a → a = some m') :
      Outcome ((B.put (.customer id) m').remove (.guest token))
  | unjoined {id token m m'} (hr : e.request = .merge id token) (hg : B (.guest token) = none)
      (hm : B (.customer id) = some m) (hc : m.Becomes m' m.quantity m.couponCode)
      (ha : e.answer = .ok (some m')) : Outcome (B.put (.customer id) m')
  | nothing {id token} (hr : e.request = .merge id token) (hg : B (.guest token) = none)
      (hm : B (.customer id) = none) (ha : e.answer = .ok none) : Outcome B
  | ordered {o c c'} (hr : e.request = .clearForOrder (some o)) (h : B o = some c)
      (hc : c.Becomes c' (fun _ => 0) none) (ha : e.answer = .ok none) : Outcome (B.put o c')
  | unordered {asked} (hr : e.request = .clearForOrder asked)
      (h : ∀ o, asked = some o → B o = none) (ha : e.answer = .ok none) : Outcome B
  /-- only carts of guests go, whose time is over -/
  | purged {B'} (hr : e.request = .purgeExpiredGuestCarts) (ha : e.answer = .ok none)
      (h : ∀ o, B' o = B o ∨
        ∃ c, B o = some c ∧ CartDesk.lapsed e.answered c = true ∧ B' o = none) : Outcome B'

end CartEvent

/-- **No two calls of one shopper overlap.**  A request waits for those under way on the same
carts, a new token is nobody's who is about, and the night does not end a cart that a call has
in hand. -/
def CartDesk.Apart (_ : TxId) (o : CartOp) (x : CartInput) (s : CartDesk) : Prop :=
  match o with
  | .arrive request => ∀ v ∈ s.underway, ∀ o ∈ request.owners, o ∉ v.owners
  | .createCart none => ∀ v ∈ s.underway, .guest x.token ∉ v.owners
  | .purge => ∀ v ∈ s.underway, ∀ o ∈ v.owners, (s.cart o).all (!CartDesk.lapsed x.now ·) = true
  | _ => True

instance : ∀ (i : ℕ) (o : CartOp) (x : CartInput) (s : CartDesk), Decidable (s.Apart i o x)
  | _, .arrive request, _, s =>
    inferInstanceAs (Decidable (∀ v ∈ s.underway, ∀ o ∈ request.owners, o ∉ v.owners))
  | _, .createCart none, x, s =>
    inferInstanceAs (Decidable (∀ v ∈ s.underway, .guest x.token ∉ v.owners))
  | _, .purge, x, s =>
    inferInstanceAs (Decidable (∀ v ∈ s.underway, ∀ o ∈ v.owners,
      (s.cart o).all (!CartDesk.lapsed x.now ·) = true))
  | _, .find _, _, _ | _, .loadLines .., _, _ | _, .quote .., _, _ | _, .createCart (some _), _, _
  | _, .updateItem .., _, _ | _, .createItem .., _, _ | _, .deleteItem _, _, _ | _, .clear _, _, _
  | _, .setCoupon .., _, _ | _, .merge .., _, _ | _, .findToken _, _, _ | _, .touch .., _, _
  | _, .clearForOrder _, _, _ | _, .answer _, _, _ => inferInstanceAs (Decidable True)

/-- The calls, the last one first, made one after the other. -/
inductive Follows (B₀ : Baskets) : List CartEvent → Baskets → Prop
  | nil : Follows B₀ [] B₀
  | cons {events B e B'} (h : Follows B₀ events B) (he : e.Outcome B B') :
      Follows B₀ (e :: events) B'

end BookHouse
