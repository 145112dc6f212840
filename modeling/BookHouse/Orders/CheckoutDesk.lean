/-
Placing an order so that it is safe to ask twice: `orders/application/idempotency.service.ts`
and `place` of `orders/application/order-placement.service.ts`, statement by statement.

The key of a request is claimed in the transaction that places its order, and the answer is
kept with it.  That transaction is serializable: what it has computed stands only if it comes
out the same at the commit.  The answer of a commit may be lost.  What is placed goes by the
model of the placement; the outbox, the audit log, the customer's cart and what comes after
the commit are left out.
-/
import BookHouse.Lib.Versions
import BookHouse.Orders.CartDesk
import BookHouse.Orders.Idempotency
import BookHouse.Platform.CounterDesk
import BookHouse.Runtime

namespace BookHouse

structure PlacementContext where
  user : Option AuthUser := none
  cart : Option CartOwner := none
  idempotencyKey : Option String := none

/-- A request to place an order. -/
structure PlaceCall where
  dto : JsonBody
  ctx : PlacementContext
  staff : Option StaffOrderOptions := none

/-- What the runtime and the database client know. -/
structure CheckoutHost where
  /-- hexadecimal digest of the UTF-8 text -/
  sha256 : JsString → JsString
  /-- the fields that the placement reads off a request -/
  read : JsValue → PlaceOrderDto
  /-- the id of a user, a UUID -/
  userId : ℕ → String
  userId_line : ∀ id, '\n' ∉ (userId id).toList
  /-- `err.meta?.target` -/
  target : Fault → String

/-- `toPlacedOrder` of `orders/mappers/order.mapper.ts` -/
structure PlacedOrder where
  id : OrderId
  orderNo : String
  status : OrderStatus
  paymentMethod : PaymentMethod
  paymentStatus : OrderPaymentStatus
  itemsSubtotal : Money
  discountTotal : Money
  shippingFee : Money
  shippingFeeReason : Option String
  taxTotal : Money
  grandTotal : Money
  placedAt : Instant
  requiresPayment : Bool

def toPlacedOrder (o : Order) : PlacedOrder :=
  { id := o.id, orderNo := o.orderNo, status := o.status, paymentMethod := o.paymentMethod,
    paymentStatus := o.paymentStatus, itemsSubtotal := o.itemsSubtotal,
    discountTotal := o.discountTotal, shippingFee := o.shippingFee,
    shippingFeeReason := o.shippingFeeReason, taxTotal := o.taxTotal, grandTotal := o.grandTotal,
    placedAt := o.placedAt, requiresPayment := o.paymentMethod = .sslcommerz }

/-! ### Keys -/

/-- `/[A-Za-z0-9._:-]/` -/
def isKeyChar (c : Char) : Bool := c.isAlphanum || c = '.' || c = '_' || c = ':' || c = '-'

/-- Keys are client supplied: keep them printable and bounded. -/
def isValidIdempotencyKey (key : String) : Bool :=
  key.toList.all isKeyChar && 8 ≤ key.length && key.length ≤ 80

/-- What a request is known by. -/
structure Prepared where
  scope : String
  key : String
  hash : JsString
deriving DecidableEq, Repr

namespace IdempotencyService

def keyRequired : Fault :=
  .domain (.rule "idempotency.key_required" "Idempotency-Key হেডার দিন (৮–৮০ অক্ষর)")

def prepare (host : CheckoutHost) (scope : String) (key : Option String) (caller : String)
    (body : JsValue) : Except Fault Prepared :=
  match key.filter isValidIdempotencyKey with
  | none => .error keyRequired
  | some key => .ok { scope, key, hash := hashRequest host.sha256 (js scope) (js caller) body }

/-- `TTL_MS` -/
def ttl : Instant := 24 * 3600000

end IdempotencyService

namespace PlaceCall

def scope (call : PlaceCall) : String := if call.staff.isSome then "order.admin" else "order.place"

def caller (host : CheckoutHost) (call : PlaceCall) : String :=
  match call.ctx.user, call.ctx.cart with
  | some user, _ => host.userId user.id
  | none, some (.guest token) => "cart:" ++ token.text
  | none, _ => "guest"

/-- The staff may do without a key. -/
def prepare (host : CheckoutHost) (call : PlaceCall) : Except Fault (Option Prepared) :=
  if call.staff.isSome && call.ctx.idempotencyKey.all (· = "") then .ok none
  else (IdempotencyService.prepare host call.scope call.ctx.idempotencyKey (call.caller host)
    call.dto.value).map some

end PlaceCall

/-! ### The tables -/

/-- A row of `idempotency_keys`. -/
structure KeyRow where
  scope : String
  requestHash : JsString
  responseCode : Option ℕ := none
  responseBody : Option PlacedOrder := none
  expiresAt : Instant
  /-- not a column: the clock, when its claim looked for expired leftovers -/
  claimedAt : Instant

/-- What a transaction has placed. -/
structure Draft where
  call : PlaceCall
  shop : Shop
  now : Instant
  order : Order
  /-- the key that it is placed under, and the row as it was claimed -/
  claim : Option (String × KeyRow)

/-- The placement of a call, on what is there. -/
def PlaceCall.placeOn (host : CheckoutHost) (call : PlaceCall) (shop : Shop) (now : Instant)
    (s : Store) : Except Failure (Store × Order) :=
  OrderPlacementService.placeInTx s shop (host.read call.dto.value) call.ctx.user call.staff now

structure CheckoutDesk where
  keys : Versions TxId String KeyRow
  store : Store
  drafts : TxId → Option Draft
  /-- not a table: what has been placed, the last one first -/
  placed : List Draft := []

inductive CheckoutOp
  /-- `new Date()` -/
  | clock
  | findKey (key : String)
  /-- the row of the key, when it expired before -/
  | deleteExpired (key : String) (now : Instant)
  | createKey (key : String) (row : KeyRow)
  /-- the rest of the transaction: the address, the customer, the prices, the order -/
  | place (call : PlaceCall) (claim : Option (String × KeyRow)) (now : Instant)
  | completeKey (key : String) (code : ℕ) (body : PlacedOrder)
  | commit
  | rollback
  /-- another transaction of the shop, which neither places nor removes an order -/
  | others (store : Store)

@[reducible] def CheckoutOp.Res : CheckoutOp → Type
  | clock => Instant
  | findKey _ => Option KeyRow
  | place .. => Order
  | deleteExpired .. | createKey .. | completeKey .. | commit | rollback | others _ => Unit

/-- What the outside adds to a statement. -/
structure CheckoutInput where
  fault : Option Fault := none
  /-- the fault of a commit is that its answer was lost -/
  lost : Bool := false
  now : Instant := 0
  /-- the catalogue and the geo tables -/
  shop : Shop := {}

namespace CheckoutDesk

/-- P2034 -/
def serializationFailure : Fault :=
  .database "P2034" "Transaction failed due to a write conflict or a deadlock"

def keyTaken : Fault := (Failure.unique "idempotency_keys_pkey").fault

def keyMissing : Fault := .database "P2025" "Record not found"

/-- A row that another transaction has in hand is waited for. -/
def put (s : CheckoutDesk) (i : TxId) (key : String) (row : Option KeyRow) :
    Option (Except Fault Unit × CheckoutDesk) :=
  if s.keys.free i key then some (.ok (), { s with keys := s.keys.put i key row }) else none

def deleteExpired (s : CheckoutDesk) (i : TxId) (key : String) (now : Instant) :
    Option (Except Fault Unit × CheckoutDesk) :=
  if (s.keys.seen i key).any (·.expiresAt < now) then s.put i key none else some (.ok (), s)

/-- Whoever has the key in hand decides whether it is taken. -/
def createKey (s : CheckoutDesk) (i : TxId) (key : String) (row : KeyRow) :
    Option (Except Fault Unit × CheckoutDesk) :=
  if s.keys.free i key && (s.keys.seen i key).isSome then some (.error keyTaken, s)
  else s.put i key (some row)

def completeKey (s : CheckoutDesk) (i : TxId) (key : String) (code : ℕ) (body : PlacedOrder) :
    Option (Except Fault Unit × CheckoutDesk) :=
  match s.keys.seen i key with
  | none => some (.error keyMissing, s)
  | some row =>
    s.put i key (some { row with responseCode := some code, responseBody := some body })

def place (host : CheckoutHost) (s : CheckoutDesk) (i : TxId) (call : PlaceCall) (shop : Shop)
    (claim : Option (String × KeyRow)) (now : Instant) : Except Fault Order × CheckoutDesk :=
  match call.placeOn host shop now s.store with
  | .error failure => (.error failure.fault, s)
  | .ok (_, order) =>
    (.ok order,
      { s with drafts := Function.update s.drafts i (some { call, shop, now, order, claim }) })

def rollback (s : CheckoutDesk) (i : TxId) : CheckoutDesk :=
  { s with keys := s.keys.rollback i, drafts := Function.update s.drafts i none }

/-- What has been computed must be what is computed now. -/
def commit (host : CheckoutHost) (s : CheckoutDesk) (i : TxId) :
    Except Fault Unit × CheckoutDesk :=
  match s.drafts i with
  | none => (.ok (), { s with keys := s.keys.commit i })
  | some d =>
    match d.call.placeOn host d.shop d.now s.store with
    | .error _ => (.error serializationFailure, s.rollback i)
    | .ok (store, order) =>
      if order = d.order then
        (.ok (), { keys := s.keys.commit i, store, drafts := Function.update s.drafts i none,
                   placed := d :: s.placed })
      else (.error serializationFailure, s.rollback i)

end CheckoutDesk

namespace CheckoutOp

variable (host : CheckoutHost)

/-- A statement, or `none` while it waits for another transaction. -/
def perform (i : TxId) (x : CheckoutInput) (s : CheckoutDesk) :
    (o : CheckoutOp) → Option (Except Fault o.Res × CheckoutDesk)
  | clock => some (.ok x.now, s)
  | findKey key => some (.ok (s.keys.seen i key), s)
  | deleteExpired key now => s.deleteExpired i key now
  | createKey key row => s.createKey i key row
  | place call claim now => some (s.place host i call x.shop claim now)
  | completeKey key code body => s.completeKey i key code body
  | commit => some (s.commit host i)
  | rollback => some (.ok (), s.rollback i)
  | others store =>
    if store.orders.map (·.id) = s.store.orders.map (·.id) then some (.ok (), { s with store })
    else none

/-- What a statement that fails leaves: a commit has rolled back, or its answer was lost. -/
def dropped (i : TxId) (x : CheckoutInput) (s : CheckoutDesk) : CheckoutOp → CheckoutDesk
  | commit => if x.lost then (s.commit host i).2 else s.rollback i
  | _ => s

/-- The end of a failed transaction cannot fail. -/
def exec (i : TxId) (o : CheckoutOp) (x : CheckoutInput) (s : CheckoutDesk) :
    Option (Except Fault o.Res × CheckoutDesk) :=
  match o, x.fault with
  | rollback, _ => some (.ok (), s.rollback i)
  | o, some fault => some (.error fault, o.dropped host i x s)
  | o, none => o.perform host i x s

end CheckoutOp

/-- A service call whose statements others can come between; its thread is its transaction. -/
abbrev CheckoutCall := Prog CheckoutOp CheckoutOp.Res Fault

structure PlaceAnswer where
  replayed : Bool
  code : ℕ
  body : Option PlacedOrder

namespace CheckoutCall

variable {α : Type}

def run (o : CheckoutOp) : CheckoutCall o.Res := Prog.perform o

/-- `prisma.tx`: what throws is rolled back. -/
def tx (body : CheckoutCall α) : CheckoutCall α := do
  match ← body.catching with
  | .ok a => do
      run .commit
      return a
  | .error fault => do
      run .rollback
      throw fault

/-! ### `IdempotencyService` -/

def keyReused : Fault :=
  .domain (.rule "idempotency.key_reused" "এই Idempotency-Key অন্য অনুরোধে ব্যবহার হয়েছে")

def inProgress : Fault :=
  .domain (.conflict "idempotency.in_progress" "অর্ডারটি প্রক্রিয়াধীন — একটু পরে আবার দেখুন")

/-- Stored response for this key, or null. -/
def lookup (p : Prepared) : CheckoutCall (Option PlaceAnswer) := do
  match ← run (.findKey p.key) with
  | none => return none
  | some row =>
    if row.expiresAt < (← run .clock) then return none
    if row.scope ≠ p.scope ∨ row.requestHash ≠ p.hash then throw keyReused
    match row.responseCode with
    | none => throw inProgress
    | some code => return some { replayed := true, code, body := row.responseBody }

/-- Claim the key inside the business transaction (expired leftovers are replaced). -/
def claim (p : Prepared) : CheckoutCall (String × KeyRow) := do
  let claimedAt ← run .clock
  run (.deleteExpired p.key claimedAt)
  let now ← run .clock
  let row : KeyRow := { scope := p.scope, requestHash := p.hash,
                        expiresAt := now + IdempotencyService.ttl, claimedAt }
  run (.createKey p.key row)
  return (p.key, row)

/-- `isKeyCollision` -/
def isKeyCollision (host : CheckoutHost) (err : Fault) : Bool :=
  err.isCode "P2002" && decide ("key".toList <:+: (host.target err).toList)

/-! ### `OrderPlacementService` -/

def placeInTx (call : PlaceCall) (idem : Option Prepared) : CheckoutCall PlacedOrder := do
  let claim ← match idem with
    | some p => some <$> claim p
    | none => pure none
  let now ← run .clock
  let order ← run (.place call claim now)
  let body := toPlacedOrder order
  if let some p := idem then run (.completeKey p.key 201 body)
  return body

/-- What was answered before, if the request is known. -/
def replay : Option Prepared → CheckoutCall (Option PlaceAnswer)
  | some p => lookup p
  | none => pure none

/-- Storefront / admin placement with Idempotency-Key semantics. -/
def place (host : CheckoutHost) (call : PlaceCall) : CheckoutCall PlaceAnswer := do
  let idem ← Prog.lift (call.prepare host)
  if let some answer ← replay idem then return answer
  tryCatch
    (do
      let body ← withRetry (tx (placeInTx call idem)) 3
      return { replayed := false, code := 201, body := some body })
    fun err => do
      if isKeyCollision host err then
        if let some answer ← replay idem then return answer
      throw err

end CheckoutCall

inductive CheckoutRequest
  | place (call : PlaceCall)
  | others (store : Store)

/-- What a request came to: the call with its answer. -/
def CheckoutRequest.body (host : CheckoutHost) :
    CheckoutRequest → CheckoutCall (Option (PlaceCall × PlaceAnswer))
  | place call => do return some (call, ← CheckoutCall.place host call)
  | others store => do
      CheckoutCall.run (.others store)
      return none

abbrev CheckoutWorld :=
  Prog.World CheckoutOp CheckoutOp.Res Fault (Option (PlaceCall × PlaceAnswer)) CheckoutDesk

/-- Calls come in at any time and their statements interleave. -/
def checkoutStep (host : CheckoutHost) (w : CheckoutWorld) :
    Prog.Act CheckoutRequest CheckoutInput → Option CheckoutWorld :=
  Prog.World.step (CheckoutOp.exec host) (CheckoutRequest.body host) w

end BookHouse
