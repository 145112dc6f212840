/-
The tables that online payments share, and the statements and transactions on them:
what `payments/sslcommerz/application/*.service.ts` and the gateway handlers of
`orders/application/order-payment.service.ts` ask of the database and of the gateway.

An operation is one statement, one transaction whose first statement locks the row it is
about, one call of the gateway, or one event.  Any of them but an event can also throw, and
then has written nothing.  The desk keeps a log of what happened, newest first, each entry
with the thread it happened in.
-/
import BookHouse.Payments.LifeMachine
import BookHouse.Payments.Validation

namespace BookHouse

open PaymentSettlement (Captured)

/-- Raw gateway traffic log; (provider, event_key) is unique. -/
structure PaymentEvent where
  id : ℕ
  eventKey : String
  eventType : String
  signatureOk : Bool
  paymentId : Option PaymentId := none
  processedAt : Option Instant := none
  error : Option String := none
deriving DecidableEq, Repr

structure SslSession where
  /-- SUCCESS | FAILED -/
  status : Option String := none
  failedReason : Option String := none
  sessionKey : Option String := none
  gatewayPageUrl : Option String := none
deriving DecidableEq, Repr

inductive Happening
  /-- the body of a callback or an IPN -/
  | received (body : Body)
  /-- its event was stored before, and processed -/
  | recorded (eventKey : String) (duplicate : Bool)
  | validated (valId : String) (answer : Option SslValidation)
  | queried (tranId : String) (answer : Option TranQuery)
  | moved (id : PaymentId) (before after : PaymentStatus)
  | succeeded (id : PaymentId) (orderId : OrderId) (e : PaymentSucceededEvent)
  | failed (e : PaymentFailedEvent)
  /-- the handler of a failed attempt, or the sweeper, cancelled the order -/
  | autoCancelled (orderId : OrderId) (failed : Option PaymentId) (payments : List Payment)
deriving DecidableEq, Repr

/-- A thread has seen that an order may be cancelled, and is about to. -/
structure Watch where
  thread : ℕ
  orderId : OrderId
  failed : Option PaymentId
deriving DecidableEq, Repr

structure GatewayDesk where
  orders : List Order := []
  payments : List Payment := []
  events : List PaymentEvent := []
  cash : Cashbook := {}
  log : List (ℕ × Happening) := []
  watches : List Watch := []
deriving DecidableEq, Repr

/-- What the outside answers to an operation. -/
structure Outside where
  fault : Option Fault := none
  now : Instant := 0
  validation : Option SslValidation := none
  query : Option TranQuery := none
  session : SslSession := {}
  feePct : ℚ := 0
  locked : Bool := true
deriving DecidableEq, Repr

inductive OrderKey
  | id (id : OrderId)
  | orderNo (orderNo : String)
deriving DecidableEq, Repr

inductive GatewayOp
  | receive (body : Body)
  | now
  /-- `payment_events` -/
  | createEvent (eventKey eventType : String) (signatureOk : Bool)
  | findEvent (eventKey : String)
  | doneEvent (id : ℕ) (error : Option String) (paymentId : Option PaymentId)
  /-- the gateway -/
  | validate (valId : String)
  | queryByTranId (tranId : String)
  | createSession (payment : Payment)
  | gatewayFeePct
  /-- `payments` -/
  | findPayment (tranId : String)
  | statusOf (id : PaymentId)
  | markPending (id : PaymentId) (reason : String)
  | close (id : PaymentId) (status : Failable) (reason : String)
  | capture (id : PaymentId) (columns : Captured) (posting : CashLedger.GatewayCapture)
  | emitSucceeded (id : PaymentId) (orderId : OrderId) (e : PaymentSucceededEvent)
  | emitFailed (e : PaymentFailedEvent)
  | openAttempts (initiatedBefore : Instant)
  | tryLock
  | unlock
  /-- starting an attempt -/
  | findOrder (key : OrderKey)
  | countAttempts (orderId : OrderId)
  | supersede (orderId : OrderId)
  | createPayment (o : Order) (tranId : String)
  | sessionFailed (id : PaymentId) (reason : String)
  | sessionOpened (id : PaymentId)
  /-- `orders` -/
  | countAlive (orderId : OrderId) (failed : PaymentId)
  | staleUnpaid (cutoff : Instant)
  | autoCancel (orderId : OrderId) (failed : Option PaymentId) (cmd : TransitionCommand)
      (actor : TransitionActor)
  /-- any other call that writes the row of an order -/
  | saveOrder (row : Order)

namespace GatewayOp

@[reducible] def Res : GatewayOp → Type
  | now => Instant
  | createEvent .. | findEvent _ => PaymentEvent
  | validate _ => Option SslValidation
  | queryByTranId _ => Option TranQuery
  | createSession _ => SslSession
  | gatewayFeePct => ℚ
  | findPayment _ => Option (Payment × String)
  | statusOf _ => Option PaymentStatus
  | close .. | capture .. | tryLock => Bool
  | openAttempts _ => List Payment
  | findOrder _ => Option Order
  | countAttempts _ | countAlive .. => ℕ
  | createPayment .. => Payment
  | staleUnpaid _ => List OrderId
  | receive _ | doneEvent .. | markPending .. | emitSucceeded .. | emitFailed _ | unlock
  | supersede _ | sessionFailed .. | sessionOpened _ | autoCancel .. | saveOrder _ => Unit

end GatewayOp

namespace GatewayDesk

def note (s : GatewayDesk) (i : ℕ) (what : Happening) : GatewayDesk :=
  { s with log := (i, what) :: s.log }

/-- `UPDATE payments … WHERE id = … AND status …`, and whether it found the row. -/
def movePayment (s : GatewayDesk) (i : ℕ) (id : PaymentId) (c : PaymentStatus → Bool)
    (f : Payment → Payment) : Bool × GatewayDesk :=
  match Rows.lookup Payment.id id s.payments with
  | none => (false, s)
  | some p =>
    if c p.status then
      (true, { s with payments := Rows.modify Payment.id id f s.payments,
                      log := (i, .moved id p.status (f p).status) :: s.log })
    else (false, s)

/-- SUCCESS and the ledger in one transaction. -/
def capture (s : GatewayDesk) (i : ℕ) (id : PaymentId) (columns : Captured)
    (posting : CashLedger.GatewayCapture) : Except Fault (Bool × GatewayDesk) :=
  match s.movePayment i id (!·.isFinalOk) (PaymentSettlement.succeed columns posting.at_) with
  | (false, s) => .ok (false, s)
  | (true, s) =>
    match CashLedger.recordGatewayCapture s.cash posting with
    | .error failure => .error failure.fault
    | .ok cash => .ok (true, { s with cash })

/-- An attempt that is still open is superseded. -/
def supersede (s : GatewayDesk) (i : ℕ) (orderId : OrderId) : GatewayDesk :=
  let open_ := s.payments.filter fun p => p.orderId = orderId && p.status.isOpen
  { s with payments := PaymentCheckout.supersede s.payments orderId,
           log := open_.map (fun p => (i, .moved p.id p.status .cancelled)) ++ s.log }

def createPayment (s : GatewayDesk) (o : Order) (tranId : String) (now : Instant) :
    Except Fault (Payment × GatewayDesk) :=
  let p := { PaymentCheckout.newPayment s.payments.length o tranId with initiatedAt := now }
  match PaymentCheckout.insertPayment s.payments p with
  | .error failure => .error failure.fault
  | .ok payments => .ok (p, { s with payments })

def createEvent (s : GatewayDesk) (i : ℕ) (eventKey eventType : String) (signatureOk : Bool) :
    Except Fault (PaymentEvent × GatewayDesk) :=
  if s.events.any (·.eventKey = eventKey) then
    .error (Failure.unique "payment_events_provider_event_key_key").fault
  else
    let e : PaymentEvent := { id := s.events.length, eventKey, eventType, signatureOk }
    .ok (e, { s with events := s.events ++ [e] }.note i (.recorded eventKey false))

def findEvent (s : GatewayDesk) (i : ℕ) (eventKey : String) :
    Except Fault (PaymentEvent × GatewayDesk) :=
  match Rows.lookup PaymentEvent.eventKey eventKey s.events with
  | none => .error (.database "P2025" "No PaymentEvent found")
  | some e => .ok (e, s.note i (.recorded eventKey e.processedAt.isSome))

def doneEvent (s : GatewayDesk) (id : ℕ) (error : Option String) (paymentId : Option PaymentId)
    (now : Instant) : GatewayDesk :=
  let done (e : PaymentEvent) : PaymentEvent :=
    { e with processedAt := if (given error).isSome then none else some now,
             error := error.map (sliceTo 500), paymentId := paymentId.or e.paymentId }
  { s with events := Rows.modify PaymentEvent.id id done s.events }

def findPayment (s : GatewayDesk) (tranId : String) : Option (Payment × String) :=
  (Rows.lookup Payment.tranId (some tranId) s.payments).bind fun p =>
    (Rows.lookup Order.id p.orderId s.orders).map fun o => (p, o.orderNo)

def findOrder (s : GatewayDesk) : OrderKey → Option Order
  | .id id => Rows.lookup Order.id id s.orders
  | .orderNo orderNo => Rows.lookup Order.orderNo orderNo s.orders

/-- Attempts still open, the oldest first. -/
def openAttempts (s : GatewayDesk) (initiatedBefore : Instant) : List Payment :=
  ((s.payments.filter fun p => p.status.isOpen && p.initiatedAt < initiatedBefore).mergeSort
    fun p q => p.initiatedAt ≤ q.initiatedAt).take 50

def unwatch (s : GatewayDesk) (i : ℕ) (orderId : OrderId) : GatewayDesk :=
  { s with watches := s.watches.filter fun w => w.thread ≠ i || w.orderId ≠ orderId }

def countAlive (s : GatewayDesk) (i : ℕ) (orderId : OrderId) (failed : PaymentId) :
    ℕ × GatewayDesk :=
  let alive := othersAlive s.payments orderId failed
  (alive, if alive = 0 then { s with watches := ⟨i, orderId, some failed⟩ :: s.watches } else s)

def listStale (s : GatewayDesk) (i : ℕ) (cutoff : Instant) : List OrderId × GatewayDesk :=
  let stale := ((s.orders.filter fun o => staleUnpaid o s.payments cutoff).take 100).map Order.id
  (stale, { s with watches := stale.map (fun id => ⟨i, id, none⟩) ++ s.watches })

/-- The row of a transition to CANCELLED; what it writes besides can only fail. -/
def autoCancel (s : GatewayDesk) (i : ℕ) (orderId : OrderId) (failed : Option PaymentId)
    (cmd : TransitionCommand) (actor : TransitionActor) (now : Instant) :
    Except Fault GatewayDesk :=
  match Rows.lookup Order.id orderId s.orders with
  | none => .error (Failure.notFound "Order" (toString orderId)).fault
  | some o =>
    match o.transition cmd actor now with
    | .error failure => .error failure.fault
    | .ok (row, _) =>
      .ok ({ s with orders := Rows.modify Order.id orderId (fun _ => row) s.orders }.note i
        (.autoCancelled orderId failed s.payments))

/-- What the columns of an order can hold: VARCHAR(30), DECIMAL(12, 2). -/
def fitsColumns (o : Order) : Bool :=
  o.orderNo.length ≤ 30 && round2 o.grandTotal = o.grandTotal && round2 o.amountPaid = o.amountPaid

/-- A row keeps its id and its number. -/
def saveOrder (s : GatewayDesk) (row : Order) : Except Fault GatewayDesk :=
  if !fitsColumns row then .error (.error "value too long for the column")
  else
    match Rows.lookup Order.id row.id s.orders with
    | none => .ok { s with orders := s.orders ++ [row] }
    | some o =>
      if o.orderNo ≠ row.orderNo then .error (.error "the order number is final")
      else .ok { s with orders := Rows.modify Order.id row.id (fun _ => row) s.orders }

end GatewayDesk

namespace GatewayOp

/-- Events are emitted in the process itself. -/
def canFail : GatewayOp → Bool
  | emitSucceeded .. | emitFailed _ | receive _ => false
  | _ => true

/-- An operation of thread `i` that reaches the database or the gateway. -/
def perform (i : ℕ) (x : Outside) (s : GatewayDesk) :
    (o : GatewayOp) → Except Fault o.Res × GatewayDesk
  | receive body => (.ok (), s.note i (.received body))
  | now => (.ok x.now, s)
  | createEvent eventKey eventType signatureOk =>
    match s.createEvent i eventKey eventType signatureOk with
    | .ok (e, s) => (.ok e, s)
    | .error fault => (.error fault, s)
  | findEvent eventKey =>
    match s.findEvent i eventKey with
    | .ok (e, s) => (.ok e, s)
    | .error fault => (.error fault, s)
  | doneEvent id error paymentId => (.ok (), s.doneEvent id error paymentId x.now)
  | validate valId => (.ok x.validation, s.note i (.validated valId x.validation))
  | queryByTranId tranId => (.ok x.query, s.note i (.queried tranId x.query))
  | createSession _ => (.ok x.session, s)
  | gatewayFeePct => (.ok x.feePct, s)
  | findPayment tranId => (.ok (s.findPayment tranId), s)
  | statusOf id => (.ok ((Rows.lookup Payment.id id s.payments).map Payment.status), s)
  | markPending id reason =>
    (.ok (), (s.movePayment i id (· = .initiated) (PaymentSettlement.markPending reason)).2)
  | close id status reason =>
    let r := s.movePayment i id (·.isOpen) (PaymentSettlement.fail status reason)
    (.ok r.1, r.2)
  | capture id columns posting =>
    match s.capture i id columns posting with
    | .ok (won, s) => (.ok won, s)
    | .error fault => (.error fault, s)
  | emitSucceeded id orderId e => (.ok (), s.note i (.succeeded id orderId e))
  | emitFailed e => (.ok (), s.note i (.failed e))
  | openAttempts initiatedBefore => (.ok (s.openAttempts initiatedBefore), s)
  | tryLock => (.ok x.locked, s)
  | unlock => (.ok (), s)
  | findOrder key => (.ok (s.findOrder key), s)
  | countAttempts orderId => (.ok (PaymentCheckout.attempts s.payments orderId), s)
  | supersede orderId => (.ok (), s.supersede i orderId)
  | createPayment o tranId =>
    match s.createPayment o tranId x.now with
    | .ok (p, s) => (.ok p, s)
    | .error fault => (.error fault, s)
  | sessionFailed id reason =>
    (.ok (), (s.movePayment i id (fun _ => true) (PaymentCheckout.sessionFailed reason)).2)
  | sessionOpened _ => (.ok (), s)
  | countAlive orderId failed =>
    let r := s.countAlive i orderId failed
    (.ok r.1, r.2)
  | staleUnpaid cutoff =>
    let r := s.listStale i cutoff
    (.ok r.1, r.2)
  | autoCancel orderId failed cmd actor =>
    match (s.unwatch i orderId).autoCancel i orderId failed cmd actor x.now with
    | .ok s => (.ok (), s)
    | .error fault => (.error fault, s.unwatch i orderId)
  | saveOrder row =>
    match s.saveOrder row with
    | .ok s => (.ok (), s)
    | .error fault => (.error fault, s)

/-- What an operation that threw leaves: a cancellation is no longer about to come. -/
def dropped (i : ℕ) (s : GatewayDesk) : GatewayOp → GatewayDesk
  | autoCancel orderId .. => s.unwatch i orderId
  | _ => s

def exec (i : ℕ) (o : GatewayOp) (x : Outside) (s : GatewayDesk) :
    Option (Except Fault o.Res × GatewayDesk) :=
  match x.fault.filter fun _ => o.canFail with
  | some fault => some (.error fault, o.dropped i s)
  | none => some (o.perform i x s)

end GatewayOp

abbrev Service := Prog GatewayOp GatewayOp.Res Fault

/-- One operation; what it throws, the service throws. -/
def ask (o : GatewayOp) : Service o.Res := Prog.perform o

/-- One operation in a `try`. -/
def tryAsk (o : GatewayOp) : Service (Except Fault o.Res) := Prog.attempt o

end BookHouse
