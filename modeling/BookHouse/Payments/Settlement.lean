/-
The calls of online payment, as programs over the desk:
`payments/sslcommerz/application/payment-settlement.service.ts`,
`payment-checkout.service.ts`, `payment-events.service.ts`, `payment-callbacks.service.ts`,
`payment-reconciler.service.ts`, and the automatic cancellations of
`orders/application/order-payment.service.ts`.

Logging, metrics and the redirect URL are left out.
-/
import BookHouse.Orders.Placement
import BookHouse.Payments.GatewayDesk

namespace BookHouse

open Prog (catching lift Act World)

/-! ### Settlement -/

namespace PaymentSettlement

variable (host : Host)

/-- Close an open attempt as FAILED / CANCELLED / EXPIRED and tell orders. -/
def failAttempt (payment : Payment) (status : Failable) (reason : String) : Service Bool := do
  let closed ← ask (.close payment.id status reason)
  if !closed then return false
  ask (.emitFailed (failedEvent payment status reason))
  return true

/-- The columns of a success; the risk level is an integer column. -/
def captured (s : SslSuccess) (fee : Money) : Except Fault Captured :=
  match s.riskLevel with
  | none => .ok { s with riskLevel := none, fee }
  | some level =>
    if level.den = 1 then .ok { s with riskLevel := some level.num, fee }
    else .error (.error "Invalid value for argument riskLevel: expected Int")

/-- The money is there: SUCCESS, the ledger, the event. -/
def settle (payment : Payment) (orderNo tranId : String) (storeAmount : Option String)
    (s : SslSuccess) : Service (Option PaymentStatus) := do
  let feePct ← ask .gatewayFeePct
  let fee ← lift (computeGatewayFee payment.amount storeAmount feePct)
  let at_ ← ask .now
  let columns ← lift (captured s fee)
  let posting : CashLedger.GatewayCapture :=
    { orderId := payment.orderId, orderNo, tranId, amount := payment.amount, fee, at_ }
  let won ← withRetry (ask (.capture payment.id columns posting)) 3
  if !won then
    ask (.statusOf payment.id)
  else
    ask (.emitSucceeded payment.id payment.orderId { amount := payment.amount, fee, tranId })
    return some .success

/-- What the gateway's answer to a val_id does to the payment. -/
def decide_ (payment : Payment) (orderNo tranId : String) (answer : Option SslValidation) :
    Service (Option PaymentStatus) := do
  let decision ← lift (evaluateValidation host
    { tranId, amount := payment.amount, currency := payment.currency } answer)
  match decision with
  -- forged / wrong val_id: never let it touch a real payment
  | .foreign _ => return some payment.status
  | .pending reason =>
    ask (.markPending payment.id reason)
    ask (.statusOf payment.id)
  | .mismatch reason =>
    let _ ← failAttempt payment .failed ("mismatch: " ++ reason)
    ask (.statusOf payment.id)
  | .notPaid status reason =>
    let _ ← failAttempt payment status reason
    ask (.statusOf payment.id)
  | .success s => settle payment orderNo tranId (answer.bind (·.storeAmount)) s

/-- Validate `valId` with SSLCOMMERZ and settle the payment.  Returns the resulting status. -/
def confirm (tranId valId : String) : Service (Option PaymentStatus) := do
  let found ← ask (.findPayment tranId)
  match found with
  | none => return none
  | some (payment, orderNo) =>
    if payment.status.isFinalOk then return some payment.status
    let validation ← tryAsk (.validate valId)
    match validation with
    | .error _ =>
      ask (.markPending payment.id "validation_unavailable")
      ask (.statusOf payment.id)
    | .ok answer => decide_ host payment orderNo tranId answer

structure Fallback where
  status : Failable
  reason : String
deriving DecidableEq, Repr

/-- The gateway has no record of the attempt. -/
def closeUnknown (payment : Payment) : Option Fallback → Service Unit
  | some fallback => discard (failAttempt payment fallback.status fallback.reason)
  | none => pure ()

/-- The gateway has no final answer: only an attempt that was pending already expires. -/
def waitOrExpire (payment : Payment) : Option Fallback → Service Unit
  | some ⟨.expired, reason⟩ =>
    if payment.status = .pending then discard (failAttempt payment .expired reason)
    else ask (.markPending payment.id "gateway_pending")
  | _ => ask (.markPending payment.id "gateway_pending")

/-- What the gateway's answer about a tran_id does to the payment. -/
def act (payment : Payment) (tranId : String) (fallback : Option Fallback) :
    QueryOutcome → Service (Option PaymentStatus)
  | .paid valId => confirm host tranId valId
  | .notPaid status reason => do
    let _ ← failAttempt payment status reason
    ask (.statusOf payment.id)
  | .none => do
    closeUnknown payment fallback
    ask (.statusOf payment.id)
  | .pending => do
    waitOrExpire payment fallback
    ask (.statusOf payment.id)

/--
Ask SSLCOMMERZ what happened to a tran_id and act on it.  `fallback` is applied when the
gateway has no record of an attempt.
-/
def reconcile (payment : Payment) (fallback : Option Fallback) :
    Service (Option PaymentStatus) := do
  match given payment.tranId with
  | none => return some payment.status
  | some tranId =>
    let answer ← tryAsk (.queryByTranId tranId)
    match answer with
    | .error (.gateway _) => return some payment.status
    | .error fault => throw fault
    | .ok q => act host payment tranId fallback (interpretTransactionQuery host q tranId)

end PaymentSettlement

/-! ### Callbacks and IPNs -/

namespace PaymentEvents

/-- Insert the event.  `duplicate` is true when the same key was already processed; an
earlier delivery that failed mid-way is handed back for another attempt. -/
def record (eventKey eventType : String) (signatureOk : Bool) : Service (PaymentEvent × Bool) := do
  let eventKey := sliceTo 120 eventKey
  let created ← tryAsk (.createEvent eventKey (sliceTo 60 eventType) signatureOk)
  match created with
  | .ok event => return (event, false)
  | .error fault =>
    if !fault.isCode "P2002" then throw fault
    let event ← ask (.findEvent eventKey)
    return (event, event.processedAt.isSome)

end PaymentEvents

/-- What the hash is checked with. -/
structure GatewayConfig where
  host : Host
  storePassword : String

inductive CallbackKind
  | success | fail | cancel
deriving DecidableEq, Repr

def CallbackKind.word : CallbackKind → String
  | success => "success"
  | fail => "fail"
  | cancel => "cancel"

namespace PaymentCallbacks

open PaymentEvents PaymentSettlement

variable (config : GatewayConfig)

/-- `${kind}:${tranId}:${valId || status}` -/
def eventKey (kind : String) (body : Body) : String :=
  let valId := body.get "val_id"
  kind ++ ":" ++ body.get "tran_id" ++ ":" ++ if valId = "" then body.get "status" else valId

/-- What a signed failure or cancellation stands for when the gateway knows nothing. -/
def signedFallback (kind : CallbackKind) (body : Body) (signed : Bool) : Option Fallback :=
  if signed then
    some { status := if kind = .cancel then .cancelled else .failed,
           reason := if body.get "error" = "" then kind.word else body.get "error" }
  else none

/-- The payment a body names. -/
def named (body : Body) : Service (Option (Payment × String)) :=
  let tranId := body.get "tran_id"
  if tranId = "" then pure none else ask (.findPayment tranId)

/-- Where the shopper's browser goes, and the payment that was looked at. -/
def outcomeOf (kind : CallbackKind) (body : Body) (signed duplicate : Bool) :
    Service (CallbackKind × Option PaymentId) := do
  let valId := body.get "val_id"
  let found ← named body
  match found with
  | none => return (kind, none)
  | some (payment, _) =>
    if duplicate then
      return (if payment.status = .success then .success else kind, some payment.id)
    else if kind = .success ∧ valId ≠ "" then
      let status ← confirm config.host (body.get "tran_id") valId
      return (if status = some .success then .success
              else if status = some .cancelled then .cancel else .fail, some payment.id)
    else
      -- never fail a payment from an unsigned body: ask the gateway instead
      let status ← reconcile config.host payment (signedFallback kind body signed)
      return (if status = some .success then .success else kind, some payment.id)

/-- The event is done; where that cannot be written, that is the event's error. -/
def closeEvent (event : PaymentEvent) (paymentId : Option PaymentId) : Service Unit := do
  let done ← tryAsk (.doneEvent event.id none paymentId)
  match done with
  | .error err => ask (.doneEvent event.id (some err.message) none)
  | .ok _ => return ()

/-- Browser redirects (success/fail/cancel); returns where to send the shopper. -/
def callback (kind : CallbackKind) (body : Body) : Service CallbackKind := do
  ask (.receive body)
  let signed ← lift (verifySslSignature config.host body config.storePassword)
  let (event, duplicate) ← record (eventKey kind.word body) ("callback." ++ kind.word) signed
  let out ← catching (outcomeOf config kind body signed duplicate)
  match out with
  | .error err =>
    ask (.doneEvent event.id (some err.message) none)
    return kind
  | .ok (outcome, paymentId) =>
    closeEvent event paymentId
    return outcome

/-- The settlement an IPN asks for. -/
def ipnAsks (body : Body) (payment : Payment) : Service (Option PaymentStatus) :=
  let valId := body.get "val_id"
  if valId ≠ "" then confirm config.host (body.get "tran_id") valId
  else reconcile config.host payment none

/-- The IPN's settlement, and the payment that was looked at. -/
def ipnSettle (body : Body) : Service (Option PaymentId) := do
  let found ← named body
  match found with
  | none => return none
  | some (payment, _) =>
    let _ ← ipnAsks config body payment
    return some payment.id

/-- `ipn.${status}` -/
def ipnType (body : Body) : String :=
  let status := config.host.toLowerCase (body.get "status")
  "ipn." ++ if status = "" then "unknown" else status

/-- IPN: idempotent, signature-checked, validated. -/
def ipn (body : Body) : Service Bool := do
  ask (.receive body)
  let signed ← lift (verifySslSignature config.host body config.storePassword)
  let (event, duplicate) ← record (eventKey "ipn" body) (ipnType config body) signed
  if duplicate then return true
  if !signed then
    ask (.doneEvent event.id (some "bad_signature") none)
    return false
  let out ← catching do
    let paymentId ← ipnSettle config body
    ask (.doneEvent event.id none paymentId)
  match out with
  | .error err =>
    ask (.doneEvent event.id (some err.message) none)
    throw err
  | .ok _ => return true

end PaymentCallbacks

/-! ### The reconciler -/

namespace PaymentReconciler

open PaymentSettlement

variable (host : Host)

def minute : Instant := 60000

def expireAfter : Instant := 45 * minute

/-- Re-ask the gateway about each attempt; one that fails does not stop the others. -/
def reconcileAll (cutoff : Instant) : List Payment → Service Unit
  | [] => pure ()
  | p :: rest => do
    let fallback : Option Fallback :=
      if p.initiatedAt < cutoff then some ⟨.expired, "no payment within 45 min"⟩ else none
    let _ ← catching (reconcile host p fallback)
    reconcileAll cutoff rest

/-- Every 10 minutes: settle what is still open, expire what the shopper abandoned. -/
def run : Service Unit := do
  let locked ← ask .tryLock
  if !locked then return ()
  let out ← catching do
    let now ← ask .now
    let later ← ask .now
    let attempts ← ask (.openAttempts (later - 5 * minute))
    reconcileAll host (now - expireAfter) attempts
  ask .unlock
  lift out

end PaymentReconciler

/-! ### Starting an attempt -/

namespace PaymentCheckout

structure InitRequest where
  key : OrderKey
  /-- `normalizeBdPhone` of the phone -/
  phone : Option String := none
  user : Option AuthUser := none
deriving DecidableEq, Repr

/-- The customer themself, staff, or a guest who knows the phone. -/
def owns (req : InitRequest) (o : Order) : Bool :=
  req.user.any (·.customerId = some o.customerId) || req.phone = some o.contactPhone ||
    req.user.any (!·.isCustomer)

/-- The session of a new attempt; an attempt without one is closed as FAILED. -/
def openSession (host : Host) (payment : Payment) : Service Unit := do
  let session ← tryAsk (.createSession payment)
  match session with
  | .error err =>
    ask (.sessionFailed payment.id ("session: " ++ err.message))
    match err with
    | .gateway _ => throw (.domain (.rule "payment.gateway_unavailable"
        "পেমেন্ট গেটওয়ে এখন সাড়া দিচ্ছে না, একটু পরে চেষ্টা করুন"))
    | _ => throw err
  | .ok session =>
    if host.toUpperCase (session.status.getD "undefined") ≠ "SUCCESS" ∨
        (given session.gatewayPageUrl).isNone then
      ask (.sessionFailed payment.id (session.failedReason.getD "session_failed"))
      throw (.domain (.rule "payment.session_failed" "পেমেন্ট শুরু করা যায়নি"))
    else ask (.sessionOpened payment.id)

/-- Start an SSLCOMMERZ hosted-checkout session for an unpaid order. -/
def init (host : Host) (req : InitRequest) : Service Payment := do
  let found ← ask (.findOrder req.key)
  match found with
  | none => throw (.domain (.notFound "Order" ""))
  | some order =>
    if !owns req order then
      throw (.forbidden "payment.not_owner" "এই অর্ডারের পেমেন্ট করার অনুমতি নেই")
    match initRefusal order with
    | some failure => throw (.domain failure)
    | none =>
      let attempts ← ask (.countAttempts order.id)
      ask (.supersede order.id)
      let payment ← ask (.createPayment order (makeTranId order.orderNo (attempts + 1)))
      openSession host payment
      return payment

end PaymentCheckout

/-! ### Automatic cancellation -/

namespace OrderPayment

/-- Gateway attempt failed: cancel the SSL order if it never paid and no other attempt is
alive. -/
def onGatewayFailure (e : PaymentFailedEvent) : Service Unit := do
  let found ← ask (.findOrder (.id e.orderId))
  match found with
  | none => return ()
  | some o =>
    if !awaitsGateway o then return ()
    let alive ← ask (.countAlive o.id e.paymentId)
    if alive ≠ 0 then return ()
    ask (.autoCancel o.id (some e.paymentId) (failureCommand e.reason) .webhook)

/-- One stale order after the other; one that cannot be cancelled does not stop the others. -/
def cancelAll : List OrderId → Service ℕ
  | [] => return 0
  | id :: rest => do
    let done ← tryAsk (.autoCancel id none sweepCommand .system)
    let cancelled ← cancelAll rest
    return cancelled + if done.isOk then 1 else 0

/-- Sweeper: SSL orders left unpaid for too long. -/
def cancelStaleUnpaid (olderThanMinutes : ℤ) : Service ℕ := do
  let now ← ask .now
  let stale ← ask (.staleUnpaid (now - olderThanMinutes * PaymentReconciler.minute))
  cancelAll stale

end OrderPayment

/-! ### Everything that comes in -/

open PaymentSettlement in
inductive GatewayRequest
  | callback (kind : CallbackKind) (body : Body)
  | ipn (body : Body)
  | reconciler
  | init (req : PaymentCheckout.InitRequest)
  | failed (e : PaymentFailedEvent)
  | sweep (olderThanMinutes : ℤ)
  /-- the settlement calls on their own -/
  | confirm (tranId valId : String)
  | fail (payment : Payment) (status : Failable) (reason : String)
  | reconcile (payment : Payment) (fallback : Option Fallback)
  /-- any other call that writes the row of an order -/
  | saveOrder (row : Order)
deriving DecidableEq, Repr

def GatewayRequest.body (config : GatewayConfig) : GatewayRequest → Service Unit
  | callback kind body => discard (PaymentCallbacks.callback config kind body)
  | ipn body => discard (PaymentCallbacks.ipn config body)
  | reconciler => PaymentReconciler.run config.host
  | init req => discard (PaymentCheckout.init config.host req)
  | failed e => OrderPayment.onGatewayFailure e
  | sweep minutes => discard (OrderPayment.cancelStaleUnpaid minutes)
  | confirm tranId valId => discard (PaymentSettlement.confirm config.host tranId valId)
  | fail payment status reason => discard (PaymentSettlement.failAttempt payment status reason)
  | reconcile payment fallback =>
    discard (PaymentSettlement.reconcile config.host payment fallback)
  | saveOrder row => ask (.saveOrder row)

abbrev GatewayWorld := World GatewayOp GatewayOp.Res Fault Unit GatewayDesk

/-- One operation of one thread, or a new request. -/
def gatewayStep (config : GatewayConfig) (w : GatewayWorld) (a : Act GatewayRequest Outside) :
    Option GatewayWorld :=
  w.step GatewayOp.exec (GatewayRequest.body config) a

end BookHouse
