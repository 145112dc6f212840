/-
Attempts to pay an order online: `payments/sslcommerz/application/payment-checkout.service.ts`
and the rows of `payments` that `payment-settlement.service.ts` moves.

One payment row per attempt (tran_id CLO-2042-1, -2, …).  Starting an attempt supersedes
the ones that are still open; a row then leaves its open status by a conditional update.
-/
import BookHouse.Finance.CashLedger

namespace BookHouse

namespace PaymentStatus

/-- `OPEN` -/
def isOpen : PaymentStatus → Bool
  | initiated | pending => true
  | _ => false

/-- `FINAL_OK` -/
def isFinalOk : PaymentStatus → Bool
  | success | refunded => true
  | _ => false

end PaymentStatus

/-- The statuses a failed attempt can end in. -/
inductive Failable
  | failed | cancelled | expired
deriving DecidableEq, Repr

def Failable.status : Failable → PaymentStatus
  | failed => .failed
  | cancelled => .cancelled
  | expired => .expired

def Failable.word : Failable → String
  | failed => "failed"
  | cancelled => "cancelled"
  | expired => "expired"

structure PaymentFailedEvent where
  paymentId : PaymentId
  orderId : OrderId
  reason : String
deriving DecidableEq, Repr

namespace PaymentCheckout

def sslMinAmount : Money := 10

def sslMaxAmount : Money := 500000

/-- Our transaction id for attempt `n` of an order: "CLO-2042-1" (≤ 30 chars). -/
def makeTranId (orderNo : String) (attempt : ℕ) : String :=
  sliceTo 30 (orderNo ++ "-" ++ toString attempt)

/-- What is left to pay. -/
def amountDue (o : Order) : Money := o.grandTotal - o.amountPaid

/-- Why no attempt is started for an order. -/
def initRefusal (o : Order) : Option Failure :=
  if o.paymentMethod ≠ .sslcommerz then
    some (.rule "payment.method_mismatch" "এই অর্ডারটি অনলাইন পেমেন্টের নয়")
  else if o.status = .cancelled || o.status = .returned then
    some (.rule "payment.order_closed" "অর্ডারটি বাতিল হয়েছে")
  else if o.paymentStatus ≠ .unpaid then
    some (.rule "payment.already_paid" "এই অর্ডারের টাকা আগেই পরিশোধ হয়েছে")
  else if amountDue o < sslMinAmount || sslMaxAmount < amountDue o then
    some (.rule "payment.amount_out_of_range" "অনলাইনে ৳10–৳500000 পর্যন্ত পরিশোধ করা যায়")
  else none

/-- The attempts of an order so far. -/
def attempts (payments : List Payment) (orderId : OrderId) : ℕ :=
  payments.countP (·.orderId = orderId)

/-- A still-open earlier attempt is superseded. -/
def superseded (p : Payment) : Payment :=
  if p.status.isOpen then { p with status := .cancelled, failureReason := some "superseded" } else p

def supersede (payments : List Payment) (orderId : OrderId) : List Payment :=
  payments.map fun p => if p.orderId = orderId then superseded p else p

/-- The row of a new attempt. -/
def newPayment (id : PaymentId) (o : Order) (tranId : String) : Payment :=
  { id, orderId := o.id, amount := amountDue o, tranId := some tranId }

/-- `INSERT INTO payments`: the tran_id is unique, the amount positive. -/
def insertPayment (payments : List Payment) (p : Payment) : Except Failure (List Payment) :=
  if payments.any (·.tranId = p.tranId) then .error (.unique "payments_tran_id_key")
  else if p.amount ≤ 0 then .error (.check "payments_amounts")
  else .ok (payments ++ [p])

/-- The rows after an attempt was started: open ones superseded, the new one added. -/
def start (payments : List Payment) (o : Order) : Except Failure (List Payment) :=
  match initRefusal o with
  | some failure => .error failure
  | none =>
    insertPayment (supersede payments o.id)
      (newPayment payments.length o (makeTranId o.orderNo (attempts payments o.id + 1)))

/-- The session could not be opened: the row as it is written, whatever it says by then. -/
def sessionFailed (reason : String) (p : Payment) : Payment :=
  { p with status := .failed, failureReason := some (sliceTo 500 reason) }

end PaymentCheckout

namespace PaymentSettlement

/-- `markPending`: an initiated attempt that the gateway has not finished. -/
def markPending (reason : String) (p : Payment) : Payment :=
  if p.status = .initiated then
    { p with status := .pending, failureReason := some (sliceTo 200 reason) }
  else p

/-- `fail`: an open attempt is closed. -/
def fail (status : Failable) (reason : String) (p : Payment) : Payment :=
  if p.status.isOpen then
    { p with status := status.status, failureReason := some (sliceTo 500 reason) }
  else p

/-- The event of an attempt that was closed. -/
def failedEvent (p : Payment) (status : Failable) (reason : String) : PaymentFailedEvent :=
  { paymentId := p.id, orderId := p.orderId,
    reason := sliceTo 300 (status.word ++ ": " ++ reason) }

/-- The columns of a confirmed payment, from the gateway's answer. -/
structure Captured where
  valId : String
  bankTranId : Option String := none
  cardType : Option String := none
  cardBrand : Option String := none
  riskLevel : Option ℤ := none
  fee : Money := 0
deriving DecidableEq, Repr

/-- `confirm` on a payment that is not final yet. -/
def succeed (c : Captured) (at_ : Instant) (p : Payment) : Payment :=
  if p.status.isFinalOk then p
  else { p with
    status := .success, valId := some c.valId, bankTranId := c.bankTranId, cardType := c.cardType,
    cardBrand := c.cardBrand, riskLevel := c.riskLevel, fee := c.fee, succeededAt := some at_,
    failureReason := none }

end PaymentSettlement

end BookHouse
