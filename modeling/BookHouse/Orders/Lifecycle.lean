/-
What each call does to the row of an order, and to the payments made for it.

The services of `orders/application/order-transition.service.ts`,
`orders/application/order-payment.service.ts` and
`payments/refunds/application/refunds.service.ts` write other tables besides; here is
their effect on the row itself, which is what the books are drawn from.
-/
import BookHouse.Orders.Transition
import BookHouse.Payments.RefundMath

namespace BookHouse

/-! ### Rows -/

/-- A transition of a row: plan, then the columns it sets. -/
def Order.transition (o : Order) (cmd : TransitionCommand) (actor : TransitionActor)
    (now : Instant) : Except Failure (Order × TransitionPlan) :=
  match planTransition o (cmd.request actor now) with
  | .error r => .error (r.toFailure [.status "from" o.status, .status "to" cmd.toStatus])
  | .ok plan => do
      let row := o.transitioned plan cmd.note now
      row.check
      return (row, plan)

/-- A reopen of a row. -/
def Order.reopen (o : Order) (cmd : ReopenCommand) (actor : TransitionActor) (now : Instant) :
    Except Failure (Order × ReopenPlan) :=
  match planReopen o { toStatus := cmd.toStatus, reason := cmd.reason, actor } with
  | .error r => .error (r.toFailure [.status "status" o.status])
  | .ok plan => do
      let row := o.reopened plan.toStatus now
      row.check
      return (row, plan)

/-- "টাকা পেয়েছি": why staff may not mark an order paid. -/
def markPaidRefusal (o : Order) (expectedVersion : Option ℤ) : Option Failure :=
  if expectedVersion.any (· ≠ o.version) then some .versionConflict
  else if o.status = .cancelled || o.status = .returned then
    some (.rule "order.closed" "বাতিল/ফেরত অর্ডারে টাকা নেওয়া যায় না")
  else if o.paymentStatus ≠ .unpaid then
    some (.rule "order.already_paid" "এই অর্ডারের টাকা আগেই পাওয়া গেছে")
  else none

/-- The columns `markPaid` sets. -/
def Order.markedPaid (o : Order) (now : Instant) : Order :=
  { o with paymentStatus := .paid, amountPaid := o.grandTotal, paidAt := some now,
           version := o.version + 1 }

/-- `markPaid` of a row. -/
def Order.markPaid (o : Order) (expectedVersion : Option ℤ) (now : Instant) :
    Except Failure Order :=
  match markPaidRefusal o expectedVersion with
  | some failure => .error failure
  | none => do
      let row := o.markedPaid now
      row.check
      return row

structure PaymentSucceededEvent where
  amount : Money
  fee : Money
  tranId : String
deriving DecidableEq, Repr

/-- The columns a gateway capture sets. -/
def Order.captured (o : Order) (e : PaymentSucceededEvent) (now : Instant) : Order :=
  { o with paymentStatus := .paid, amountPaid := e.amount, paidAt := some now,
           gatewayFee := o.gatewayFee + e.fee, version := o.version + 1 }

/-- The auto-confirm of a pending order. -/
def confirmCommand (e : PaymentSucceededEvent) : TransitionCommand :=
  { toStatus := .confirmed, note := some ("অনলাইন পেমেন্ট সফল · " ++ e.tranId) }

/-- The columns a completed refund sets. -/
def Order.refundCompleted (o : Order) (amount : Money) : Order :=
  { o with amountRefunded := o.amountRefunded + amount,
           paymentStatus := paymentStatusAfterRefund o.amountPaid (o.amountRefunded + amount) }

end BookHouse
