/-
The history of one order, as its books see it.

A change is one committed call of the orders or payments modules on the order: it moves
the order's row, or a payment made for it, and the event it emits carries a hint for
the issuer.  Everything else a paper is drawn from stays as it is.
-/
import BookHouse.Finance.BooksMachine
import BookHouse.Orders.Lifecycle

namespace BookHouse

inductive OrderChange
  | transition (cmd : TransitionCommand) (actor : TransitionActor) (now : Instant)
  | reopen (cmd : ReopenCommand) (actor : TransitionActor) (now : Instant)
  | markPaid (expectedVersion : Option ℤ) (now : Instant)
  /-- a new attempt at the gateway -/
  | attempt (paymentId : PaymentId) (amount : Money)
  /-- the gateway captured an attempt -/
  | capture (paymentId : PaymentId) (fee : Money)
  /-- the orders module heard of a capture -/
  | gatewaySuccess (e : PaymentSucceededEvent) (now : Instant)
  /-- a refund completed -/
  | refund (amount : Money)
deriving DecidableEq, Repr

namespace OrderChange

/-- Mark the order paid, and confirm it when it was pending. -/
def gatewaySuccessRow (o : Order) (e : PaymentSucceededEvent) (now : Instant) :
    Except Failure (Order × SyncHint) :=
  if o.paymentStatus ≠ .unpaid then .ok (o, {})
  else do
    let paid := o.captured e now
    paid.check
    if o.status = .pending then
      let (row, plan) ← paid.transition (confirmCommand e) .webhook now
      return (row, { fromStatus := some plan.fromStatus, credit := plan.credit })
    else return (paid, {})

/-- Complete a refund of what is left of the order's money. -/
def refundRow (o : Order) (amount : Money) : Except Failure Order := do
  let amount ← checkRefund { amount, amountPaid := o.amountPaid, amountRefunded := o.amountRefunded }
  let row := o.refundCompleted amount
  row.check
  return row

/-- The new row of the order and the event's hint, for a change of the row. -/
def row (o : Order) : OrderChange → Except Failure (Order × SyncHint)
  | transition cmd actor now =>
      (o.transition cmd actor now).map fun (row, plan) =>
        (row, { fromStatus := some plan.fromStatus, credit := plan.credit })
  | reopen cmd actor now =>
      (o.reopen cmd actor now).map fun (row, plan) => (row, { fromStatus := some plan.fromStatus })
  | markPaid version now => (o.markPaid version now).map fun row => (row, {})
  | gatewaySuccess e now => gatewaySuccessRow o e now
  | refund amount => (refundRow o amount).map fun row => (row, {})
  | attempt _ _ | capture _ _ => .ok (o, {})

def capturable (p : Payment) : Bool := p.status ≠ .success && p.status ≠ .refunded

/-- The payments after a change; a capture finds an attempt of the order still open to it. -/
def paymentsAfter (payments : List Payment) (o : Order) : OrderChange → Except Failure (List Payment)
  | attempt id amount =>
      if payments.any (·.id = id) then .error (.unique "payments_pkey")
      else .ok (payments ++ [{ id, orderId := o.id, amount }])
  | capture id fee =>
      match Rows.lookup Payment.id id payments with
      | none => .error (.notFound "Payment" (toString id))
      | some p =>
        if p.orderId = o.id && capturable p then
          .ok (Rows.modify Payment.id id (fun p => { p with status := .success, fee }) payments)
        else .error (.conflict "payment.final" "")
  | _ => .ok payments

/-- One change of an order's history. -/
def apply (s : PaperSources) (orderId : OrderId) (c : OrderChange) :
    Except Failure (PaperSources × SyncHint) :=
  match Rows.lookup Order.id orderId s.orders with
  | none => .error (.notFound "Order" (toString orderId))
  | some o => do
      let (row, hint) ← c.row o
      let payments ← paymentsAfter s.payments o c
      return ({ s with orders := Rows.modify Order.id orderId (fun _ => row) s.orders, payments },
        hint)

end OrderChange

/-- The books over other sources. -/
def Books.withSources (b : Books) (sources : PaperSources) : Books :=
  { b with toPaperSources := sources }

end BookHouse
