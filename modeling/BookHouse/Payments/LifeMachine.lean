/-
One order and its money, from placement on: every call of
`orders/application/order-transition.service.ts`, `order-payment.service.ts`,
`order-bulk.service.ts` and of the payments and refunds modules that writes the row.

An action is one committed call with its arguments.  What the calls write besides the row,
its payments, its refunds and the cashbook is left out: they can only fail more often.
-/
import BookHouse.Finance.History
import BookHouse.Payments.Checkout
import BookHouse.Payments.RefundMachine

namespace BookHouse

/-- The next step of the flow. -/
def OrderStatus.nextStatus : OrderStatus → Option OrderStatus
  | pending => some confirmed
  | confirmed => some processing
  | processing => some handedToCourier
  | handedToCourier => some outForDelivery
  | outForDelivery => some delivered
  | delivered | cancelled | returned => none

inductive BulkAction
  | confirm
  | advance
  | set (toStatus : OrderStatus)
deriving DecidableEq, Repr

/-- Where a bulk action takes an order that was seen in a status. -/
def BulkAction.target (a : BulkAction) (seen : OrderStatus) : Except Failure OrderStatus :=
  match a with
  | .confirm =>
    if seen ≠ .pending then .error (.rule "order.not_pending" "অর্ডারটি অপেক্ষমাণ নয়")
    else .ok .confirmed
  | .advance =>
    match seen.nextStatus with
    | none => .error (.rule "order.no_next_step" "এর পরে আর ধাপ নেই")
    | some toStatus => .ok toStatus
  | .set toStatus => .ok toStatus

/-- What the sweeper's query asks of an order. -/
def staleUnpaid (o : Order) (payments : List Payment) (cutoff : Instant) : Bool :=
  o.paymentMethod = .sslcommerz && o.status = .pending && o.paymentStatus = .unpaid &&
    o.placedAt < cutoff &&
    payments.all fun p => p.orderId ≠ o.id || (p.status ≠ .success && p.status ≠ .pending)

/-- What the failure handler counts: attempts other than the failed one that are alive. -/
def othersAlive (payments : List Payment) (orderId : OrderId) (failed : PaymentId) : ℕ :=
  payments.countP fun p =>
    p.orderId = orderId && p.id ≠ failed && (p.status.isOpen || p.status = .success)

/-- The order is unpaid and pending, and online. -/
def awaitsGateway (o : Order) : Bool :=
  o.paymentMethod = .sslcommerz && o.status = .pending && o.paymentStatus = .unpaid

/-- The automatic cancellation after a failed attempt. -/
def failureCommand (reason : String) : TransitionCommand :=
  { toStatus := .cancelled, note := some (sliceTo 500 ("পেমেন্ট হয়নি: " ++ reason)) }

/-- The automatic cancellation of a stale order. -/
def sweepCommand : TransitionCommand :=
  { toStatus := .cancelled, note := some "অনলাইন পেমেন্ট হয়নি — স্বয়ংক্রিয় বাতিল" }

structure OrderLife where
  row : Order
  payments : List Payment := []
  /-- the events of the payments that became SUCCESS -/
  captured : List PaymentSucceededEvent := []
  refunds : List Refund := []
  cash : Cashbook := {}
deriving DecidableEq, Repr

inductive LifeAction
  | transition (cmd : TransitionCommand) (actor : TransitionActor) (now : Instant)
  | regress (note : Option String) (expectedVersion : Option ℤ) (actor : TransitionActor)
      (now : Instant)
  | reopen (cmd : ReopenCommand) (actor : TransitionActor) (now : Instant)
  /-- a bulk action that saw the order in `seen` -/
  | bulkStatus (action : BulkAction) (seen : OrderStatus) (note : Option String)
      (credit : Option CreditInput) (now : Instant)
  /-- by staff, or by a bulk action (without a version) -/
  | markPaid (expectedVersion : Option ℤ) (now : Instant)
  | init
  /-- a gateway answer moves an attempt to SUCCESS -/
  | capture (id : PaymentId) (columns : PaymentSettlement.Captured) (now : Instant)
  /-- a gateway answer, or none, closes an attempt -/
  | closeAttempt (id : PaymentId) (status : Failable) (reason : String)
  | gatewaySuccess (e : PaymentSucceededEvent) (now : Instant)
  | gatewayFailure (e : PaymentFailedEvent) (now : Instant)
  /-- the sweeper comes to the order, which its query has listed -/
  | sweep (now : Instant)
  | refund (input : RefundInput) (refundId : RefundId) (now : Instant)
  /-- the gateway's word on a refund -/
  | settleRefund (refundId : RefundId) (status : RefundStatus) (providerRef : String)
      (now : Instant)
  | refundFailed (refundId : RefundId)
deriving DecidableEq, Repr

namespace OrderLife

def withRow (s : OrderLife) (row : Except Failure Order) : Except Failure OrderLife :=
  row.map fun row => { s with row }

/-- A transition of the row, on the version its caller expects. -/
def transition (s : OrderLife) (cmd : TransitionCommand) (actor : TransitionActor)
    (now : Instant) : Except Failure OrderLife :=
  if cmd.expectedVersion.any (· ≠ s.row.version) then
    .error (.versionConflict [.num "version" s.row.version])
  else s.withRow ((s.row.transition cmd actor now).map Prod.fst)

/-- Complete a refund: the order's totals and the cashbook. -/
def complete (s : OrderLife) (r : Refund) (now : Instant) : Except Failure OrderLife := do
  let (row, cash) ← RefundsService.applyCompleted s.row s.cash r now
  return { s with row, cash }

end OrderLife

open RefundsService OrderLife in
def LifeAction.call (s : OrderLife) : LifeAction → Except Failure OrderLife
  | .transition cmd actor now => s.transition cmd actor now
  | .regress note expectedVersion actor now =>
    match s.row.status.regressTarget with
    | none => .error (.rule "order.regress_not_allowed" "এই ধাপ থেকে আগের ধাপে ফেরানো যায় না")
    | some target =>
      s.transition { toStatus := target, mode := .regress, note, expectedVersion } actor now
  | .reopen cmd actor now =>
    if cmd.expectedVersion.any (· ≠ s.row.version) then
      .error (.versionConflict [.num "version" s.row.version])
    else s.withRow ((s.row.reopen cmd actor now).map Prod.fst)
  | .bulkStatus action seen note credit now => do
    let toStatus ← action.target seen
    s.transition { toStatus, note, credit } .staff now
  | .markPaid expectedVersion now => s.withRow (s.row.markPaid expectedVersion now)
  | .init => (PaymentCheckout.start s.payments s.row).map fun payments => { s with payments }
  | .capture id columns now =>
    match Rows.lookup Payment.id id s.payments with
    | none => .error (.notFound "Payment" (toString id))
    | some p =>
      if p.status.isFinalOk then .error (.conflict "payment.final" "")
      else .ok { s with
        payments := Rows.modify Payment.id id (PaymentSettlement.succeed columns now) s.payments,
        captured := s.captured ++
          [{ amount := p.amount, fee := columns.fee, tranId := p.tranId.getD "" }] }
  | .closeAttempt id status reason =>
    .ok { s with
      payments := Rows.modify Payment.id id (PaymentSettlement.fail status reason) s.payments }
  | .gatewaySuccess e now =>
    if e ∈ s.captured then s.withRow ((OrderChange.gatewaySuccessRow s.row e now).map Prod.fst)
    else .error (.notFound "PaymentSucceeded" e.tranId)
  | .gatewayFailure e now =>
    if awaitsGateway s.row && othersAlive s.payments s.row.id e.paymentId = 0 then
      s.transition (failureCommand e.reason) .webhook now
    else .ok s
  | .sweep now => s.transition sweepCommand .system now
  | .refund input refundId now => do
    let r ← newRefund s.row s.payments input refundId (inFlight s.refunds) now
    if r.id ∈ s.refunds.map Refund.id then .error (.unique "refunds_pkey")
    else
      let added := { s with refunds := s.refunds ++ [r] }
      if r.status = .completed then added.complete r now else .ok added
  | .settleRefund refundId status providerRef now =>
    match Rows.lookup Refund.id refundId s.refunds with
    | none => .error (.notFound "Refund" refundId)
    | some r =>
      if r.status = .completed then .ok s
      else
        let refunds := Rows.modify Refund.id refundId (settled r status providerRef now) s.refunds
        if status = .completed then { s with refunds }.complete r now else .ok { s with refunds }
  | .refundFailed refundId =>
    .ok { s with refunds := Rows.modify Refund.id refundId ({ · with status := .failed }) s.refunds }

/-- One committed call. -/
def lifeStep (s : OrderLife) (a : LifeAction) : Option OrderLife := (a.call s).toOption

/-- Refunds are made while the order is cancelled or returned. -/
def RefundsWhenClosed (s : OrderLife) : LifeAction → Prop
  | .refund .. | .settleRefund .. => s.row.status.isTerminal
  | _ => True

instance (s : OrderLife) : ∀ a, Decidable (RefundsWhenClosed s a)
  | .refund .. | .settleRefund .. => inferInstanceAs (Decidable (_ = true))
  | .transition .. | .regress .. | .reopen .. | .bulkStatus .. | .markPaid .. | .init
  | .capture .. | .closeAttempt .. | .gatewaySuccess .. | .gatewayFailure .. | .sweep _
  | .refundFailed _ => isTrue trivial

end BookHouse
