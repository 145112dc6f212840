/-
Refunds of one order, made by several admins at once:
`payments/refunds/application/refunds.service.ts`.

`create` reads the order, then opens a SERIALIZABLE transaction that reads the refunds in
flight and inserts the new one, then calls the gateway, then settles in a READ COMMITTED
transaction.  `refresh` reads a refund, asks the gateway and settles.  Each call is cut
where another one may come in between.  A settlement writes the refund and the order in
one transaction which holds both rows to its end, so what it writes is one step; what it
read before is not part of it.
-/
import BookHouse.Finance.CashLedger
import BookHouse.Lib.Machine
import BookHouse.Orders.Lifecycle

namespace BookHouse

structure RefundInput where
  amount : Money
  reason : String
  method : Option PaymentMethod := none
  paymentId : Option PaymentId := none
deriving DecidableEq, Repr

/-- What the gateway last said of a refund. -/
inductive GatewayWord
  | unasked
  /-- taken on, not paid out yet -/
  | taken
  | paid
  | refused
deriving DecidableEq, Repr

def GatewayWord.of : RefundStatus → GatewayWord
  | .completed => .paid
  | .processing => .taken
  | .requested | .failed => .refused

/-- The gateway has the refund and pays it out. -/
def GatewayWord.accepted (w : GatewayWord) : Bool := w = .taken || w = .paid

/-- What a gateway call comes back with: an answer, or an exception. -/
inductive GatewayReply
  | answer (status : Option String) (refundRef : String)
  /-- `taken`: the gateway has the refund though its answer was lost -/
  | lost (taken : Bool)
deriving DecidableEq, Repr

/-- What a SERIALIZABLE transaction saw at its first statement. -/
structure RefundSnapshot where
  inFlight : Money
  creates : ℕ
  orderWrites : ℕ
deriving DecidableEq, Repr

inductive RefundWork
  | create (input : RefundInput) (refundId : RefundId)
  | refresh (refundId : RefundId)
deriving DecidableEq, Repr

inductive RefundPhase
  | start
  /-- `create` has read the order; `attempt` counts what `withRetry` has tried -/
  | read (o : Order) (attempt : ℕ)
  /-- `create` is in its transaction -/
  | began (o : Order) (attempt : ℕ) (seen : RefundSnapshot)
  /-- waits for the gateway -/
  | asking (refundId : RefundId) (providerRef : String)
  /-- the gateway has answered -/
  | answered (refundId : RefundId) (status : RefundStatus) (providerRef : String)
  /-- `settleGateway` has read the refund -/
  | settling (r : Refund) (status : RefundStatus) (providerRef : String)
  /-- `create` is in its catch block -/
  | catching (refundId : RefundId)
  | done
deriving DecidableEq, Repr

structure RefundTask where
  work : RefundWork
  phase : RefundPhase := .start
deriving DecidableEq, Repr

structure RefundState where
  order : Order
  /-- the payments of the order -/
  payments : List Payment := []
  refunds : List Refund := []
  cash : Cashbook := {}
  word : RefundId → GatewayWord := fun _ => .unasked
  tasks : List RefundTask := []
  /-- refunds inserted so far: a snapshot from before the last of them is too old to commit -/
  creates : ℕ := 0
  /-- writes of the order row so far -/
  orderWrites : ℕ := 0

namespace RefundsService

/-- The payment a gateway refund goes back to. -/
def gatewayPayment (payments : List Payment) (input : RefundInput) : Option Payment :=
  let paid := payments.filter (·.status = .success)
  match input.paymentId with
  | some id => paid.find? (·.id = id)
  | none => paid.find? (·.method = .sslcommerz)

def refundMethod (o : Order) (payments : List Payment) (input : RefundInput) : PaymentMethod :=
  input.method.getD <|
    if (gatewayPayment payments input).isSome then .sslcommerz
    else if o.paymentMethod = .cod then .cash
    else o.paymentMethod

/-- Σ of the refunds that are REQUESTED or PROCESSING. -/
def inFlight (refunds : List Refund) : Money :=
  (refunds.map fun r => if r.status = .requested ∨ r.status = .processing then r.amount else 0).sum

/-- The row `create` inserts, from the order it read and the refunds it sees in flight. -/
def newRefund (o : Order) (payments : List Payment) (input : RefundInput) (refundId : RefundId)
    (inFlight : Money) (now : Instant) : Except Failure Refund := do
  let payment := gatewayPayment payments input
  let method := refundMethod o payments input
  let amount ← checkRefund
    { amount := input.amount, amountPaid := o.amountPaid, amountRefunded := o.amountRefunded,
      inFlight,
      paymentLimit := if method = .sslcommerz then some ((payment.map (·.amount)).getD 0) else none }
  if method = .sslcommerz && (payment.bind (·.bankTranId)).all (· = "") then
    .error (.rule "refund.no_gateway_payment" "অনলাইন পেমেন্টের ব্যাংক রেফারেন্স পাওয়া যায়নি")
  else return {
    id := refundId, orderId := o.id, paymentId := payment.map (·.id), amount, method,
    reason := trim input.reason,
    status := if method = .sslcommerz then .processing else .completed,
    processedAt := if method = .sslcommerz then none else some now }

def posting (order : Order) (r : Refund) (now : Instant) : CashLedger.RefundPosting :=
  { orderId := order.id, orderNo := order.orderNo, refundId := r.id, method := r.method,
    amount := r.amount, at_ := now }

/-- The order's totals and status, and the money out, of a refund that completed. -/
def applyCompleted (order : Order) (cash : Cashbook) (r : Refund) (now : Instant) :
    Except Failure (Order × Cashbook) := do
  (order.refundCompleted r.amount).check
  let cash ← CashLedger.recordRefund cash (posting order r now)
  return (order.refundCompleted r.amount, cash)

/-- The columns `settleGateway` writes. -/
def settled (r : Refund) (status : RefundStatus) (providerRef : String) (now : Instant)
    (row : Refund) : Refund :=
  { row with
    status, providerRef := if providerRef ≠ "" then some providerRef else r.providerRef,
    processedAt := if status = .completed then some now else none }

end RefundsService

open RefundsService

namespace RefundState

/-- The task moves on. -/
def move (s : RefundState) (i : ℕ) (work : RefundWork) (phase : RefundPhase) : RefundState :=
  { s with tasks := s.tasks.set i { work, phase } }

/-- An error in a settlement: `create` catches it, `refresh` passes it on. -/
def settleError (s : RefundState) (i : ℕ) (work : RefundWork) (refundId : RefundId) : RefundState :=
  s.move i work <| match work with
    | .create .. => .catching refundId
    | .refresh _ => .done

/-- The transaction of `create` runs to its commit. -/
def commitCreate (s : RefundState) (r : Refund) (now : Instant) : Except Failure RefundState :=
  if r.id ∈ s.refunds.map Refund.id then .error (.unique "refunds_pkey")
  else if r.status = .completed then do
    let (order, cash) ← applyCompleted s.order s.cash r now
    return { s with order, cash, refunds := s.refunds ++ [r], creates := s.creates + 1,
                    orderWrites := s.orderWrites + 1 }
  else .ok { s with refunds := s.refunds ++ [r], creates := s.creates + 1 }

/-- The transaction of `settleGateway` runs to its commit, on the refund it has read. -/
def commitSettle (s : RefundState) (r : Refund) (status : RefundStatus) (providerRef : String)
    (now : Instant) : Except Failure RefundState := do
  let refunds := Rows.modify Refund.id r.id (settled r status providerRef now) s.refunds
  if status = .completed then
    let (order, cash) ← applyCompleted s.order s.cash r now
    return { s with order, cash, refunds, orderWrites := s.orderWrites + 1 }
  else return { s with refunds }

end RefundState

inductive RefundAction
  | create (input : RefundInput) (refundId : RefundId)
  | refresh (refundId : RefundId)
  | read (i : ℕ)
  /-- `create` opens its transaction -/
  | begin_ (i : ℕ)
  | commit (i : ℕ) (now : Instant)
  /-- the database reports a serialization failure (P2034) -/
  | conflict (i : ℕ)
  | reply (i : ℕ) (reply : GatewayReply)
  | settleRead (i : ℕ)
  | settleWrite (i : ℕ) (now : Instant)
  /-- a statement of the settlement fails, and it is rolled back -/
  | settleFail (i : ℕ)
  /-- the catch block marks the refund FAILED -/
  | markFailed (i : ℕ)
deriving DecidableEq, Repr

open RefundState in
def refundStep (s : RefundState) : RefundAction → Option RefundState
  | .create input refundId =>
    some { s with tasks := s.tasks ++ [{ work := .create input refundId }] }
  | .refresh refundId => some { s with tasks := s.tasks ++ [{ work := .refresh refundId }] }
  | .read i =>
    match s.tasks[i]? with
    | some ⟨.create input refundId, .start⟩ =>
      some (s.move i (.create input refundId) (.read s.order 1))
    | some ⟨.refresh refundId, .start⟩ =>
      match Rows.lookup Refund.id refundId s.refunds with
      | none => some (s.move i (.refresh refundId) .done)
      | some r =>
        match r.status, r.providerRef.filter (· ≠ "") with
        | .processing, some ref => some (s.move i (.refresh refundId) (.asking refundId ref))
        | _, _ => some (s.move i (.refresh refundId) .done)
    | _ => none
  | .begin_ i =>
    match s.tasks[i]? with
    | some ⟨work, .read o attempt⟩ =>
      some (s.move i work
        (.began o attempt ⟨RefundsService.inFlight s.refunds, s.creates, s.orderWrites⟩))
    | _ => none
  | .commit i now =>
    match s.tasks[i]? with
    | some ⟨.create input refundId, .began o _ seen⟩ =>
      match newRefund o s.payments input refundId seen.inFlight now with
      | .error _ => some (s.move i (.create input refundId) .done)
      | .ok r =>
        -- SERIALIZABLE: neither the refunds read nor the order written may have changed
        if seen.creates ≠ s.creates ∨ (r.status = .completed ∧ seen.orderWrites ≠ s.orderWrites)
        then none
        else match s.commitCreate r now with
          | .error _ => some (s.move i (.create input refundId) .done)
          | .ok s =>
            some (s.move i (.create input refundId)
              (if r.status = .completed then .done else .asking refundId ""))
    | _ => none
  | .conflict i =>
    match s.tasks[i]? with
    | some ⟨work, .began o attempt _⟩ =>
      some (s.move i work (if attempt < 3 then .read o (attempt + 1) else .done))
    | _ => none
  | .reply i (.answer status ref) =>
    match s.tasks[i]? with
    | some ⟨work, .asking refundId providerRef⟩ =>
      let mapped := mapGatewayRefundStatus status
      let known := match work with
        | .create .. => ref
        | .refresh _ => providerRef
      some { s.move i work (.answered refundId mapped known) with
        word := Function.update s.word refundId (.of mapped) }
    | _ => none
  | .reply i (.lost taken) =>
    match s.tasks[i]? with
    | some ⟨.create input own, .asking refundId _⟩ =>
      some { s.move i (.create input own) (.catching refundId) with
        word := Function.update s.word refundId (if taken then .taken else .refused) }
    | some ⟨.refresh refundId, .asking _ _⟩ => some (s.move i (.refresh refundId) .done)
    | _ => none
  | .settleRead i =>
    match s.tasks[i]? with
    | some ⟨work, .answered refundId status ref⟩ =>
      match Rows.lookup Refund.id refundId s.refunds with
      | none => some (s.settleError i work refundId)
      | some r =>
        some (s.move i work (if r.status = .completed then .done else .settling r status ref))
    | _ => none
  | .settleWrite i now =>
    match s.tasks[i]? with
    | some ⟨work, .settling r status ref⟩ =>
      match s.commitSettle r status ref now with
      | .error _ => some (s.settleError i work r.id)
      | .ok s => some (s.move i work .done)
    | _ => none
  | .settleFail i =>
    match s.tasks[i]? with
    | some ⟨work, .answered refundId _ _⟩ => some (s.settleError i work refundId)
    | some ⟨work, .settling r _ _⟩ => some (s.settleError i work r.id)
    | _ => none
  | .markFailed i =>
    match s.tasks[i]? with
    | some ⟨work, .catching refundId⟩ =>
      some { s.move i work .done with
        refunds := Rows.modify Refund.id refundId ({ · with status := .failed }) s.refunds }
    | _ => none

/-! ### What the books should say -/

namespace RefundState

def completed (s : RefundState) : List Refund := s.refunds.filter (·.status = .completed)

/-- The live OUT entries of the order's refunds. -/
def entries (s : RefundState) : List CashTransaction :=
  CashLedger.live s.cash { orderId := some s.order.id, kind := .refund, direction := some .out }

/-- The entry a refund should have: its memo, and its amount. -/
def entryOf (order : Order) (r : Refund) : String × Money :=
  (sliceTo 500 (posting order r 0).memo, r.amount)

/-- Money on its way to the customer, or there: a manual refund when it is completed, a
gateway refund when the gateway has accepted it. -/
def sentOut (s : RefundState) (r : Refund) : Bool :=
  if r.method = .sslcommerz then (s.word r.id).accepted else r.status = .completed

def sent (s : RefundState) : Money :=
  (s.refunds.map fun r => if s.sentOut r then r.amount else 0).sum

end RefundState

/-- The order's total, the cash entries (one for each completed refund) and the payment
status all say the same. -/
def RefundsAgree (s : RefundState) : Prop :=
  s.order.amountRefunded = (s.completed.map (·.amount)).sum ∧
    (s.entries.map (·.amount)).sum = (s.completed.map (·.amount)).sum ∧
    (s.entries.map fun e => (e.memo, e.amount)).Perm (s.completed.map (RefundState.entryOf s.order)) ∧
    s.order.paymentStatus = paymentStatusAfterRefund s.order.amountPaid s.order.amountRefunded

/-- No more goes back than was paid, and what the gateway accepted stays counted. -/
def RefundsCovered (s : RefundState) : Prop :=
  s.sent ≤ s.order.amountPaid ∧
    ∀ r ∈ s.refunds, r.method = .sslcommerz → (s.word r.id).accepted →
      r.status = .processing ∨ r.status = .completed

instance (s : RefundState) : Decidable (RefundsAgree s) :=
  inferInstanceAs (Decidable (_ ∧ _ ∧ _ ∧ _))

instance (s : RefundState) : Decidable (RefundsCovered s) :=
  inferInstanceAs (Decidable (_ ∧ _))

/-! ### Runs that stay clear of the defects -/

/-- A refund that completes has no live entry under its memo yet. -/
def noEntryYet (s : RefundState) (r : Refund) : Bool :=
  !CashLedger.has s.cash
    { orderId := some s.order.id, kind := .refund, memo := some (posting s.order r 0).memo }

/-- The refund is not completed yet. -/
def notCompleted (s : RefundState) (refundId : RefundId) : Bool :=
  (Rows.lookup Refund.id refundId s.refunds).all (·.status ≠ .completed)

/-- A task writes over no completed refund, and completes none whose memo is taken. -/
def writesOnce (s : RefundState) (now : Instant) (t : RefundTask) : Bool :=
  match t.work, t.phase with
  | .create input refundId, .began o _ seen =>
      match newRefund o s.payments input refundId seen.inFlight now with
      | .error _ => true
      | .ok r => r.status ≠ .completed || noEntryYet s r
  | _, .settling r status _ =>
      notCompleted s r.id && (status ≠ .completed || noEntryYet s r)
  | _, .catching refundId => notCompleted s refundId
  | _, _ => true

def WritesOnce (s : RefundState) : RefundAction → Prop
  | .commit i now | .settleWrite i now => s.tasks[i]?.all (writesOnce s now)
  | .markFailed i => s.tasks[i]?.all (writesOnce s 0)
  | _ => True

instance (s : RefundState) : ∀ a, Decidable (WritesOnce s a)
  | .commit .. | .settleWrite .. | .markFailed _ => inferInstanceAs (Decidable (_ = true))
  | .create .. | .refresh _ | .read _ | .begin_ _ | .conflict _ | .reply .. | .settleRead _
  | .settleFail _ => isTrue trivial

/-- The gateway stands by a refusal. -/
def standsBy (s : RefundState) (reply : GatewayReply) (t : RefundTask) : Bool :=
  match t.phase, reply with
  | .asking refundId _, .answer status _ =>
      s.word refundId ≠ .refused || GatewayWord.of (mapGatewayRefundStatus status) = .refused
  | .asking refundId _, .lost taken => s.word refundId ≠ .refused || !taken
  | _, _ => true

def GatewayStands (s : RefundState) : RefundAction → Prop
  | .reply i reply => s.tasks[i]?.all (standsBy s reply)
  | _ => True

instance (s : RefundState) : ∀ a, Decidable (GatewayStands s a)
  | .reply .. => inferInstanceAs (Decidable (_ = true))
  | .create .. | .refresh _ | .read _ | .begin_ _ | .commit .. | .conflict _ | .settleRead _
  | .settleWrite .. | .settleFail _ | .markFailed _ => isTrue trivial

/-- The order `create` has read is still the order when its transaction begins. -/
def readsFresh (s : RefundState) (t : RefundTask) : Bool :=
  match t.phase with
  | .read o _ => o.amountRefunded = s.order.amountRefunded
  | _ => true

/-- `create` loses no refund that the gateway has accepted: neither is the answer of an
accepted refund lost, nor does its settlement fail. -/
def keepsAccepted (s : RefundState) (a : RefundAction) (t : RefundTask) : Bool :=
  match t.work, t.phase, a with
  | .create .., .asking _ _, .reply _ (.lost taken) => !taken
  | .create .., .answered refundId _ _, .settleFail _ => !(s.word refundId).accepted
  | .create .., .settling r _ _, .settleFail _ => !(s.word r.id).accepted
  | .create .., .settling r status ref, .settleWrite _ now =>
      (s.commitSettle r status ref now).toOption.isSome || !(s.word r.id).accepted
  | _, _, _ => true

def InTurn (s : RefundState) (a : RefundAction) : Prop :=
  match a with
  | .begin_ i => s.tasks[i]?.all (readsFresh s)
  | .reply i _ | .settleWrite i _ | .settleFail i => s.tasks[i]?.all (keepsAccepted s a)
  | _ => True

instance (s : RefundState) : ∀ a, Decidable (InTurn s a)
  | .begin_ _ | .reply .. | .settleWrite .. | .settleFail _ => inferInstanceAs (Decidable (_ = true))
  | .create .. | .refresh _ | .read _ | .commit .. | .conflict _ | .settleRead _ | .markFailed _ =>
      isTrue trivial

end BookHouse
