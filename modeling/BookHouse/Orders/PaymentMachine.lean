/-
Money arriving at an order while other calls change it:
`orders/application/order-payment.service.ts`, heard from `orders/listeners/payment.listener.ts`.

Each transaction is cut where another one may come in between: it reads the row, writes
it, commits.  This is READ COMMITTED.  A read sees the newest committed row.  A write
waits while another transaction holds the row, and then applies to the newest row.  What
was written is seen by the others once it is committed, and a thrown error drops it.
-/
import BookHouse.Lib.Machine
import BookHouse.Orders.Lifecycle

namespace BookHouse

/-- A call of staff, of the customer or of the sweeper on the row of an order. -/
inductive RowCall
  | transition (cmd : TransitionCommand) (actor : TransitionActor)
  | markPaid (expectedVersion : Option ℤ)
deriving DecidableEq, Repr

/-- What a call is about to write, and the money it says came in. -/
structure RowWrite where
  columns : Order → Order
  /-- the amount of the `OrderPaid` event -/
  paid : Option Money

/-- What a call decides on the row it has read. -/
def RowCall.plan (c : RowCall) (now : Instant) (o : Order) : Except Failure RowWrite :=
  match c with
  | .transition cmd actor =>
    if cmd.expectedVersion.any (· ≠ o.version) then
      .error (.versionConflict [.num "version" o.version])
    else
      match planTransition o (cmd.request actor now) with
      | .error r => .error (r.toFailure [.status "from" o.status, .status "to" cmd.toStatus])
      | .ok plan => .ok { columns := fun row => row.transitioned plan cmd.note now,
                          paid := if plan.markPaid then some o.grandTotal else none }
  | .markPaid expectedVersion =>
    match markPaidRefusal o expectedVersion with
    | some failure => .error failure
    | none => .ok { columns := fun row => row.markedPaid now, paid := some o.grandTotal }

inductive HandlerWork
  /-- `onGatewaySuccess` on the event of a payment that became SUCCESS -/
  | gateway (e : PaymentSucceededEvent)
  | call (c : RowCall)
deriving DecidableEq, Repr

inductive HandlerOutcome
  | committed (paid : Option Money)
  /-- the gateway handler found the order paid and did nothing -/
  | skipped
  | failed (why : Failure)
deriving DecidableEq, Repr

inductive HandlerPhase
  | start
  /-- has read the row -/
  | read (o : Order)
  /-- holds the row, on what it read -/
  | wrote (o : Order)
  | done (outcome : HandlerOutcome)
deriving DecidableEq, Repr

structure Handler where
  work : HandlerWork
  now : Instant
  phase : HandlerPhase := .start
deriving DecidableEq, Repr

namespace Handler

/-- Where a handler goes from the row it reads. -/
def onRead (h : Handler) (o : Order) : HandlerPhase :=
  match h.work with
  | .gateway _ => if o.paymentStatus ≠ .unpaid then .done .skipped else .read o
  | .call c =>
    match c.plan h.now o with
    | .error failure => .done (.failed failure)
    | .ok _ => .read o

/-- The row as a handler writes it: the gateway's unconditionally, a call's `WHERE version`. -/
def write (h : Handler) (o row : Order) : Except Failure Order :=
  match h.work with
  | .gateway e => do
      (row.captured e h.now).check
      return row.captured e h.now
  | .call c => do
      let w ← c.plan h.now o
      if row.version ≠ o.version then .error .versionConflict
      else
        (w.columns row).check
        return w.columns row

/-- The rest of the transaction; the gateway's confirms an order that it read as pending. -/
def finish (h : Handler) (o row : Order) : Except Failure (Order × Option Money) :=
  match h.work with
  | .gateway e =>
    if o.status = .pending then
      (row.transition (confirmCommand e) .webhook h.now).map fun r => (r.1, some e.amount)
    else .ok (row, some e.amount)
  | .call c => (c.plan h.now o).map fun w => (row, w.paid)

end Handler

structure PaymentState where
  /-- the newest committed row -/
  row : Order
  /-- who holds the row, and what it has written -/
  lock : Option (ℕ × Order) := none
  handlers : List Handler := []
deriving DecidableEq, Repr

/-- The handler moves on. -/
def PaymentState.move (s : PaymentState) (i : ℕ) (h : Handler) (phase : HandlerPhase) :
    PaymentState :=
  { s with handlers := s.handlers.set i { h with phase } }

inductive PaymentAction
  /-- a payment of the order became SUCCESS and its event is out -/
  | capture (e : PaymentSucceededEvent) (now : Instant)
  | call (c : RowCall) (now : Instant)
  | read (i : ℕ)
  | write (i : ℕ)
  | commit (i : ℕ)
  /-- a call's effects on other tables failed (stock, coupon, audit) -/
  | abort (i : ℕ) (why : Failure)
deriving DecidableEq, Repr

def paymentStep (s : PaymentState) : PaymentAction → Option PaymentState
  | .capture e now =>
    -- `payments_amounts`
    if 0 < e.amount ∧ 0 ≤ e.fee then
      some { s with handlers := s.handlers ++ [{ work := .gateway e, now }] }
    else none
  | .call c now => some { s with handlers := s.handlers ++ [{ work := .call c, now }] }
  | .read i =>
    match s.handlers[i]? with
    | some ⟨work, now, .start⟩ =>
      let h : Handler := { work, now }
      some (s.move i h (h.onRead s.row))
    | _ => none
  | .write i =>
    match s.handlers[i]?, s.lock with
    | some ⟨work, now, .read o⟩, none =>
      let h : Handler := { work, now }
      match h.write o s.row with
      | .error failure => some (s.move i h (.done (.failed failure)))
      | .ok row => some { s.move i h (.wrote o) with lock := some (i, row) }
    | _, _ => none
  | .commit i =>
    match s.handlers[i]?, s.lock with
    | some ⟨work, now, .wrote o⟩, some (holder, row) =>
      let h : Handler := { work, now }
      if holder ≠ i then none
      else match h.finish o row with
        | .error failure => some { s.move i h (.done (.failed failure)) with lock := none }
        | .ok (row, paid) => some { s.move i h (.done (.committed paid)) with row, lock := none }
    | _, _ => none
  | .abort i why =>
    match s.handlers[i]? with
    | some ⟨.call c, now, .wrote _⟩ =>
      some { s.move i { work := .call c, now } (.done (.failed why)) with lock := none }
    | _ => none

/-! ### What should have reached the order -/

namespace Handler

/-- The money received that this handler stands for: a capture whatever became of it, a
call when it was committed. -/
def received (h : Handler) : Money :=
  match h.work, h.phase with
  | .gateway e, _ => e.amount
  | .call _, .done (.committed paid) => paid.getD 0
  | .call _, _ => 0

def fee (h : Handler) : Money :=
  match h.work with
  | .gateway e => e.fee
  | .call _ => 0

def isCapture (h : Handler) : Bool :=
  match h.work with
  | .gateway _ => true
  | .call _ => false

def isDone (h : Handler) : Bool :=
  match h.phase with
  | .done _ => true
  | _ => false

end Handler

/-- Once all handlers have finished, every captured payment is on the order. -/
def PaymentsReached (s : PaymentState) : Prop :=
  s.handlers.all Handler.isDone → s.handlers.any Handler.isCapture →
    s.row.paymentStatus ≠ .unpaid ∧ s.row.amountPaid = (s.handlers.map Handler.received).sum ∧
      s.row.gatewayFee = (s.handlers.map Handler.fee).sum

instance (s : PaymentState) : Decidable (PaymentsReached s) :=
  inferInstanceAs (Decidable (_ → _ → _))

/-- A placed order that no money has reached. -/
structure AwaitsMoney (s : PaymentState) : Prop where
  fresh : s = { row := s.row }
  sound : s.row.check = .ok ()
  unpaid : s.row.paymentStatus = .unpaid
  noMoney : s.row.amountPaid = 0 ∧ s.row.amountRefunded = 0 ∧ s.row.gatewayFee = 0

/-- Nobody got in a capture's way: it finds the order unpaid when it reads and still unpaid
when it writes, and an order it read as pending is still pending. -/
def Handler.undisturbed (h : Handler) (row : Order) : Bool :=
  match h.work, h.phase with
  | .gateway _, .start => row.paymentStatus = .unpaid
  | .gateway _, .read o =>
      row.paymentStatus = .unpaid && (o.status ≠ .pending || row.status = .pending)
  | _, _ => true

/-- A capture that reads or writes is undisturbed. -/
def Undisturbed (s : PaymentState) : PaymentAction → Prop
  | .read i | .write i => s.handlers[i]?.all (·.undisturbed s.row)
  | _ => True

instance (s : PaymentState) : ∀ a, Decidable (Undisturbed s a)
  | .read _ | .write _ => inferInstanceAs (Decidable (_ = true))
  | .capture .. | .call .. | .commit _ | .abort .. => isTrue trivial

end BookHouse
