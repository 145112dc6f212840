/-
Schedules of the issuer over the history of one order.

The history is a list of changes; a schedule interleaves runs of the issuer with it.  A
run carries the hint of an event that was emitted before, however late or often it is
delivered, or no hint for a manual resync.  Besides the sources, the past remembers
whether a live order was ever voided, and whether one was whose sale was paid.
-/
import BookHouse.Finance.SaleMachine
import BookHouse.Finance.Pnl

namespace BookHouse

open DocumentIssuer

structure OrderPast where
  sources : PaperSources
  /-- a live order was cancelled or returned -/
  voidedLive : Bool := false
  /-- … and its sale was paid -/
  voidedPaid : Bool := false
deriving DecidableEq, Repr

def OrderPast.orderRow (p : OrderPast) (orderId : OrderId) : Option Order :=
  Rows.lookup Order.id orderId p.sources.orders

/-- What a change from `o` to `row` adds to the past. -/
def OrderPast.after (p : OrderPast) (sources : PaperSources) (o row : Order) : OrderPast :=
  let voids := o.status.isLive && row.status.isDead
  { sources, voidedLive := p.voidedLive || voids,
    voidedPaid := p.voidedPaid || (voids && salePaid o) }

/-- One change of the order, with the hint of its event. -/
def pastChange (orderId : OrderId) (p : OrderPast) (c : OrderChange) :
    Option (OrderPast × SyncHint) := do
  let o ← p.orderRow orderId
  let (sources, hint) ← (c.apply p.sources orderId).toOption
  let row ← Rows.lookup Order.id orderId sources.orders
  return (p.after sources o row, hint)

/-- The history as a machine of its own. -/
def pastStep (orderId : OrderId) (p : OrderPast) (c : OrderChange) : Option OrderPast :=
  (pastChange orderId p c).map Prod.fst

structure ScheduleState where
  past : OrderPast
  /-- the papers and the cash; their sources are the past's -/
  books : Books := {}
  /-- the hints of the events emitted so far -/
  hints : List SyncHint := []
deriving DecidableEq, Repr

inductive ScheduleAction
  | change (c : OrderChange)
  /-- a run of the issuer, on an event emitted before or on none -/
  | sync (event : Option ℕ) (now : Instant)
deriving DecidableEq, Repr

/-- The hint a run comes with. -/
def ScheduleState.hintOf (s : ScheduleState) : Option ℕ → Option SyncHint
  | none => some {}
  | some i => s.hints[i]?

def scheduleStep (orderId : OrderId) (s : ScheduleState) : ScheduleAction → Option ScheduleState
  | .change c => do
      let (past, hint) ← pastChange orderId s.past c
      return { s with past, hints := s.hints ++ [hint] }
  | .sync event now => do
      let hint ← s.hintOf event
      let (books, _) ← (syncIn (s.books.withSources s.past.sources) orderId hint now).toOption
      return { s with books }

/-- The history a schedule goes through. -/
def changesOf (as : List ScheduleAction) : List OrderChange :=
  as.filterMap fun
    | .change c => some c
    | .sync .. => none

/-- The schedule that runs the issuer after every change, on the event of that change. -/
def syncEach (now : Instant) (cs : List OrderChange) : List ScheduleAction :=
  (cs.mapIdx fun i c => [.change c, .sync (some i) now]).flatten

/-! ### The accounting effect of an order's papers -/

structure BooksEffect where
  /-- invoices that no credit note credits -/
  uncredited : ℕ
  receipts : ℕ
  /-- the COD cash-in -/
  cod : List Money
  /-- the money figures of `pnlFor` -/
  figures : List Money
deriving DecidableEq, Repr

def allFigures : List Figure :=
  [.sales, .coupon, .cogs, .shipIn, .courier, .gatewayFee, .courierLoss]

def effectOf (b : Books) (orderId : OrderId) : BooksEffect :=
  let ds := docsOf b orderId
  { uncredited := (uncredited ds).length, receipts := (receiptsOf ds).length,
    cod := (codIn b orderId).map (·.amount), figures := allFigures.map (pnlFor ds).figure }

end BookHouse
