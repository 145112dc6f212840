/-
An order that is sold again and again, with its books brought up to date after every
change.

A step is one change of the order's history and the run of the issuer that its event
asks for.  The state remembers what the books of the order held when the current sale
began, so that what this sale added can be told apart, and how many sales had their
money in while they were invoiced.
-/
import BookHouse.Finance.History

namespace BookHouse

structure SaleState where
  books : Books
  /-- receipts of the order when the current sale began -/
  receiptsBefore : List FinancialDocument := []
  /-- COD money of the order when the current sale began -/
  codBefore : List CashTransaction := []
  /-- what the order still owed its customer when the current sale began: money kept -/
  keptBefore : Money := 0
  /-- sales of the order that were paid -/
  paidSales : ℕ := 0
  /-- the current sale is among them -/
  paidNow : Bool := false
deriving DecidableEq, Repr

structure SaleAction where
  change : OrderChange
  now : Instant
deriving DecidableEq, Repr

open DocumentIssuer

/-- The COD money of an order that counts. -/
def codIn (b : Books) (orderId : OrderId) : List CashTransaction :=
  CashLedger.live b.cash (codMatch orderId)

/-- The sale is invoiced and its money is in. -/
def salePaid (o : Order) : Bool :=
  o.status.isLive && moneyIn o.paymentMethod o.status (o.paymentStatus ≠ .unpaid)

namespace SaleState

/-- A reopen begins a new sale. -/
def began (s : SaleState) (orderId : OrderId) (o : Order) : OrderChange → SaleState
  | .reopen .. =>
      { s with receiptsBefore := receiptsOf (docsOf s.books orderId), codBefore := codIn s.books orderId,
               keptBefore := o.amountPaid - o.amountRefunded, paidNow := false }
  | _ => s

/-- Count the sale once, when it is paid. -/
def counted (s : SaleState) (o : Order) : SaleState :=
  if salePaid o && !s.paidNow then { s with paidSales := s.paidSales + 1, paidNow := true } else s

end SaleState

/-- One change of the order, then its books. -/
def saleStep (orderId : OrderId) (s : SaleState) (a : SaleAction) : Option SaleState := do
  let o ← Rows.lookup Order.id orderId s.books.orders
  let (sources, hint) ← (a.change.apply s.books.toPaperSources orderId).toOption
  let row ← Rows.lookup Order.id orderId sources.orders
  let (books, _) ← (syncIn (s.books.withSources sources) orderId hint a.now).toOption
  return { ((s.began orderId o a.change).counted row) with books }

end BookHouse
