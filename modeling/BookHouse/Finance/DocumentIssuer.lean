/-
Issuing an order's papers: `finance/documents/application/document-issuer.service.ts`.

`syncIn` brings the papers and the COD cash-in of an order up to date with its current
row.  A per-order advisory lock serialises the callers: it is taken first and the order
row is read once after it, so a run takes effect as one step on the papers.
-/
import BookHouse.Finance.CashLedger
import BookHouse.Finance.Documents
import BookHouse.Orders.CouponLookup
import BookHouse.Orders.Status

namespace BookHouse

inductive CodStatus
  | notApplicable | pending | collected | remitted
deriving DecidableEq, Repr

inductive ShipmentStatus
  | pending | booked | pickedUp | inTransit | outForDelivery | delivered | returning | returned
  | cancelled
deriving DecidableEq, Repr

structure Shipment where
  id : ℕ
  orderId : OrderId
  courierId : ℕ := 0
  trackingNo : Option String := none
  consignmentId : Option String := none
  status : ShipmentStatus := .pending
  codAmount : Money := 0
  codStatus : CodStatus := .notApplicable
  /-- what the courier bills us -/
  deliveryCharge : Money := 0
  returnCharge : Money := 0
  weightGrams : Option ℕ := none
  bookedAt : Option Instant := none
  pickedUpAt : Option Instant := none
  deliveredAt : Option Instant := none
  returnedAt : Option Instant := none
  codCollectedAt : Option Instant := none
  codRemittedAt : Option Instant := none
deriving DecidableEq, Repr

/-- The tables the papers are drawn from; the issuer only reads them. -/
structure PaperSources where
  orders : List Order := []
  payments : List Payment := []
  /-- names of the products' categories -/
  categories : List (ProductId × String) := []
  gatewayFeePct : ℚ := 0
deriving DecidableEq, Repr

structure Books extends PaperSources where
  docs : List FinancialDocument := []
  cash : Cashbook := {}
  counters : List DocumentCounter := []
  shipments : List Shipment := []
deriving DecidableEq, Repr

structure SyncHint where
  fromStatus : Option OrderStatus := none
  credit : Option CreditInput := none
deriving DecidableEq, Repr

structure SyncResult where
  issued : List (DocId × String × DocumentKind) := []
  codCashIn : Bool := false
deriving DecidableEq, Repr

/-- The order's papers, in the order they were written. -/
def docsOf (b : Books) (orderId : OrderId) : List FinancialDocument :=
  b.docs.filter (·.orderId = orderId)

def receiptsOf (ds : List FinancialDocument) : List FinancialDocument :=
  ds.filter (·.kind = .receipt)

namespace DocumentIssuer

def orderBy (docs : List FinancialDocument) : List FinancialDocument :=
  docs.insertionSort fun a b => a.issuedAt ≤ b.issuedAt

/-- The order's papers, oldest first. -/
def papersOf (b : Books) (orderId : OrderId) : List FinancialDocument :=
  orderBy (docsOf b orderId)

/-- The ids of the invoices that a credit note reverses. -/
def credited (docs : List FinancialDocument) : List DocId :=
  docs.filterMap fun d => if d.kind = .creditNote then d.creditsDocId else none

/-- The invoices that no credit note credits. -/
def uncredited (ds : List FinancialDocument) : List FinancialDocument :=
  ds.filter fun d => d.kind = .invoice && d.id ∉ credited ds

/-- The newest invoice that no credit note reverses yet. -/
def liveInvoice (docs : List FinancialDocument) : Option FinancialDocument :=
  docs.reverse.find? fun d => d.kind = .invoice && d.id ∉ credited docs

/-- The live COD cash-in of an order, as the ledger is asked for it. -/
def codMatch (orderId : OrderId) : CashLedger.Match :=
  { orderId := some orderId, kind := .codRemittance, direction := some .in_ }

/-- The facts the policy decides on. -/
def booksState (b : Books) (order : Order) : BooksState :=
  { method := order.paymentMethod, status := order.status, cancelledFrom := order.cancelledFrom,
    paid := order.paymentStatus ≠ .unpaid,
    liveInvoice := (liveInvoice (papersOf b order.id)).isSome,
    receipt := (papersOf b order.id).any (·.kind = .receipt),
    codCashBooked := CashLedger.has b.cash (codMatch order.id) }

/-- The fees of the order's captured payments. -/
def capturedFees (payments : List Payment) (orderId : OrderId) : List Money :=
  (payments.filter fun p =>
    p.orderId = orderId && (p.status = .success || p.status = .refunded)).map (·.fee)

/-- The gateway fee a paper of the order carries. -/
def paperFee (s : PaperSources) (order : Order) : Money :=
  let online := order.paymentMethod = .sslcommerz
  let fees := if online then capturedFees s.payments order.id else []
  let feePct := if online && fees.isEmpty then s.gatewayFeePct else 0
  gatewayFeeFor order.paymentMethod order.grandTotal fees feePct

/-- A paper of the order as it stands; `issue` numbers it. -/
def snapshotBase (s : PaperSources) (order : Order) (kind : DocumentKind) (now : Instant) :
    FinancialDocument :=
  { id := 0, docNo := "", kind, orderId := order.id,
    customerName := order.contactName, customerPhone := order.contactPhone,
    address := addressLine order, paymentLabel := order.paymentMethod.label,
    lines := buildLines (fun p => (Rows.lookup Prod.fst p s.categories).map Prod.snd) order.items,
    subtotal := order.itemsSubtotal, couponCode := order.couponCode,
    discount := order.discountTotal, shippingFee := order.shippingFee,
    shippingCost := order.courierCost, gatewayFee := paperFee s order,
    taxTotal := order.taxTotal, total := order.grandTotal, issuedAt := now }

def counterScope : DocumentKind → CounterScope
  | .invoice => .invoice
  | .receipt => .receipt
  | .creditNote => .creditNote

/-- Number a paper and write it. -/
def issue (b : Books) (paper : FinancialDocument) : Except Failure (Books × FinancialDocument) :=
  let (docNo, counters) := nextNumber b.counters (counterScope paper.kind)
  if b.docs.any (·.docNo = docNo) then .error (.unique "financial_documents_doc_no_key")
  else
    let doc := { paper with id := b.docs.length, docNo }
    .ok ({ b with docs := b.docs ++ [doc], counters }, doc)

/-- The first of the texts that is there and not blank. -/
def firstText (texts : List (Option String)) : Option String :=
  (texts.reduceOption.map trim).find? (· ≠ "")

/-- A credit note reverses exactly what the invoice billed. -/
def creditNote (order : Order) (hint : SyncHint) (hasReceipt : Bool) (invoice : FinancialDocument)
    (credit : PlannedCredit) (now : Instant) : FinancialDocument :=
  let reason := (firstText [hint.credit.map (·.reason), order.cancelReason]).getD
    (if order.status = .returned then "ফেরত" else "বাতিল")
  let loss := (hint.credit.map (·.courierLoss)).getD order.courierLoss
  { invoice with
    id := 0, docNo := "", kind := .creditNote,
    gatewayFee := if hasReceipt then invoice.gatewayFee else 0,
    reason := some reason, courierLoss := some (if loss < 0 then 0 else loss),
    reverseCourier := credit.reverseCourier, creditsDocId := some invoice.id, issuedAt := now }

/-- The papers a plan calls for, in the order they are written. -/
def plannedPapers (b : Books) (order : Order) (hint : SyncHint) (plan : BooksPlan) (now : Instant) :
    List FinancialDocument :=
  let papers := papersOf b order.id
  (if plan.invoice then [snapshotBase b.toPaperSources order .invoice now] else []) ++
  (if plan.receipt then [snapshotBase b.toPaperSources order .receipt now] else []) ++
  (match plan.credit, liveInvoice papers with
    | some credit, some invoice =>
        [creditNote order hint (papers.any (·.kind = .receipt)) invoice credit now]
    | _, _ => [])

/-- Write papers one after the other. -/
def issueAll (b : Books) : List FinancialDocument →
    Except Failure (Books × List FinancialDocument)
  | [] => .ok (b, [])
  | paper :: rest => do
      let (b, doc) ← issue b paper
      let (b, docs) ← issueAll b rest
      return (b, doc :: docs)

/-- The COD collection of an order, as it is booked into the `cash` account. -/
def codEntry (order : Order) (now : Instant) : PostEntry :=
  { account := .accountCode .cash, direction := .in_, kind := .codRemittance,
    amount := order.grandTotal, memo := "ক্যাশ অন " ++ order.orderNo, orderId := some order.id,
    occurredAt := now }

/-- Book the COD collection when the plan says so. -/
def bookCashIn (b : Cashbook) (order : Order) (plan : BooksPlan) (now : Instant) :
    Except Failure Cashbook :=
  if plan.codCashIn then CashLedger.post b (codEntry order now) else .ok b

/-- Bring an order's papers and COD cash-in up to date with its current row. -/
def syncIn (b : Books) (orderId : OrderId) (hint : SyncHint) (now : Instant) :
    Except Failure (Books × SyncResult) :=
  match Rows.lookup Order.id orderId b.orders with
  | none => .ok (b, {})
  | some order =>
    let plan := planBooks (booksState b order) hint.fromStatus
    if plan.isEmpty then .ok (b, {})
    else do
      let (b, issued) ← issueAll b (plannedPapers b order hint plan now)
      let cash ← bookCashIn b.cash order plan now
      return ({ b with cash },
        { issued := issued.map fun d => (d.id, d.docNo, d.kind), codCashIn := plan.codCashIn })

end DocumentIssuer

end BookHouse
