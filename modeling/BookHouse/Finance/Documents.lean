/-
Which accounting papers an order needs (`finance/documents/domain/document-policy.ts`)
and what a paper says (`finance/documents/domain/document-snapshot.ts`).

The decision is state based: it is recomputed from the order, its papers and the
cashbook every time.  A paper is a snapshot; once written it never changes.
-/
import BookHouse.Schema

namespace BookHouse

/-! ### The policy -/

namespace OrderStatus

/-- `LIVE_STATUSES` -/
def isLive : OrderStatus → Bool
  | confirmed | processing | handedToCourier | outForDelivery | delivered => true
  | pending | cancelled | returned => false

/-- `DEAD_STATUSES` -/
def isDead : OrderStatus → Bool
  | cancelled | returned => true
  | _ => false

/-- `SHIPPED_STATUSES` -/
def isShipped : OrderStatus → Bool
  | handedToCourier | outForDelivery | delivered => true
  | _ => false

end OrderStatus

def PaymentMethod.isPrepaid : PaymentMethod → Bool
  | sslcommerz | bkash | nagad | bankTransfer => true
  | cod | cash => false

structure BooksState where
  method : PaymentMethod
  status : OrderStatus
  /-- stage the order was cancelled from, when known -/
  cancelledFrom : Option OrderStatus
  /-- money received: payment status ≠ UNPAID -/
  paid : Bool
  /-- an invoice exists that no credit note reverses yet -/
  liveInvoice : Bool
  /-- a receipt exists for the order -/
  receipt : Bool
  /-- COD cash-in already posted to the cashbook for this order -/
  codCashBooked : Bool
deriving DecidableEq, Repr

structure PlannedCredit where
  reverseCourier : Bool
deriving DecidableEq, Repr

structure BooksPlan where
  invoice : Bool := false
  receipt : Bool := false
  credit : Option PlannedCredit := none
  /-- post the COD collection into the `cash` account (with the receipt) -/
  codCashIn : Bool := false
deriving DecidableEq, Repr

/-- Courier cost is reversed only if the parcel never left our hands. -/
def reverseCourier (status : OrderStatus) (fromStatus : Option OrderStatus) : Bool :=
  if status = .returned then false
  else match fromStatus with
    | none => true
    | some s => !s.isShipped

/-- Prepaid orders are paid when they are paid; COD and cash also when delivered. -/
def moneyIn (method : PaymentMethod) (status : OrderStatus) (paid : Bool) : Bool :=
  if method.isPrepaid then paid else paid || status = .delivered

def planBooks (s : BooksState) (hintFrom : Option OrderStatus := none) : BooksPlan :=
  let live := s.status.isLive
  let invoice := live && !s.liveInvoice
  let invoiced := s.liveInvoice || invoice
  let receipt := live && invoiced && !s.receipt && moneyIn s.method s.status s.paid
  { invoice, receipt,
    credit :=
      if s.status.isDead && s.liveInvoice then
        some { reverseCourier := reverseCourier s.status (s.cancelledFrom.orElse fun _ => hintFrom) }
      else none,
    codCashIn := !s.method.isPrepaid && live && (receipt || s.receipt) && !s.codCashBooked }

def BooksPlan.isEmpty (p : BooksPlan) : Bool :=
  !p.invoice && !p.receipt && p.credit.isNone && !p.codCashIn

/-! ### The papers -/

abbrev DocId := ℕ

inductive DocumentKind
  | invoice | receipt | creditNote
deriving DecidableEq, Repr

structure DocComponent where
  productId : ProductId
  title : String
  categoryName : Option String
  qty : ℤ
  unitCost : Option Money
  allocatedRevenue : Money
deriving DecidableEq, Repr

/-- A line of a paper; its amounts are kept to two places. -/
structure DocLine where
  kind : LineKind
  /-- the product or the bundle -/
  id : Option ℕ
  title : String
  sectionCode : String
  categoryName : Option String
  qty : ℤ
  unitPrice : Money
  /-- none → cost unknown; the paper is skipped in profit maths -/
  unitCost : Option Money
  discount : Money
  lineTotal : Money
  components : List DocComponent := []
deriving DecidableEq, Repr

structure FinancialDocument where
  id : DocId
  docNo : String
  kind : DocumentKind
  orderId : OrderId
  customerName : String
  customerPhone : String
  address : String
  paymentLabel : String
  lines : List DocLine
  subtotal : Money
  couponCode : Option String
  discount : Money
  shippingFee : Money
  shippingCost : Money
  gatewayFee : Money
  taxTotal : Money
  total : Money
  reason : Option String := none
  courierLoss : Option Money := none
  reverseCourier : Bool := false
  /-- the invoice this credit note reverses -/
  creditsDocId : Option DocId := none
  issuedAt : Instant
deriving DecidableEq, Repr

/--
Unit cost of a line.  A bundle without its own cost is costed from its components
(component quantities are the units that left the shelf for the whole line).
-/
def lineUnitCost (item : OrderItem) : Option Money :=
  match item.unitCost with
  | some c => some (round2 c)
  | none =>
    if item.kind ≠ .bundle || item.components.isEmpty then none
    else if item.components.any (·.unitCost.isNone) then none
    else
      let total := (item.components.map fun c => c.unitCost.getD 0 * (c.quantity : ℚ)).sum
      some (round2 (total / (max 1 item.quantity : ℤ)))

/-- The lines of a paper; a component's category is looked up in the catalogue. -/
def buildLines (categoryOf : ProductId → Option String) (items : List OrderItem) : List DocLine :=
  items.map fun it =>
    { kind := it.kind, id := if it.kind = .bundle then it.bundleId else it.productId,
      title := it.title, sectionCode := it.sectionCode, categoryName := it.categoryName,
      qty := it.quantity, unitPrice := round2 it.unitPrice, unitCost := lineUnitCost it,
      discount := round2 it.discount, lineTotal := round2 it.lineTotal,
      components := if it.kind = .bundle then
          it.components.map fun c =>
            { productId := c.productId, title := c.title, categoryName := categoryOf c.productId,
              qty := c.quantity, unitCost := c.unitCost.map round2,
              allocatedRevenue := round2 c.allocatedRevenue }
        else [] }

/-- `PAYMENT_LABEL` -/
def PaymentMethod.label : PaymentMethod → String
  | cod => "ক্যাশ অন ডেলিভারি"
  | sslcommerz => "SSLCOMMERZ (অনলাইন)"
  | bkash => "বিকাশ"
  | nagad => "নগদ"
  | bankTransfer => "ব্যাংক ট্রান্সফার"
  | cash => "ক্যাশ"

def addressLine (o : Order) : String :=
  let parts := [some o.shipLine, o.shipUnion, o.shipUpazila, some o.shipDistrict, some o.shipDivision]
  String.intercalate ", " ((parts.reduceOption.map trim).filter (· ≠ ""))

/--
Gateway fee on the paper: the real fee SSLCOMMERZ charged (sum of successful payments)
when known, otherwise the configured percentage of the total.
-/
def gatewayFeeFor (method : PaymentMethod) (total : Money) (paidFees : List Money) (feePct : ℚ) :
    Money :=
  if method ≠ .sslcommerz then 0
  else if paidFees ≠ [] then round2 paidFees.sum
  else round2 (percentOf total feePct)

end BookHouse
