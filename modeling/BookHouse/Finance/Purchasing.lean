/-
Supplier bills: `finance/purchasing/domain/purchase-math.ts`,
`finance/purchasing/application/purchases.service.ts`, and the part of
`CashbookService.reverse` that puts a supplier payment back on its bill.

The amount paid is kept on the bill and, entry by entry, in the cashbook.  Both sides are
clamped when they move: `pay` takes the smaller of the new amount and the total,
`unpayPurchase` stays between zero and the total.  The clamps are a parameter here; the
code's are `Clamps.code`.
-/
import BookHouse.Lib.Machine
import BookHouse.Inventory
import BookHouse.Finance.CodRemittance

namespace BookHouse

open Rounding

abbrev SupplierId := ℕ

inductive PurchaseStatus
  | draft | ordered | received | cancelled
deriving DecidableEq, Repr

inductive SettlementStatus
  | unpaid | partial_ | paid
deriving DecidableEq, Repr

structure Supplier where
  id : SupplierId
  name : String
  deletedAt : Option Instant := none
deriving DecidableEq, Repr

structure PurchaseItem where
  productId : ProductId
  title : String
  quantity : ℤ
  unitCost : Money
  lineTotal : Money
deriving DecidableEq, Repr

structure Purchase where
  id : PurchaseId
  purchaseNo : String
  supplierId : SupplierId
  status : PurchaseStatus := .received
  paymentStatus : SettlementStatus := .unpaid
  subtotal : Money
  otherCharges : Money := 0
  total : Money
  amountPaid : Money := 0
  purchasedAt : Instant
  items : List PurchaseItem
deriving DecidableEq, Repr

/-- The CHECKs on the amounts of a purchase. -/
def Purchase.check (p : Purchase) : Except Failure Unit :=
  if p.subtotal < 0 || p.otherCharges < 0 || p.total ≠ p.subtotal + p.otherCharges then
    .error (.check "purchases_amounts")
  else if p.amountPaid < 0 || p.total < p.amountPaid then .error (.check "purchases_paid")
  else .ok ()

/-- The CHECKs on a line of a purchase. -/
def PurchaseItem.check (i : PurchaseItem) : Except Failure Unit :=
  if i.quantity ≤ 0 then .error (.check "purchase_items_qty")
  else if i.unitCost < 0 || i.lineTotal ≠ i.quantity * i.unitCost then
    .error (.check "purchase_items_cost")
  else .ok ()

/-! ### purchase-math.ts -/

structure PurchaseLineInput where
  productId : ProductId
  quantity : ℤ
  unitCost : Money
deriving DecidableEq, Repr

structure PricedLine where
  productId : ProductId
  quantity : ℤ
  unitCost : Money
  lineTotal : Money
deriving DecidableEq, Repr

structure PurchaseTotals where
  lines : List PricedLine
  subtotal : Money
  otherCharges : Money
  total : Money
deriving DecidableEq, Repr

def priceLine (l : PurchaseLineInput) : PricedLine :=
  let unitCost := round2 l.unitCost
  { productId := l.productId, quantity := l.quantity, unitCost, lineTotal := unitCost * l.quantity }

/-- Line totals and bill total, exactly as the CHECKs expect. -/
def purchaseTotals (lines : List PurchaseLineInput) (otherCharges : Money) : PurchaseTotals :=
  let priced := lines.map priceLine
  let subtotal := (priced.map (·.lineTotal)).sum
  let charges := round2 otherCharges
  { lines := priced, subtotal, otherCharges := charges, total := subtotal + charges }

/-- A repeated product joins the line it already has.  Last cost wins. -/
def mergeLine (map : List PurchaseLineInput) (l : PurchaseLineInput) : List PurchaseLineInput :=
  if map.any (·.productId = l.productId) then
    Rows.modify PurchaseLineInput.productId l.productId
      (fun hit => { productId := l.productId, quantity := hit.quantity + l.quantity,
                    unitCost := l.unitCost }) map
  else map ++ [l]

/-- Merge repeated products into one line. -/
def mergePurchaseLines (lines : List PurchaseLineInput) : List PurchaseLineInput :=
  lines.foldl mergeLine []

def settlementStatus (total paid : Money) : SettlementStatus :=
  if paid ≤ 0 then .unpaid else if total ≤ paid then .paid else .partial_

def Purchase.settle (total paid : Money) (p : Purchase) : Purchase :=
  { p with amountPaid := paid, paymentStatus := settlementStatus total paid }

def outstanding (total paid : Money) : Money := if total - paid < 0 then 0 else total - paid

def checkPayment (total paid amount : Money) : Except Failure Unit :=
  if amount ≤ 0 then .error (.rule "purchase.payment_invalid" "টাকার পরিমাণ শূন্যের বেশি দিন")
  else if outstanding total paid = 0 then
    .error (.rule "purchase.already_paid" "এই বিল আগেই পুরো পরিশোধ হয়েছে")
  else if outstanding total paid < amount then
    .error (.rule "purchase.overpayment"
      ("বকেয়া ৳" ++ toFixed 2 (outstanding total paid) ++ " — এর বেশি দেওয়া যাবে না"))
  else .ok ()

/-! ### What the calls are given -/

/-- A number that passed `@IsNumber({ maxDecimalPlaces: 2 })`. -/
structure MoneyInput where
  value : Money
  places : round2 value = value
deriving DecidableEq, Repr

structure PayNowDto where
  accountId : AccountId
  /-- default: the full bill -/
  amount : Option MoneyInput := none
deriving DecidableEq, Repr

structure CreatePurchaseDto where
  supplierId : SupplierId
  /-- what `parseWhen` makes of the text -/
  purchasedAt : Option Instant
  lines : List PurchaseLineInput
  otherCharges : Option Money := none
  /-- omitted: the supplier stays due -/
  payment : Option PayNowDto := none
deriving DecidableEq, Repr

structure PurchasePaymentDto where
  accountId : AccountId
  amount : MoneyInput
  /-- what `parseWhen` makes of the text -/
  occurredAt : Option Instant
  memo : Option String := none
deriving DecidableEq, Repr

/-- The tables the purchasing calls work on. -/
structure PurchaseDesk where
  store : Store := {}
  suppliers : List Supplier := []
  purchases : List Purchase := []
  cash : Cashbook := {}
deriving DecidableEq, Repr

/-- How a new amount paid is kept in range, from the amount and the bill's total. -/
structure Clamps where
  pay : Money → Money → Money
  unpay : Money → Money → Money

namespace Clamps

def code : Clamps where
  pay paid total := min paid total
  unpay paid total :=
    let paid := if paid < 0 then 0 else paid
    if total < paid then total else paid

/-- No clamp at all. -/
def off : Clamps where
  pay paid _ := paid
  unpay paid _ := paid

end Clamps

namespace PurchasesService

def when_ (at_ : Option Instant) (now : Instant) : Except Failure Instant :=
  match at_ with
  | none => .error (.rule "purchase.date_invalid" "তারিখ সঠিক নয়")
  | some d =>
    if now + 5 * 60000 < d then
      .error (.rule "purchase.date_future" "ভবিষ্যতের তারিখ দেওয়া যাবে না")
    else .ok d

/-- `UPDATE purchases SET amount_paid, payment_status WHERE id`. -/
def setPaid (s : PurchaseDesk) (p : Purchase) (paid : Money) : Except Failure PurchaseDesk :=
  let settle := Purchase.settle p.total paid
  (settle p).check.map fun _ =>
    { s with purchases := Rows.modify Purchase.id p.id settle s.purchases }

/-- `purchase.create`: the bill and its lines. -/
def insertPurchase (s : PurchaseDesk) (p : Purchase) : Except Failure PurchaseDesk := do
  p.check
  p.items.forM PurchaseItem.check
  if s.purchases.any (·.purchaseNo = p.purchaseNo) then
    .error (.unique "purchases_purchase_no_key")
  else return { s with purchases := s.purchases ++ [p] }

def titleOf (s : PurchaseDesk) (id : ProductId) : Option String :=
  ((Rows.lookup Product.id id s.store.products).filter (·.deletedAt.isNone)).map (·.title)

/-- Stock in, line by line. -/
def receiveLines (s : PurchaseDesk) (lines : List PricedLine) (id : PurchaseId) (now : Instant) :
    Except Failure PurchaseDesk :=
  (lines.foldlM (fun store l => Inventory.receive store l.productId l.quantity l.unitCost
    { purchaseId := some id, now }) s.store).map fun store => { s with store }

def postPayment (s : PurchaseDesk) (id : PurchaseId) (accountId : AccountId) (amount : Money)
    (memo : String) (occurredAt : Instant) : Except Failure PurchaseDesk :=
  (CashLedger.post s.cash
    { account := .accountId accountId, direction := .out, kind := .purchasePayment, amount, memo,
      purchaseId := some id, occurredAt }).map fun cash => { s with cash }

/-- What is paid with the bill. -/
def paidNow (payment : Option PayNowDto) (total : Money) : Money :=
  match payment with
  | none => 0
  | some pay => (pay.amount.map (·.value)).getD total

/-- The bill as it is written. -/
def newPurchase (s : PurchaseDesk) (dto : CreatePurchaseDto) (purchaseNo : String)
    (totals : PurchaseTotals) (paid : Money) (purchasedAt : Instant) : Purchase :=
  { id := s.purchases.length, purchaseNo, supplierId := dto.supplierId,
    paymentStatus := settlementStatus totals.total paid, subtotal := totals.subtotal,
    otherCharges := totals.otherCharges, total := totals.total, amountPaid := paid, purchasedAt,
    items := totals.lines.map fun l =>
      { productId := l.productId, title := (titleOf s l.productId).getD "", quantity := l.quantity,
        unitCost := l.unitCost, lineTotal := l.lineTotal } }

/-- One transaction: number, bill with its lines, stock in, payment now. -/
def create (s : PurchaseDesk) (dto : CreatePurchaseDto) (now : Instant) :
    Except Failure PurchaseDesk := do
  let purchasedAt ← when_ dto.purchasedAt now
  let lines := mergePurchaseLines dto.lines
  let totals := purchaseTotals lines (dto.otherCharges.getD 0)
  match (Rows.lookup Supplier.id dto.supplierId s.suppliers).filter (·.deletedAt.isNone) with
  | none => .error (.notFound "Supplier" (toString dto.supplierId))
  | some supplier =>
    match lines.find? fun l => (titleOf s l.productId).isNone with
    | some missing => .error (.notFound "Product" (toString missing.productId))
    | none =>
      let paid := paidNow dto.payment totals.total
      if totals.total < paid then
        .error (.rule "purchase.overpayment" "বিলের চেয়ে বেশি পরিশোধ দেখানো যাবে না")
      else
        let number := nextNumber s.store.counters .purchase
        let purchase := newPurchase s dto number.1 totals paid purchasedAt
        let s ← insertPurchase { s with store := { s.store with counters := number.2 } } purchase
        let s ← receiveLines s totals.lines purchase.id now
        match dto.payment with
        | none => return s
        | some pay =>
          if 0 < paid then
            postPayment s purchase.id pay.accountId paid
              ("ক্রয় " ++ number.1 ++ " · " ++ supplier.name) purchasedAt
          else return s

/-- Pay (part of) an open supplier bill later. -/
def pay (clamps : Clamps) (s : PurchaseDesk) (id : PurchaseId) (dto : PurchasePaymentDto)
    (now : Instant) : Except Failure PurchaseDesk := do
  let occurredAt ← when_ dto.occurredAt now
  match Rows.lookup Purchase.id id s.purchases with
  | none => .error (.notFound "Purchase" (toString id))
  | some p =>
    if p.status = .cancelled then
      .error (.rule "purchase.cancelled" "বাতিল বিলে পরিশোধ হয় না")
    else
      checkPayment p.total p.amountPaid dto.amount.value
      let s ← setPaid s p (clamps.pay (p.amountPaid + dto.amount.value) p.total)
      postPayment s id dto.accountId dto.amount.value
        ((DocumentIssuer.firstText [dto.memo]).getD ("ক্রয় " ++ p.purchaseNo ++ " পরিশোধ")) occurredAt

end PurchasesService

/-! ### Reversing an entry -/

namespace CashbookService

/-- Reversing a supplier payment puts the amount back on the bill. -/
def unpayPurchase (clamps : Clamps) (s : PurchaseDesk) (purchaseId : PurchaseId)
    (amount : Money) : Except Failure PurchaseDesk :=
  match Rows.lookup Purchase.id purchaseId s.purchases with
  | none => .ok s
  | some p => PurchasesService.setPaid s p (clamps.unpay (p.amountPaid - amount) p.total)

/-- The bill a leg was paid to, and what undoing the leg takes off its amount paid. -/
def unpaid (leg : CashTransaction) : Option (PurchaseId × Money) :=
  if leg.kind = .purchasePayment then
    leg.purchaseId.map fun id => (id, if leg.direction = .out then leg.amount else -leg.amount)
  else none

/-- Turn one leg around, in the cashbook and on the bill it paid. -/
def undoLeg (clamps : Clamps) (reason : String) (group : Option ℕ) (now : Instant)
    (s : PurchaseDesk) (leg : CashTransaction) : Except Failure PurchaseDesk := do
  let cash ← reverseLeg reason group now s.cash leg
  match unpaid leg with
  | none => return { s with cash }
  | some (id, amount) => unpayPurchase clamps { s with cash } id amount

/-- `reverse` with the bills: corrections are new opposite entries, a transfer as a pair. -/
def undo (clamps : Clamps) (s : PurchaseDesk) (id : EntryId) (reason : String) (group : ℕ)
    (now : Instant) : Except Failure PurchaseDesk :=
  let reversed (e : CashTransaction) : Bool := s.cash.entries.any (·.reversesId = some e.id)
  match Rows.lookup CashTransaction.id id s.cash.entries with
  | none => .error (.notFound "CashTransaction" (toString id))
  | some orig =>
    if orig.reversesId.isSome then
      .error (.rule "cash.reverse_of_reversal"
        "এটা নিজেই একটা উল্টো এন্ট্রি — আবার উল্টানো যাবে না")
    else if reversed orig then .error (.conflict "cash.already_reversed" "এই এন্ট্রি আগেই উল্টানো হয়েছে")
    else if (legs s.cash orig).any reversed then
      .error (.conflict "cash.already_reversed" "এই ট্রান্সফার আগেই উল্টানো হয়েছে")
    else
      (legs s.cash orig).foldlM (undoLeg clamps reason (orig.transferGroupId.map fun _ => group) now) s

end CashbookService

/-! ### The machine -/

inductive PurchaseAction
  | create (dto : CreatePurchaseDto) (now : Instant)
  | pay (id : PurchaseId) (dto : PurchasePaymentDto) (now : Instant)
  | reverse (id : EntryId) (reason : String) (group : ℕ) (now : Instant)
  /-- a posting of another flow: an expense, a refund, a transfer, … -/
  | post (e : PostEntry)
  /-- any write of another module to stock, counters, suppliers and accounts -/
  | change (store : Store) (suppliers : List Supplier) (accounts : List CashAccount)
deriving DecidableEq, Repr

namespace PurchaseAction

/-- No other flow posts to a bill, and corrections come from `reverse` only. -/
def otherFlow (e : PostEntry) : Bool := e.purchaseId.isNone && e.reversesId.isNone

def call (clamps : Clamps) (s : PurchaseDesk) : PurchaseAction → Except Failure PurchaseDesk
  | create dto now => PurchasesService.create s dto now
  | pay id dto now => PurchasesService.pay clamps s id dto now
  | reverse id reason group now => CashbookService.undo clamps s id reason group now
  | post e => (CashLedger.post s.cash e).map fun cash => { s with cash }
  | change store suppliers accounts =>
      .ok { s with store, suppliers, cash := { s.cash with accounts } }

end PurchaseAction

/-- One committed call; a call that fails leaves nothing behind and is not a step. -/
def purchaseStep (clamps : Clamps) (s : PurchaseDesk) (a : PurchaseAction) : Option PurchaseDesk :=
  match a with
  | .post e => if PurchaseAction.otherFlow e then (a.call clamps s).toOption else none
  | _ => (a.call clamps s).toOption

end BookHouse
