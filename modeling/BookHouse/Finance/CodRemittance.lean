/-
The courier pays the collected COD: `codRemittance` of
`finance/cashbook/application/cashbook.service.ts`.

Without shipments the money is one entry that names no order.  With shipments each
order's COD is first booked into `cash` if that has not happened, under the same
per-order lock the document issuer takes; then the money moves to the chosen account.
-/
import BookHouse.Finance.DocumentIssuer

namespace BookHouse

structure CodRemittanceDto where
  accountId : AccountId
  amount : Money
  shipmentIds : List ℕ := []
  memo : Option String := none
  occurredAt : Instant
deriving DecidableEq, Repr

namespace CashbookService

def orderNoOf (b : Books) (orderId : OrderId) : String :=
  ((Rows.lookup Order.id orderId b.orders).map (·.orderNo)).getD ""

/-- Book a shipment's COD into `cash` if that has not happened yet. -/
def bookCod (orderNo : OrderId → String) (now : Instant) (b : Cashbook) (s : Shipment) :
    Except Failure Cashbook :=
  if CashLedger.has b (DocumentIssuer.codMatch s.orderId) then .ok b
  else CashLedger.post b
    { account := .accountCode .cash, direction := .in_, kind := .codRemittance,
      amount := s.codAmount, memo := "ক্যাশ অন " ++ orderNo s.orderId, orderId := some s.orderId,
      occurredAt := now }

/-- Move what was received from `cash` to the chosen account, unless it is `cash`. -/
def moveReceived (b : Cashbook) (cash dest : CashAccount) (received : Money) (memo : String)
    (group : ℕ) (now : Instant) : Except Failure Cashbook :=
  if dest.id = cash.id then .ok b
  else do
    let leg (account : CashAccount) (direction : CashDirection) : PostEntry :=
      { account := .accountId account.id, direction, kind := .transfer, amount := received,
        memo := memo ++ " · ক্যাশ → " ++ dest.name, transferGroupId := some group,
        occurredAt := now }
    let b ← CashLedger.post b (leg cash .out)
    CashLedger.post b (leg dest .in_)

/-- What the courier kept goes out as its payment. -/
def bookDeducted (b : Cashbook) (cash : CashAccount) (deducted : Money) (memo : String)
    (now : Instant) : Except Failure Cashbook :=
  if 0 < deducted then
    CashLedger.post b
      { account := .accountId cash.id, direction := .out, kind := .courierPayment,
        amount := deducted, memo := memo ++ " · কুরিয়ার চার্জ কাটা", occurredAt := now }
  else .ok b

def Shipment.remitted (occurredAt now : Instant) (s : Shipment) : Shipment :=
  { s with codStatus := .remitted, codRemittedAt := some occurredAt,
           codCollectedAt := s.codCollectedAt.orElse fun _ => some now }

/-- A shipment whose COD cannot be remitted: none, or settled already. -/
def notRemittable (s : Shipment) : Bool :=
  s.codStatus = .remitted || s.codStatus = .notApplicable || s.codAmount ≤ 0

/-- The courier paid us collected COD. -/
def codRemittance (b : Books) (dto : CodRemittanceDto) (group : ℕ) (now : Instant) :
    Except Failure Books := do
  let (book, dest) ← CashLedger.account b.cash (.accountId dto.accountId)
  let received := round2 dto.amount
  let memoBase := (DocumentIssuer.firstText [dto.memo]).getD "কুরিয়ার COD সেটলমেন্ট"
  if dto.shipmentIds = [] then
    let cash ← CashLedger.post book
      { account := .accountId dest.id, direction := .in_, kind := .codRemittance,
        amount := received, memo := memoBase, occurredAt := dto.occurredAt }
    return { b with cash }
  else
    let shipments := b.shipments.filter (·.id ∈ dto.shipmentIds)
    match dto.shipmentIds.find? (· ∉ shipments.map (·.id)) with
    | some id => .error (.notFound "Shipment" (toString id))
    | none =>
      match shipments.find? notRemittable with
      | some s =>
          .error (.rule "cash.cod_not_remittable"
            (orderNoOf b s.orderId ++ " — COD নেই বা আগেই সেটল হয়েছে") [.num "shipmentId" s.id])
      | none =>
        let due := (shipments.map (·.codAmount)).sum
        if due < received then
          .error (.rule "cash.cod_overpaid"
            ("এই চালানগুলোর COD ৳" ++ toFixed 2 due ++ " — এর বেশি দেখানো যাবে না"))
        else
          let book ← shipments.foldlM (bookCod (orderNoOf b) dto.occurredAt) book
          let (book, cash) ← CashLedger.account book (.accountCode .cash) true
          let book ← moveReceived book cash dest received memoBase group dto.occurredAt
          let book ← bookDeducted book cash (due - received) memoBase dto.occurredAt
          return { b with
            cash := book,
            shipments := b.shipments.map fun s =>
              if s.id ∈ dto.shipmentIds then Shipment.remitted dto.occurredAt now s else s }

end CashbookService

end BookHouse
