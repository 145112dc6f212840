/-
The cashbook: `finance/cashbook/application/cash-ledger.service.ts` and the parts of
`finance/cashbook/domain/cash-math.ts` it uses.

The ledger is append-only.  A correction is an entry that reverses another one, so an
entry counts while it is live: neither reversed nor itself a reversal.
-/
import BookHouse.Schema

namespace BookHouse

abbrev AccountId := ℕ
abbrev EntryId := ℕ

inductive CashDirection
  | in_ | out
deriving DecidableEq, Repr

inductive CashTxnKind
  | gatewaySettlement | codRemittance | gatewayFee | purchasePayment | refund | courierPayment
  | courierLoss | expense | transfer | ownerCapital | ownerDraw | manual
deriving DecidableEq, Repr

/-- System account codes the automatic postings rely on. -/
inductive SystemAccountCode
  | cash | bkash | nagad | bank | sslcommerz
deriving DecidableEq, Repr

structure CashAccount where
  id : AccountId
  code : String
  name : String
  isActive : Bool := true
  openingBalance : Money := 0
deriving DecidableEq, Repr

structure CashTransaction where
  id : EntryId
  accountId : AccountId
  direction : CashDirection
  kind : CashTxnKind
  amount : Money
  memo : String
  orderId : Option OrderId := none
  purchaseId : Option PurchaseId := none
  transferGroupId : Option ℕ := none
  /-- corrections are reversing entries, never edits -/
  reversesId : Option EntryId := none
  occurredAt : Instant
deriving DecidableEq, Repr

structure Cashbook where
  accounts : List CashAccount := []
  entries : List CashTransaction := []
deriving DecidableEq, Repr

namespace SystemAccountCode

def code : SystemAccountCode → String
  | cash => "cash"
  | bkash => "bkash"
  | nagad => "nagad"
  | bank => "bank"
  | sslcommerz => "sslcommerz"

/-- `SYSTEM_ACCOUNTS[code].name` -/
def name : SystemAccountCode → String
  | cash => "ক্যাশ"
  | bkash => "বিকাশ"
  | nagad => "নগদ"
  | bank => "ব্যাংক"
  | sslcommerz => "SSLCOMMERZ"

end SystemAccountCode

/-- Which account money for a payment method moves through (refunds, receipts). -/
def accountForMethod : PaymentMethod → SystemAccountCode
  | .sslcommerz => .sslcommerz
  | .bkash => .bkash
  | .nagad => .nagad
  | .bankTransfer => .bank
  | .cod | .cash => .cash

inductive AccountRef
  | accountId (id : AccountId)
  | accountCode (code : SystemAccountCode)
deriving DecidableEq, Repr

structure PostEntry where
  account : AccountRef
  direction : CashDirection
  kind : CashTxnKind
  amount : Money
  memo : String
  orderId : Option OrderId := none
  purchaseId : Option PurchaseId := none
  transferGroupId : Option ℕ := none
  reversesId : Option EntryId := none
  occurredAt : Instant
deriving DecidableEq, Repr

/-- `text.slice(0, n)`. -/
def sliceTo (n : ℕ) (text : String) : String := String.ofList (text.toList.take n)

/-- The row a posting writes. -/
def PostEntry.row (e : PostEntry) (id : EntryId) (accountId : AccountId) : CashTransaction :=
  { id, accountId, direction := e.direction, kind := e.kind, amount := round2 e.amount,
    memo := sliceTo 500 e.memo, orderId := e.orderId, purchaseId := e.purchaseId,
    transferGroupId := e.transferGroupId, reversesId := e.reversesId,
    occurredAt := e.occurredAt }

namespace CashLedger

/-- Resolve an account; the five system accounts are created on first use. -/
def account (b : Cashbook) (ref : AccountRef) (allowInactive : Bool := false) :
    Except Failure (Cashbook × CashAccount) :=
  let found : Except Failure (Cashbook × CashAccount) :=
    match ref with
    | .accountId id =>
        match Rows.lookup CashAccount.id id b.accounts with
        | none => .error (.notFound "CashAccount" (toString id))
        | some acc => .ok (b, acc)
    | .accountCode code =>
        match Rows.lookup CashAccount.code code.code b.accounts with
        | some acc => .ok (b, acc)
        | none =>
            let acc : CashAccount :=
              { id := b.accounts.length, code := code.code, name := code.name }
            .ok ({ b with accounts := b.accounts ++ [acc] }, acc)
  match found with
  | .error e => .error e
  | .ok (b, acc) =>
      if !acc.isActive && !allowInactive then
        .error (.rule "cash.account_inactive" (acc.name ++ " খাতটি বন্ধ — এতে এন্ট্রি দেওয়া যাবে না"))
      else .ok (b, acc)

/-- Append one entry. -/
def post (b : Cashbook) (e : PostEntry) : Except Failure Cashbook :=
  if round2 e.amount ≤ 0 then
    .error (.rule "cash.amount_invalid" "টাকার পরিমাণ শূন্যের বেশি দিন")
  else
    match account b e.account e.reversesId.isSome with
    | .error failure => .error failure
    | .ok (b, acc) => .ok { b with entries := b.entries ++ [e.row b.entries.length acc.id] }

/-- Not reversed, and not itself a reversal. -/
def isLive (entries : List CashTransaction) (e : CashTransaction) : Bool :=
  e.reversesId.isNone && !entries.any fun r => r.reversesId = some e.id

structure Match where
  orderId : Option OrderId := none
  kind : CashTxnKind
  direction : Option CashDirection := none
  memo : Option String := none
deriving DecidableEq, Repr

/-- What a `where` asks for; a field it leaves out matches anything. -/
def Match.holds (m : Match) (e : CashTransaction) : Bool :=
  (m.orderId.isNone || e.orderId = m.orderId) && e.kind = m.kind &&
    m.direction.all (e.direction = ·) && m.memo.all (e.memo = ·)

/-- The live entries that match. -/
def live (b : Cashbook) (m : Match) : List CashTransaction :=
  b.entries.filter fun e => m.holds e && isLive b.entries e

/-- Is there a live entry matching? -/
def has (b : Cashbook) (m : Match) : Bool := !(live b m).isEmpty

structure GatewayCapture where
  orderId : OrderId
  orderNo : String
  tranId : String
  amount : Money
  fee : Money
  at_ : Instant
deriving DecidableEq, Repr

def GatewayCapture.memo (p : GatewayCapture) : String := "SSL " ++ p.orderNo ++ " · " ++ p.tranId

def GatewayCapture.feeMemo (p : GatewayCapture) : String :=
  "SSL ফি " ++ p.orderNo ++ " · " ++ p.tranId

/--
SSLCOMMERZ captured a payment: IN to the gateway balance and OUT its fee.  Idempotent
per tran_id.
-/
def recordGatewayCapture (b : Cashbook) (p : GatewayCapture) : Except Failure Cashbook :=
  if has b { orderId := some p.orderId, kind := .gatewaySettlement, direction := some .in_,
             memo := some p.memo } then .ok b
  else do
    let b ← post b { account := .accountCode .sslcommerz, direction := .in_,
                     kind := .gatewaySettlement, amount := p.amount, memo := p.memo,
                     orderId := some p.orderId, occurredAt := p.at_ }
    if 0 < p.fee then
      post b { account := .accountCode .sslcommerz, direction := .out, kind := .gatewayFee,
               amount := p.fee, memo := p.feeMemo, orderId := some p.orderId, occurredAt := p.at_ }
    else return b

structure RefundPosting where
  orderId : OrderId
  orderNo : String
  refundId : String
  method : PaymentMethod
  amount : Money
  at_ : Instant
deriving DecidableEq, Repr

/-- A refund's memo names the first 8 characters of its id. -/
def RefundPosting.memo (p : RefundPosting) : String :=
  "ফেরত " ++ p.orderNo ++ " · " ++ sliceTo 8 p.refundId

/-- Money returned to the customer: OUT REFUND from the account the method uses. -/
def recordRefund (b : Cashbook) (p : RefundPosting) : Except Failure Cashbook :=
  if has b { orderId := some p.orderId, kind := .refund, memo := some p.memo } then .ok b
  else post b { account := .accountCode (accountForMethod p.method), direction := .out,
                kind := .refund, amount := p.amount, memo := p.memo, orderId := some p.orderId,
                occurredAt := p.at_ }

end CashLedger

/-! ### Corrections -/

namespace CashbookService

def opposite : CashDirection → CashDirection
  | .in_ => .out
  | .out => .in_

/-- The entries a reversal has to turn around: both legs of a transfer, or the one. -/
def legs (b : Cashbook) (orig : CashTransaction) : List CashTransaction :=
  match orig.transferGroupId with
  | some g => b.entries.filter fun e => e.transferGroupId = some g && e.reversesId.isNone
  | none => [orig]

/-- Post the opposite of one leg; an entry is reversed at most once. -/
def reverseLeg (reason : String) (group : Option ℕ) (now : Instant) (b : Cashbook)
    (leg : CashTransaction) : Except Failure Cashbook :=
  if b.entries.any (·.reversesId = some leg.id) then
    .error (.unique "cash_transactions_reverses_id_key")
  else
    CashLedger.post b
      { account := .accountId leg.accountId, direction := opposite leg.direction, kind := leg.kind,
        amount := leg.amount, memo := "উল্টো: " ++ leg.memo ++ " — " ++ trim reason,
        orderId := leg.orderId, purchaseId := leg.purchaseId, transferGroupId := group,
        reversesId := some leg.id, occurredAt := now }

/-- Reverse an entry that still counts. -/
def reverse (b : Cashbook) (id : EntryId) (reason : String) (group : ℕ) (now : Instant) :
    Except Failure Cashbook :=
  let reversed (e : CashTransaction) : Bool := b.entries.any (·.reversesId = some e.id)
  match Rows.lookup CashTransaction.id id b.entries with
  | none => .error (.notFound "CashTransaction" (toString id))
  | some orig =>
    if orig.reversesId.isSome then
      .error (.rule "cash.reverse_of_reversal"
        "এটা নিজেই একটা উল্টো এন্ট্রি — আবার উল্টানো যাবে না")
    else if reversed orig then .error (.conflict "cash.already_reversed" "এই এন্ট্রি আগেই উল্টানো হয়েছে")
    else if (legs b orig).any reversed then
      .error (.conflict "cash.already_reversed" "এই ট্রান্সফার আগেই উল্টানো হয়েছে")
    else (legs b orig).foldlM (reverseLeg reason (orig.transferGroupId.map fun _ => group) now) b

end CashbookService

end BookHouse
