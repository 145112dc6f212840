/-
Postings, transfers and reversals of the cashbook, statement by statement:
`transfer`, `reverse` and `unpayPurchase` of
`finance/cashbook/application/cashbook.service.ts`.

A reversal is one READ COMMITTED transaction.  It reads the entry, then the legs of its
transfer, and inserts an opposite for each leg; the unique index on `reverses_id` refuses
an insert that a committed row conflicts with and makes one wait that another transaction's
row conflicts with.  A supplier payment takes its bill's row lock as well.  Until it commits,
the rows and bills a reversal has written are its own.  The other calls are single steps.
-/
import BookHouse.Finance.Purchasing

namespace BookHouse

/-! ### Balances -/

/-- `CASE WHEN direction = 'IN' THEN amount ELSE -amount END` -/
def CashTransaction.signed (e : CashTransaction) : Money :=
  match e.direction with
  | .in_ => e.amount
  | .out => -e.amount

/-- What entries move on an account. -/
def movedOn (acc : AccountId) (entries : List CashTransaction) : Money :=
  ((entries.filter (·.accountId = acc)).map CashTransaction.signed).sum

/-- `v_cash_balances` -/
def balanceOf (acc : CashAccount) (entries : List CashTransaction) : Money :=
  acc.openingBalance + movedOn acc.id entries

/-! ### Transfers -/

structure TransferDto where
  fromAccountId : AccountId
  toAccountId : AccountId
  amount : Money
  memo : Option String := none
  /-- what `parseWhen` makes of the text -/
  occurredAt : Option Instant
deriving DecidableEq, Repr

namespace CashbookService

def when_ (at_ : Option Instant) (now : Instant) : Except Failure Instant :=
  match at_ with
  | none => .error (.rule "cash.date_invalid" "তারিখ সঠিক নয় (YYYY-MM-DD বা ISO সময় দিন)")
  | some d =>
    if now + 5 * 60000 < d then
      .error (.rule "cash.date_future" "ভবিষ্যতের তারিখে এন্ট্রি দেওয়া যাবে না")
    else .ok d

/-- Two legs under a new group. -/
def transfer (b : Cashbook) (dto : TransferDto) (group : ℕ) (now : Instant) :
    Except Failure Cashbook :=
  if dto.fromAccountId = dto.toAccountId then
    .error (.rule "cash.transfer_same" "একই খাতে ট্রান্সফার হয় না")
  else do
    let occurredAt ← when_ dto.occurredAt now
    let (b, source) ← CashLedger.account b (.accountId dto.fromAccountId)
    let (b, dest) ← CashLedger.account b (.accountId dto.toAccountId)
    let memo := (DocumentIssuer.firstText [dto.memo]).getD (source.name ++ " → " ++ dest.name)
    let leg (account : CashAccount) (direction : CashDirection) : PostEntry :=
      { account := .accountId account.id, direction, kind := .transfer, amount := dto.amount, memo,
        transferGroupId := some group, occurredAt }
    let b ← CashLedger.post b (leg source .out)
    CashLedger.post b (leg dest .in_)

end CashbookService

/-! ### The desk -/

inductive ReversalPhase
  | asked
  /-- the entry is there, no reversal and not reversed -/
  | found (orig : CashTransaction)
  /-- the legs that have no opposite yet -/
  | posting (orig : CashTransaction) (todo : List CashTransaction)
  /-- the leg just inserted takes its payment off a bill -/
  | unpaying (orig leg : CashTransaction) (todo : List CashTransaction)
  | reversed
  | failed (failure : Failure)
deriving DecidableEq, Repr

/-- A call of `reverse`. -/
structure Reversal where
  id : EntryId
  reason : String
  /-- the `randomUUID` of the new legs -/
  group : ℕ
  now : Instant
  phase : ReversalPhase := .asked
  /-- rows inserted and not committed -/
  rows : List CashTransaction := []
  /-- bills updated and not committed -/
  bills : List Purchase := []
deriving DecidableEq, Repr

structure CashDesk where
  books : Books := {}
  purchases : List Purchase := []
  calls : List Reversal := []
deriving DecidableEq, Repr

inductive CashAction
  | ask (id : EntryId) (reason : String) (group : ℕ) (now : Instant)
  /-- `findUnique` -/
  | find (i : ℕ)
  /-- `findMany` of the legs, in no particular order -/
  | findLegs (i : ℕ) (order : List CashTransaction)
  /-- the insert for the next leg -/
  | insert (i : ℕ)
  /-- `unpayPurchase` -/
  | unpay (i : ℕ)
  | commit (i : ℕ)
  /-- a deadlock, a timeout, a lost process; a deadlock is tried again -/
  | abort (i : ℕ) (again : Bool)
  | transfer (dto : TransferDto) (group : ℕ) (now : Instant)
  | codRemittance (dto : CodRemittanceDto) (group : ℕ) (now : Instant)
  /-- a posting of another flow -/
  | post (e : PostEntry)
  /-- any write of another module to what is not an entry -/
  | change (books : Books) (purchases : List Purchase)
deriving DecidableEq, Repr

/-- A step of a reversal that is not its commit. -/
def CashAction.unfinished : CashAction → Bool
  | ask .. | find _ | findLegs .. | insert _ | unpay _ | abort .. => true
  | _ => false

namespace CashDesk

def entries (s : CashDesk) : List CashTransaction := s.books.cash.entries

def setCall (s : CashDesk) (i : ℕ) (c : Reversal) : CashDesk := { s with calls := s.calls.set i c }

/-- The transaction is rolled back. -/
def fail (s : CashDesk) (i : ℕ) (c : Reversal) (failure : Failure) : CashDesk :=
  s.setCall i { c with phase := .failed failure, rows := [], bills := [] }

def reversed (entries : List CashTransaction) (e : CashTransaction) : Bool :=
  entries.any (·.reversesId = some e.id)

def alreadyReversed : Failure := .conflict "cash.already_reversed" "এই এন্ট্রি আগেই উল্টানো হয়েছে"

def find (s : CashDesk) (i : ℕ) (c : Reversal) : Option CashDesk :=
  match c.phase with
  | .asked =>
    match Rows.lookup CashTransaction.id c.id s.entries with
    | none => some (s.fail i c (.notFound "CashTransaction" (toString c.id)))
    | some orig =>
      if orig.reversesId.isSome then
        some (s.fail i c (.rule "cash.reverse_of_reversal"
          "এটা নিজেই একটা উল্টো এন্ট্রি — আবার উল্টানো যাবে না"))
      else if reversed s.entries orig then some (s.fail i c alreadyReversed)
      else some (s.setCall i { c with phase := .found orig })
  | _ => none

def findLegs (s : CashDesk) (i : ℕ) (c : Reversal) (order : List CashTransaction) :
    Option CashDesk :=
  match c.phase with
  | .found orig =>
    if order.Perm (CashbookService.legs s.books.cash orig) then
      if order.any (reversed s.entries) then
        some (s.fail i c (.conflict "cash.already_reversed" "এই ট্রান্সফার আগেই উল্টানো হয়েছে"))
      else some (s.setCall i { c with phase := .posting orig order })
    else none
  | _ => none

/-- Another transaction has a row in the way that may still be rolled back. -/
def waitsFor (s : CashDesk) (i : ℕ) (leg : CashTransaction) : Bool :=
  s.calls.zipIdx.any fun (other, j) => j ≠ i && reversed other.rows leg

/-- The cashbook as a transaction sees it. -/
def seen (s : CashDesk) (c : Reversal) : Cashbook :=
  { s.books.cash with entries := s.entries ++ c.rows }

/-- A leg that pays a bill is taken off it next. -/
def nextPhase (orig leg : CashTransaction) (todo : List CashTransaction) : ReversalPhase :=
  if (CashbookService.unpaid leg).isSome then .unpaying orig leg todo else .posting orig todo

def insert (s : CashDesk) (i : ℕ) (c : Reversal) : Option CashDesk :=
  match c.phase with
  | .posting orig (leg :: todo) =>
    if s.waitsFor i leg then none
    else
      match CashbookService.reverseLeg c.reason (orig.transferGroupId.map fun _ => c.group) c.now
          (s.seen c) leg with
      | .error (.unique _) => some (s.fail i c alreadyReversed)
      | .error failure => some (s.fail i c failure)
      | .ok b => some (s.setCall i
          { c with phase := nextPhase orig leg todo, rows := b.entries.drop s.entries.length })
  | _ => none

/-- The bills as a transaction sees them: its own versions over the committed ones. -/
def seenBills (s : CashDesk) (c : Reversal) : List Purchase :=
  s.purchases.map fun p => (c.bills.find? (·.id = p.id)).getD p

/-- Somebody else holds the bill's row. -/
def billHeld (s : CashDesk) (i : ℕ) (id : PurchaseId) : Bool :=
  s.calls.zipIdx.any fun (other, j) => j ≠ i && other.bills.any (·.id = id)

def unpay (s : CashDesk) (i : ℕ) (c : Reversal) : Option CashDesk :=
  match c.phase with
  | .unpaying orig leg todo =>
    match CashbookService.unpaid leg with
    | none => none
    | some (id, amount) =>
      if s.billHeld i id then none
      else
        match CashbookService.unpayPurchase Clamps.code { purchases := s.seenBills c } id amount with
        | .error failure => some (s.fail i c failure)
        | .ok d => some (s.setCall i { c with
            phase := .posting orig todo,
            bills := (Rows.lookup Purchase.id id d.purchases).toList ++ c.bills })
  | _ => none

/-- The rows a transaction inserted, numbered after what is committed. -/
def numberedRows (entries rows : List CashTransaction) : List CashTransaction :=
  rows.mapIdx fun k r => { r with id := entries.length + k }

def commit (s : CashDesk) (i : ℕ) (c : Reversal) : Option CashDesk :=
  match c.phase with
  | .posting _ [] =>
    let cash := { s.books.cash with entries := s.entries ++ numberedRows s.entries c.rows }
    some ({ s with books := { s.books with cash }, purchases := s.seenBills c }.setCall i
      { c with phase := .reversed, rows := [], bills := [] })
  | _ => none

def abort (s : CashDesk) (i : ℕ) (c : Reversal) (again : Bool) : Option CashDesk :=
  match c.phase with
  | .reversed | .failed _ => none
  | _ =>
    if again then some (s.setCall i { c with phase := .asked, rows := [], bills := [] })
    else some (s.fail i c (.unique "aborted"))

/-- A `randomUUID` is not one that an entry has. -/
def freshGroup (s : CashDesk) (group : ℕ) : Bool :=
  s.entries.all fun e => e.transferGroupId ≠ some group

/-- The bills that a reversal holds are not written by anybody else. -/
def sparesBills (s : CashDesk) (purchases : List Purchase) : Bool :=
  s.calls.all fun c => c.bills.all fun p =>
    Rows.lookup Purchase.id p.id purchases = Rows.lookup Purchase.id p.id s.purchases

end CashDesk

open CashDesk

/-- One statement of a reversal, or one committed call. -/
def cashStep (s : CashDesk) : CashAction → Option CashDesk
  | .ask id reason group now => some { s with calls := s.calls ++ [{ id, reason, group, now }] }
  | .find i => (s.calls[i]?).bind fun c => s.find i c
  | .findLegs i order => (s.calls[i]?).bind fun c => s.findLegs i c order
  | .insert i => (s.calls[i]?).bind fun c => s.insert i c
  | .unpay i => (s.calls[i]?).bind fun c => s.unpay i c
  | .commit i => (s.calls[i]?).bind fun c => s.commit i c
  | .abort i again => (s.calls[i]?).bind fun c => s.abort i c again
  | .transfer dto group now =>
      if s.freshGroup group then
        ((CashbookService.transfer s.books.cash dto group now).toOption).map fun cash =>
          { s with books := { s.books with cash } }
      else none
  | .codRemittance dto group now =>
      if s.freshGroup group then
        ((CashbookService.codRemittance s.books dto group now).toOption).map fun books =>
          { s with books }
      else none
  | .post e =>
      if e.reversesId.isNone && e.transferGroupId.isNone then
        ((CashLedger.post s.books.cash e).toOption).map fun cash =>
          { s with books := { s.books with cash } }
      else none
  | .change books purchases =>
      if books.cash.entries = s.entries && s.sparesBills purchases then
        some { s with books, purchases }
      else none

end BookHouse
