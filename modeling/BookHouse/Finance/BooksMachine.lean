/-
The books as a machine: the calls that write papers or cash, among everything else the
shop does.

The issuer and the COD settlement read orders, payments, categories, settings,
accounts, counters and shipments that other modules write; `change` is any such write,
so a history of orders and payments is any list of changes.  A call that fails leaves
nothing behind and is not a step.
-/
import BookHouse.Lib.Machine
import BookHouse.Finance.CodRemittance

namespace BookHouse

inductive BooksAction
  /-- any write of another module to the tables the books are drawn from -/
  | change (sources : PaperSources) (accounts : List CashAccount)
      (counters : List DocumentCounter) (shipments : List Shipment)
  | sync (orderId : OrderId) (hint : SyncHint) (now : Instant)
  | codRemittance (dto : CodRemittanceDto) (group : ℕ) (now : Instant)
  | reverse (id : EntryId) (reason : String) (group : ℕ) (now : Instant)
  /-- a posting of another flow: an expense, a refund, a gateway capture, … -/
  | post (e : PostEntry)
deriving DecidableEq, Repr

namespace BooksAction

/-- COD money and corrections are posted by the calls above only. -/
def otherFlow (e : PostEntry) : Bool := e.kind ≠ .codRemittance && e.reversesId.isNone

def call (b : Books) : BooksAction → Except Failure Books
  | change sources accounts counters shipments =>
      .ok { b with toPaperSources := sources, cash := { b.cash with accounts }, counters, shipments }
  | sync orderId hint now => (DocumentIssuer.syncIn b orderId hint now).map Prod.fst
  | codRemittance dto group now => CashbookService.codRemittance b dto group now
  | reverse id reason group now =>
      (CashbookService.reverse b.cash id reason group now).map fun cash => { b with cash }
  | post e => (CashLedger.post b.cash e).map fun cash => { b with cash }

end BooksAction

/-- One committed call. -/
def booksStep (b : Books) (a : BooksAction) : Option Books :=
  match a with
  | .post e => if BooksAction.otherFlow e then (a.call b).toOption else none
  | _ => (a.call b).toOption

end BookHouse
