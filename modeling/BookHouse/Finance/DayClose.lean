/-
The day close: `rollDays` of `finance/cashbook/domain/cash-math.ts` and `openingBefore`, `perDay`,
`dayClose` and `daily` of `finance/cashbook/application/cashbook.service.ts`.

The database groups entries by the date that its own time zone data gives them in Asia/Dhaka.
That data is not part of the shop: `zone` is the offset it has for an instant, in
milliseconds.  Amounts stay exact decimals.
-/
import BookHouse.Finance.CourierDesk
import BookHouse.Finance.DhakaTime

namespace BookHouse

/-! ### cash-math.ts -/

structure DayTotals where
  in_ : Money
  out : Money
deriving DecidableEq, Repr

structure DayCloseRow where
  day : JsString
  opening : Money
  in_ : Money
  out : Money
  closing : Money
deriving DecidableEq, Repr

/-- What a `Map` from days holds under one. -/
def totalsOn (perDay : List (JsString × DayTotals)) (day : JsString) : DayTotals :=
  ((perDay.find? (·.1 = day)).map (·.2)).getD { in_ := 0, out := 0 }

/-- Each day's opening is the previous day's closing; the first day's is what is running. -/
def rollDays (perDay : List (JsString × DayTotals)) : List JsString → Money → List DayCloseRow
  | [], _ => []
  | day :: days, running =>
      let t := totalsOn perDay day
      let closing := running + t.in_ - t.out
      { day, opening := running, in_ := t.in_, out := t.out, closing } :: rollDays perDay days closing

/-! ### cashbook.service.ts -/

/-- `a.id = ${accountId}`, where an account is asked for. -/
def isChosen (accountId : Option AccountId) (id : AccountId) : Bool := accountId.all (· = id)

/-- `(occurred_at AT TIME ZONE 'Asia/Dhaka')::date` -/
def localDate (zone : Instant → ℤ) (at_ : Instant) : ℤ := (at_ + zone at_) / msPerDay

/-- `to_char(.., 'YYYY-MM-DD')`: four digits for the year, and no sign for one before Christ. -/
def toCharDate (d : ℤ) : JsString :=
  let year := Calendar.yearOf d
  dateText (padStart 4 (integerText (if year ≤ 0 then 1 - year else year)))
    (Calendar.monthOf d) (Calendar.dateOf d)

/-- The `day` a row of the query is grouped by. -/
def dayKey (zone : Instant → ℤ) (at_ : Instant) : JsString := toCharDate (localDate zone at_)

inductive CloseError
  | day (e : DhakaTime.DayError)
  | failed (f : Failure)
deriving DecidableEq, Repr

structure AccountClose where
  account : CashAccount
  row : DayCloseRow
deriving DecidableEq, Repr

structure DayClose where
  date : JsString
  opening : Money
  in_ : Money
  out : Money
  closing : Money
  accounts : List AccountClose
  entries : List CashTransaction
  payables : Payables
deriving DecidableEq, Repr

namespace CashbookService

/-- Opening (opening balances + everything before `start`) for one or all accounts. -/
def openingBefore (b : Cashbook) (start : Instant) (accountId : Option AccountId) : Money :=
  let opening := ((b.accounts.filter (isChosen accountId ·.id)).map (·.openingBalance)).sum
  let moved := ((b.entries.filter fun t =>
    b.accounts.any (fun a => a.id = t.accountId && isChosen accountId a.id) &&
      t.occurredAt < start).map (·.signed)).sum
  opening + moved

/-- The IN and OUT sums of the range, one row for each day of the query. -/
def perDay (zone : Instant → ℤ) (b : Cashbook) (r : Range) (accountId : Option AccountId) :
    List (JsString × DayTotals) :=
  let rows := b.entries.filter fun t => r.holds t.occurredAt && isChosen accountId t.accountId
  (rows.map fun t => dayKey zone t.occurredAt).dedup.map fun day =>
    let group := rows.filter fun t => dayKey zone t.occurredAt = day
    (day, { in_ := ((group.filter (·.direction = .in_)).map (·.amount)).sum,
            out := ((group.filter (·.direction = .out)).map (·.amount)).sum })

/-- The row of one account on one day. -/
def closeAccount (zone : Instant → ℤ) (b : Cashbook) (date : JsString) (r : Range)
    (a : CashAccount) : List AccountClose :=
  let opening := openingBefore b r.start (some a.id)
  (rollDays (perDay zone b r (some a.id)) [date] opening).map fun row => { account := a, row }

/-- দিনের ক্লোজ: opening, in, out, closing — overall and per account — plus the day's entries. -/
def dayClose (zone : Instant → ℤ) (purchases : List Purchase) (books : Books) (date : JsString)
    (accountId : Option AccountId) : Except CloseError DayClose := do
  let r ← (DhakaTime.dayRange date).mapError .day
  let accounts := books.cash.accounts.filter (isChosen accountId ·.id)
  match accountId, accounts with
  | some id, [] => .error (.failed (.notFound "CashAccount" (toString id)))
  | _, _ =>
      let perAccount := accounts.flatMap (closeAccount zone books.cash date r)
      let total (column : DayCloseRow → Money) : Money :=
        round2 (perAccount.map (column ·.row)).sum
      let entries := books.cash.entries.filter fun t =>
        r.holds t.occurredAt && isChosen accountId t.accountId
      return { date, opening := total (·.opening), in_ := total (·.in_), out := total (·.out),
               closing := total (·.closing), accounts := perAccount,
               -- in the order they were entered where they occurred at once
               entries := entries.insertionSort fun t u => t.occurredAt ≤ u.occurredAt,
               payables := payables purchases books }

/-- Day-by-day close for a span (max ~400 days). -/
def daily (zone : Instant → ℤ) (b : Cashbook) (firstIso lastIso : JsString)
    (accountId : Option AccountId) : Except CloseError (List DayCloseRow) := do
  if lastIso < firstIso then
    .error (.failed (.rule "cash.range_invalid" "শুরুর তারিখ শেষের পরে হতে পারে না"))
  let span ← (DhakaTime.daySpan firstIso lastIso).mapError .day
  let days ← (DhakaTime.eachDay firstIso lastIso).mapError .day
  return rollDays (perDay zone b span accountId) days (openingBefore b span.start accountId)

end CashbookService

end BookHouse
