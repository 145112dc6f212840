/-
The figures that finance reports take from the papers:
`finance/reports/application/finance-reports.service.ts`, with `grossOf` and `netOf` of
`finance/reports/domain/pnl.ts` and the calendar of `finance/shared/domain/dhaka-time.ts`.

A Dhaka day is named by its ISO text in the source; here by its number since 1970-01-01,
which the text determines.  Amounts stay exact decimals.
-/
import BookHouse.Finance.Pnl

namespace BookHouse

namespace Pnl

end Pnl

/-! ### dhaka-time.ts -/

/-- Half-open: `[start, end)`. -/
structure Range where
  start : Instant
  end_ : Instant
deriving DecidableEq, Repr

def Range.holds (r : Range) (at_ : Instant) : Bool := r.start ≤ at_ && at_ < r.end_

def msPerDay : ℤ := 86400000

/-- `DHAKA_OFFSET_MS`: UTC+06:00 all year. -/
def dhakaOffsetMs : ℤ := 6 * 60 * 60 * 1000

/-- The Dhaka calendar day an instant falls on. -/
def dhakaDay (at_ : Instant) : ℤ := (at_ + dhakaOffsetMs) / msPerDay

def dhakaMidnight (day : ℤ) : Instant := day * msPerDay - dhakaOffsetMs

def dayRange (day : ℤ) : Range := { start := dhakaMidnight day, end_ := dhakaMidnight (day + 1) }

/-- Inclusive day span → half-open instant range. -/
def daySpan (firstDay lastDay : ℤ) : Range :=
  { start := (dayRange firstDay).start, end_ := (dayRange lastDay).end_ }

/-! ### finance-reports.service.ts -/

namespace FinanceReports

end FinanceReports

end BookHouse
