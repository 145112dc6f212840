/-
The day texts of `finance/shared/domain/dhaka-time.ts`: what an ISO day names, the days of a
span, and the text of the day an instant falls on.

A `Date` is its number of milliseconds, and its UTC fields are those of the Gregorian
calendar.  Years are written as they come: a day text has four digits for the year only from
the year 1000 on, while the parser wants four digits of every year.
-/
import BookHouse.Finance.Reports
import BookHouse.Lib.Calendar
import BookHouse.Text.JsNumber

namespace BookHouse

/-- `String(n)` -/
def integerText (n : ℤ) : JsString :=
  (if n < 0 then [0x2D] else []) ++ digitUnits (natDigits n.natAbs)

/-- `text.padStart(n, '0')` -/
def padStart (n : ℕ) (text : JsString) : JsString := List.replicate (n - text.length) 0x30 ++ text

/-- A year's text, a month counted from 0 and a date with dashes between them. -/
def dateText (year : JsString) (month : ℕ) (date : ℤ) : JsString :=
  year ++ 0x2D :: (padStart 2 (integerText (month + 1)) ++ 0x2D :: padStart 2 (integerText date))

namespace DhakaTime

open Calendar

inductive DayError
  /-- `RangeError`, `invalid ISO day: ${iso}` -/
  | invalidDay (iso : JsString)
deriving DecidableEq, Repr

structure IsoParts where
  year : ℕ
  month : ℕ
  date : ℕ
deriving DecidableEq, Repr

/-- `\d` -/
def digitOf (u : UInt16) : Option ℕ :=
  if 0x30 ≤ u ∧ u ≤ 0x39 then some (u.toNat - 0x30) else none

/-- `Number(digits)` -/
def numberOf (units : JsString) : Option ℕ :=
  (units.mapM digitOf).map fun ds => ds.foldl (10 * · + ·) 0

/-- `/^(\d{4})-(\d{2})-(\d{2})$/` with its groups as numbers. -/
def isoParts : JsString → Option IsoParts
  | [y₁, y₂, y₃, y₄, s₁, m₁, m₂, s₂, d₁, d₂] =>
      if s₁ = 0x2D ∧ s₂ = 0x2D then do
        let year ← numberOf [y₁, y₂, y₃, y₄]
        let month ← numberOf [m₁, m₂]
        let date ← numberOf [d₁, d₂]
        return { year, month, date }
      else none
  | _ => none

/-- The day of `Date.UTC(y, month, date)`: the years 0 to 99 stand for 1900 to 1999, and a
month outside the year runs into another one. -/
def utcDay (y month date : ℤ) : ℤ :=
  let year := if 0 ≤ y ∧ y ≤ 99 then 1900 + y else y
  dayOf (year + month / 12) (month % 12).toNat date

def isIsoDay (iso : JsString) : Bool :=
  match isoParts iso with
  | none => false
  | some p =>
      let probe := utcDay p.year (p.month - 1) p.date
      yearOf probe = p.year && (monthOf probe : ℤ) = p.month - 1 && dateOf probe = p.date

def parts (iso : JsString) : Except DayError IsoParts :=
  match isoParts iso with
  | none => .error (.invalidDay iso)
  | some p => if isIsoDay iso then .ok p else .error (.invalidDay iso)

/-- Dhaka midnight of y-m-d as a UTC instant. -/
def dhakaMidnight (y m d : ℤ) : Instant := utcDay y (m - 1) d * msPerDay - dhakaOffsetMs

/-- The text of a day, the year as it is. -/
def dayText (d : ℤ) : JsString := dateText (integerText (yearOf d)) (monthOf d) (dateOf d)

/-- The Dhaka calendar day an instant falls on. -/
def dhakaDay (at_ : Instant) : JsString := dayText ((at_ + dhakaOffsetMs) / msPerDay)

def dayRange (iso : JsString) : Except DayError Range := do
  let p ← parts iso
  return { start := dhakaMidnight p.year p.month p.date,
           end_ := dhakaMidnight p.year p.month (p.date + 1) }

/-- Inclusive day span → half-open instant range. -/
def daySpan (firstIso lastIso : JsString) : Except DayError Range := do
  let first ← dayRange firstIso
  let last ← dayRange lastIso
  return { start := first.start, end_ := last.end_ }

inductive Tenure
  | day | month | year
deriving DecidableEq, Repr

/-- Day / month / year that contains `anchorIso`. -/
def tenureRange (kind : Tenure) (anchorIso : JsString) : Except DayError Range := do
  let p ← parts anchorIso
  match kind with
  | .day => dayRange anchorIso
  | .month =>
      return { start := dhakaMidnight p.year p.month 1,
               end_ := dhakaMidnight p.year (p.month + 1) 1 }
  | .year =>
      return { start := dhakaMidnight p.year 1 1, end_ := dhakaMidnight (p.year + 1) 1 1 }

/-- `while (cur <= last && out.length < max)`, with what is left of `max`. -/
def daysUpTo (last : Instant) : ℕ → Instant → List JsString
  | 0, _ => []
  | left + 1, cur => if cur ≤ last then dhakaDay cur :: daysUpTo last left (cur + msPerDay) else []

/-- Every Dhaka day of the span, inclusive. -/
def eachDay (firstIso lastIso : JsString) (max : ℕ := 400) : Except DayError (List JsString) := do
  let first ← dayRange firstIso
  let last ← dayRange lastIso
  return daysUpTo last.start max first.start

example : eachDay (js "2026-09-29") (js "2026-10-02") =
    .ok [js "2026-09-29", js "2026-09-30", js "2026-10-01", js "2026-10-02"] := by decide +kernel

example : isIsoDay (js "2026-02-29") = false ∧ isIsoDay (js "2028-02-29") = true := by
  decide +kernel

end DhakaTime

end BookHouse
