/-
The Dhaka calendar outside the finance module: `dhakaDayStart` of `orders/domain/order-filters.ts`
and `dhakaMonthStart` of `customers/domain/customer-stats.ts`.

A month that many months away may be one that no `Date` can hold, so the second keeps the
bounds of a `Date`; past them it is an Invalid Date, and so are all that are computed from it.
-/
import BookHouse.Finance.DhakaTime

namespace BookHouse

/-- What a `Date` holds: the instants within 8.64e15 ms of the epoch; `none` is an Invalid Date. -/
def timeClip (t : ℤ) : Option Instant := if |t| ≤ 8640000000000000 then some t else none

namespace OrderFilters

/-- Midnight in Dhaka for the day containing `now`, as a UTC instant. -/
def dhakaDayStart (now : Instant) : Instant :=
  let local_ := now + dhakaOffsetMs
  local_ / msPerDay * msPerDay - dhakaOffsetMs

end OrderFilters

namespace CustomerStats

open Calendar

/-- Start of the Dhaka calendar month containing `now`, shifted by `offset` months. -/
def dhakaMonthStart (now : Instant) (offset : ℤ) : Option Instant := do
  let local_ ← timeClip (now + dhakaOffsetMs)
  let day := local_ / msPerDay
  let utc ← timeClip (DhakaTime.utcDay (yearOf day) (monthOf day + offset) 1 * msPerDay)
  timeClip (utc - dhakaOffsetMs)

end CustomerStats

end BookHouse
