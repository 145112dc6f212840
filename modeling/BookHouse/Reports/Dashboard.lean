/-
The admin dashboard: `reports/domain/period.ts` and the blocks of
`reports/application/dashboard.service.ts` that count orders and revenue.

Each block is a query of its own over the orders that were placed since the range began and are
neither cancelled nor returned, grouped in Asia/Dhaka time.  A local time is its number of
milliseconds, so truncating it to the hour or the day is division, as Dhaka is UTC+06:00 all
year.  Amounts stay exact decimals.
-/
import BookHouse.Finance.Reports
import BookHouse.Finance.ShopMachine

namespace BookHouse

inductive Period
  | today | days7 | days30 | days90
deriving DecidableEq, Repr

inductive Bucket
  | hour | day
deriving DecidableEq, Repr

structure DashboardRange where
  from_ : Instant
  to_ : Instant
  prevFrom : Instant
  prevTo : Instant
  bucket : Bucket
  days : ℤ
deriving DecidableEq, Repr

def msPerHour : ℤ := 3600000

def Bucket.ms : Bucket → ℤ
  | hour => msPerHour
  | day => msPerDay

/-- Start of the Dhaka calendar day containing `at_`. -/
def dhakaDayStart (at_ : Instant) : Instant :=
  (at_ + dhakaOffsetMs) / msPerDay * msPerDay - dhakaOffsetMs

/-- `Number(period.replace('d', ''))` -/
def Period.days : Period → ℤ
  | today => 1
  | days7 => 7
  | days30 => 30
  | days90 => 90

/-- `Math.round` -/
def jsRound (x : ℚ) : ℤ := ⌊x + 1 / 2⌋

namespace DashboardService

/-- `LIVE` -/
def live (o : Order) : Bool := o.status ≠ .cancelled && o.status ≠ .returned

/-- `placed_at AT TIME ZONE 'Asia/Dhaka'` -/
def localTime (at_ : Instant) : ℤ := at_ + dhakaOffsetMs

/-- `o.placed_at >= from AND LIVE` -/
def since (s : Store) (from_ : Instant) : List Order :=
  s.orders.filter fun o => from_ ≤ o.placedAt && live o

structure Kpi where
  revenue : Money
  orders : ℤ
  aov : ℤ
  gross : Money
  unknownCost : ℤ
  newCustomers : ℤ
deriving DecidableEq, Repr

def kpis (s : Store) (from_ to_ : Instant) : Kpi :=
  let rows := s.orders.filter fun o => from_ ≤ o.placedAt && o.placedAt < to_ && live o
  let revenue := (rows.map (·.grandTotal)).sum
  let orders : ℤ := rows.length
  { revenue, orders, aov := if orders = 0 then 0 else jsRound (revenue / orders),
    gross := (rows.filterMap fun o =>
      o.itemsCost.map fun cost => o.itemsSubtotal - o.discountTotal - cost).sum,
    unknownCost := (rows.filter (·.itemsCost.isNone)).length,
    newCustomers := (s.customers.filter fun c =>
      c.firstOrderAt.any fun first => from_ ≤ first && first < to_).length }

structure SeriesRow where
  t : ℤ
  revenue : Money
  orders : ℤ
deriving DecidableEq, Repr

/-- `date_trunc(unit, t)` of a local time -/
def dateTrunc (b : Bucket) (t : ℤ) : ℤ := t / b.ms * b.ms

/-- `generate_series(first, last, step)` -/
def generateSeries (first last step : ℤ) : List ℤ :=
  (List.range ((last - first) / step + 1).toNat).map fun i : ℕ => first + i * step

def series (s : Store) (r : DashboardRange) : List SeriesRow :=
  (generateSeries (dateTrunc r.bucket (localTime r.from_)) (dateTrunc r.bucket (localTime r.to_))
    r.bucket.ms).map fun t =>
      let rows := (since s r.from_).filter fun o =>
        dateTrunc r.bucket (localTime o.placedAt) = t
      { t, revenue := (rows.map (·.grandTotal)).sum, orders := rows.length }

structure MixRow where
  method : PaymentMethod
  paid : Bool
  orders : ℤ
  total : Money
deriving DecidableEq, Repr

/-- `GROUP BY 1, 2` of the payment method and whether anything was paid -/
def paymentMix (s : Store) (r : DashboardRange) : List MixRow :=
  (Grouping.collect ((since s r.from_).map fun o =>
    ((o.paymentMethod, decide (o.paymentStatus ≠ .unpaid)), ((1 : ℤ), o.grandTotal)))).map fun e =>
      { method := e.1.1, paid := e.1.2, orders := e.2.1, total := e.2.2 }

structure SectionRow where
  section_ : String
  revenue : Money
  units : ℤ
  orders : ℤ
deriving DecidableEq, Repr

/-- `GROUP BY 1 ORDER BY 2 DESC` of the lines -/
def bySection (s : Store) (r : DashboardRange) : List SectionRow :=
  ((Grouping.collect ((since s r.from_).flatMap fun o =>
    o.items.map fun i => (i.sectionCode, (i.lineTotal, i.quantity)))).map fun e =>
      { section_ := e.1, revenue := e.2.1, units := e.2.2,
        orders := ((since s r.from_).filter fun o =>
          o.items.any fun i => decide (i.sectionCode = e.1)).length : SectionRow }).insertionSort
    fun a b => b.revenue ≤ a.revenue

/-- `out[k] = n` for each row of a count by key -/
def histogram (size : ℕ) (key : Order → ℤ) (orders : List Order) : List ℤ :=
  (Grouping.collect (orders.map fun o => (key o, (1 : ℤ)))).foldl
    (fun out row => out.set row.1.toNat row.2) (List.replicate size 0)

/-- `extract(hour FROM t)` -/
def hourOf (o : Order) : ℤ := localTime o.placedAt / msPerHour % 24

/-- `extract(dow FROM t)`: Sunday is 0, and the first of January 1970 was a Thursday. -/
def weekdayOf (o : Order) : ℤ := (localTime o.placedAt / msPerDay + 4) % 7

def hours (s : Store) (r : DashboardRange) : List ℤ := histogram 24 hourOf (since s r.from_)

def weekdays (s : Store) (r : DashboardRange) : List ℤ := histogram 7 weekdayOf (since s r.from_)

end DashboardService

end BookHouse
