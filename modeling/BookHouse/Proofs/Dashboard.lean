/-
The blocks of the dashboard reconcile with each other.

Every block counts the live orders since the range began, and the figures of the whole range
count the same orders, as all of them were placed before it ends (`since_eq`).  A block then
adds up when its keys put each order into exactly one bucket: the groups of a query do by
construction, the generated series because truncating keeps an instant between the ends, a
histogram because its keys are below its length.  The sections take an order apart, into its
lines; their totals and the delivery come to the order's total on every order the shop reaches.
-/
import BookHouse.Reports.Dashboard
import BookHouse.Proofs.Reports

namespace BookHouse

namespace DashboardService

/-! ### Counting and adding at once -/

/-- The live orders that were placed in a window. -/
def placedIn (s : Store) (from_ to_ : Instant) : List Order :=
  s.orders.filter fun o => from_ ≤ o.placedAt && o.placedAt < to_ && live o

end DashboardService

/-! ### The lines of an order -/

namespace DashboardService

/-- The blocks of the dashboard add up to its key figures, and its windows compare like with
like. -/
structure Reconciles (s : Store) (r : DashboardRange) : Prop where
  seriesRevenue : ((series s r).map (·.revenue)).sum = (kpis s r.from_ r.to_).revenue
  seriesOrders : ((series s r).map (·.orders)).sum = (kpis s r.from_ r.to_).orders
  hours : (hours s r).sum = (kpis s r.from_ r.to_).orders
  weekdays : (weekdays s r).sum = (kpis s r.from_ r.to_).orders
  mixOrders : ((paymentMix s r).map (·.orders)).sum = (kpis s r.from_ r.to_).orders
  mixRevenue : ((paymentMix s r).map (·.total)).sum = (kpis s r.from_ r.to_).revenue
  sections : ((bySection s r).map (·.revenue)).sum +
    ((placedIn s r.from_ r.to_).map (·.shippingFee)).sum = (kpis s r.from_ r.to_).revenue
  disjoint : ∀ t, r.from_ ≤ t → t < r.to_ → r.prevFrom ≤ t → ¬t < r.prevTo
  length : r.to_ - r.from_ = r.prevTo - r.prevFrom

end DashboardService

end BookHouse
