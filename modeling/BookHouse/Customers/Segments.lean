/-
Customer segments: `customers/domain/segment.ts`, with the tags that `setTags` and `bulkTag` of
`customers/application/customer-crm.service.ts` store.

The five rules are written twice, as division and milliseconds for the customer page and as a
CASE for the lists.  The quotient of two counters is compared with one half, from which two
`int4` are too far to be rounded to it, so division is exact here.  `toUpperCase` of JavaScript and
`upper` of the database rest on Unicode's tables and are one function.
-/
import BookHouse.Customers.Aggregates
import BookHouse.Lib.ThreeValued
import BookHouse.Proofs.Money

namespace BookHouse

inductive CustomerSegment
  | new | regular | vip | risk | sleep
deriving DecidableEq, Repr

/-- `SEGMENT_RULES` -/
structure SegmentRules where
  riskMinOrders : ℤ := 2
  riskCancelRate : ℚ := 1 / 2
  vipMinLive : ℤ := 5
  vipMinSpent : Money := 5000
  sleepDays : ℤ := 60
  regularMinLive : ℤ := 2

def segmentRules : SegmentRules := {}

/-- `VIP_TAG` -/
def vipTag : String := "VIP"

def int4Max : ℤ := 2147483647

/-- The counters of a `customers` row, as its columns can hold them. -/
structure CustomersRow extends CustomerAggregates where
  cancelled_nonneg : 0 ≤ cancelledOrders
  cancelled_le : cancelledOrders ≤ ordersCount
  live_nonneg : 0 ≤ liveOrders
  orders_le : ordersCount ≤ int4Max
  live_le : liveOrders ≤ int4Max
  spent_paisa : Paisa totalSpent

/-! ### Tags -/

inductive TagCall
  | setTags (names : List String)
  | bulkTag (tag : String) (add : Bool)
deriving DecidableEq, Repr

/-- The names of a customer's tags after a call. -/
def TagCall.apply (tags : List String) : TagCall → List String
  | .setTags names => ((names.map trim).filter (· ≠ "")).dedup
  | .bulkTag tag add =>
    let name := trim tag
    if add then if name ∈ tags then tags else tags ++ [name]
    else tags.filter (· ≠ name)

/-- The tags of a customer after any number of calls. -/
def storedTags (calls : List TagCall) : List String := calls.foldl TagCall.apply []

section rules

variable (upper : String → String)

def hasVipTag (names : List String) : Bool := names.any fun n => upper (trim n) = vipTag

/-! ### The two ways of telling a segment -/

/-- The page's: the rules in order. -/
def segmentOf (c : CustomerAggregates) (vipTagged : Bool) (now : Instant) : CustomerSegment :=
  let r := segmentRules
  if vipTagged then .vip
  else if r.riskMinOrders ≤ c.ordersCount ∧
      r.riskCancelRate ≤ (c.cancelledOrders : ℚ) / (c.ordersCount : ℚ) then .risk
  else if r.vipMinLive ≤ c.liveOrders ∨ r.vipMinSpent ≤ round2 c.totalSpent then .vip
  else if c.lastOrderAt.any fun last => r.sleepDays * 86400000 < now - last then .sleep
  else if r.regularMinLive ≤ c.liveOrders then .regular
  else .new

inductive SqlError
  /-- `22003`: integer out of range -/
  | integerOutOfRange
deriving DecidableEq, Repr

/-- `a * b` of two `int4` -/
def mulInt4 (a b : ℤ) : Except SqlError ℤ :=
  if -int4Max - 1 ≤ a * b ∧ a * b ≤ int4Max then .ok (a * b) else .error .integerOutOfRange

/-- `btrim(name)`: spaces only -/
def btrim (v : String) : String :=
  String.ofList ((v.toList.dropWhile (· = ' ')).reverse.dropWhile (· = ' ')).reverse

open Sql

/-- The lists': a CASE over the row and its tags. -/
def segmentCaseSql (c : CustomerAggregates) (tags : List String) (now : Instant) :
    Except SqlError CustomerSegment :=
  let r := segmentRules
  caseWhen .new [
    (.ok (some (tags.any fun name => upper (btrim name) = vipTag)), .vip),
    ((mulInt4 c.cancelledOrders 2).map fun doubled =>
      Truth.and (some (decide (r.riskMinOrders ≤ c.ordersCount)))
        (some (decide (c.ordersCount ≤ doubled))), .risk),
    (.ok (Truth.or (some (decide (r.vipMinLive ≤ c.liveOrders)))
      (some (decide (r.vipMinSpent ≤ c.totalSpent)))), .vip),
    (.ok (Truth.and (some c.lastOrderAt.isSome)
      (compare (fun a b => decide (a < b)) c.lastOrderAt (some (now - r.sleepDays * 86400000)))),
      .sleep),
    (.ok (some (decide (r.regularMinLive ≤ c.liveOrders))), .regular)]

end rules

end BookHouse
