/-
Two things a placement reads and writes besides the order: coupon usage
(`promotions/application/coupon-lookup.service.ts`) and the human document numbers
(`platform/counters/document-counter.service.ts`).
-/
import BookHouse.Schema

namespace BookHouse

/-! ### Coupon usage -/

namespace Coupons

/-- Find by code; codes are stored upper-case and compared case-insensitively. -/
def findRule (s : Store) (code : String) : Option CouponRule :=
  let c := normalizeCouponCode code
  if c = "" then none else s.coupons.find? fun r => normalizeCouponCode r.code = c

/-- Per-customer usage figures; unknown customer → unknown. -/
def usage (s : Store) (couponId : CouponId) (customerId : Option CustomerId) : CouponUsage :=
  match customerId with
  | none => { customerRedemptions := none, customerPriorOrders := none }
  | some c =>
      { customerRedemptions := some <| s.redemptions.countP fun r =>
          r.couponId = couponId && r.customerId = c && r.revokedAt.isNone
        customerPriorOrders := some <| s.orders.countP fun o =>
          o.customerId = c && o.status ≠ .cancelled }

def addUsed (n : ℤ) (r : CouponRule) : CouponRule := { r with usedCount := r.usedCount + n }

/-- Record a redemption and bump `usedCount` (the caller holds the row lock). -/
def redeem (s : Store) (r : CouponRedemption) : Except Failure Store :=
  if s.redemptions.any (·.orderId = r.orderId) then
    .error (.unique "coupon_redemptions_order_id_key")
  else .ok { s with redemptions := s.redemptions ++ [r],
                    coupons := Rows.modify CouponRule.id r.couponId (addUsed 1) s.coupons }

/-- Order cancelled/returned → usage given back. -/
def revoke (s : Store) (orderId : OrderId) (now : Instant) : Store :=
  match (Rows.lookup CouponRedemption.orderId orderId s.redemptions).filter
      (·.revokedAt.isNone) with
  | none => s
  | some r => { s with
      redemptions := Rows.modify CouponRedemption.orderId orderId
        (fun x => { x with revokedAt := some now }) s.redemptions,
      coupons := Rows.modify CouponRule.id r.couponId
        (fun c => { c with usedCount := max (c.usedCount - 1) 0 }) s.coupons }

/-- Undo `revoke` when a cancelled order is reopened (usage counted again). -/
def restore (s : Store) (orderId : OrderId) : Store :=
  match (Rows.lookup CouponRedemption.orderId orderId s.redemptions).filter
      (·.revokedAt.isSome) with
  | none => s
  | some r => { s with
      redemptions := Rows.modify CouponRedemption.orderId orderId
        (fun x => { x with revokedAt := none }) s.redemptions,
      coupons := Rows.modify CouponRule.id r.couponId (addUsed 1) s.coupons }

end Coupons

/-! ### Document numbers -/

namespace CounterScope

/-- The counter a fresh database starts a scope with. -/
def fresh (scope : CounterScope) : DocumentCounter :=
  match scope with
  | order => { scope, pfx := "CLO-", nextValue := 2042, padding := 4 }
  | invoice => { scope, pfx := "INV-", nextValue := 1, padding := 6 }
  | receipt => { scope, pfx := "RCT-", nextValue := 1, padding := 6 }
  | creditNote => { scope, pfx := "CRN-", nextValue := 1, padding := 6 }
  | purchase => { scope, pfx := "PUR-", nextValue := 101, padding := 6 }

end CounterScope

def padNo (pfx : String) (n width : ℕ) : String :=
  let digits := toString n
  pfx ++ "".pushn '0' (width - digits.length) ++ digits

/-- The next number of a scope, and the counters after it was taken. -/
def nextNumber (counters : List DocumentCounter) (scope : CounterScope) :
    String × List DocumentCounter :=
  let counters := if counters.any (·.scope = scope) then counters else counters ++ [scope.fresh]
  let row := (Rows.lookup DocumentCounter.scope scope counters).getD scope.fresh
  (padNo row.pfx row.nextValue row.padding,
    Rows.modify DocumentCounter.scope scope (fun c => { c with nextValue := c.nextValue + 1 })
      counters)

end BookHouse
