/-
Coupon rules: `promotions/domain/coupon-rules.ts`.

`evaluateCoupon` turns a rule and the lines of a cart into a discount and the share
of it each line carries, or into the reason the coupon does not apply.
-/
import BookHouse.Money

namespace BookHouse

open Rounding

/-- Milliseconds since the epoch. -/
abbrev Instant := ℤ

abbrev ProductId := ℕ
abbrev BundleId := ℕ
abbrev CategoryId := ℕ
abbrev CouponId := ℕ

inductive CouponType
  | percent | fixed | freeShipping
deriving DecidableEq, Repr

inductive CouponScope
  | all | section | category | product | bundle
deriving DecidableEq, Repr

structure CouponTargetRule where
  sectionCode : Option String := none
  categoryId : Option CategoryId := none
  productId : Option ProductId := none
  bundleId : Option BundleId := none
deriving DecidableEq, Repr

structure CouponRule where
  id : CouponId
  code : String
  type : CouponType
  value : Money
  maxDiscount : Option Money := none
  minSubtotal : Money := 0
  scope : CouponScope := .all
  targets : List CouponTargetRule := []
  usageLimit : Option ℤ := none
  perCustomerLimit : Option ℤ := none
  usedCount : ℤ := 0
  firstOrderOnly : Bool := false
  isActive : Bool := true
  startsAt : Option Instant := none
  endsAt : Option Instant := none
  deletedAt : Option Instant := none
deriving DecidableEq, Repr

inductive LineKind
  | product | bundle
deriving DecidableEq, Repr

structure CouponLine where
  kind : LineKind
  productId : Option ProductId
  bundleId : Option BundleId
  sectionCode : String
  /-- category and sub-category of a product line (empty for bundles) -/
  categoryIds : List CategoryId
  /-- unit price × qty -/
  gross : Money
deriving DecidableEq, Repr

/-- `none` = unknown (guest quote before a phone is given), checked again at placement. -/
structure CouponUsage where
  customerRedemptions : Option ℤ
  customerPriorOrders : Option ℤ
deriving DecidableEq, Repr

inductive RejectionDetails
  | startsAt (at_ : Instant)
  | endsAt (at_ : Instant)
  | limit (n : ℤ)
  | minSubtotal (amount : Money)
  | scope (scope : CouponScope)
deriving DecidableEq, Repr

structure CouponRejection where
  code : String
  message : String
  details : Option RejectionDetails := none
deriving DecidableEq, Repr

structure CouponApplied where
  code : String
  type : CouponType
  discount : Money
  /-- per input line, same order; sums exactly to `discount` -/
  allocations : List Money
  eligible : List Bool
  eligibleSubtotal : Money
  freeShipping : Bool
deriving DecidableEq, Repr

/-- The white space that `trim` of JavaScript drops. -/
def isBlank (c : Char) : Bool :=
  let n := c.toNat
  (9 ≤ n && n ≤ 13) || (0x2000 ≤ n && n ≤ 0x200A) ||
    [0x20, 0xA0, 0x1680, 0x2028, 0x2029, 0x202F, 0x205F, 0x3000, 0xFEFF].contains n

def trim (v : String) : String :=
  String.ofList ((v.toList.dropWhile isBlank).reverse.dropWhile isBlank).reverse

/-- Codes are letters of the English alphabet, digits, `_` and `-`. -/
def normalizeCouponCode (code : String) : String :=
  String.ofList ((trim code).toList.map Char.toUpper)

/-- Is a single cart line inside the coupon's scope? -/
def lineEligible (rule : CouponRule) (line : CouponLine) : Bool :=
  let t := rule.targets
  match rule.scope with
  | .all => true
  | .section => t.any fun x => x.sectionCode == some line.sectionCode
  | .category => line.kind == .product && t.any fun x => x.categoryId.any line.categoryIds.contains
  | .product =>
      line.kind == .product && t.any fun x => x.productId.isSome && x.productId == line.productId
  | .bundle =>
      line.kind == .bundle && t.any fun x => x.bundleId.isSome && x.bundleId == line.bundleId

/-- Window / activity / usage checks that do not depend on the cart. -/
def couponAvailability (rule : CouponRule) (usage : CouponUsage) (now : Instant) :
    Option CouponRejection :=
  if !rule.isActive || rule.deletedAt.isSome then
    some { code := "coupon.inactive", message := "কুপনটি এখন চালু নেই" }
  else if let some s := rule.startsAt.filter (now < ·) then
    some { code := "coupon.not_started", message := "কুপনটি এখনো শুরু হয়নি",
           details := some (.startsAt s) }
  else if let some e := rule.endsAt.filter (· ≤ now) then
    some { code := "coupon.expired", message := "কুপনের মেয়াদ শেষ", details := some (.endsAt e) }
  else if rule.usageLimit.any (· ≤ rule.usedCount) then
    some { code := "coupon.exhausted", message := "কুপনটি সর্বোচ্চ বার ব্যবহার হয়ে গেছে" }
  else if let some limit := rule.perCustomerLimit.filter fun l =>
      usage.customerRedemptions.any (l ≤ ·) then
    some { code := "coupon.customer_limit", message := "আপনি এই কুপন সর্বোচ্চ বার ব্যবহার করেছেন",
           details := some (.limit limit) }
  else if rule.firstOrderOnly && usage.customerPriorOrders.any (0 < ·) then
    some { code := "coupon.first_order_only", message := "কুপনটি শুধু প্রথম অর্ডারে প্রযোজ্য" }
  else none

/-- The item discount on an eligible subtotal, before it is rounded to paisa. -/
def rawDiscount (rule : CouponRule) (eligibleSubtotal : Money) : Money :=
  match rule.type with
  | .percent =>
      let pct := toPlaces .halfUp 0 (eligibleSubtotal * rule.value / 100)
      let capped := match rule.maxDiscount with
        | some m => min pct m
        | none => pct
      min capped eligibleSubtotal
  | .fixed => min rule.value eligibleSubtotal
  | .freeShipping => 0

/--
Apply a coupon to cart lines.

* `percent`: % of the eligible subtotal, rounded to whole taka, capped by `maxDiscount`
* `fixed`: the value, capped at the eligible subtotal
* `freeShipping`: no item discount, delivery becomes free

`minSubtotal` is checked against the whole cart subtotal.  The discount is allocated
over the eligible lines by their gross (largest remainder).
-/
def evaluateCoupon (rule : CouponRule) (lines : List CouponLine) (usage : CouponUsage)
    (now : Instant) : Except CouponRejection CouponApplied :=
  match couponAvailability rule usage now with
  | some unavailable => .error unavailable
  | none =>
    let subtotal := (lines.map (·.gross)).sum
    if subtotal < rule.minSubtotal then
      .error { code := "coupon.min_subtotal",
               message := s!"কুপনটি {takaBn rule.minSubtotal}-এর বেশি অর্ডারে প্রযোজ্য",
               details := some (.minSubtotal rule.minSubtotal) }
    else
      let eligible := lines.map (lineEligible rule)
      let eligibleSubtotal := ((lines.filter (lineEligible rule)).map (·.gross)).sum
      if !eligible.any id || eligibleSubtotal = 0 then
        .error { code := "coupon.not_applicable",
                 message := "কার্টের পণ্যে এই কুপন প্রযোজ্য নয়" }
      else
        let discount := round2 (rawDiscount rule eligibleSubtotal)
        let weights := lines.map fun l => if lineEligible rule l then l.gross else 0
        let allocations := if discount = 0 then lines.map fun _ => 0
          else allocate discount weights
        .ok { code := normalizeCouponCode rule.code, type := rule.type, discount := discount,
              allocations := allocations, eligible := eligible,
              eligibleSubtotal := eligibleSubtotal,
              freeShipping := rule.type == .freeShipping }

/-! ### The coupon form -/

structure CouponShape where
  type : CouponType
  value : ℚ
  maxDiscount : Option ℚ := none
  scope : CouponScope
  targets : List CouponTargetRule
  startsAt : Option Instant := none
  endsAt : Option Instant := none
deriving DecidableEq, Repr

def CouponRule.shape (rule : CouponRule) : CouponShape where
  type := rule.type
  value := rule.value
  maxDiscount := rule.maxDiscount
  scope := rule.scope
  targets := rule.targets
  startsAt := rule.startsAt
  endsAt := rule.endsAt

/-- The fields of a target that are set, each under the scope it is for (`SCOPE_FIELD`). -/
def CouponTargetRule.fields (t : CouponTargetRule) : List CouponScope :=
  [(CouponScope.section, t.sectionCode.isSome), (.category, t.categoryId.isSome),
    (.product, t.productId.isSome), (.bundle, t.bundleId.isSome)].filterMap fun f =>
      if f.2 then some f.1 else none

/-- Admin-side validation mirroring the `coupons_value` / `coupons_window` / `coupon_targets`
CHECKs. -/
def validateCouponShape (c : CouponShape) : Option CouponRejection :=
  if c.type = .percent ∧ ¬(0 < c.value ∧ c.value < 100) then
    some { code := "coupon.value_invalid", message := "শতাংশ ০-এর বেশি ও ১০০-এর কম দিন" }
  else if c.type = .fixed ∧ ¬0 < c.value then
    some { code := "coupon.value_invalid", message := "ছাড়ের টাকা ০-এর বেশি দিন" }
  else if c.type ≠ .percent ∧ c.maxDiscount.isSome then
    some { code := "coupon.max_discount_invalid",
           message := "সর্বোচ্চ ছাড় শুধু শতাংশ কুপনে প্রযোজ্য" }
  else if c.startsAt.any fun s => c.endsAt.any (· ≤ s) then
    some { code := "coupon.window_invalid", message := "শেষের সময় শুরুর পরে দিন" }
  else if c.scope = .all then
    if c.targets = [] then none
    else some { code := "coupon.targets_invalid", message := "সব পণ্যের কুপনে টার্গেট লাগে না" }
  else if c.targets = [] then
    some { code := "coupon.targets_required", message := "কোন পণ্য/বিভাগে প্রযোজ্য, সেটি বাছুন" }
  else if c.targets.any fun t => t.fields ≠ [c.scope] then
    some { code := "coupon.targets_invalid", message := "টার্গেট কুপনের ধরনের সাথে মিলছে না",
           details := some (.scope c.scope) }
  else none

end BookHouse
