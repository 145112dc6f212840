/-
The delivery fee: `shipping/domain/shipping-fee.ts`.

`resolveShipping` follows the storefront's precedence.  It never invents an amount:
the fee it returns is nothing, zero, or the fee of the district's zone.
-/
import BookHouse.Orders.Coupons

namespace BookHouse

structure ZoneInfo where
  id : ℕ
  code : String
  nameBn : String
  fee : Money
  courierCost : Money
  etaMinDays : ℤ := 1
  etaMaxDays : ℤ := 2
deriving DecidableEq, Repr

inductive ShippingRuleType
  | minSubtotal | campaignAll | anyBundle | sectionOnly
deriving DecidableEq, Repr

abbrev SectionId := ℕ

structure FreeShippingRule where
  id : ℕ
  type : ShippingRuleType
  label : String
  minSubtotal : Option Money := none
  sectionId : Option SectionId := none
  startsAt : Option Instant := none
  endsAt : Option Instant := none
  isActive : Bool := true
  priority : ℤ := 0
deriving DecidableEq, Repr

structure ShippingLine where
  kind : LineKind
  sectionId : SectionId
  freeShipping : Bool
deriving DecidableEq, Repr

structure ShippingInput where
  zone : Option ZoneInfo
  lines : List ShippingLine
  /-- items subtotal after coupon discount -/
  netSubtotal : Money
  couponFreeShipping : Bool := false
  rules : List FreeShippingRule
  now : Instant
deriving DecidableEq, Repr

inductive ShippingBasis
  | itemFlags | anyBundle | sectionOnly | coupon | campaignAll | minSubtotal | zone
  | unknownDistrict
deriving DecidableEq, Repr

structure ShippingOutcome where
  /-- charged to the customer; `none` → district not chosen yet -/
  fee : Option Money
  free : Bool
  reason : String
  basis : ShippingBasis
  ruleId : Option ℕ
  zoneCode : Option String
  /-- what the courier will likely bill us (the zone's courier cost) -/
  expectedCourierCost : Option Money
  /-- lowest live "৳X+ free" threshold, for "add ৳Y more" hints -/
  freeAbove : Option Money
  amountToFree : Option Money
  campaign : Bool
deriving DecidableEq, Repr

namespace Reason

def free := "ফ্রি ডেলিভারি"
def coupon := "কুপন · ফ্রি ডেলিভারি"
def campaign := "ক্যাম্পেইন · সবার জন্য ফ্রি"
def minSubtotal (min : Money) : String := s!"{takaBn min}+ অর্ডারে ফ্রি"
def unknown := "জেলা বাছুন — ঢাকা/বাইরের রেট বসবে"

end Reason

def ruleIsLive (r : FreeShippingRule) (now : Instant) : Bool :=
  r.isActive && r.startsAt.all (· ≤ now) && r.endsAt.all (now < ·)

/-- The live rules, highest priority first; equal priorities keep their order. -/
def liveRules (rules : List FreeShippingRule) (now : Instant) : List FreeShippingRule :=
  (rules.filter (ruleIsLive · now)).insertionSort fun a b => b.priority ≤ a.priority

/-- The first rule with the lowest threshold. -/
def lowestRule (minRules : List FreeShippingRule) : Option FreeShippingRule :=
  minRules.foldl (fun m r =>
    match m with
    | none => some r
    | some m => if r.minSubtotal.getD 0 < m.minSubtotal.getD 0 then some r else some m) none

/--
Delivery fee with the storefront's precedence:

1. every item flagged free / a bundle rule / a single-section rule
2. a free-shipping coupon
3. a time-boxed campaign for everyone
4. net subtotal ≥ threshold
5. no district yet → fee unknown
6. the district's zone fee
-/
def resolveShipping (input : ShippingInput) : ShippingOutcome :=
  let live := liveRules input.rules input.now
  let net := input.netSubtotal
  let lines := input.lines
  let minRules := live.filter fun r => r.type == .minSubtotal && r.minSubtotal.any (0 < ·)
  let lowest := lowestRule minRules
  let freeAbove := lowest.map fun r => r.minSubtotal.getD 0
  let campaignRule := live.find? (·.type == .campaignAll)
  let outcome (basis : ShippingBasis) (reason : String) (ruleId : Option ℕ)
      (fee : Option Money) : ShippingOutcome :=
    { fee := fee, free := fee == some 0, reason := reason, basis := basis, ruleId := ruleId,
      zoneCode := input.zone.map (·.code),
      expectedCourierCost := input.zone.map (·.courierCost),
      freeAbove := freeAbove,
      amountToFree := (freeAbove.filter fun f => net < f && basis == .zone).map (· - net),
      campaign := campaignRule.isSome }
  let bundleRule := live.find? (·.type == .anyBundle)
  let sectionRule := live.find? fun r =>
    r.type == .sectionOnly && r.sectionId.any fun s => lines.all (·.sectionId == s)
  if lines ≠ [] && lines.all (·.freeShipping) then outcome .itemFlags Reason.free none (some 0)
  else if let some r := bundleRule.filter fun _ => lines.any (·.kind == .bundle) then
    outcome .anyBundle Reason.free (some r.id) (some 0)
  else if let some r := sectionRule.filter fun _ => lines ≠ [] then
    outcome .sectionOnly Reason.free (some r.id) (some 0)
  else if input.couponFreeShipping then outcome .coupon Reason.coupon none (some 0)
  else if let some r := campaignRule then
    outcome .campaignAll Reason.campaign (some r.id) (some 0)
  else if let some r := lowest.filter fun r => lines ≠ [] && r.minSubtotal.getD 0 ≤ net then
    outcome .minSubtotal (Reason.minSubtotal (r.minSubtotal.getD 0)) (some r.id) (some 0)
  else match input.zone with
    | none => outcome .unknownDistrict Reason.unknown none none
    | some z => outcome .zone z.nameBn none (some z.fee)

end BookHouse
