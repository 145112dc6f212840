/-
The order lifecycle: `orders/domain/order-status.ts`, pure rules without I/O.

    PENDING → CONFIRMED → PROCESSING → HANDED_TO_COURIER → OUT_FOR_DELIVERY → DELIVERED
    any open status → CANCELLED
    HANDED_TO_COURIER / OUT_FOR_DELIVERY / DELIVERED → RETURNED

Forward moves may skip steps.  The only backward move is an explicit regress before
the parcel leaves the shelf.  CANCELLED and RETURNED are left through `planReopen`.
-/
import BookHouse.Schema

namespace BookHouse

namespace OrderStatus

/-- Position in the flow (`ORDER_FLOW.indexOf`); -1 for the two terminal statuses. -/
def rank : OrderStatus → ℤ
  | pending => 0
  | confirmed => 1
  | processing => 2
  | handedToCourier => 3
  | outForDelivery => 4
  | delivered => 5
  | cancelled => -1
  | returned => -1

def isOpen : OrderStatus → Bool
  | pending | confirmed | processing | handedToCourier | outForDelivery => true
  | delivered | cancelled | returned => false

def isTerminal : OrderStatus → Bool
  | cancelled | returned => true
  | _ => false

def isReturnableFrom : OrderStatus → Bool
  | handedToCourier | outForDelivery | delivered => true
  | _ => false

/-- At or past the hand-over to the courier. -/
def isShippedStage (s : OrderStatus) : Bool := rank handedToCourier ≤ rank s

/-- The only backward moves allowed (staff, before shipping). -/
def regressTarget : OrderStatus → Option OrderStatus
  | processing => some confirmed
  | _ => none

end OrderStatus

inductive TransitionActor
  | staff | customer | system | webhook
deriving DecidableEq, Repr

structure CreditInput where
  reason : String
  courierLoss : Money := 0
deriving DecidableEq, Repr

inductive TransitionMode
  | advance | regress
deriving DecidableEq, Repr

structure TransitionRequest where
  toStatus : OrderStatus
  mode : TransitionMode := .advance
  actor : TransitionActor
  credit : Option CreditInput := none
  now : Instant
deriving DecidableEq, Repr

inductive StockEffect
  | none | fulfil | release | restock
deriving DecidableEq, Repr

/-- The order fields a plan sets; a field the plan does not name keeps its value. -/
structure PlanSet where
  confirmedAt : Option Instant := .none
  shippedAt : Option Instant := .none
  deliveredAt : Option Instant := .none
  cancelledAt : Option Instant := .none
  cancelledFrom : Option OrderStatus := .none
  stockReserved : Option Bool := .none
deriving DecidableEq, Repr

structure TransitionPlan where
  fromStatus : OrderStatus
  toStatus : OrderStatus
  stock : StockEffect := .none
  set : PlanSet := {}
  /-- COD delivered → cash collected with the parcel -/
  markPaid : Bool := false
  /-- give coupon usage back -/
  revokeCoupon : Bool := false
  /-- order leaves the open set -/
  closes : Bool := false
  /-- cancelled/returned → CRM cancelled counter, totalSpent reversal -/
  voids : Bool := false
  /-- finance must issue a credit note (live order cancelled / returned) -/
  credit : Option CreditInput := .none
deriving DecidableEq, Repr

structure PlanRefusal where
  code : String
  message : String
deriving DecidableEq, Repr

/-- A reason that is there and not blank. -/
def CreditInput.trimmedReason (c : Option CreditInput) : Option String :=
  (c.map fun c => trim c.reason).filter (· ≠ "")

open OrderStatus (rank)

/-- What leaving the flow (cancel, return) must do. -/
def planVoid (order : Order) (req : TransitionRequest) : Except PlanRefusal TransitionPlan :=
  let live := order.status ≠ .pending
  let reason := CreditInput.trimmedReason req.credit
  if req.toStatus = .cancelled && !order.status.isOpen then
    .error ⟨"order.cancel_not_allowed", "ডেলিভারি হয়ে যাওয়া অর্ডার বাতিল নয়, ফেরত করুন"⟩
  else if req.toStatus = .returned && !order.status.isReturnableFrom then
    .error ⟨"order.return_not_allowed", "কুরিয়ারে ওঠার আগে ফেরত হয় না — বাতিল করুন"⟩
  else if req.actor = .customer && !(req.toStatus = .cancelled && order.status = .pending) then
    .error ⟨"order.customer_cancel_not_allowed",
      "কনফার্ম হওয়া অর্ডার বাতিল করতে হেল্পলাইনে যোগাযোগ করুন"⟩
  else if live && reason.isNone then
    .error ⟨"order.credit_required", "চলমান অর্ডার বাতিল/ফেরতে কারণ দিন — ক্রেডিট নোট কাটা হবে"⟩
  else .ok
    { fromStatus := order.status, toStatus := req.toStatus,
      stock := if order.shippedAt.isSome then .restock
        else if order.stockReserved then .release else .none,
      set := { cancelledAt := some req.now, cancelledFrom := some order.status,
               stockReserved := some false },
      revokeCoupon := true, closes := order.status.isOpen, voids := true,
      credit := if live then
          reason.map fun r => { reason := r, courierLoss := (req.credit.map (·.courierLoss)).getD 0 }
        else none }

/-- What a forward move must do. -/
def planAdvance (order : Order) (req : TransitionRequest) : TransitionPlan :=
  let ships := req.toStatus.isShippedStage && order.shippedAt.isNone
  let delivers := req.toStatus = .delivered
  { fromStatus := order.status, toStatus := req.toStatus,
    stock := if ships then .fulfil else .none,
    set :=
      { confirmedAt :=
          if rank .confirmed ≤ rank req.toStatus && order.confirmedAt.isNone then some req.now
          else none,
        shippedAt := if ships then some req.now else none,
        stockReserved := if ships then some false else none,
        deliveredAt := if delivers then some req.now else none },
    closes := delivers,
    markPaid := delivers && order.paymentStatus = .unpaid }

/-- An online order that still needs its payment. -/
def awaitingPayment (order : Order) : Bool :=
  order.paymentMethod = .sslcommerz && order.paymentStatus = .unpaid

/-- Decide whether a move is legal and what it must do. -/
def planTransition (order : Order) (req : TransitionRequest) :
    Except PlanRefusal TransitionPlan :=
  if order.status.isTerminal then
    .error ⟨"order.closed", "বাতিল বা ফেরত হওয়া অর্ডারের স্ট্যাটাস বদলানো যায় না"⟩
  else if order.status = req.toStatus then
    .error ⟨"order.status_unchanged", "অর্ডার আগেই এই ধাপে আছে"⟩
  else if req.mode = .regress then
    if req.actor ≠ .staff then
      .error ⟨"order.regress_forbidden", "শুধু স্টাফ আগের ধাপে ফেরাতে পারে"⟩
    else if order.status.regressTarget ≠ some req.toStatus then
      .error ⟨"order.regress_not_allowed", "এই ধাপ থেকে আগের ধাপে ফেরানো যায় না"⟩
    else .ok { fromStatus := order.status, toStatus := req.toStatus }
  else if req.toStatus = .cancelled || req.toStatus = .returned then planVoid order req
  else if rank req.toStatus < rank order.status then
    .error ⟨"order.transition_backwards", "পেছনের ধাপে যেতে \"আগের ধাপ\" ব্যবহার করুন"⟩
  else if req.actor = .customer then
    .error ⟨"order.customer_forbidden", "এই পরিবর্তন করার অনুমতি নেই"⟩
  else if order.status = .pending && awaitingPayment order then
    .error ⟨"order.awaiting_payment", "অনলাইন পেমেন্ট এখনো হয়নি — পেমেন্টের পর কনফার্ম হবে"⟩
  else .ok (planAdvance order req)

/-! ### Reopen -/

inductive ReopenTarget
  | pending | confirmed
deriving DecidableEq, Repr

def ReopenTarget.status : ReopenTarget → OrderStatus
  | pending => .pending
  | confirmed => .confirmed

structure ReopenRequest where
  toStatus : Option ReopenTarget := none
  reason : String
  actor : TransitionActor
deriving DecidableEq, Repr

structure ReopenPlan where
  fromStatus : OrderStatus
  toStatus : ReopenTarget
deriving DecidableEq, Repr

/-- Where a reopen restarts: what was asked for, or what fits the order. -/
def reopenTarget (order : Order) (req : ReopenRequest) : ReopenTarget :=
  req.toStatus.getD <|
    if order.cancelledFrom.any (· ≠ .pending) && !awaitingPayment order then .confirmed
    else .pending

/--
A cancelled or returned order may be brought back as a fresh sale.  It restarts at
PENDING, or at CONFIRMED when staff already verified it; an unpaid online order can
only restart at PENDING (it still needs payment).
-/
def planReopen (order : Order) (req : ReopenRequest) : Except PlanRefusal ReopenPlan :=
  if req.actor ≠ .staff then
    .error ⟨"order.reopen_forbidden", "শুধু স্টাফ অর্ডার ফিরিয়ে আনতে পারে"⟩
  else if !order.status.isTerminal then
    .error ⟨"order.reopen_not_closed", "শুধু বাতিল বা ফেরত হওয়া অর্ডার ফিরিয়ে আনা যায়"⟩
  else if (trim req.reason).length < 3 then
    .error ⟨"order.reopen_reason_required", "ফিরিয়ে আনার কারণ লিখুন"⟩
  else if reopenTarget order req = .confirmed && awaitingPayment order then
    .error ⟨"order.awaiting_payment", "অনলাইন পেমেন্ট হয়নি — অপেক্ষমাণ হিসেবে ফিরিয়ে আনুন"⟩
  else .ok { fromStatus := order.status, toStatus := reopenTarget order req }

end BookHouse
