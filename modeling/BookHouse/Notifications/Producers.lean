/-
The messages the shop decides to send, with what their senders put into them: the placement of
`orders/application/order-placement.service.ts`, `notifications/listeners/customer-sms.listener.ts`,
`notifyRestocked` of `customers/application/wishlist.service.ts`, `forgotPassword` of
`auth/auth.service.ts` and `create` of `staff/application/staff.service.ts`.

An order's number is one the counter gave out, and the name of a product or a bundle is one
that its administration can leave; every other text is whatever a request or a row holds.
-/
import BookHouse.Auth.StaffService
import BookHouse.Catalog.Slug
import BookHouse.Notifications.OutboxDesk
import BookHouse.Notifications.Templates
import BookHouse.Orders.Shipments

namespace BookHouse

open Templates

structure OutboxMessage where
  channel : NotificationChannel
  recipient : String
  template : String
  payload : Payload
  dedupeKey : Option String := none
deriving DecidableEq, Repr

/-- A field that may be `null` -/
def PayloadValue.ofOption : Option String → PayloadValue
  | none => .null
  | some v => .str v

def PaymentMethod.text : PaymentMethod → String
  | cod => "COD"
  | sslcommerz => "SSLCOMMERZ"
  | bkash => "BKASH"
  | nagad => "NAGAD"
  | bankTransfer => "BANK_TRANSFER"
  | cash => "CASH"

def UserRole.text : UserRole → String
  | owner => "OWNER"
  | admin => "ADMIN"
  | manager => "MANAGER"
  | support => "SUPPORT"
  | accountant => "ACCOUNTANT"
  | warehouse => "WAREHOUSE"
  | customer => "CUSTOMER"

/-- "+8801711111111" → "01711111111" -/
def localPhone (e164 : String) : String :=
  let cs := e164.toList
  if cs.take 4 = "+880".toList then String.ofList ('0' :: cs.drop 4) else e164

/-! ### Orders -/

/-- `counters.next(tx, 'order')` on a row of the counters -/
def orderNoOf (counter : DocumentCounter) : String :=
  padNo counter.pfx counter.nextValue counter.padding

namespace OrderPlacementService

def placedMessage (orderNo name phone : String) (grandTotal : Money) (method : PaymentMethod) :
    OutboxMessage :=
  { channel := .sms, recipient := phone, template := "order.placed",
    payload := [("orderNo", .str orderNo), ("name", .str name),
      ("total", .str (toFixed2 grandTotal)), ("paymentMethod", .str method.text),
      ("phone", .str (localPhone phone))],
    dedupeKey := some s!"order-placed:{orderNo}" }

end OrderPlacementService

namespace CustomerSmsListener

structure TextedShipment where
  status : ShipmentStatus
  createdAt : Instant
  trackingNo : Option String := none
  courierName : String
  courierTrackingUrl : Option String := none
deriving DecidableEq, Repr

/-- What the listener reads of an order. -/
structure TextedOrder where
  contactName : String
  contactPhone : String
  cancelReason : Option String := none
  shipments : List TextedShipment := []
deriving DecidableEq, Repr

/-- `STATUS_TEMPLATES` -/
def statusTemplate : OrderStatus → Option String
  | .confirmed => some "order.confirmed"
  | .handedToCourier => some "order.shipped"
  | .delivered => some "order.delivered"
  | .cancelled => some "order.cancelled"
  | _ => none

def onPlaced (orderNo : String) (grandTotal : Money) (method : PaymentMethod) (o : TextedOrder) :
    OutboxMessage :=
  { channel := .sms, recipient := o.contactPhone, template := "order.placed",
    payload := [("name", .str o.contactName), ("orderNo", .str orderNo),
      ("total", .num (round2 grandTotal)), ("paymentMethod", .str method.text)],
    dedupeKey := some s!"order-placed:{orderNo}" }

def hexDigit (n : ℕ) : Char := Char.ofNat (if n < 10 then n + 48 else n + 55)

/-- What `encodeURIComponent` leaves as it is. -/
def isUnreserved (c : Char) : Bool :=
  c.isAlphanum || "-_.!~*'()".toList.contains c

/-- `%XX` for each byte of UTF-8 -/
def encodeURIComponent (text : String) : String :=
  String.ofList (text.toList.flatMap fun c =>
    if isUnreserved c then [c]
    else (String.singleton c).toUTF8.toList.flatMap fun b =>
      ['%', hexDigit (b.toNat / 16), hexDigit (b.toNat % 16)])

/-- `text.replace(pattern, by)`: the first occurrence -/
def replaceFirst (pattern by_ : List Char) : List Char → List Char
  | [] => if pattern = [] then by_ else []
  | c :: rest =>
    if (c :: rest).take pattern.length = pattern then by_ ++ (c :: rest).drop pattern.length
    else c :: replaceFirst pattern by_ rest

/-- The link of a shipment with a tracking number, where its courier has a page. -/
def trackingUrl (s : TextedShipment) : Option String :=
  match s.trackingNo.filter (· ≠ ""), s.courierTrackingUrl.filter (· ≠ "") with
  | some no, some url =>
    some (String.ofList
      (replaceFirst "\x7btracking\x7d".toList (encodeURIComponent no).toList url.toList))
  | _, _ => none

/-- The newest shipment that is neither cancelled nor returned. -/
def shipmentOf (o : TextedOrder) : Option TextedShipment :=
  ((o.shipments.filter fun s => s.status ≠ .cancelled && s.status ≠ .returned).insertionSort
    fun a b => b.createdAt ≤ a.createdAt).head?

/-- The text of a status change, where the status has one. -/
def onStatus (orderNo : String) (to_ : OrderStatus) (creditReason : Option String)
    (o : TextedOrder) : Option OutboxMessage :=
  (statusTemplate to_).map fun template =>
    let s := shipmentOf o
    { channel := .sms, recipient := o.contactPhone, template,
      payload := [("name", .str o.contactName), ("orderNo", .str orderNo)] ++
        (if template = "order.shipped" then
          [("courier", .ofOption (s.map (·.courierName))),
           ("trackingNo", .ofOption (s.bind (·.trackingNo))),
           ("trackingUrl", .ofOption (s.bind trackingUrl))]
        else []) ++
        (if template = "order.cancelled" then
          [("reason", .ofOption (o.cancelReason.orElse fun _ => creditReason))]
        else []),
      dedupeKey := some s!"order-{template}:{orderNo}" }

end CustomerSmsListener

/-! ### The other senders -/

structure WatchingCustomer where
  name : String
  phone : String
  isBlocked : Bool := false
  deletedAt : Option Instant := none
deriving DecidableEq, Repr

/-- `notifyRestocked`, for one wishlist item that it claimed -/
def WishlistService.restockedMessage (itemId : String) (item : Named) (kind : SlugScope)
    (c : WatchingCustomer) : Option OutboxMessage :=
  if c.isBlocked || c.deletedAt.isSome then none
  else some
    { channel := .sms, recipient := c.phone, template := "wishlist.restocked",
      payload := [("name", .str c.name), ("title", .str item.title), ("slug", .str item.slug),
        ("kind", .str kind.name)],
      dedupeKey := some s!"wishlist-restock:{itemId}" }

/-- `forgotPassword`, for an account it found -/
def AuthService.resetMessage (user : User) (code : ℕ) : OutboxMessage :=
  { channel := if user.phone.isSome then .sms else .email,
    recipient := user.phone.getD (user.email.getD ""), template := "auth.password_reset",
    payload := [("name", .str user.name), ("code", .str (toString code)),
      ("minutes", .num otpTtlMin)] }

/-- `create`, for the account it made -/
def StaffService.inviteMessage (userId email name : String) (role : UserRole)
    (tempPassword : String) : OutboxMessage :=
  { channel := .email, recipient := email, template := "staff.invite",
    payload := [("name", .str name), ("role", .str role.text),
      ("tempPassword", .str tempPassword)],
    dedupeKey := some s!"staff-invite:{userId}" }

/-! ### Every call of `enqueue` -/

/-- A call with the values its sender has at hand. -/
inductive Sending (slugify : String → String)
  | place (counter : DocumentCounter) (name phone : String) (grandTotal : Money)
      (method : PaymentMethod)
  | onPlaced (counter : DocumentCounter) (grandTotal : Money) (method : PaymentMethod)
      (order : CustomerSmsListener.TextedOrder)
  | onStatus (counter : DocumentCounter) (to_ : OrderStatus) (creditReason : Option String)
      (order : CustomerSmsListener.TextedOrder)
  | notifyRestocked (itemId : String) (item : { n : Named // n.Reachable slugify })
      (kind : SlugScope) (customer : WatchingCustomer)
  | forgotPassword (user : User) (code : ℕ)
  | createStaff (userId email name : String) (role : UserRole) (tempPassword : String)

namespace Sending

variable {slugify : String → String}

/-- What is enqueued, if anything. -/
def message : Sending slugify → Option OutboxMessage
  | place counter name phone grandTotal method =>
    some (OrderPlacementService.placedMessage (orderNoOf counter) name phone grandTotal method)
  | onPlaced counter grandTotal method order =>
    some (CustomerSmsListener.onPlaced (orderNoOf counter) grandTotal method order)
  | onStatus counter to_ creditReason order =>
    CustomerSmsListener.onStatus (orderNoOf counter) to_ creditReason order
  | notifyRestocked itemId item kind customer =>
    WishlistService.restockedMessage itemId item.val kind customer
  | forgotPassword user code => some (AuthService.resetMessage user code)
  | createStaff userId email name role tempPassword =>
    some (StaffService.inviteMessage userId email name role tempPassword)

/-- It invites a new member of the staff. -/
def isInvitation : Sending slugify → Bool
  | createStaff .. => true
  | _ => false

end Sending

end BookHouse
