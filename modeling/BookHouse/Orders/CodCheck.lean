/-
Asking before placing: `codCheck` of `orders/application/order-placement.service.ts`.

Checkout asks early so the customer is told before placing — not after: the row of the
shopper's account first, then the row of the phone in the form.
-/
import BookHouse.Auth.Accounts
import BookHouse.Orders.Placement

namespace BookHouse

structure CodVerdict where
  codAllowed : Bool
  message : Option String
deriving DecidableEq, Repr

/-- The CRM row of the account, deleted or not. -/
def accountRow (s : Store) (user : Option AuthUser) : Option Customer :=
  (user.bind (·.customerId)).bind fun id => Rows.lookup Customer.id id s.customers

/-- The CRM row of a phone as it was typed. -/
def phoneRow (s : Store) (phoneRaw : Option String) : Option Customer :=
  (normalizeBdPhone (phoneRaw.getD "")).bind fun phone =>
    Rows.lookup Customer.phone phone s.customers

def codCheck (s : Store) (phoneRaw : Option String) (user : Option AuthUser) : CodVerdict :=
  let blockedMsg :=
    "আপনার অ্যাকাউন্টে ক্যাশ অন ডেলিভারি বন্ধ আছে — অনলাইনে (SSLCOMMERZ) পেমেন্ট করে অর্ডার দিতে পারবেন।"
  if (accountRow s user).any (·.isBlocked) then
    { codAllowed := false, message := some blockedMsg }
  else if (phoneRow s phoneRaw).any (·.isBlocked) then
    { codAllowed := false,
      message := some
        "এই নম্বরে ক্যাশ অন ডেলিভারি বন্ধ আছে — অনলাইনে (SSLCOMMERZ) পেমেন্ট করে অর্ডার দিতে পারবেন।" }
  else { codAllowed := true, message := none }

/-- What `placeInTx` rejects a blocked customer with. -/
def customerBlocked : Failure :=
  .rule "order.customer_blocked"
    "এই নম্বরে ক্যাশ অন ডেলিভারি বন্ধ আছে — অনলাইনে পেমেন্ট করুন বা হেল্পলাইনে যোগাযোগ করুন"

/-- The checkout of a shopper with a phone as typed, paid on delivery. -/
def PlaceOrder.onDelivery (req : PlaceOrder) (phoneRaw : String) (user : Option AuthUser) :
    PlaceOrder :=
  { req with phone := normalizeBdPhone phoneRaw, user, staff := none, paymentMethod := .cod }

end BookHouse
