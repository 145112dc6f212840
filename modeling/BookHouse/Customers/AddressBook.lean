/-
The address book of a customer: the address calls of `customers/application/me.service.ts`,
with the indexes of `customer_addresses`.

Addresses are deleted softly.  One live address of a customer is the default, which a partial
unique index makes at most one: each call clears the mark before it sets it.  A call is one
transaction, so a refused one leaves the book as it was.
-/
import BookHouse.Lib.Sorting
import BookHouse.Lib.UniqueIndex
import BookHouse.Auth.Accounts
import BookHouse.Orders.Placement

namespace BookHouse

abbrev AddressId := ℕ

structure CustomerAddress where
  id : AddressId
  customerId : CustomerId
  label : Option String := none
  recipientName : String
  phone : String
  districtId : ℕ
  upazila : Option String := none
  union : Option String := none
  line : String
  landmark : Option String := none
  postcode : Option String := none
  isDefault : Bool := false
  createdAt : Instant
  deletedAt : Option Instant := none
deriving DecidableEq, Repr

def oneDefault : Failure := .unique "customer_addresses_one_default"

/-- One default address per customer. -/
def defaultIndex : UniqueIndex Failure CustomerAddress :=
  .on oneDefault (fun a => a.isDefault && a.deletedAt.isNone) (·.customerId)

def addressIndexes : List (UniqueIndex Failure CustomerAddress) :=
  [.on (.unique "customer_addresses_pkey") (fun _ => true) (·.id), defaultIndex]

abbrev AddressBook := IndexedTable addressIndexes

/-- The customer's addresses that are not deleted. -/
def liveAddresses (book : AddressBook) (customerId : CustomerId) : List CustomerAddress :=
  book.rows.filter fun a => a.customerId = customerId && a.deletedAt.isNone

structure AddressDto where
  label : Option String := none
  recipientName : String
  phone : String
  districtId : ℕ
  upazila : Option String := none
  union : Option String := none
  line : String
  landmark : Option String := none
  postcode : Option String := none
  isDefault : Option Bool := none
deriving DecidableEq, Repr

structure UpdateAddressDto where
  label : Option String := none
  recipientName : Option String := none
  phone : Option String := none
  districtId : Option ℕ := none
  upazila : Option String := none
  union : Option String := none
  line : Option String := none
  landmark : Option String := none
  postcode : Option String := none
  isDefault : Option Bool := none
deriving DecidableEq, Repr

/-- What a call finds beside the book: the accounts' customers, the districts, the clock, the id
made for a new row, and how the database orders rows as new as each other. -/
structure AddressContext where
  customers : List (UserId × CustomerId) := []
  districts : List ℕ := []
  now : Instant
  newId : AddressId
  newestFirst : Sorting.OrderBy fun a b : CustomerAddress => b.createdAt ≤ a.createdAt

namespace MeService

/-- `MAX_ADDRESSES` -/
def maxAddresses : ℕ := 10

/-- The CRM row behind the logged-in account. -/
def customerId (ctx : AddressContext) (user : AuthUser) : Except Failure CustomerId :=
  match user.customerId with
  | some id => .ok id
  | none =>
    match ctx.customers.find? (·.1 = user.id) with
    | some (_, id) => .ok id
    | none => .error (.notFound "Customer" "")

def phone (input : String) : Except Failure String :=
  match normalizeBdPhone input with
  | some p => .ok p
  | none => .error (.rule "address.phone_invalid" "সঠিক মোবাইল নম্বর দিন")

def checkDistrict (ctx : AddressContext) (id : ℕ) : Except Failure Unit :=
  if id ∈ ctx.districts then .ok ()
  else .error (.rule "address.district_invalid" "জেলা সঠিক নয়")

def mustOwn (book : AddressBook) (customerId : CustomerId) (id : AddressId) :
    Except Failure CustomerAddress :=
  match book.rows.find? fun a => a.id = id && a.customerId = customerId && a.deletedAt.isNone with
  | some a => .ok a
  | none => .error (.notFound "Address" (toString id))

/-- One default per customer — clear before setting. -/
def clearDefault (book : AddressBook) (customerId : CustomerId) : Except Failure AddressBook :=
  book.update (fun a => a.customerId = customerId && a.isDefault && a.deletedAt.isNone)
    fun a => { a with isDefault := false }

/-- `v?.trim() || null` -/
def trimmed (v : Option String) : Option String := (v.map trim).filter (· ≠ "")

def addAddress (ctx : AddressContext) (book : AddressBook) (user : AuthUser) (dto : AddressDto) :
    Except Failure (AddressBook × CustomerAddress) := do
  let customerId ← customerId ctx user
  let phone ← phone dto.phone
  checkDistrict ctx dto.districtId
  let count := (liveAddresses book customerId).length
  if count ≥ maxAddresses then
    .error (.rule "address.limit" s!"সর্বোচ্চ {maxAddresses}টি ঠিকানা রাখা যায়")
  else
    let makeDefault := dto.isDefault = some true || count = 0
    let book ← if makeDefault then clearDefault book customerId else .ok book
    let row : CustomerAddress :=
      { id := ctx.newId, customerId, phone, isDefault := makeDefault, label := trimmed dto.label,
        recipientName := trim dto.recipientName, districtId := dto.districtId,
        upazila := trimmed dto.upazila, union := trimmed dto.union, line := trim dto.line,
        landmark := trimmed dto.landmark, postcode := trimmed dto.postcode, createdAt := ctx.now }
    let book ← book.insert row
    return (book, row)

/-- The columns an update writes; a field that is left out keeps its value. -/
def patch (dto : UpdateAddressDto) (phone : Option String) (a : CustomerAddress) :
    CustomerAddress :=
  { a with
    label := (dto.label.map trim).or a.label,
    recipientName := (dto.recipientName.map trim).getD a.recipientName,
    phone := phone.getD a.phone,
    districtId := dto.districtId.getD a.districtId,
    upazila := (dto.upazila.map trim).or a.upazila,
    union := (dto.union.map trim).or a.union,
    line := (dto.line.map trim).getD a.line,
    landmark := (dto.landmark.map trim).or a.landmark,
    postcode := (dto.postcode.map trim).or a.postcode,
    isDefault := dto.isDefault = some true || a.isDefault }

def updateAddress (ctx : AddressContext) (book : AddressBook) (user : AuthUser)
    (addressId : AddressId) (dto : UpdateAddressDto) :
    Except Failure (AddressBook × CustomerAddress) := do
  let customerId ← customerId ctx user
  dto.districtId.forM (checkDistrict ctx)
  let a ← mustOwn book customerId addressId
  let book ← if dto.isDefault = some true then clearDefault book customerId else .ok book
  let phone ← (dto.phone.filter (· ≠ "")).mapM phone
  let book ← book.update (fun a => a.id = addressId) (patch dto phone)
  return (book, patch dto phone a)

def setDefault (ctx : AddressContext) (book : AddressBook) (user : AuthUser)
    (addressId : AddressId) : Except Failure (AddressBook × CustomerAddress) :=
  updateAddress ctx book user addressId { isDefault := some true }

/-- Soft delete; if it was the default, the newest remaining address takes over. -/
def deleteAddress (ctx : AddressContext) (book : AddressBook) (user : AuthUser)
    (addressId : AddressId) : Except Failure AddressBook := do
  let customerId ← customerId ctx user
  let a ← mustOwn book customerId addressId
  let book ← book.update (fun a => a.id = addressId)
    fun a => { a with deletedAt := some ctx.now, isDefault := false }
  if a.isDefault then
    match (ctx.newestFirst.run (liveAddresses book customerId)).head? with
    | some next => book.update (fun a => a.id = next.id) fun a => { a with isDefault := true }
    | none => .ok book
  else .ok book

end MeService

inductive AddressCall
  | add (user : AuthUser) (dto : AddressDto)
  | update (user : AuthUser) (addressId : AddressId) (dto : UpdateAddressDto)
  | setDefault (user : AuthUser) (addressId : AddressId)
  | delete (user : AuthUser) (addressId : AddressId)
deriving DecidableEq, Repr

/-- The book after a call. -/
def AddressCall.run (ctx : AddressContext) (book : AddressBook) :
    AddressCall → Except Failure AddressBook
  | add user dto => (MeService.addAddress ctx book user dto).map (·.1)
  | update user id dto => (MeService.updateAddress ctx book user id dto).map (·.1)
  | setDefault user id => (MeService.setDefault ctx book user id).map (·.1)
  | delete user id => MeService.deleteAddress ctx book user id

/-- A call that commits. -/
def addressStep (book : AddressBook) (a : AddressContext × AddressCall) : Option AddressBook :=
  (a.2.run a.1 book).toOption

end BookHouse
