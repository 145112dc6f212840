/-
Accounts: what `modules/auth/auth.service.ts` and `modules/staff/application/staff.service.ts`
read and write, and what they take from the runtime.

A session also keeps how it came about: the session it was exchanged for, the first one of
that chain, and how much had happened when its call read the account.
-/
import BookHouse.Orders.Coupons
import BookHouse.Runtime

namespace BookHouse

abbrev UserId := ℕ
abbrev SessionId := ℕ
abbrev CodeId := ℕ

def maxFailed : ℕ := 5
def lockMinutes : ℕ := 15
def otpTtlMin : ℕ := 10
def otpMaxAttempts : ℕ := 5

def minute : ℤ := 60000
def day : ℤ := 86400000

/-- The functions of Node, argon2 and the configuration that accounts use. -/
structure AuthHost where
  toLowerCase : String → String
  sha256 : String → String
  /-- the hash of a password with the salt that is drawn for it -/
  argonHash : String → String → String
  argonVerify : String → String → Bool
  /-- `JWT_REFRESH_TTL_DAYS` -/
  refreshTtlDays : ℕ := 30

inductive UserRole
  | owner | admin | manager | support | accountant | warehouse | customer
deriving DecidableEq, Repr

inductive UserStatus
  | active | suspended | disabled
deriving DecidableEq, Repr

/-- `STAFF_ROLES` -/
def staffRoles : List UserRole := [.owner, .admin, .manager, .support, .accountant, .warehouse]

structure User where
  email : Option String := none
  phone : Option String := none
  name : String := ""
  passwordHash : Option String := none
  role : UserRole := .customer
  status : UserStatus := .active
  failedLogins : ℕ := 0
  mustChangePassword : Bool := false
  lockedUntil : Option Instant := none
  lastLoginAt : Option Instant := none
  deletedAt : Option Instant := none
deriving DecidableEq, Repr

/-- An owner who can sign in. -/
def User.activeOwner (u : User) : Bool :=
  u.role = .owner && u.status = .active && u.deletedAt.isNone

structure AuthSession where
  userId : UserId
  refreshTokenHash : String
  expiresAt : Instant
  revokedAt : Option Instant := none
  lastUsedAt : Instant := 0
  /-- the session whose token was exchanged for this one -/
  parent : Option SessionId := none
  /-- the first session of the chain -/
  family : SessionId
  /-- how many events there had been when the account was read -/
  basis : ℕ := 0
deriving DecidableEq, Repr

/-- A code of purpose PASSWORD_RESET. -/
structure VerificationCode where
  userId : UserId
  target : String := ""
  codeHash : String
  attempts : ℕ := 0
  expiresAt : Instant
  consumedAt : Option Instant := none
  createdAt : Instant := 0
deriving DecidableEq, Repr

/-- What `JwtStrategy.validate` attaches to a request. -/
structure Actor where
  id : UserId
  role : UserRole
  sessionId : SessionId
  mustChangePassword : Bool := false
deriving DecidableEq, Repr

/-- An account is looked up by its email or by its phone. -/
inductive Contact
  | email (email : String)
  | phone (phone : String)
deriving DecidableEq, Repr

/-! ### `common/utils/text.ts` -/

/-- A digit of the Bangla script is read as the ASCII one. -/
def asciiDigit (c : Char) : Char :=
  if 0x09E6 ≤ c.toNat ∧ c.toNat ≤ 0x09EF then Char.ofNat (c.toNat - 0x09E6 + '0'.toNat) else c

/-- Strip one leading `pre`. -/
def dropStart (pre d : List Char) : List Char :=
  if pre.isPrefixOf d then d.drop pre.length else d

/-- Any way to write a Bangladeshi mobile number, as E.164. -/
def normalizeBdPhone (input : String) : Option String :=
  let digits := (input.toList.map asciiDigit).filter Char.isDigit
  let d := dropStart ['0'] (dropStart ['8', '8', '0'] digits)
  if d.length = 10 ∧ d.head? = some '1' ∧ (d[1]?).any fun c => '3' ≤ c then
    some ("+880" ++ String.ofList d)
  else none

/-- The column that `findByIdentifier` looks in. -/
def contactOf (host : AuthHost) (identifier : String) : Option Contact :=
  let id := trim identifier
  if '@' ∈ id.toList then some (.email (host.toLowerCase id))
  else (normalizeBdPhone id).map .phone

end BookHouse
