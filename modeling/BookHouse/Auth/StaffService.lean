/-
Staff accounts: `staff/application/staff.service.ts` behind
`staff/controllers/staff.admin.controller.ts`, and the calls of all account services side by
side.

What a call may do is decided from the account as it was read, and from a count of the other
owners, before the transaction that writes.
-/
import BookHouse.Auth.AuthService

namespace BookHouse

open AuthCall

structure CreateStaffDto where
  name : String
  email : String
  role : UserRole
deriving DecidableEq, Repr

namespace StaffService

variable (host : AuthHost)

/-- `ALL_STAFF` -/
def allStaff : List UserRole := .owner :: staffRoles

/-- Only an owner grants the roles of owners and admins. -/
def assertCanGrant (actor : Actor) (role : UserRole) : Except AuthFault Unit :=
  if role ∉ allStaff then
    .error (.other (.domain (.rule "staff.role_invalid" "স্টাফের জন্য সঠিক রোল দিন")))
  else if (role = .owner ∨ role = .admin) ∧ actor.role ≠ .owner then
    .error (.other (.forbidden "staff.owner_only" "শুধু মালিক অ্যাডমিন/মালিক বানাতে পারেন"))
  else .ok ()

def find (id : UserId) : AuthCall User := do
  match (← ask (.getUser id)).filter fun u => u.role ∈ allStaff with
  | none => throw (.other (.domain (.notFound "Staff" (toString id))))
  | some u => return u

def assertNotLastOwner (id : UserId) : AuthCall Unit := do
  let owners ← ask (.otherOwners id)
  if owners = 0 then refuse "staff.last_owner" "শেষ মালিক অ্যাকাউন্ট সরানো যাবে না" else pure ()

/-- `if (…) await this.assertNotLastOwner(id)` -/
def guardLastOwner (removes : Bool) (id : UserId) : AuthCall Unit :=
  if removes then assertNotLastOwner id else pure ()

def create (dto : CreateStaffDto) (actor : Actor) : AuthCall AuthAnswer := do
  Prog.lift (assertCanGrant actor dto.role)
  let email := host.toLowerCase (trim dto.email)
  match ← ask (.findUser (.email email)) with
  | some _ => throw (.other (.domain (.conflict "staff.exists" "এই ইমেইলে অ্যাকাউন্ট আছে")))
  | none => do
    let temp ← ask .random
    tx do
      let salt ← ask .random
      match ← ask (.createUserTx
        { name := trim dto.name, email := some email, role := dto.role,
          passwordHash := some (host.argonHash temp salt), mustChangePassword := true }) with
      | none => throw (.other (.database "P2002" "Unique constraint failed: users"))
      | some id => return .tempPassword id temp

def changeRole (id : UserId) (role : UserRole) (actor : Actor) : AuthCall AuthAnswer := do
  Prog.lift (assertCanGrant actor role)
  let u ← find id
  guardLastOwner (u.role = .owner && role ≠ .owner) id
  tx do
    mustFind (← ask (.updateUserTx id (.role role)))
    ask (.revokeUserTx id .roleChange none)
    return .done

def setEnabled (id : UserId) (enabled : Bool) (actor : Actor) : AuthCall AuthAnswer :=
  if id = actor.id then refuse "staff.self" "নিজের অ্যাকাউন্ট বন্ধ করা যাবে না"
  else do
    let u ← find id
    guardLastOwner (!enabled && u.role = .owner) id
    tx do
      mustFind (← ask (.updateUserTx id (.enabled enabled)))
      if enabled then return .done
      else do
        ask (.revokeUserTx id .disabled none)
        return .done

def resetPassword (id : UserId) : AuthCall AuthAnswer := do
  let _ ← find id
  let temp ← ask .random
  tx do
    let salt ← ask .random
    mustFind (← ask (.updateUserTx id (.tempPassword (host.argonHash temp salt))))
    ask (.revokeUserTx id .staffReset none)
  return .tempPassword id temp

/-- Block or unblock sign-in for any account. -/
def setAccess (id : UserId) (blocked : Bool) (actor : Actor) : AuthCall AuthAnswer :=
  if id = actor.id then refuse "access.self" "নিজের অ্যাকাউন্ট ব্লক করা যাবে না"
  else do
    match (← ask (.getUser id)).filter fun u => u.deletedAt.isNone with
    | none => throw (.other (.domain (.notFound "User" (toString id))))
    | some u =>
      if (u.role = .owner ∨ u.role = .admin) ∧ actor.role ≠ .owner then
        throw (.other (.forbidden "access.owner_only"
          "মালিক/অ্যাডমিনকে শুধু মালিক ব্লক করতে পারেন"))
      else do
        guardLastOwner (blocked && u.role = .owner) id
        tx do
          mustFind (← ask (.updateUserTx id (.access blocked)))
          if blocked then do
            ask (.revokeUserTx id .blocked none)
            return .done
          else return .done

end StaffService

/-! ### All calls side by side -/

inductive StaffCall
  | create (dto : CreateStaffDto)
  | changeRole (id : UserId) (role : UserRole)
  | setEnabled (id : UserId) (enabled : Bool)
  | resetPassword (id : UserId)
  | setAccess (id : UserId) (blocked : Bool)
deriving DecidableEq, Repr

def StaffCall.body (host : AuthHost) (actor : Actor) : StaffCall → AuthCall AuthAnswer
  | create dto => StaffService.create host dto actor
  | changeRole id role => StaffService.changeRole id role actor
  | setEnabled id enabled => StaffService.setEnabled id enabled actor
  | resetPassword id => StaffService.resetPassword host id
  | setAccess id blocked => StaffService.setAccess id blocked actor

inductive AuthRequest
  | login (dto : LoginDto)
  | refresh (refreshToken : Option String)
  | logout (user : Option Actor) (refreshToken : Option String)
  | logoutEverywhere (user : Actor)
  | forgotPassword (identifier : String)
  | resetPassword (dto : ResetPasswordDto)
  | changePassword (user : Actor) (current next : String)
  | staff (actor : Actor) (call : StaffCall)
deriving DecidableEq, Repr

def AuthRequest.body (host : AuthHost) : AuthRequest → AuthCall AuthAnswer
  | login dto => AuthService.login host dto
  | refresh refreshToken => AuthService.refresh host refreshToken
  | logout user refreshToken => AuthService.logout host user refreshToken
  | logoutEverywhere user => AuthService.logoutEverywhere user
  | forgotPassword identifier => AuthService.forgotPassword host identifier
  | resetPassword dto => AuthService.resetPassword host dto
  | changePassword user current next => AuthService.changePassword host user current next
  | staff actor call => call.body host actor

abbrev AuthWorld := Prog.World AuthOp AuthOp.Res AuthFault AuthAnswer AuthDesk

abbrev AuthAct := Prog.Act AuthRequest AuthInput

def authStep (host : AuthHost) : AuthWorld → AuthAct → Option AuthWorld :=
  Prog.World.step (AuthOp.exec host) (AuthRequest.body host)

end BookHouse
