/-
Signing in and out: `auth/auth.service.ts`.

A login reads the account, looks at its status and its lock, compares the password and then
writes the outcome, each in a statement of its own; a refresh reads, revokes and creates
likewise.  Only the new password of a reset or a change is set in a transaction.
-/
import BookHouse.Auth.AuthDesk

namespace BookHouse

/-- A call of the account services; its thread is its transaction. -/
abbrev AuthCall := Prog AuthOp AuthOp.Res AuthFault

namespace AuthCall

variable {α : Type}

def ask (o : AuthOp) : AuthCall o.Res := Prog.perform o

/-- `prisma.tx`: what throws is rolled back. -/
def tx (body : AuthCall α) : AuthCall α := do
  match ← body.catching with
  | .ok a => do
      ask .commit
      return a
  | .error fault => do
      ask .rollback
      throw fault

/-- An update of a row that is not there throws. -/
def mustFind (found : Bool) : AuthCall Unit :=
  if found then pure () else throw (.other (.database "P2025" "Record not found"))

def refuse (code message : String) : AuthCall α :=
  throw (.other (.domain (.rule code message)))

end AuthCall

open AuthCall

/-- `AccessClaims` of an access token. -/
structure AccessClaims where
  sub : UserId
  role : UserRole
  sid : SessionId
  mcp : Bool
deriving DecidableEq, Repr

structure Tokens where
  claims : AccessClaims
  refreshToken : String
deriving DecidableEq, Repr

/-- What a call returns. -/
inductive AuthAnswer
  | done
  | tokens (tokens : Tokens)
  /-- the password of an account, for the caller to hand on -/
  | tempPassword (user : UserId) (tempPassword : String)
deriving DecidableEq, Repr

structure LoginDto where
  identifier : String
  password : String
deriving DecidableEq, Repr

structure ResetPasswordDto where
  identifier : String
  code : String
  password : String
deriving DecidableEq, Repr

namespace AuthService

variable (host : AuthHost)

/-- Same error for unknown user and bad password. -/
def invalidCredentials : AuthFault :=
  .unauthorized "auth.invalid_credentials" "ইমেইল/মোবাইল অথবা পাসওয়ার্ড ভুল"

def findByIdentifier (identifier : String) : AuthCall (Option (UserId × User)) :=
  match contactOf host identifier with
  | some contact => ask (.findUser contact)
  | none => pure none

/-- A new session for the user; `parent` is the session it replaces. -/
def issue (id : UserId) (user : User) (parent : Option SessionId) : AuthCall AuthAnswer := do
  let refreshToken ← ask .random
  match ← ask (.createSession id parent (host.sha256 refreshToken)) with
  | none => throw (.other (.database "P2002" "Unique constraint failed: auth_sessions"))
  | some sid =>
    let claims : AccessClaims :=
      { sub := id, role := user.role, sid, mcp := user.mustChangePassword }
    return .tokens { claims, refreshToken }

def login (dto : LoginDto) : AuthCall AuthAnswer := do
  let found ← findByIdentifier host dto.identifier
  match found.filter fun u => u.2.passwordHash.isSome && u.2.deletedAt.isNone with
  | none => throw invalidCredentials
  | some (id, user) =>
    if user.status ≠ .active then
      throw (.unauthorized "auth.disabled" "আপনার অ্যাকাউন্টে লগইন বন্ধ করা হয়েছে — সাহায্যের জন্য হেল্পলাইনে যোগাযোগ করুন")
    else do
      let now ← ask .clock
      if user.lockedUntil.any (now < ·) then
        throw (.unauthorized "auth.locked" "বারবার ভুল চেষ্টার কারণে কিছুক্ষণের জন্য লক করা হয়েছে")
      else do
        let ok ← ask (.verify id user dto.password)
        if ok then do
          mustFind (← ask (.updateUser id .signedIn))
          issue host id user none
        else do
          mustFind (← ask (.updateUser id (.failed (user.failedLogins + 1))))
          throw invalidCredentials

/-- Rotate: old refresh token dies, a new pair is issued. Reuse ⇒ revoke all. -/
def refresh (refreshToken : Option String) : AuthCall AuthAnswer :=
  match refreshToken.filter (· ≠ "") with
  | none => throw (.unauthorized "auth.refresh_missing" "সেশন শেষ, আবার লগইন করুন")
  | some refreshToken => do
    match ← ask (.findSession (host.sha256 refreshToken)) with
    | none => throw (.unauthorized "auth.refresh_invalid" "সেশন শেষ, আবার লগইন করুন")
    | some (id, session, user) =>
      if session.revokedAt.isSome then do
        -- A rotated token came back → it was stolen. Kill every session of this user.
        ask (.revokeUser session.userId (.reuse id))
        throw (.unauthorized "auth.refresh_reused" "নিরাপত্তার জন্য সব ডিভাইস থেকে লগআউট করা হয়েছে")
      else do
        let now ← ask .clock
        if session.expiresAt < now || user.status ≠ .active then
          throw (.unauthorized "auth.refresh_expired" "সেশন শেষ, আবার লগইন করুন")
        else do
          mustFind (← ask (.rotate id))
          issue host session.userId user (some id)

def revokeToken (refreshToken : Option String) : AuthCall Unit :=
  match refreshToken.filter (· ≠ "") with
  | some refreshToken => ask (.revoke (.token (host.sha256 refreshToken)))
  | none => pure ()

def revokeCurrent (user : Option Actor) : AuthCall Unit :=
  match user with
  | some user => ask (.revoke (.one user.sessionId))
  | none => pure ()

def logout (user : Option Actor) (refreshToken : Option String) : AuthCall AuthAnswer := do
  revokeToken host refreshToken
  revokeCurrent user
  return .done

def logoutEverywhere (user : Actor) : AuthCall AuthAnswer := do
  ask (.revokeUser user.id .everywhere)
  return .done

/-- Always answers the same way so it can't be used to probe accounts. -/
def forgotPassword (identifier : String) : AuthCall AuthAnswer := do
  let found ← findByIdentifier host identifier
  match found.filter fun u => u.2.status = .active with
  | none => return .done
  | some (id, user) => do
    let code ← ask .random
    tx do
      ask (.createCodeTx id (user.phone.getD (user.email.getD "")) (host.sha256 code))
    return .done

def codeInvalid {α : Type} : AuthCall α := refuse "auth.code_invalid" "কোড ভুল বা মেয়াদ শেষ"

def resetPassword (dto : ResetPasswordDto) : AuthCall AuthAnswer := do
  match ← findByIdentifier host dto.identifier with
  | none => codeInvalid
  | some (id, _) =>
    match (← ask (.findCode id)).filter fun c => c.2.attempts < otpMaxAttempts with
    | none => codeInvalid
    | some (codeId, code) => do
      let right ← ask (.compare codeId code (host.sha256 (trim dto.code)))
      if right then
        tx do
          mustFind (← ask (.consumeTx codeId))
          let salt ← ask .random
          mustFind (← ask (.updateUserTx id (.password (host.argonHash dto.password salt))))
          ask (.revokeUserTx id .passwordReset none)
          return .done
      else do
        mustFind (← ask (.miss codeId))
        codeInvalid

def changePassword (user : Actor) (current next : String) : AuthCall AuthAnswer := do
  match ← ask (.getUser user.id) with
  | none => throw (.other (.database "P2025" "Record not found"))
  | some u =>
    if u.passwordHash.any (host.argonVerify · current) then
      tx do
        let salt ← ask .random
        mustFind (← ask (.updateUserTx user.id (.ownPassword (host.argonHash next salt))))
        ask (.revokeUserTx user.id .passwordChange (some user.sessionId))
        return .done
    else refuse "auth.password_wrong" "বর্তমান পাসওয়ার্ড ভুল"

end AuthService

end BookHouse
