/-
The tables of the accounts, one statement at a time.

A statement runs on its own and commits at once, or writes versions in the transaction of
its thread; a row that another transaction has written is waited for.  Any statement may
fail, and time passes before each of them.  The desk logs what happened, newest first, a
transaction's part of it when it commits.
-/
import BookHouse.Auth.Accounts
import BookHouse.Lib.Table
import BookHouse.Platform.CounterDesk

namespace BookHouse

/-- Why all sessions of a user are revoked. -/
inductive SignOut
  /-- a token came back whose session had been revoked -/
  | reuse (stolen : SessionId)
  | everywhere | passwordReset | passwordChange | staffReset | disabled | blocked | roleChange
deriving DecidableEq, Repr

/-- What may no longer be good for a sign-in: the password or the account. -/
def SignOut.ofAccess : SignOut → Bool
  | passwordReset | passwordChange | staffReset | disabled | blocked => true
  | reuse _ | everywhere | roleChange => false

inductive AuthEvent
  /-- a wrong password was counted -/
  | failed (user : UserId) (at_ : Instant)
  /-- the count of wrong passwords was set back -/
  | cleared (user : UserId)
  /-- a login compared a password with that of the account -/
  | verified (user : UserId) (at_ : Instant)
  | guessed (code : CodeId) (right : Bool)
  | consumed (code : CodeId)
  | revoked (user : UserId) (why : SignOut) (except : Option SessionId)
  /-- an owner who could sign in is no longer one -/
  | ownerLost (user : UserId)
deriving DecidableEq, Repr

/-- What a call found when it read the account: how much had happened, and who could sign in
as an owner. -/
structure AccountReading where
  mark : ℕ
  owners : UserId → Bool

structure AuthDesk where
  now : Instant
  users : Table TxId User
  sessions : Table TxId AuthSession
  codes : Table TxId VerificationCode
  log : List AuthEvent := []
  /-- what the open transactions have done -/
  work : List (TxId × AuthEvent) := []
  readings : TxId → Option AccountReading := fun _ => none
  /-- the session that a call has rotated and not yet replaced -/
  exchanging : TxId → Option SessionId := fun _ => none

/-! ### Writes -/

/-- `data` of an update of a user. -/
inductive UserWrite
  | failed (failedLogins : ℕ)
  | signedIn
  | password (hash : String)
  | ownPassword (hash : String)
  | tempPassword (hash : String)
  | role (role : UserRole)
  | enabled (enabled : Bool)
  | access (blocked : Bool)
deriving DecidableEq, Repr

namespace UserWrite

def apply (now : Instant) (w : UserWrite) (u : User) : User :=
  match w with
  | failed n => { u with failedLogins := n,
                         lockedUntil := if maxFailed ≤ n then some (now + lockMinutes * minute)
                           else none }
  | signedIn => { u with failedLogins := 0, lockedUntil := none, lastLoginAt := some now }
  | password hash => { u with passwordHash := some hash, failedLogins := 0, lockedUntil := none }
  | ownPassword hash => { u with passwordHash := some hash, mustChangePassword := false }
  | tempPassword hash => { u with passwordHash := some hash, failedLogins := 0,
                                  lockedUntil := none, mustChangePassword := true }
  | role r => { u with role := r }
  | enabled true => { u with status := .active }
  | enabled false => { u with status := .disabled }
  | access true => { u with status := .suspended }
  | access false => { u with status := .active, failedLogins := 0, lockedUntil := none }

def events (id : UserId) (now : Instant) : UserWrite → List AuthEvent
  | failed _ => [.failed id now]
  | signedIn | password _ | tempPassword _ | access false => [.cleared id]
  | ownPassword _ | role _ | enabled _ | access true => []

end UserWrite

/-- `WHERE` of an `updateMany` that revokes sessions. -/
inductive SessionPick
  | token (hash : String)
  | one (id : SessionId)
  | user (user : UserId) (except : Option SessionId)
deriving DecidableEq, Repr

def SessionPick.matches (id : SessionId) (s : AuthSession) : SessionPick → Bool
  | token hash => s.refreshTokenHash = hash
  | one sid => id = sid
  | user u except => s.userId = u && except ≠ some id

def AuthSession.revoke (now : Instant) (s : AuthSession) : AuthSession :=
  { s with revokedAt := some now }

def AuthSession.rotate (now : Instant) (s : AuthSession) : AuthSession :=
  { s with revokedAt := some now, lastUsedAt := now }

def VerificationCode.miss (c : VerificationCode) : VerificationCode :=
  { c with attempts := c.attempts + 1 }

def VerificationCode.consume (now : Instant) (c : VerificationCode) : VerificationCode :=
  { c with consumedAt := some now }

/-- `revokedAt: null` of the same `WHERE`. -/
def SessionPick.revoke (pick : SessionPick) (now : Instant) (id : SessionId) (s : AuthSession) :
    Option AuthSession :=
  if pick.matches id s && s.revokedAt.isNone then some (s.revoke now) else none

/-- An update of the row `id`. -/
def onRow {ρ : Type} (id : ℕ) (f : ρ → ρ) (k : ℕ) (r : ρ) : Option ρ :=
  if k = id then some (f r) else none

namespace AuthDesk

def tick (s : AuthDesk) (ms : ℕ) : AuthDesk := { s with now := s.now + ms }

def note (s : AuthDesk) (events : List AuthEvent) : AuthDesk := { s with log := events ++ s.log }

/-- The open transaction of `i` has done this. -/
def keep (s : AuthDesk) (i : TxId) (events : List AuthEvent) : AuthDesk :=
  { s with work := events.map (Prod.mk i) ++ s.work }

def workOf (s : AuthDesk) (i : TxId) : List AuthEvent :=
  (s.work.filter (·.1 = i)).map (·.2)

/-- The call of `i` reads the account now. -/
def read (s : AuthDesk) (i : TxId) : AuthDesk :=
  let reading : AccountReading :=
    { mark := s.log.length, owners := fun u => (s.users.committed u).any (·.activeOwner) }
  { s with readings := Function.update s.readings i (some reading) }

def findUser (host : AuthHost) (s : AuthDesk) (contact : Contact) : Option (UserId × User) :=
  s.users.list.find? fun r =>
    match contact with
    | .email email => r.2.email.any fun e => host.toLowerCase e = host.toLowerCase email
    | .phone phone => r.2.phone = some phone

/-- How many others are OWNER, ACTIVE and not deleted. -/
def otherOwners (s : AuthDesk) (id : UserId) : ℕ :=
  s.users.list.countP fun r => r.2.activeOwner && r.1 ≠ id

/-- The session of a token, with its user. -/
def findSession (s : AuthDesk) (hash : String) : Option (SessionId × AuthSession × User) := do
  let (id, session) ← s.sessions.list.find? fun r => r.2.refreshTokenHash = hash
  let user ← s.users.committed session.userId
  return (id, session, user)

/-- The newest code of the user that is neither consumed nor expired. -/
def findCode (s : AuthDesk) (user : UserId) : Option (CodeId × VerificationCode) :=
  ((s.codes.list.filter fun r =>
      r.2.userId = user && r.2.consumedAt.isNone && s.now < r.2.expiresAt).insertionSort
    fun a b => b.2.createdAt ≤ a.2.createdAt).head?

/-- The owners whom the transaction of `i` takes out. -/
def lost (s : AuthDesk) (i : TxId) : List UserId :=
  (s.users.list.filter fun r =>
    r.2.activeOwner && !(s.users.seen i r.1).any (·.activeOwner)).map (·.1)

def commit (s : AuthDesk) (i : TxId) : AuthDesk :=
  { s with users := s.users.commit i, sessions := s.sessions.commit i, codes := s.codes.commit i,
           log := (s.lost i).map .ownerLost ++ (s.workOf i ++ s.log),
           work := s.work.filter (·.1 ≠ i) }

def rollback (s : AuthDesk) (i : TxId) : AuthDesk :=
  { s with users := s.users.rollback i, sessions := s.sessions.rollback i,
           codes := s.codes.rollback i, work := s.work.filter (·.1 ≠ i) }

/-- The update of a row says whether the row is there. -/
def onFound {ρ : Type} (s : AuthDesk) (row : Option ρ) (write : Option AuthDesk) :
    Option (Bool × AuthDesk) :=
  match row with
  | none => some (false, s)
  | some _ => write.map fun t => (true, t)

/-! ### Statements on their own -/

def updateUser (s : AuthDesk) (id : UserId) (w : UserWrite) : Option (Bool × AuthDesk) :=
  s.onFound (s.users.committed id) <|
    (s.users.updateNow (onRow id (w.apply s.now))).map fun users =>
      { s with users }.note (w.events id s.now)

def rotate (s : AuthDesk) (i : TxId) (id : SessionId) : Option (Bool × AuthDesk) :=
  s.onFound (s.sessions.committed id) <|
    (s.sessions.updateNow (onRow id (AuthSession.rotate s.now))).map fun sessions =>
      { s with sessions, exchanging := Function.update s.exchanging i (some id) }

def revoke (s : AuthDesk) (pick : SessionPick) : Option (Unit × AuthDesk) :=
  (s.sessions.updateNow (pick.revoke s.now)).map fun sessions => ((), { s with sessions })

def revokeUser (s : AuthDesk) (user : UserId) (why : SignOut) : Option (Unit × AuthDesk) :=
  (s.revoke (.user user none)).map fun r => ((), r.2.note [.revoked user why none])

/-- `none` where the token is not new. -/
def createSession (host : AuthHost) (s : AuthDesk) (i : TxId) (user : UserId)
    (parent : Option SessionId) (hash : String) : Option SessionId × AuthDesk :=
  let s := { s with exchanging := Function.update s.exchanging i none }
  if s.sessions.list.any fun r => r.2.refreshTokenHash = hash then (none, s)
  else
    let family := ((parent.bind s.sessions.committed).map (·.family)).getD s.sessions.next
    let session : AuthSession :=
      { userId := user, refreshTokenHash := hash, expiresAt := s.now + host.refreshTtlDays * day,
        lastUsedAt := s.now, parent, family,
        basis := ((s.readings i).map (·.mark)).getD 0 }
    (some s.sessions.next, { s with sessions := s.sessions.insertNow session })

/-- One more wrong guess. -/
def miss (s : AuthDesk) (id : CodeId) : Option (Bool × AuthDesk) :=
  s.onFound (s.codes.committed id) <|
    (s.codes.updateNow (onRow id VerificationCode.miss)).map fun codes => { s with codes }

/-! ### Statements of a transaction -/

def updateUserTx (s : AuthDesk) (i : TxId) (id : UserId) (w : UserWrite) :
    Option (Bool × AuthDesk) :=
  s.onFound (s.users.seen i id) <|
    (s.users.update i (onRow id (w.apply s.now))).map fun users =>
      { s with users }.keep i (w.events id s.now)

/-- `none` where the email is taken; a row that is not committed is waited for. -/
def createUserTx (host : AuthHost) (s : AuthDesk) (i : TxId) (u : User) :
    Option (Option UserId × AuthDesk) :=
  let same (r : User) : Bool := r.email.any fun e =>
    u.email.any fun email => host.toLowerCase e = host.toLowerCase email
  if s.users.list.any fun r => same r.2 then some (none, s)
  else if (List.range s.users.next).any fun k =>
      (s.users.rows.pending k).any fun v => v.1 ≠ i && v.2.any same then none
  else some (some s.users.next, { s with users := s.users.insert i u })

def revokeUserTx (s : AuthDesk) (i : TxId) (user : UserId) (why : SignOut)
    (except : Option SessionId) : Option (Unit × AuthDesk) :=
  (s.sessions.update i ((SessionPick.user user except).revoke s.now)).map fun sessions =>
    ((), { s with sessions }.keep i [.revoked user why except])

def createCodeTx (s : AuthDesk) (i : TxId) (user : UserId) (target codeHash : String) : AuthDesk :=
  let code : VerificationCode :=
    { userId := user, target, codeHash, expiresAt := s.now + otpTtlMin * minute,
      createdAt := s.now }
  { s with codes := s.codes.insert i code }

def consumeTx (s : AuthDesk) (i : TxId) (id : CodeId) : Option (Bool × AuthDesk) :=
  s.onFound (s.codes.seen i id) <|
    (s.codes.update i (onRow id (VerificationCode.consume s.now))).map fun codes =>
      { s with codes }.keep i [.consumed id]

end AuthDesk

/-! ### Operations -/

inductive AuthOp
  | findUser (contact : Contact)
  | getUser (id : UserId)
  | otherOwners (id : UserId)
  | findSession (hash : String)
  | findCode (user : UserId)
  /-- `new Date()` -/
  | clock
  /-- `randomBytes`, `randomInt`, or a salt -/
  | random
  /-- a login compares a password with the one it has read -/
  | verify (id : UserId) (read : User) (password : String)
  /-- a guess is compared with the code that was read -/
  | compare (id : CodeId) (read : VerificationCode) (codeHash : String)
  | updateUser (id : UserId) (w : UserWrite)
  | rotate (id : SessionId)
  | revoke (pick : SessionPick)
  | revokeUser (user : UserId) (why : SignOut)
  | createSession (user : UserId) (parent : Option SessionId) (hash : String)
  | miss (id : CodeId)
  | updateUserTx (id : UserId) (w : UserWrite)
  | createUserTx (u : User)
  | revokeUserTx (user : UserId) (why : SignOut) (except : Option SessionId)
  | createCodeTx (user : UserId) (target codeHash : String)
  | consumeTx (id : CodeId)
  | commit
  | rollback

@[reducible] def AuthOp.Res : AuthOp → Type
  | findUser _ => Option (UserId × User)
  | getUser _ => Option User
  | otherOwners _ => ℕ
  | findSession _ => Option (SessionId × AuthSession × User)
  | findCode _ => Option (CodeId × VerificationCode)
  | clock => Instant
  | random => String
  | verify .. | compare .. | updateUser .. | rotate _ | miss _ | updateUserTx .. | consumeTx _ => Bool
  | createSession .. => Option SessionId
  | createUserTx _ => Option UserId
  | revoke _ | revokeUser .. | revokeUserTx .. | createCodeTx .. | commit | rollback => Unit

/-- What the outside adds to a statement: how long it takes, whether it fails, and what is
drawn. -/
structure AuthInput where
  elapsed : ℕ := 0
  fault : Option Fault := none
  random : String := ""

/-- What a call throws. -/
inductive AuthFault
  | unauthorized (code message : String)
  | other (fault : Fault)
deriving DecidableEq, Repr

namespace AuthOp

variable (host : AuthHost)

def perform (i : TxId) (random : String) (s : AuthDesk) : (o : AuthOp) → Option (o.Res × AuthDesk)
  | findUser contact => some (s.findUser host contact, s.read i)
  | getUser id => some (s.users.committed id, s.read i)
  | otherOwners id => some (s.otherOwners id, s)
  | findSession hash => some (s.findSession hash, s.read i)
  | findCode user => some (s.findCode user, s)
  | clock => some (s.now, s)
  | .random => some (random, s)
  | verify id read password =>
      some (read.passwordHash.any (host.argonVerify · password), s.note [.verified id s.now])
  | compare id read codeHash =>
      some (read.codeHash = codeHash, s.note [.guessed id (read.codeHash = codeHash)])
  | updateUser id w => s.updateUser id w
  | rotate id => s.rotate i id
  | revoke pick => s.revoke pick
  | revokeUser user why => s.revokeUser user why
  | createSession user parent hash => some (s.createSession host i user parent hash)
  | miss id => s.miss id
  | updateUserTx id w => s.updateUserTx i id w
  | createUserTx u => s.createUserTx host i u
  | revokeUserTx user why except => s.revokeUserTx i user why except
  | createCodeTx user target codeHash => some ((), s.createCodeTx i user target codeHash)
  | consumeTx id => s.consumeTx i id
  | commit => some ((), s.commit i)
  | rollback => some ((), s.rollback i)

/-- A commit that fails has rolled back; a session that is not created replaces none. -/
def dropped (i : TxId) (s : AuthDesk) : AuthOp → AuthDesk
  | commit => s.rollback i
  | createSession .. => { s with exchanging := Function.update s.exchanging i none }
  | _ => s

/-- The end of a failed transaction cannot fail. -/
def canFail : AuthOp → Bool
  | rollback => false
  | _ => true

/-- A statement, or the fault it ends with. -/
def exec (i : TxId) (o : AuthOp) (x : AuthInput) (s : AuthDesk) :
    Option (Except AuthFault o.Res × AuthDesk) :=
  let s := s.tick x.elapsed
  match x.fault.filter fun _ => o.canFail with
  | some fault => some (.error (.other fault), o.dropped i s)
  | none => (o.perform host i x.random s).map fun r => (.ok r.1, r.2)

end AuthOp

end BookHouse
