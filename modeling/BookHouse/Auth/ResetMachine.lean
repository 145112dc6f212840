/-
Codes asked for and codes tried: `forgotPassword` and `resetPassword` of `auth/auth.service.ts`,
one call after the other.

A call runs with nobody else at work.  The run keeps what every call has answered, which codes
it consumed and how many codes there had been before it, newest first.
-/
import BookHouse.Auth.StaffService

namespace BookHouse

inductive ResetCall
  | forgot (identifier : String)
  | reset (dto : ResetPasswordDto)
deriving DecidableEq, Repr

def ResetCall.body (host : AuthHost) : ResetCall → AuthCall AuthAnswer
  | forgot identifier => AuthService.forgotPassword host identifier
  | reset dto => AuthService.resetPassword host dto

structure ResetAction where
  call : ResetCall
  /-- what the outside adds to each statement of the call -/
  inputs : List AuthInput

structure ResetAnswer where
  call : ResetCall
  /-- the account that the call was about -/
  account : Option UserId
  answer : Except AuthFault AuthAnswer
  consumed : List CodeId
  /-- how many codes had been issued before the call -/
  issued : ℕ
deriving DecidableEq, Repr

structure ResetRun where
  desk : AuthDesk
  answers : List ResetAnswer := []

/-- The codes that are consumed according to a log. -/
def consumedIn (log : List AuthEvent) : List CodeId :=
  log.filterMap fun
    | .consumed code => some code
    | _ => none

/-- What has been logged since. -/
def AuthDesk.loggedSince (t s : AuthDesk) : List AuthEvent := t.log.take (t.log.length - s.log.length)

/-- The account that an identifier is looked up to. -/
def AuthDesk.accountOf (host : AuthHost) (s : AuthDesk) (identifier : String) : Option UserId :=
  ((contactOf host identifier).bind (s.findUser host)).map (·.1)

def ResetCall.identifier : ResetCall → String
  | forgot identifier => identifier
  | reset dto => dto.identifier

def resetStep (host : AuthHost) (r : ResetRun) (a : ResetAction) : Option ResetRun :=
  (Prog.runAlone (AuthOp.exec host) r.answers.length (a.call.body host) a.inputs r.desk).map
    fun (answer, desk) =>
      let entry : ResetAnswer :=
        { call := a.call, account := r.desk.accountOf host a.call.identifier, answer,
          consumed := consumedIn (desk.loggedSince r.desk), issued := r.desk.codes.next }
      { desk, answers := entry :: r.answers }

/-- The password was reset. -/
def ResetAnswer.succeeds (x : ResetAnswer) : Bool :=
  match x.call, x.answer with
  | .reset _, .ok _ => true
  | _, _ => false

/-- A code that `findCode` may return. -/
def VerificationCode.alive (now : Instant) (c : VerificationCode) : Bool :=
  c.consumedAt.isNone && now < c.expiresAt

end BookHouse
