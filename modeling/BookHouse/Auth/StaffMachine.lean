/-
Staff calls one after the other, as `staff/controllers/staff.admin.controller.ts` lets them
through.

A call is made by an account that can sign in, with the role its row has, and passes
`RolesGuard` of `common/guards/auth.guards.ts`; then it runs with nobody else at work.  The
run keeps what every call has answered, newest first.
-/
import BookHouse.Auth.StaffService

namespace BookHouse

/-- `RolesGuard.canActivate`: OWNER can do everything. -/
def rolesGuard (required : List UserRole) (user : Actor) : Bool :=
  !user.mustChangePassword &&
    (required.isEmpty || user.role = .owner || user.role ∈ required)

/-- The account of the actor is there and may sign in, and the actor has its role. -/
def AuthDesk.authenticates (s : AuthDesk) (actor : Actor) : Bool :=
  (s.users.committed actor.id).any fun u =>
    u.role = actor.role && u.status = .active && u.deletedAt.isNone

structure StaffAction where
  actor : Actor
  call : StaffCall
  /-- what the outside adds to each statement of the call -/
  inputs : List AuthInput

structure StaffAnswer where
  actor : Actor
  answer : Except AuthFault AuthAnswer
deriving DecidableEq, Repr

structure StaffRun where
  desk : AuthDesk
  answers : List StaffAnswer := []

/-- `@Roles('ADMIN')` on every route that writes. -/
def staffStep (host : AuthHost) (s : StaffRun) (a : StaffAction) : Option StaffRun :=
  if s.desk.authenticates a.actor && rolesGuard [.admin] a.actor then
    (Prog.runAlone (AuthOp.exec host) s.answers.length (a.call.body host a.actor) a.inputs
      s.desk).map fun r =>
        { desk := r.2, answers := { actor := a.actor, answer := r.1 } :: s.answers }
  else none

end BookHouse
