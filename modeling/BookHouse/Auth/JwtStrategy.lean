/-
Whether the session of a request is live: `isLive` of `auth/jwt.strategy.ts`.

The token says which session it is of, and the database is asked about that at most every few
seconds.  Meanwhile the calls of the account services go on, one statement at a time.
-/
import BookHouse.Auth.StaffService
import BookHouse.Lib.Cache

namespace BookHouse

namespace JwtStrategy

/-- `LIVE_TTL_MS` -/
def liveTtl : ℤ := 10000

/-- The session, with its user. -/
def findSession (s : AuthDesk) (sid : SessionId) : Option (AuthSession × User) := do
  let session ← s.sessions.committed sid
  let user ← s.users.committed session.userId
  return (session, user)

/-- The session is neither revoked nor expired, and the account is open. -/
def ok (now : Instant) (row : Option (AuthSession × User)) : Bool :=
  row.any fun (session, user) =>
    session.revokedAt.isNone && now < session.expiresAt && user.status = .active &&
      user.deletedAt.isNone

/-- `live.set`, after `live.clear()` when there is too much of it. -/
def set (live : List (SessionId × Bool × Instant)) (sid : SessionId) (entry : Bool × Instant) :
    List (SessionId × Bool × Instant) :=
  (sid, entry) :: (if 5000 < live.length then [] else live).filter (·.1 ≠ sid)

def isLive : Cache AuthWorld SessionId (Option (AuthSession × User)) Bool where
  ttl := liveTtl
  clock w := w.state.now
  load w sid := findSession w.state sid
  value := ok
  keep := set
  mem_keep live sid entry x hx := by
    refine (List.mem_cons.mp hx).imp_right fun hrest => ?_
    have hold := (List.mem_filter.mp hrest).1
    split at hold
    · cases hold
    · exact hold

end JwtStrategy

/-- Something happens to the accounts: time passes, or a call goes on. -/
inductive AccountAct
  | wait (ms : ℕ)
  | service (a : AuthAct)

def accountStep (host : AuthHost) (w : AuthWorld) : AccountAct → Option AuthWorld
  | .wait ms => some { w with state := w.state.tick ms }
  | .service a => authStep host w a

/-- Requests with tokens come in while the account services are at work. -/
def liveStep (host : AuthHost) :
    Cache.State AuthWorld SessionId (Option (AuthSession × User)) Bool →
      Cache.Act AccountAct SessionId →
      Option (Cache.State AuthWorld SessionId (Option (AuthSession × User)) Bool) :=
  JwtStrategy.isLive.step (accountStep host)

end BookHouse
