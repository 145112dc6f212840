/-
The notification outbox: `notifications/application/outbox-worker.service.ts`,
`notifications/application/outbox-admin.service.ts` and `notifications/domain/backoff.ts`.

A claim is one statement; each row it returns is then delivered on its own, and a delivery
stops for good when its process dies.  An admin's retry reads the row and updates it in a
second statement.  Any number of workers and admins take their steps in any order while the
clock runs.  The desk logs what happened, newest first.
-/
import BookHouse.Lib.Machine
import BookHouse.Orders.Coupons
import Mathlib.Data.List.Sort

namespace BookHouse

abbrev OutboxId := ℕ
abbrev ClaimId := ℕ

inductive NotificationChannel
  | sms | email | whatsapp | push
deriving DecidableEq, Repr

inductive OutboxStatus
  | pending | sending | sent | failed | cancelled
deriving DecidableEq, Repr

/-- `OUTBOX_POLICY` -/
structure OutboxPolicy where
  maxAttempts : ℕ
  baseDelayMs : ℤ
  maxDelayMs : ℤ
  /-- a row in SENDING for longer is assumed orphaned, and claimable again -/
  stuckAfterMs : ℤ

def outboxPolicy : OutboxPolicy where
  maxAttempts := 8
  baseDelayMs := 30000
  maxDelayMs := 6 * 3600000
  stuckAfterMs := 10 * 60000

/-- Delay before retry number `attempt`; the worker passes no source of jitter. -/
def backoffDelayMs (attempt : ℕ) : ℤ :=
  min (outboxPolicy.baseDelayMs * 2 ^ (attempt - 1)) outboxPolicy.maxDelayMs

/-- The status after attempt number `attempts` failed, and the time of the next one. -/
def afterFailure (attempts : ℕ) (retryable : Bool) (now : Instant) :
    OutboxStatus × Option Instant :=
  if !retryable || outboxPolicy.maxAttempts ≤ attempts then (.failed, none)
  else (.pending, some (now + backoffDelayMs attempts))

/-- A row, at the position that is its id. -/
structure OutboxRow where
  channel : NotificationChannel
  status : OutboxStatus := .pending
  attempts : ℕ := 0
  nextAttemptAt : Instant
  providerRef : Option String := none
  sentAt : Option Instant := none
  lastError : Option String := none
  /-- how often an admin has put it back -/
  retries : ℕ := 0
deriving DecidableEq, Repr

inductive DeliveryStage
  | claimed
  /-- the provider is working on it -/
  | handed
  | accepted (providerRef : String)
  /-- no message went out, or it is not known that one did -/
  | refused (at_ : Instant) (retryable : Bool) (message : String)
  | reported
  /-- reporting the failure failed -/
  | lost
deriving DecidableEq, Repr

/-- What a worker does with one row of its claim. -/
structure Delivery where
  row : OutboxId
  /-- `attempts` as the claim returned it -/
  attempts : ℕ
  /-- until when the claim holds the row -/
  lease : Instant
  /-- how often the row had been put back -/
  retries : ℕ
  handed : Bool := false
  stage : DeliveryStage := .claimed
deriving DecidableEq, Repr

inductive OutboxCause
  | claim | report | retry | cancel
deriving DecidableEq, Repr

inductive OutboxEvent
  | moved (row : OutboxId) (before after : OutboxStatus) (cause : OutboxCause)
  | claimed (claim : ClaimId) (row : OutboxId) (lease at_ : Instant)
  | handed (claim : ClaimId) (row : OutboxId)
  | reported (claim : ClaimId) (row : OutboxId) (sent : Bool) (at_ : Instant)
  | retried (row : OutboxId)
deriving DecidableEq, Repr

structure OutboxDesk where
  now : Instant
  rows : List OutboxRow := []
  /-- a claim of a row is known by its position -/
  deliveries : List Delivery := []
  /-- the retries that have read their row and not written it -/
  retrying : List OutboxId := []
  log : List OutboxEvent := []
deriving DecidableEq, Repr

inductive OutboxAction
  | enqueue (channel : NotificationChannel)
  | tick (ms : ℕ)
  /-- one round of a worker; the rows that others have locked are skipped -/
  | runOnce (limit : ℕ) (locked : List OutboxId)
  /-- `render` throws, or the channel has no provider -/
  | refuse (claim : ClaimId) (retryable : Bool) (message : String)
  | hand (claim : ClaimId)
  | answer (claim : ClaimId) (outcome : Except (Bool × String) String)
  /-- the update to SENT, or the error it ends with -/
  | reportSent (claim : ClaimId) (fault : Option String)
  | reportFailure (claim : ClaimId) (fault : Bool)
  | retryRead (row : OutboxId)
  | retryWrite (row : OutboxId)
  | cancel (row : OutboxId)

namespace OutboxDesk

/-! ### The worker -/

/-- The provider of a channel, where there is one. -/
def hasProvider : NotificationChannel → Bool
  | .sms | .email => true
  | .whatsapp | .push => false

def due (now : Instant) (r : OutboxRow) : Bool :=
  (r.status = .pending || r.status = .sending) && r.nextAttemptAt ≤ now

/-- The rows a claim takes: due, not locked, the longest due first. -/
def claimable (s : OutboxDesk) (limit : ℕ) (locked : List OutboxId) : List OutboxId :=
  let time (id : OutboxId) : Instant := (s.rows[id]?.map OutboxRow.nextAttemptAt).getD 0
  (((List.range s.rows.length).filter fun id =>
    s.rows[id]?.any (due s.now) && id ∉ locked).insertionSort fun a b => time a ≤ time b).take limit

/-- `status = 'SENDING', attempts + 1`, and a lease. -/
def claimRow (s : OutboxDesk) (id : OutboxId) : OutboxDesk :=
  match s.rows[id]?.filter (due s.now) with
  | none => s
  | some r =>
    let lease := s.now + outboxPolicy.stuckAfterMs
    let row := { r with status := .sending, attempts := r.attempts + 1, nextAttemptAt := lease }
    let delivery : Delivery := { row := id, attempts := r.attempts + 1, lease, retries := r.retries }
    { s with rows := s.rows.set id row,
             deliveries := s.deliveries ++ [delivery],
             log := .claimed s.deliveries.length id lease s.now ::
               .moved id r.status .sending .claim :: s.log }

def setStage (s : OutboxDesk) (c : ClaimId) (d : Delivery) (stage : DeliveryStage) : OutboxDesk :=
  { s with deliveries := s.deliveries.set c { d with stage } }

/-- `updateMany … WHERE id AND status = 'SENDING'` at the end of a delivery. -/
def report (s : OutboxDesk) (c : ClaimId) (d : Delivery) (sent : Bool) (f : OutboxRow → OutboxRow) :
    OutboxDesk :=
  let s := s.setStage c d .reported
  match s.rows[d.row]?.filter (·.status = .sending) with
  | none => { s with log := .reported c d.row sent s.now :: s.log }
  | some r =>
    { s with rows := s.rows.set d.row (f r),
             log := .reported c d.row sent s.now ::
               .moved d.row .sending (f r).status .report :: s.log }

/-- The row after a successful send. -/
def markSent (now : Instant) (providerRef : String) (r : OutboxRow) : OutboxRow :=
  { r with status := .sent, sentAt := some now, providerRef := some providerRef, lastError := none }

/-- The row after an attempt that failed at `now`. -/
def markFailure (now : Instant) (attempts : ℕ) (retryable : Bool) (message : String)
    (r : OutboxRow) : OutboxRow :=
  let decision := afterFailure attempts retryable now
  { r with status := decision.1, nextAttemptAt := decision.2.getD r.nextAttemptAt,
           lastError := some message }

def refuse (s : OutboxDesk) (c : ClaimId) (retryable : Bool) (message : String) :
    Option OutboxDesk :=
  (s.deliveries[c]?.filter (·.stage = .claimed)).map fun d =>
    s.setStage c d (.refused s.now retryable message)

/-- The message goes out. -/
def hand (s : OutboxDesk) (c : ClaimId) : Option OutboxDesk :=
  (s.deliveries[c]?.filter (·.stage = .claimed)).bind fun d =>
    (s.rows[d.row]?.filter (hasProvider ·.channel)).map fun _ =>
      { s with deliveries := s.deliveries.set c { d with stage := .handed, handed := true },
               log := .handed c d.row :: s.log }

def answer (s : OutboxDesk) (c : ClaimId) (outcome : Except (Bool × String) String) :
    Option OutboxDesk :=
  (s.deliveries[c]?.filter (·.stage = .handed)).map fun d =>
    match outcome with
    | .ok providerRef => s.setStage c d (.accepted providerRef)
    | .error (retryable, message) => s.setStage c d (.refused s.now retryable message)

/-- An error of this update is caught like any other, and counts as retryable. -/
def reportSent (s : OutboxDesk) (c : ClaimId) (fault : Option String) : Option OutboxDesk :=
  s.deliveries[c]?.bind fun d =>
    match d.stage, fault with
    | .accepted providerRef, none => some (s.report c d true (markSent s.now providerRef))
    | .accepted _, some message => some (s.setStage c d (.refused s.now true message))
    | _, _ => none

def reportFailure (s : OutboxDesk) (c : ClaimId) (fault : Bool) : Option OutboxDesk :=
  s.deliveries[c]?.bind fun d =>
    match d.stage with
    | .refused at_ retryable message =>
      if fault then some (s.setStage c d .lost)
      else some (s.report c d false (markFailure at_ d.attempts retryable message))
    | _ => none

/-! ### The admin -/

def retryRead (s : OutboxDesk) (id : OutboxId) : Option OutboxDesk :=
  (s.rows[id]?.filter fun r => r.status = .failed || r.status = .cancelled).map fun _ =>
    { s with retrying := id :: s.retrying }

def retryWrite (s : OutboxDesk) (id : OutboxId) : Option OutboxDesk :=
  if id ∈ s.retrying then
    s.rows[id]?.map fun r =>
      let row := { r with status := .pending, attempts := 0, nextAttemptAt := s.now,
                          lastError := none, retries := r.retries + 1 }
      { s with retrying := s.retrying.erase id, rows := s.rows.set id row,
               log := .retried id :: .moved id r.status .pending .retry :: s.log }
  else none

def cancel (s : OutboxDesk) (id : OutboxId) : Option OutboxDesk :=
  (s.rows[id]?.filter (·.status = .pending)).map fun r =>
    { s with rows := s.rows.set id { r with status := .cancelled },
             log := .moved id .pending .cancelled .cancel :: s.log }

end OutboxDesk

open OutboxDesk in
def outboxStep (s : OutboxDesk) : OutboxAction → Option OutboxDesk
  | .enqueue channel => some { s with rows := s.rows ++ [{ channel, nextAttemptAt := s.now }] }
  | .tick ms => some { s with now := s.now + ms }
  | .runOnce limit locked => some ((s.claimable limit locked).foldl claimRow s)
  | .refuse c retryable message => s.refuse c retryable message
  | .hand c => s.hand c
  | .answer c outcome => s.answer c outcome
  | .reportSent c fault => s.reportSent c fault
  | .reportFailure c fault => s.reportFailure c fault
  | .retryRead id => s.retryRead id
  | .retryWrite id => s.retryWrite id
  | .cancel id => s.cancel id

end BookHouse
