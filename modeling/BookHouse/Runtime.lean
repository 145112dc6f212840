/-
What the runtime and the database client give the services: errors, a few functions of
Node, and `common/utils/retry.ts`.

Services that others can interleave with are programs (`Prog`) whose operations are single
statements or whole transactions; what such an operation throws is a `Fault`.
-/
import BookHouse.Lib.Prog
import BookHouse.Schema

namespace BookHouse

/-- The runtime's own functions. -/
structure Host where
  /-- hexadecimal digest of the UTF-8 text -/
  md5 : String → String
  toUpperCase : String → String
  toLowerCase : String → String
  /-- `Number(v)`, when that is finite -/
  number : String → Option ℚ

/-- What a service can throw. -/
inductive Fault
  /-- `SslGatewayError` -/
  | gateway (message : String)
  /-- `DomainError` -/
  | domain (failure : Failure)
  /-- `ForbiddenError` -/
  | forbidden (code message : String)
  /-- `PrismaClientKnownRequestError` -/
  | database (code message : String)
  /-- any other error -/
  | error (message : String)
deriving DecidableEq, Repr

def Failure.message : Failure → String
  | .rule _ message _ | .conflict _ message _ => message
  | .notFound entity id => entity ++ " " ++ id ++ " পাওয়া যায়নি"
  | .check constraint => "violates check constraint " ++ constraint
  | .unique index => "Unique constraint failed: " ++ index

/-- A refusal of the database is an error of its client. -/
def Failure.fault : Failure → Fault
  | .unique index => .database "P2002" (Failure.unique index).message
  | .check constraint => .error (Failure.check constraint).message
  | failure => .domain failure

namespace Fault

def message : Fault → String
  | gateway message | forbidden _ message | database _ message | error message => message
  | domain failure => failure.message

/-- `err instanceof PrismaClientKnownRequestError && err.code === code` -/
def isCode (code : String) : Fault → Bool
  | database c _ => c = code
  | _ => false

end Fault

variable {Op : Type} {Res : Op → Type} {α : Type}

/-- Retry serialization failures / deadlocks (P2034); the waiting is left out. -/
def withRetry (fn : Prog Op Res Fault α) : ℕ → Prog Op Res Fault α
  | 0 => .throw (.error "undefined")
  | attempts + 1 => fn.tryCatch fun err =>
    if !err.isCode "P2034" || attempts = 0 then .throw err else withRetry fn attempts

open Prog in
/-- What each attempt keeps when it throws, the attempts keep together. -/
theorem withRetry_obeys {σ ι : Type} {C : Contract Op Res Fault σ ι} {i : ℕ} {P : σ → Prop}
    {R : α → σ → Prop} {fn : Prog Op Res Fault α}
    (hfn : ∀ s, P s → C.Obeys i (Contract.Ends R P) fn s)
    (hP : ∀ s t, C.Rely i s t → P s → P t) :
    ∀ (attempts : ℕ) (s : σ), P s → C.Obeys i (Contract.Ends R P) (withRetry fn attempts) s := by
  intro attempts
  induction attempts with
  | zero => exact fun s hs t ht => hP s t ht hs
  | succ n ih =>
      intro s hs
      refine Contract.Obeys.tryCatch (Contract.Obeys.mono (fun r t h => ?_) (hfn s hs))
      cases r with
      | ok a => exact h
      | error err =>
          show C.Obeys i _ (if _ then _ else _) t
          split
          · exact fun u hu => hP t u hu h
          · exact ih t h

end BookHouse
