/-
Document numbers: `platform/counters/document-counter.service.ts`, statement by statement.

`next` runs in its caller's transaction: an upsert that makes the first call in a fresh
database safe, then an update that takes the number and holds the row until the
transaction ends.  A transaction calls it any number of times; what it was given counts
when it commits.
-/
import BookHouse.Lib.Machine
import BookHouse.Lib.Versions
import BookHouse.Orders.CouponLookup

namespace BookHouse

abbrev TxId := ℕ

structure CounterDesk where
  /-- `document_counters` -/
  table : Versions TxId CounterScope DocumentCounter
  /-- the scope of a call that stands between its two statements -/
  calling : TxId → Option CounterScope
  /-- what the calls of a transaction have returned -/
  taken : TxId → CounterScope → List String
  /-- the numbers of the committed transactions -/
  held : CounterScope → List String

inductive CounterAction
  /-- `INSERT … ON CONFLICT (scope) DO NOTHING` -/
  | insert (tx : TxId) (scope : CounterScope)
  /-- `UPDATE … SET next_value = next_value + 1 … RETURNING` -/
  | update (tx : TxId)
  | commit (tx : TxId)
  /-- the transaction fails, is aborted, or its process dies -/
  | rollback (tx : TxId)
deriving DecidableEq, Repr

namespace CounterDesk

/-- A database with these counters, and nobody at work. -/
def start (rows : CounterScope → Option DocumentCounter) : CounterDesk where
  table := .ofRows rows
  calling _ := none
  taken _ _ := []
  held _ := []

/-- A row that is committed, or the transaction's own, is a conflict; somebody else's has to
be waited for. -/
def insert (s : CounterDesk) (tx : TxId) (scope : CounterScope) : Option CounterDesk :=
  if (s.calling tx).isSome then none
  else
    let calling := Function.update s.calling tx (some scope)
    if (s.table.committed scope).isSome || (s.table.own tx scope).isSome then
      some { s with calling }
    else if s.table.free tx scope then
      some { s with calling, table := s.table.put tx scope (some scope.fresh) }
    else none

def rollback (s : CounterDesk) (tx : TxId) : CounterDesk :=
  { s with table := s.table.rollback tx, calling := Function.update s.calling tx none,
           taken := Function.update s.taken tx fun _ => [] }

/-- The number, and the row held until the transaction ends; no row is an exception. -/
def update (s : CounterDesk) (tx : TxId) : Option CounterDesk :=
  match s.calling tx with
  | none => none
  | some scope =>
    if s.table.free tx scope then
      match s.table.seen tx scope with
      | none => some (s.rollback tx)
      | some row =>
        let number := padNo row.pfx row.nextValue row.padding
        some { s with
          table := s.table.put tx scope (some { row with nextValue := row.nextValue + 1 })
          calling := Function.update s.calling tx none
          taken := Function.update s.taken tx
            (Function.update (s.taken tx) scope (s.taken tx scope ++ [number])) }
    else none

def commit (s : CounterDesk) (tx : TxId) : Option CounterDesk :=
  if (s.calling tx).isSome then none
  else some { s with
    table := s.table.commit tx
    taken := Function.update s.taken tx fun _ => []
    held := fun scope => s.held scope ++ s.taken tx scope }

end CounterDesk

def counterStep (s : CounterDesk) : CounterAction → Option CounterDesk
  | .insert tx scope => s.insert tx scope
  | .update tx => s.update tx
  | .commit tx => s.commit tx
  | .rollback tx => some (s.rollback tx)

end BookHouse
