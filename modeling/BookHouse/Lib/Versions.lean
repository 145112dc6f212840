/-
Tables whose rows have a committed version and at most one version that is not.

A transaction that writes a row holds it until the end: its version is seen by nobody
else, and nobody else can write the row.  A commit turns the versions of a transaction
into the committed ones, a rollback drops them.  A version of `none` is a row that is not
there, so inserts and deletes are writes too.

This is what READ COMMITTED gives a statement: it sees the versions of its own transaction
over those committed when it started.
-/
import Mathlib.Logic.Function.Basic

/-- A table of rows `ρ` with keys `κ` that transactions `τ` work on. -/
structure Versions (τ κ ρ : Type*) where
  committed : κ → Option ρ
  pending : κ → Option (τ × Option ρ)

namespace Versions

variable {τ κ ρ : Type*}

/-- A table that nobody is working on. -/
def ofRows (rows : κ → Option ρ) : Versions τ κ ρ := ⟨rows, fun _ => none⟩

section transactions

variable [DecidableEq τ]

/-- The version that `t` wrote. -/
def own (v : Versions τ κ ρ) (t : τ) (k : κ) : Option (Option ρ) :=
  ((v.pending k).filter fun p => p.1 = t).map Prod.snd

/-- `rows` as `t` sees them: its own versions over them. -/
def overlay (v : Versions τ κ ρ) (t : τ) (rows : κ → Option ρ) (k : κ) : Option ρ :=
  (v.own t k).getD (rows k)

/-- What a statement of `t` sees that starts now. -/
def seen (v : Versions τ κ ρ) (t : τ) : κ → Option ρ := v.overlay t v.committed

/-- No other transaction has a version of the row. -/
def free (v : Versions τ κ ρ) (t : τ) (k : κ) : Bool := (v.pending k).all fun p => p.1 = t

/-- `t` writes the row; it must be free. -/
def put [DecidableEq κ] (v : Versions τ κ ρ) (t : τ) (k : κ) (row : Option ρ) : Versions τ κ ρ :=
  { v with pending := Function.update v.pending k (some (t, row)) }

/-- The versions of `t` are dropped. -/
def rollback (v : Versions τ κ ρ) (t : τ) : Versions τ κ ρ :=
  { v with pending := fun k => (v.pending k).filter fun p => p.1 ≠ t }

/-- The versions of `t` become the committed ones. -/
def commit (v : Versions τ κ ρ) (t : τ) : Versions τ κ ρ :=
  { v.rollback t with committed := v.seen t }

variable {v : Versions τ κ ρ} {s t : τ} {k j : κ} {row : Option ρ}

@[simp] theorem own_ofRows (rows : κ → Option ρ) : (ofRows rows : Versions τ κ ρ).own t k = none :=
  rfl

@[simp] theorem committed_rollback : (v.rollback t).committed = v.committed := rfl

@[simp] theorem committed_commit : (v.commit t).committed = v.seen t := rfl

/-- A version is pending exactly when it is the own one of a transaction. -/
theorem own_eq_some : v.own t k = some row ↔ v.pending k = some (t, row) := by
  unfold own
  cases hp : v.pending k with
  | none => simp
  | some p =>
      obtain ⟨u, r⟩ := p
      by_cases hu : u = t
      · simp [Option.filter, hu]
      · simp [Option.filter, hu]

/-- Two transactions never have versions of one row. -/
theorem own_inj {row' : Option ρ} (hs : v.own s k = some row) (ht : v.own t k = some row') :
    s = t := by
  have heq := (own_eq_some.mp hs).symm.trans (own_eq_some.mp ht)
  exact congrArg Prod.fst (Option.some.inj heq)

@[simp] theorem own_rollback_self : (v.rollback t).own t k = none := by
  cases hp : v.pending k with
  | none => simp [own, rollback, hp]
  | some p => by_cases hu : p.1 = t <;> simp [own, rollback, hp, Option.filter, hu]

theorem own_rollback_other (h : s ≠ t) : (v.rollback t).own s k = v.own s k := by
  cases hp : v.pending k with
  | none => simp [own, rollback, hp]
  | some p =>
      by_cases hu : p.1 = t
      · simp [own, rollback, hp, Option.filter, hu, Ne.symm h]
      · simp [own, rollback, hp, Option.filter, hu]

@[simp] theorem own_commit_self : (v.commit t).own t k = none := own_rollback_self

theorem own_commit_other (h : s ≠ t) : (v.commit t).own s k = v.own s k := own_rollback_other h

/-- What a transaction sees where it wrote nothing is what is committed. -/
theorem seen_of_own_none (h : v.own t k = none) : v.seen t k = v.committed k := by
  rw [seen, overlay, h, Option.getD_none]

theorem seen_of_own (h : v.own t k = some row) : v.seen t k = row := by
  rw [seen, overlay, h, Option.getD_some]

/-- A transaction that wrote nothing else is alone in what it sees of a row. -/
theorem free_of_own (h : v.own t k = some row) : v.free t k := by
  simp [free, own_eq_some.mp h]

/-- A row that is free for one transaction is nobody else's. -/
theorem own_of_free (h : s ≠ t) (hfree : v.free t k) : v.own s k = none := by
  cases hown : v.own s k with
  | none => rfl
  | some r =>
      rw [own_eq_some] at hown
      simp only [free, hown, Option.all_some, decide_eq_true_eq] at hfree
      exact absurd hfree h

/-! ### Writes -/

section writes

variable [DecidableEq κ]

omit [DecidableEq τ] in
@[simp] theorem committed_put : (v.put t k row).committed = v.committed := rfl

@[simp] theorem own_put_self : (v.put t k row).own t k = some row := by
  rw [own_eq_some]
  simp [put]

@[simp] theorem own_put_of_ne (h : j ≠ k) : (v.put t k row).own s j = v.own s j := by
  simp [own, put, h]

/-- A write of one transaction is not a version of another. -/
theorem own_put_other (h : s ≠ t) (hfree : v.free t k) : (v.put t k row).own s j = v.own s j := by
  by_cases hj : j = k
  · subst hj
    have hnew : (v.put t j row).own s j = none := by
      simp [own, put, Option.filter, Ne.symm h]
    have hold : v.own s j = none := by
      cases hown : v.own s j with
      | none => rfl
      | some r =>
          rw [own_eq_some] at hown
          simp only [free, hown, Option.all_some, decide_eq_true_eq] at hfree
          exact absurd hfree h
    rw [hnew, hold]
  · exact own_put_of_ne hj

end writes

end transactions

end Versions
