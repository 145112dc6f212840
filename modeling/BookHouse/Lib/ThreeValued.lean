/-
Conditions that may be unknown, as SQL has them.

A comparison with `NULL` is neither true nor false, `AND` and `OR` pass what they do not
know on where it matters, and a row is selected when its condition is true.  What a reader
of a query wants to know is only when a condition holds, and on that the connectives are
the usual ones (`holds_and`, `holds_or`).
-/
import Mathlib.Data.List.Basic
import BookHouse.Lib.Rows

namespace Sql

/-- True, false, or unknown. -/
abbrev Truth := Option Bool

namespace Truth

def and : Truth → Truth → Truth
  | some false, _ => some false
  | some true, y => y
  | none, some false => some false
  | none, _ => none

def or : Truth → Truth → Truth
  | some true, _ => some true
  | some false, y => y
  | none, some true => some true
  | none, _ => none

/-- A row passes a condition that is true; neither false nor unknown will do. -/
def Holds (x : Truth) : Prop := x = some true

instance (x : Truth) : Decidable x.Holds := inferInstanceAs (Decidable (x = some true))

/-- The conjunction of a list of conditions. -/
def all (xs : List Truth) : Truth := xs.foldr and (some true)

variable {x y : Truth}

@[simp] theorem holds_some {b : Bool} : Holds (some b) ↔ b = true := by simp [Holds]

@[simp] theorem holds_and : (x.and y).Holds ↔ x.Holds ∧ y.Holds := by
  rcases x with _ | _ | _ <;> rcases y with _ | _ | _ <;> simp [and, Holds]

@[simp] theorem holds_or : (x.or y).Holds ↔ x.Holds ∨ y.Holds := by
  rcases x with _ | _ | _ <;> rcases y with _ | _ | _ <;> simp [or, Holds]

@[simp] theorem holds_all_nil : (all []).Holds := rfl

@[simp] theorem holds_all_cons {xs : List Truth} :
    (all (x :: xs)).Holds ↔ x.Holds ∧ (all xs).Holds := holds_and

theorem holds_all_append {xs ys : List Truth} :
    (all (xs ++ ys)).Holds ↔ (all xs).Holds ∧ (all ys).Holds := by
  induction xs with
  | nil => simp
  | cons x rest ih => rw [List.cons_append, holds_all_cons, holds_all_cons, ih, and_assoc]

end Truth

section values

variable {α β : Type*}

/-- `x IS NULL`, which is always known -/
def isNull (x : Option α) : Truth := some x.isNone

/-- A comparison of two values, unknown where one of them is. -/
def compare (r : α → β → Bool) : Option α → Option β → Truth
  | some a, some b => some (r a b)
  | _, _ => none

@[simp] theorem holds_isNull {x : Option α} : (isNull x).Holds ↔ x = none := by
  simp [isNull]

@[simp] theorem holds_compare {r : α → β → Bool} {x : Option α} {y : Option β} :
    (compare r x y).Holds ↔ ∃ a b, x = some a ∧ y = some b ∧ r a b = true := by
  cases x <;> cases y <;> simp [compare, Truth.Holds]

end values

/-! ### Rows -/

section rows

variable {ρ κ ε α : Type*} [DecidableEq κ] {key : ρ → κ} {rows : List ρ}

/-- The rows whose condition is true. -/
def select (cond : ρ → Truth) (rows : List ρ) : List ρ := rows.filter fun r => (cond r).Holds

/-- The rows that match, or one row of nulls. -/
def leftJoin (on : ρ → Truth) (rows : List ρ) : List (Option ρ) :=
  match select on rows with
  | [] => [none]
  | matching => matching.map some

@[simp] theorem mem_select {cond : ρ → Truth} {r : ρ} :
    r ∈ select cond rows ↔ r ∈ rows ∧ (cond r).Holds := by
  simp [select]

/-- A unique key selects the row that a lookup finds. -/
theorem filter_key (hnd : (rows.map key).Nodup) (k : κ) :
    rows.filter (fun r => key r = k) = (Rows.lookup key k rows).toList := by
  induction rows with
  | nil => rfl
  | cons r rest ih =>
      rw [List.map_cons, List.nodup_cons] at hnd
      rw [Rows.lookup_cons]
      by_cases h : key r = k
      · have hrest : rest.filter (fun r => key r = k) = [] := by
          rw [List.filter_eq_nil_iff]
          intro x hx hk
          have hk : key x = k := of_decide_eq_true hk
          exact hnd.1 (h.trans hk.symm ▸ List.mem_map_of_mem hx)
        rw [List.filter_cons_of_pos (by simpa using h), hrest, if_pos h]
        rfl
      · rw [List.filter_cons_of_neg (by simpa using h), if_neg h]
        exact ih hnd.2

theorem select_key (hnd : (rows.map key).Nodup) (k : κ) :
    select (fun r => compare (fun a b => decide (a = b)) (some (key r)) (some k)) rows =
      (Rows.lookup key k rows).toList := by
  rw [← filter_key hnd k]
  exact List.filter_congr fun r _ => by simp

/-- A left join on a reference that is null or finds its row gives one row. -/
theorem leftJoin_key (hnd : (rows.map key).Nodup) {ref : Option κ}
    (hfk : ∀ k, ref = some k → k ∈ rows.map key) :
    leftJoin (fun r => compare (fun a b => decide (a = b)) (some (key r)) ref) rows =
      [ref.bind fun k => Rows.lookup key k rows] := by
  cases ref with
  | none =>
      have hnone : select (fun r => compare (fun a b => decide (a = b)) (some (key r))
          (none : Option κ)) rows = [] := List.filter_eq_nil_iff.mpr fun r _ => by simp
      rw [leftJoin, hnone]
      rfl
  | some k =>
      obtain ⟨r, hr⟩ := Option.isSome_iff_exists.mp (Rows.lookup_isSome.mpr (hfk k rfl))
      rw [leftJoin, select_key hnd k, hr]
      simp [hr]

/-- `CASE WHEN … THEN … ELSE …`: the conditions in turn, each of which may raise an error. -/
def caseWhen (otherwise : α) : List (Except ε Truth × α) → Except ε α
  | [] => .ok otherwise
  | (.error e, _) :: _ => .error e
  | (.ok cond, value) :: rest => if cond.Holds then .ok value else caseWhen otherwise rest

end rows

end Sql
