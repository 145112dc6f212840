/-
The first of a sorted list: a query that orders its rows and takes one.

Whatever the order of rows that compare the same, the one taken compares with all of them.
`OrderBy` is any way of sorting by a relation, for a database that promises no more than that;
where no two rows compare the same, there is only one.
-/
import Mathlib.Data.List.Sort

namespace Sorting

variable {α : Type*} {r : α → α → Prop} [DecidableRel r] {l : List α} {a : α}

/-- The row that comes first is one of them, and none comes before it. -/
theorem head_insertionSort (htotal : ∀ a b, r a b ∨ r b a)
    (htrans : ∀ a b c, r a b → r b c → r a c) (h : (l.insertionSort r).head? = some a) :
    a ∈ l ∧ ∀ b ∈ l, r a b := by
  have : Std.Total r := ⟨htotal⟩
  have : IsTrans α r := ⟨htrans⟩
  have hsorted : (l.insertionSort r).Pairwise r := List.pairwise_insertionSort r l
  cases hl : l.insertionSort r with
  | nil =>
      rw [hl] at h
      cases h
  | cons c rest =>
      rw [hl] at h hsorted
      obtain rfl := Option.some.inj h
      have hmem : ∀ b, b ∈ l ↔ b ∈ c :: rest := fun b => by rw [← hl, List.mem_insertionSort]
      refine ⟨(hmem c).mpr List.mem_cons_self, fun b hb => ?_⟩
      rcases List.mem_cons.mp ((hmem b).mp hb) with rfl | hrest
      · exact (htotal b b).elim id id
      · exact (List.pairwise_cons.mp hsorted).1 b hrest

/-- There is a first row where there are rows. -/
theorem head_insertionSort_eq_none : (l.insertionSort r).head? = none ↔ l = [] := by
  rw [List.head?_eq_none_iff, ← List.length_eq_zero_iff, List.length_insertionSort,
    List.length_eq_zero_iff]

/-- The least value is the value of the row that sorts first by it. -/
theorem head_insertionSort_map {β : Type*} [LinearOrder β] (f : α → β) :
    ((l.map f).insertionSort (· ≤ ·)).head? =
      ((l.insertionSort fun a b => f a ≤ f b).head?).map f := by
  cases hv : ((l.map f).insertionSort (· ≤ ·)).head? with
  | none =>
      have hnil : l = [] := List.map_eq_nil_iff.mp (head_insertionSort_eq_none.mp hv)
      subst hnil
      rfl
  | some v =>
      obtain ⟨hmem, hleast⟩ := head_insertionSort le_total (fun _ _ _ => le_trans) hv
      obtain ⟨b, hb, rfl⟩ := List.mem_map.mp hmem
      cases ha : (l.insertionSort fun a b => f a ≤ f b).head? with
      | none =>
          rw [head_insertionSort_eq_none.mp ha] at hb
          simp at hb
      | some a =>
          obtain ⟨hamem, haleast⟩ :=
            head_insertionSort (fun x y => le_total (f x) (f y)) (fun _ _ _ => le_trans) ha
          have hle : f b ≤ f a := hleast (f a) (List.mem_map_of_mem hamem)
          exact congrArg some (le_antisymm hle (haleast b hb))

/-- What `ORDER BY` promises: the rows, none of them before one that should precede it. -/
structure OrderBy (r : α → α → Prop) where
  run : List α → List α
  perm : ∀ l, (run l).Perm l
  sorted : ∀ l, (run l).Pairwise r

namespace OrderBy

variable {r : α → α → Prop} (o : OrderBy r)

/-- One way to do it. -/
def insertion [DecidableRel r] [Std.Total r] [IsTrans α r] : OrderBy r where
  run := List.insertionSort r
  perm := List.perm_insertionSort r
  sorted := List.pairwise_insertionSort r

@[simp] theorem mem_run : a ∈ o.run l ↔ a ∈ l := (o.perm l).mem_iff

@[simp] theorem length_run : (o.run l).length = l.length := (o.perm l).length_eq

theorem mem_of_head (h : (o.run l).head? = some a) : a ∈ l :=
  o.mem_run.mp (List.mem_of_head? h)

theorem eq_nil_of_head (h : (o.run l).head? = none) : l = [] := by
  have hlen := o.length_run (l := l)
  rw [List.head?_eq_none_iff.mp h] at hlen
  exact List.length_eq_zero_iff.mp hlen.symm

/-- Rows in order, no two of which compare the same, are what comes out. -/
theorem run_eq {l' : List α} (hperm : l'.Perm l) (hsorted : l'.Pairwise r)
    (hanti : ∀ a ∈ l, ∀ b ∈ l, r a b → r b a → a = b) : o.run l = l' := by
  refine ((o.perm l).trans hperm.symm).eq_of_pairwise ?_ (o.sorted l) hsorted
  intro a b ha hb hab hba
  exact hanti a (o.mem_run.mp ha) b (hperm.mem_iff.mp hb) hab hba

end OrderBy

end Sorting
