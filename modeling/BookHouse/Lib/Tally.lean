/-
Tallies: lists of keyed quantities and what they add up to under each key.

A tally is what a program builds when it walks over lines and adds each quantity to
the entry of its key, in the order in which the keys first appear.  `count` is the
only thing such a list means: collecting a list keeps every count, and leaves one
entry for each key.
-/
import Mathlib.Data.List.Basic
import Mathlib.Data.List.Sort
import Mathlib.Algebra.BigOperators.Group.List.Basic
import Mathlib.Algebra.Order.BigOperators.Group.List
import Mathlib.Tactic.Ring

namespace Tally

/-- A quantity under a key. -/
structure Entry (κ : Type*) where
  key : κ
  qty : ℤ
deriving DecidableEq, Repr

variable {κ : Type*} [DecidableEq κ]

/-- The total under one key. -/
def count (k : κ) (es : List (Entry κ)) : ℤ :=
  (es.map fun e => if e.key = k then e.qty else 0).sum

@[simp] theorem count_nil (k : κ) : count k [] = 0 := rfl

@[simp] theorem count_cons (k : κ) (e : Entry κ) (es : List (Entry κ)) :
    count k (e :: es) = (if e.key = k then e.qty else 0) + count k es := by
  simp [count]

@[simp] theorem count_append (k : κ) (es fs : List (Entry κ)) :
    count k (es ++ fs) = count k es + count k fs := by
  simp [count]

theorem count_perm {es fs : List (Entry κ)} (h : es.Perm fs) (k : κ) :
    count k es = count k fs :=
  (h.map _).sum_eq

theorem count_nonneg {es : List (Entry κ)} (h : ∀ e ∈ es, 0 ≤ e.qty) (k : κ) :
    0 ≤ count k es := by
  refine List.sum_nonneg fun x hx => ?_
  obtain ⟨e, he, rfl⟩ := List.mem_map.mp hx
  split
  · exact h e he
  · exact le_refl 0

theorem count_eq_zero {es : List (Entry κ)} {k : κ} (h : k ∉ es.map Entry.key) :
    count k es = 0 := by
  induction es with
  | nil => rfl
  | cons e rest ih =>
      simp only [List.map_cons, List.mem_cons, not_or] at h
      rw [count_cons, if_neg (fun hc => h.1 hc.symm), ih h.2]
      rfl

/-- With one entry for each key, an entry's quantity is its key's count. -/
theorem count_of_mem {es : List (Entry κ)} (hnd : (es.map Entry.key).Nodup) {e : Entry κ}
    (he : e ∈ es) : count e.key es = e.qty := by
  induction es with
  | nil => simp at he
  | cons x rest ih =>
      simp only [List.map_cons, List.nodup_cons] at hnd
      rcases List.mem_cons.mp he with rfl | hr
      · rw [count_cons, if_pos rfl, count_eq_zero hnd.1, add_zero]
      · have hne : x.key ≠ e.key := by
          intro hc
          exact hnd.1 (hc ▸ List.mem_map_of_mem hr)
        rw [count_cons, if_neg hne, zero_add]
        exact ih hnd.2 hr

/-! ### Adding to an entry, and collecting a list -/

/-- Add `n` under `k`: to its entry when there is one, as a new last entry otherwise. -/
def bump (k : κ) (n : ℤ) : List (Entry κ) → List (Entry κ)
  | [] => [⟨k, n⟩]
  | e :: rest => if e.key = k then ⟨k, e.qty + n⟩ :: rest else e :: bump k n rest

/-- One entry for each key, in the order the keys first appear. -/
def collect (es : List (Entry κ)) : List (Entry κ) :=
  es.foldl (fun m e => bump e.key e.qty m) []

theorem count_bump (k j : κ) (n : ℤ) (m : List (Entry κ)) :
    count j (bump k n m) = count j m + if k = j then n else 0 := by
  induction m with
  | nil => simp [bump]
  | cons e rest ih =>
      rw [bump]
      by_cases hk : e.key = k
      · subst hk
        simp only [if_pos, count_cons]
        split <;> ring
      · rw [if_neg hk, count_cons, ih, count_cons]
        ring

theorem mem_keys_bump {k j : κ} {n : ℤ} {m : List (Entry κ)} :
    j ∈ (bump k n m).map Entry.key ↔ j = k ∨ j ∈ m.map Entry.key := by
  induction m with
  | nil => simp [bump]
  | cons e rest ih =>
      rw [bump]
      by_cases hk : e.key = k
      · subst hk
        simp
      · rw [if_neg hk, List.map_cons, List.mem_cons, ih, List.map_cons, List.mem_cons]
        tauto

theorem nodup_bump {k : κ} {n : ℤ} {m : List (Entry κ)} (h : (m.map Entry.key).Nodup) :
    ((bump k n m).map Entry.key).Nodup := by
  induction m with
  | nil => simp [bump]
  | cons e rest ih =>
      simp only [List.map_cons, List.nodup_cons] at h
      rw [bump]
      by_cases hk : e.key = k
      · subst hk
        simpa using h
      · rw [if_neg hk, List.map_cons, List.nodup_cons, mem_keys_bump]
        exact ⟨not_or.mpr ⟨hk, h.1⟩, ih h.2⟩

private theorem count_foldl (es : List (Entry κ)) :
    ∀ (m : List (Entry κ)) (k : κ),
      count k (es.foldl (fun m e => bump e.key e.qty m) m) = count k m + count k es := by
  induction es with
  | nil => intro m k; simp
  | cons e rest ih =>
      intro m k
      rw [List.foldl_cons, ih, count_bump, count_cons]
      ring

private theorem nodup_foldl (es : List (Entry κ)) :
    ∀ m : List (Entry κ), (m.map Entry.key).Nodup →
      ((es.foldl (fun m e => bump e.key e.qty m) m).map Entry.key).Nodup := by
  induction es with
  | nil => intro m h; exact h
  | cons e rest ih => intro m h; exact ih _ (nodup_bump h)

private theorem mem_keys_foldl (es : List (Entry κ)) :
    ∀ (m : List (Entry κ)) (k : κ),
      k ∈ (es.foldl (fun m e => bump e.key e.qty m) m).map Entry.key ↔
        k ∈ m.map Entry.key ∨ k ∈ es.map Entry.key := by
  induction es with
  | nil => intro m k; simp
  | cons e rest ih =>
      intro m k
      rw [List.foldl_cons, ih, mem_keys_bump, List.map_cons, List.mem_cons]
      tauto

/-- **Collecting keeps every count.** -/
@[simp] theorem count_collect (k : κ) (es : List (Entry κ)) :
    count k (collect es) = count k es := by
  rw [collect, count_foldl, count_nil, zero_add]

theorem nodup_collect (es : List (Entry κ)) : ((collect es).map Entry.key).Nodup :=
  nodup_foldl es [] (by simp)

theorem mem_keys_collect {k : κ} {es : List (Entry κ)} :
    k ∈ (collect es).map Entry.key ↔ k ∈ es.map Entry.key := by
  rw [collect, mem_keys_foldl]
  simp

/-- An entry of the collected list carries the whole count of its key. -/
theorem qty_of_mem_collect {es : List (Entry κ)} {e : Entry κ} (he : e ∈ collect es) :
    e.qty = count e.key es := by
  rw [← count_collect, count_of_mem (nodup_collect es) he]

/-- Positive quantities stay positive: a count of positive entries is positive. -/
theorem count_pos_of_mem {es : List (Entry κ)} (h : ∀ e ∈ es, 0 < e.qty) {k : κ}
    (hk : k ∈ es.map Entry.key) : 0 < count k es := by
  induction es with
  | nil => simp at hk
  | cons e rest ih =>
      have hrest : ∀ x ∈ rest, 0 < x.qty := fun x hx => h x (by simp [hx])
      have hnn : 0 ≤ count k rest := count_nonneg (fun x hx => (hrest x hx).le) k
      rw [count_cons]
      by_cases hek : e.key = k
      · rw [if_pos hek]
        have := h e (by simp)
        omega
      · rw [if_neg hek, zero_add]
        refine ih hrest ?_
        rcases (by simpa using hk : k = e.key ∨ k ∈ rest.map Entry.key) with hc | hc
        · exact absurd hc.symm hek
        · exact hc

theorem collect_pos {es : List (Entry κ)} (h : ∀ e ∈ es, 0 < e.qty) :
    ∀ e ∈ collect es, 0 < e.qty := by
  intro e he
  rw [qty_of_mem_collect he]
  exact count_pos_of_mem h (mem_keys_collect.mp (List.mem_map_of_mem he))

end Tally
