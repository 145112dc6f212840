/-
Values grouped by a key.

A list of keyed values becomes a list with one entry for each key, in the order the keys
first appear, that holds the sum of the key's values.  The entries are the distinct keys
with their totals (`collect_perm`), which is all that is needed of them.
-/
import Mathlib.Algebra.BigOperators.Group.List.Basic
import Mathlib.Data.List.Dedup

namespace Grouping

variable {κ M : Type*} [DecidableEq κ] [AddCommMonoid M]

/-- The sum of the values under `k`. -/
def total (k : κ) (es : List (κ × M)) : M := ((es.filter (·.1 = k)).map (·.2)).sum

/-- Add `m` under `k`: to its entry when there is one, as a new last entry otherwise. -/
def add (k : κ) (m : M) : List (κ × M) → List (κ × M)
  | [] => [(k, m)]
  | e :: rest => if e.1 = k then (k, e.2 + m) :: rest else e :: add k m rest

def collect (es : List (κ × M)) : List (κ × M) := es.foldl (fun g e => add e.1 e.2 g) []

@[simp] theorem total_nil (k : κ) : total k ([] : List (κ × M)) = 0 := rfl

theorem total_cons (k : κ) (e : κ × M) (es : List (κ × M)) :
    total k (e :: es) = (if e.1 = k then e.2 else 0) + total k es := by
  by_cases h : e.1 = k
  · simp [total, h]
  · simp [total, h]

theorem total_eq_zero {k : κ} {es : List (κ × M)} (h : k ∉ es.map Prod.fst) : total k es = 0 := by
  have hnone : es.filter (·.1 = k) = [] := by
    refine List.filter_eq_nil_iff.mpr fun e he hk => h ?_
    rw [← of_decide_eq_true hk]
    exact List.mem_map_of_mem he
  rw [total, hnone]
  rfl

theorem total_add (k j : κ) (m : M) (es : List (κ × M)) :
    total j (add k m es) = total j es + if k = j then m else 0 := by
  induction es with
  | nil => simp [add, total_cons]
  | cons e rest ih =>
      rw [add]
      by_cases hk : e.1 = k
      · rw [if_pos hk, total_cons, total_cons, hk]
        split
        · rw [add_right_comm]
        · simp
      · rw [if_neg hk, total_cons, ih, total_cons, add_assoc]

theorem mem_keys_add {k j : κ} {m : M} {es : List (κ × M)} :
    j ∈ (add k m es).map Prod.fst ↔ j = k ∨ j ∈ es.map Prod.fst := by
  induction es with
  | nil => simp [add]
  | cons e rest ih =>
      rw [add]
      by_cases hk : e.1 = k
      · subst hk
        simp
      · rw [if_neg hk, List.map_cons, List.mem_cons, ih, List.map_cons, List.mem_cons]
        tauto

theorem nodup_add {k : κ} {m : M} {es : List (κ × M)} (h : (es.map Prod.fst).Nodup) :
    ((add k m es).map Prod.fst).Nodup := by
  induction es with
  | nil => simp [add]
  | cons e rest ih =>
      simp only [List.map_cons, List.nodup_cons] at h
      rw [add]
      by_cases hk : e.1 = k
      · subst hk
        simpa using h
      · rw [if_neg hk, List.map_cons, List.nodup_cons, mem_keys_add]
        exact ⟨not_or.mpr ⟨hk, h.1⟩, ih h.2⟩

private theorem total_foldl (es : List (κ × M)) : ∀ (g : List (κ × M)) (k : κ),
    total k (es.foldl (fun g e => add e.1 e.2 g) g) = total k g + total k es := by
  induction es with
  | nil => intro g k; simp
  | cons e rest ih =>
      intro g k
      rw [List.foldl_cons, ih, total_add, total_cons, add_assoc]

private theorem nodup_foldl (es : List (κ × M)) : ∀ g : List (κ × M), (g.map Prod.fst).Nodup →
    ((es.foldl (fun g e => add e.1 e.2 g) g).map Prod.fst).Nodup := by
  induction es with
  | nil => intro g h; exact h
  | cons e rest ih => intro g h; exact ih _ (nodup_add h)

private theorem mem_keys_foldl (es : List (κ × M)) : ∀ (g : List (κ × M)) (k : κ),
    k ∈ (es.foldl (fun g e => add e.1 e.2 g) g).map Prod.fst ↔
      k ∈ g.map Prod.fst ∨ k ∈ es.map Prod.fst := by
  induction es with
  | nil => intro g k; simp
  | cons e rest ih =>
      intro g k
      rw [List.foldl_cons, ih, mem_keys_add, List.map_cons, List.mem_cons]
      tauto

@[simp] theorem total_collect (k : κ) (es : List (κ × M)) : total k (collect es) = total k es := by
  rw [collect, total_foldl, total_nil, zero_add]

theorem nodup_collect (es : List (κ × M)) : ((collect es).map Prod.fst).Nodup :=
  nodup_foldl es [] (by simp)

theorem mem_keys_collect {k : κ} {es : List (κ × M)} :
    k ∈ (collect es).map Prod.fst ↔ k ∈ es.map Prod.fst := by
  rw [collect, mem_keys_foldl]
  simp

/-- With one entry for each key, an entry's value is its key's total. -/
theorem total_of_mem {es : List (κ × M)} (hnd : (es.map Prod.fst).Nodup) {e : κ × M}
    (he : e ∈ es) : total e.1 es = e.2 := by
  induction es with
  | nil => cases he
  | cons x rest ih =>
      simp only [List.map_cons, List.nodup_cons] at hnd
      rcases List.mem_cons.mp he with rfl | hr
      · rw [total_cons, if_pos rfl, total_eq_zero hnd.1, add_zero]
      · have hne : x.1 ≠ e.1 := by
          intro hc
          exact hnd.1 (hc ▸ List.mem_map_of_mem hr)
        rw [total_cons, if_neg hne, zero_add]
        exact ih hnd.2 hr

/-- **The entries are the distinct keys with their totals.** -/
theorem collect_perm (es : List (κ × M)) :
    (collect es).Perm ((es.map Prod.fst).dedup.map fun k => (k, total k es)) := by
  have hkeys : (collect es).Perm (((collect es).map Prod.fst).map fun k => (k, total k es)) := by
    have hsame : ((collect es).map Prod.fst).map (fun k => (k, total k es)) = collect es := by
      rw [List.map_map]
      refine (List.map_congr_left fun e he => ?_).trans (List.map_id _)
      have hvalue := total_of_mem (nodup_collect es) he
      rw [total_collect] at hvalue
      simp [Function.comp, hvalue]
    rw [hsame]
  refine hkeys.trans (List.Perm.map _ ?_)
  refine (List.perm_ext_iff_of_nodup (nodup_collect es) (List.nodup_dedup _)).mpr fun k => ?_
  rw [mem_keys_collect, List.mem_dedup]

theorem sum_add (k : κ) (m : M) (es : List (κ × M)) :
    ((add k m es).map Prod.snd).sum = (es.map Prod.snd).sum + m := by
  induction es with
  | nil => simp [add]
  | cons e rest ih =>
      rw [add]
      split
      · rw [List.map_cons, List.sum_cons, List.map_cons, List.sum_cons, add_right_comm]
      · rw [List.map_cons, List.sum_cons, ih, List.map_cons, List.sum_cons, add_assoc]

/-- **Grouping keeps the sum.** -/
theorem sum_collect (es : List (κ × M)) :
    ((collect es).map Prod.snd).sum = (es.map Prod.snd).sum := by
  have hfold : ∀ (es g : List (κ × M)),
      ((es.foldl (fun g e => add e.1 e.2 g) g).map Prod.snd).sum =
        (g.map Prod.snd).sum + (es.map Prod.snd).sum := by
    intro es
    induction es with
    | nil => intro g; simp
    | cons e rest ih =>
        intro g
        rw [List.foldl_cons, ih, sum_add, List.map_cons, List.sum_cons, add_assoc]
  rw [collect, hfold]
  simp

/-- The totals of distinct keys add up to the sum of the values under them. -/
theorem sum_totals (es : List (κ × M)) {ks : List κ} (hnd : ks.Nodup) :
    (ks.map fun k => total k es).sum = ((es.filter (·.1 ∈ ks)).map Prod.snd).sum := by
  induction es with
  | nil => simp
  | cons e rest ih =>
      have hself : (ks.map fun k => if e.1 = k then e.2 else 0).sum =
          if e.1 ∈ ks then e.2 else 0 := by
        clear ih
        induction ks with
        | nil => simp
        | cons k ks ih =>
            rw [List.map_cons, List.sum_cons, ih (List.nodup_cons.mp hnd).2]
            by_cases hk : e.1 = k
            · have hnot : e.1 ∉ ks := hk ▸ (List.nodup_cons.mp hnd).1
              simp [hk, hk ▸ hnot]
            · simp [hk]
      simp only [total_cons, List.sum_map_add, hself, ih]
      by_cases he : e.1 ∈ ks
      · simp [he]
      · simp [he]

end Grouping
