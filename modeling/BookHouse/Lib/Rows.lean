/-
Tables: lists of rows with a key, read by key and updated in place.

An update touches the rows with the key and keeps every key, so what the other rows
say is unchanged, and a sum over the table changes by what the updated row changed.
The sum needs the keys to be distinct; reading does not, since `lookup` and `modify`
agree on which row a key means.
-/
import Mathlib.Data.List.Basic
import Mathlib.Data.List.Nodup
import Mathlib.Algebra.BigOperators.Group.List.Basic
import Mathlib.Tactic.Abel

namespace Rows

variable {ρ κ γ : Type*} [DecidableEq κ] (key : ρ → κ)

/-- `SELECT … WHERE key = k`. -/
def lookup (k : κ) (rows : List ρ) : Option ρ := rows.find? fun r => key r = k

/-- `UPDATE … WHERE key = k`. -/
def modify (k : κ) (f : ρ → ρ) (rows : List ρ) : List ρ :=
  rows.map fun r => if key r = k then f r else r

variable {key} {k j : κ} {f : ρ → ρ} {rows : List ρ} {r : ρ}

@[simp] theorem lookup_nil : lookup key k ([] : List ρ) = none := rfl

theorem lookup_cons : lookup key k (r :: rows) = if key r = k then some r else lookup key k rows := by
  by_cases h : key r = k <;> simp [lookup, h]

theorem mem_of_lookup (h : lookup key k rows = some r) : r ∈ rows := List.mem_of_find?_eq_some h

theorem key_of_lookup (h : lookup key k rows = some r) : key r = k := by
  have := List.find?_some h
  simpa using this

theorem lookup_isSome : (lookup key k rows).isSome ↔ k ∈ rows.map key := by
  induction rows with
  | nil => simp
  | cons a rest ih =>
      rw [lookup_cons, List.map_cons, List.mem_cons]
      by_cases h : key a = k
      · simp [h]
      · have hk : ¬k = key a := fun hc => h hc.symm
        rw [if_neg h, ih]
        simp [hk]

theorem lookup_of_mem (hnd : (rows.map key).Nodup) (h : r ∈ rows) :
    lookup key (key r) rows = some r := by
  induction rows with
  | nil => simp at h
  | cons a rest ih =>
      rw [List.map_cons, List.nodup_cons] at hnd
      rw [lookup_cons]
      rcases List.mem_cons.mp h with rfl | hr
      · rw [if_pos rfl]
      · have hne : key a ≠ key r := fun hc => hnd.1 (hc ▸ List.mem_map_of_mem hr)
        rw [if_neg hne, ih hnd.2 hr]

/-! ### Updating a row -/

@[simp] theorem modify_nil : modify key k f ([] : List ρ) = [] := rfl

theorem modify_cons : modify key k f (r :: rows) =
    (if key r = k then f r else r) :: modify key k f rows := rfl

/-- What the update does not change of a row, it does not change of the table. -/
theorem map_modify {g : ρ → γ} (hg : ∀ r, g (f r) = g r) :
    (modify key k f rows).map g = rows.map g := by
  rw [modify, List.map_map]
  refine List.map_congr_left fun r _ => ?_
  by_cases h : key r = k <;> simp [h, hg]

/-- The same of an update that only fits the rows it is for. -/
theorem map_modify_of_mem {g : ρ → γ} (hg : ∀ r ∈ rows, key r = k → g (f r) = g r) :
    (modify key k f rows).map g = rows.map g := by
  rw [modify, List.map_map]
  refine List.map_congr_left fun r hr => ?_
  by_cases h : key r = k
  · simp [h, hg r hr h]
  · simp [h]

theorem length_modify : (modify key k f rows).length = rows.length := List.length_map _

theorem lookup_modify_self (hf : ∀ r, key (f r) = key r) :
    lookup key k (modify key k f rows) = (lookup key k rows).map f := by
  induction rows with
  | nil => rfl
  | cons a rest ih =>
      rw [modify_cons, lookup_cons, lookup_cons]
      by_cases h : key a = k
      · simp [h, hf]
      · simp [h, ih]

theorem lookup_modify_ne (hf : ∀ r, key (f r) = key r) (hne : j ≠ k) :
    lookup key j (modify key k f rows) = lookup key j rows := by
  induction rows with
  | nil => rfl
  | cons a rest ih =>
      rw [modify_cons, lookup_cons, lookup_cons, ih]
      by_cases h : key a = k
      · have hj : ¬k = j := fun hc => hne hc.symm
        simp [h, hf, hj]
      · simp [h]

theorem lookup_append_new {new : ρ} (h : k ∉ rows.map key) (hk : key new = k) :
    lookup key k (rows ++ [new]) = some new := by
  have hnone : lookup key k rows = none := by
    rw [← Option.not_isSome_iff_eq_none, lookup_isSome]
    exact h
  rw [lookup, List.find?_append]
  rw [lookup] at hnone
  simp [hnone, hk]

theorem lookup_append_of_some {new : ρ} (h : lookup key k rows = some r) :
    lookup key k (rows ++ [new]) = some r := by
  rw [lookup] at h
  rw [lookup, List.find?_append, h]
  rfl

/-- A column read by key depends on the keys and that column only. -/
theorem lookup_map_congr {g : ρ → γ} {rows' : List ρ}
    (h : rows'.map (fun r => (key r, g r)) = rows.map fun r => (key r, g r)) :
    (lookup key k rows').map g = (lookup key k rows).map g := by
  induction rows generalizing rows' with
  | nil =>
      have hnil : rows' = [] := by simpa using h
      rw [hnil]
  | cons a rest ih =>
      obtain ⟨b, rest', rfl, hb, hrest⟩ := List.map_eq_cons_iff.mp h
      obtain ⟨hkey, hg⟩ := Prod.mk.inj hb
      rw [lookup_cons, lookup_cons, hkey]
      by_cases ha : key a = k
      · simp [ha, hg]
      · rw [if_neg ha, if_neg ha]
        exact ih hrest

/-- An update outside the table changes nothing. -/
theorem modify_of_not_mem (h : k ∉ rows.map key) : modify key k f rows = rows := by
  rw [modify]
  conv_rhs => rw [← List.map_id rows]
  refine List.map_congr_left fun r hr => ?_
  rw [if_neg]
  · rfl
  · rintro rfl
    exact h (List.mem_map_of_mem hr)

@[simp] theorem modify_id : modify key k id rows = rows := by
  rw [modify]
  conv_rhs => rw [← List.map_id rows]
  refine List.map_congr_left fun r _ => ?_
  split
  · rfl
  · rfl

/-- A row after an update of a table with distinct keys is the updated one or another. -/
theorem mem_modify (hnd : (rows.map key).Nodup) (h : lookup key k rows = some r) {x : ρ}
    (hx : x ∈ modify key k f rows) : x = f r ∨ (x ∈ rows ∧ key x ≠ k) := by
  obtain ⟨y, hy, rfl⟩ := List.mem_map.mp hx
  by_cases hk : key y = k
  · have hlook := lookup_of_mem hnd hy
    rw [hk, h] at hlook
    obtain rfl := Option.some.inj hlook
    exact .inl (if_pos hk)
  · rw [if_neg hk]
    exact .inr ⟨hy, hk⟩

/-- **A sum over the table changes by what the updated row changed.** -/
theorem sum_modify {M : Type*} [AddCommGroup M] (hnd : (rows.map key).Nodup)
    (h : lookup key k rows = some r) (g : ρ → M) :
    ((modify key k f rows).map g).sum = (rows.map g).sum - g r + g (f r) := by
  induction rows with
  | nil => simp at h
  | cons a rest ih =>
      rw [List.map_cons, List.nodup_cons] at hnd
      rw [lookup_cons] at h
      rw [modify_cons]
      by_cases ha : key a = k
      · rw [if_pos ha] at h ⊢
        obtain rfl := Option.some.inj h
        have hk : k ∉ rest.map key := ha ▸ hnd.1
        rw [modify_of_not_mem hk]
        simp only [List.map_cons, List.sum_cons]
        abel
      · rw [if_neg ha] at h ⊢
        simp only [List.map_cons, List.sum_cons, ih hnd.2 h]
        abel

theorem countP_eq_sum (c : ρ → Bool) (rows : List ρ) :
    (rows.countP c : ℤ) = (rows.map fun r => if c r then (1 : ℤ) else 0).sum := by
  induction rows with
  | nil => rfl
  | cons a rest ih =>
      rw [List.countP_cons, List.map_cons, List.sum_cons, ← ih]
      by_cases h : c a
      · simp [h, add_comm]
      · simp [h]

/-- A count over the table changes by what the updated row changed. -/
theorem countP_modify (hnd : (rows.map key).Nodup) (h : lookup key k rows = some r)
    (c : ρ → Bool) : ((modify key k f rows).countP c : ℤ) =
      rows.countP c - (if c r then 1 else 0) + if c (f r) then 1 else 0 := by
  rw [countP_eq_sum, countP_eq_sum, sum_modify hnd h]

/-- A row that the filter leaves out joins it, or not, by what the update makes of it. -/
theorem filter_modify {c : ρ → Bool} (hnd : (rows.map key).Nodup)
    (h : lookup key k rows = some r) (hold : c r = false) :
    ((modify key k f rows).filter c).Perm (rows.filter c ++ [f r].filter c) := by
  induction rows with
  | nil => simp at h
  | cons a rest ih =>
      rw [List.map_cons, List.nodup_cons] at hnd
      rw [lookup_cons] at h
      rw [modify_cons]
      by_cases ha : key a = k
      · rw [if_pos ha] at h ⊢
        obtain rfl := Option.some.inj h
        have hk : k ∉ rest.map key := ha ▸ hnd.1
        have hskip : (a :: rest).filter c = rest.filter c := List.filter_cons_of_neg (by simp [hold])
        rw [modify_of_not_mem hk, hskip, List.filter_cons]
        by_cases hf : c (f a) = true
        · rw [if_pos hf, List.filter_singleton, hf]
          exact (List.perm_append_singleton _ _).symm
        · rw [if_neg hf, List.filter_singleton]
          simp [hf]
      · rw [if_neg ha] at h ⊢
        rw [List.filter_cons, List.filter_cons]
        split
        · exact (ih hnd.2 h).cons a
        · exact ih hnd.2 h

/-- An update of rows that the filter leaves out, before and after, leaves it alone. -/
theorem filter_modify_out {c : ρ → Bool}
    (h : ∀ r ∈ rows, key r = k → c r = false ∧ c (f r) = false) :
    (modify key k f rows).filter c = rows.filter c := by
  induction rows with
  | nil => rfl
  | cons a rest ih =>
      have hrest := ih fun r hr => h r (List.mem_cons_of_mem a hr)
      rw [modify_cons]
      by_cases ha : key a = k
      · obtain ⟨hold, hnew⟩ := h a List.mem_cons_self ha
        rw [if_pos ha, List.filter_cons_of_neg (by simp [hnew]),
          List.filter_cons_of_neg (by simp [hold]), hrest]
      · rw [if_neg ha, List.filter_cons, List.filter_cons, hrest]

/-- **A filtered sum without one of its rows.** -/
theorem sum_filter_without {M : Type*} [AddCommGroup M] {c : ρ → Bool}
    (hnd : (rows.map key).Nodup) (hr : r ∈ rows) (g : ρ → M) :
    ((rows.filter fun x => c x && !decide (key x = key r)).map g).sum =
      ((rows.filter c).map g).sum - if c r then g r else 0 := by
  induction rows with
  | nil => simp at hr
  | cons a rest ih =>
      rw [List.map_cons, List.nodup_cons] at hnd
      by_cases ha : key a = key r
      · -- the row itself: none of the others has its key
        have hrest : ∀ x ∈ rest, key x ≠ key r := by
          intro x hx hk
          exact hnd.1 (ha ▸ hk ▸ List.mem_map_of_mem hx)
        have har : r = a := by
          rcases List.mem_cons.mp hr with h | h
          · exact h
          · exact absurd rfl (hrest r h)
        have hkeep : (rest.filter fun x => c x && !decide (key x = key r)) = rest.filter c := by
          refine List.filter_congr fun x hx => ?_
          simp [hrest x hx]
        subst har
        rw [List.filter_cons_of_neg (by simp), hkeep, List.filter_cons]
        by_cases hc : c r
        · simp [hc]
        · simp [hc]
      · have hmem : r ∈ rest := by
          rcases List.mem_cons.mp hr with h | h
          · exact absurd (h ▸ rfl) ha
          · exact h
        have hrest := ih hnd.2 hmem
        by_cases hc : c a
        · rw [List.filter_cons_of_pos (by simp [hc, ha]), List.filter_cons_of_pos (by simp [hc])]
          simp only [List.map_cons, List.sum_cons, hrest]
          abel
        · rw [List.filter_cons_of_neg (by simp [hc]), List.filter_cons_of_neg (by simp [hc])]
          exact hrest

/-- What holds of every row and survives the update holds of every row after it. -/
theorem forall_modify {P : ρ → Prop} (h : ∀ r ∈ rows, P r) (hf : ∀ r, P r → P (f r)) :
    ∀ r ∈ modify key k f rows, P r := by
  intro r hr
  obtain ⟨x, hx, rfl⟩ := List.mem_map.mp hr
  split
  · exact hf x (h x hx)
  · exact h x hx

end Rows
