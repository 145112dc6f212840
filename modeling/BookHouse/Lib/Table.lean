/-
Tables with numbered rows that statements of transactions work on.

A statement on its own writes and commits at once; a statement of a transaction writes
versions that its commit makes the committed ones.  Either one waits while another
transaction has a version of a row it is going to write.  Rows are numbered as they are
inserted and never go away, so the rows of a table are a list.
-/
import BookHouse.Lib.Versions
import Mathlib.Data.List.Range

/-- Versions of the rows below `next`. -/
structure Table (τ ρ : Type*) where
  rows : Versions τ ℕ ρ
  next : ℕ
  unborn : ∀ k, next ≤ k → rows.committed k = none ∧ rows.pending k = none

namespace Table

variable {τ ρ : Type*}

/-- What everybody sees of a row. -/
def committed (t : Table τ ρ) (k : ℕ) : Option ρ := t.rows.committed k

/-- The rows that are committed. -/
def list (t : Table τ ρ) : List (ℕ × ρ) :=
  (List.range t.next).filterMap fun k => (t.committed k).map fun r => (k, r)

/-- A table that nobody is working on. -/
def ofList (rows : List ρ) : Table τ ρ where
  rows := Versions.ofRows fun k => rows[k]?
  next := rows.length
  unborn _ h := ⟨List.getElem?_eq_none h, rfl⟩

variable {t t' : Table τ ρ} {k : ℕ} {r r' : ρ} {g : ℕ → ρ → Option ρ}

theorem lt_next (h : t.committed k = some r) : k < t.next := by
  by_contra hge
  have hnone := (t.unborn k (Nat.le_of_not_lt hge)).1
  rw [committed, hnone] at h
  cases h

theorem mem_list : (k, r) ∈ t.list ↔ t.committed k = some r := by
  simp only [list, List.mem_filterMap, List.mem_range, Option.map_eq_some_iff, Prod.mk.injEq]
  constructor
  · rintro ⟨j, -, r', hr', rfl, rfl⟩
    exact hr'
  · intro h
    exact ⟨k, lt_next h, r, h, rfl, rfl⟩

/-! ### Statements on their own -/

/-- `g` says what becomes of the rows that the statement writes. -/
def updateNow (t : Table τ ρ) (g : ℕ → ρ → Option ρ) : Option (Table τ ρ) :=
  if (List.range t.next).all fun k => (t.committed k).all fun r =>
      (g k r).isNone || (t.rows.pending k).isNone then
    some { rows := { t.rows with committed := fun k => (t.committed k).map fun r => (g k r).getD r }
           next := t.next
           unborn := fun k hk => by
             obtain ⟨hc, hp⟩ := t.unborn k hk
             have hcommitted : t.committed k = none := hc
             exact ⟨by simp only [hcommitted, Option.map_none], hp⟩ }
  else none

def insertNow (t : Table τ ρ) (r : ρ) : Table τ ρ where
  rows := { t.rows with committed := Function.update t.rows.committed t.next (some r) }
  next := t.next + 1
  unborn k hk := by
    obtain ⟨hc, hp⟩ := t.unborn k (by omega)
    have hne : k ≠ t.next := by omega
    exact ⟨by simp only [Function.update_of_ne hne, hc], hp⟩

theorem committed_updateNow (h : t.updateNow g = some t') :
    t'.committed k = (t.committed k).map fun r => (g k r).getD r := by
  unfold updateNow at h
  split at h
  · obtain rfl := Option.some.inj h
    rfl
  · cases h

theorem pending_updateNow (h : t.updateNow g = some t') : t'.rows.pending = t.rows.pending := by
  unfold updateNow at h
  split at h
  · obtain rfl := Option.some.inj h
    rfl
  · cases h

theorem next_updateNow (h : t.updateNow g = some t') : t'.next = t.next := by
  unfold updateNow at h
  split at h
  · obtain rfl := Option.some.inj h
    rfl
  · cases h

/-- What is written on its own is nobody's. -/
theorem idle_of_updateNow (h : t.updateNow g = some t') (hr : t.committed k = some r)
    (hg : g k r = some r') : t.rows.pending k = none := by
  unfold updateNow at h
  split at h
  · rename_i hall
    have hk := List.all_eq_true.mp hall k (List.mem_range.mpr (lt_next hr))
    simpa [hr, hg] using hk
  · cases h

theorem committed_insertNow : (t.insertNow r).committed k =
    if k = t.next then some r else t.committed k := by
  simp only [committed, insertNow, Function.update_apply]

theorem committed_next : t.committed t.next = none := (t.unborn t.next (le_refl _)).1

section transactions

variable [DecidableEq τ] {i j : τ}

/-- The version that `i` wrote. -/
def own (t : Table τ ρ) (i : τ) (k : ℕ) : Option (Option ρ) := t.rows.own i k

/-- What `i` sees of a row. -/
def seen (t : Table τ ρ) (i : τ) (k : ℕ) : Option ρ := t.rows.seen i k

theorem own_ofList {rows : List ρ} : (ofList rows : Table τ ρ).own i k = none := rfl

theorem own_unborn (h : t.next ≤ k) : t.own i k = none := by
  simp [own, Versions.own, (t.unborn k h).2]

theorem seen_unborn (h : t.next ≤ k) : t.seen i k = none := by
  have hown : t.rows.own i k = none := own_unborn h
  rw [seen, Versions.seen_of_own_none hown, (t.unborn k h).1]

theorem seen_of_own_none (h : t.own i k = none) : t.seen i k = t.committed k :=
  Versions.seen_of_own_none h

theorem seen_of_own {row : Option ρ} (h : t.own i k = some row) : t.seen i k = row :=
  Versions.seen_of_own h

/-- What is seen of a row is its own version and the committed one. -/
theorem seen_congr (hown : t'.own i k = t.own i k) (hcommitted : t'.committed k = t.committed k) :
    t'.seen i k = t.seen i k := by
  cases hold : t.own i k with
  | none => rw [seen_of_own_none (hown.trans hold), seen_of_own_none hold, hcommitted]
  | some row => rw [seen_of_own (hown.trans hold), seen_of_own hold]

theorem own_inj {row row' : Option ρ} (hi : t.own i k = some row) (hj : t.own j k = some row') :
    i = j := Versions.own_inj hi hj

theorem own_of_idle (h : t.rows.pending k = none) : t.own i k = none := by
  simp [own, Versions.own, h]

/-- A row that a transaction has written is left alone. -/
theorem committed_updateNow_of_own {row : Option ρ} (h : t.updateNow g = some t')
    (hown : t.own i k = some row) : t'.committed k = t.committed k := by
  rw [committed_updateNow h]
  cases hr : t.committed k with
  | none => rfl
  | some r =>
      cases hg : g k r with
      | none => simp [hg]
      | some r' =>
          rw [own_of_idle (idle_of_updateNow h hr hg)] at hown
          cases hown

theorem own_updateNow (h : t.updateNow g = some t') : t'.own i k = t.own i k := by
  simp only [own, Versions.own, pending_updateNow h]

theorem own_insertNow : (t.insertNow r).own i k = t.own i k := rfl

/-! ### Statements of a transaction -/

def update (t : Table τ ρ) (i : τ) (g : ℕ → ρ → Option ρ) : Option (Table τ ρ) :=
  if (List.range t.next).all fun k => (t.seen i k).all fun r =>
      (g k r).isNone || t.rows.free i k then
    some { rows := { t.rows with
             pending := fun k => match (t.seen i k).bind (g k) with
               | some r' => some (i, some r')
               | none => t.rows.pending k }
           next := t.next
           unborn := fun k hk => by
             refine ⟨(t.unborn k hk).1, ?_⟩
             simp only [seen_unborn hk, Option.bind_none, (t.unborn k hk).2] }
  else none

def insert (t : Table τ ρ) (i : τ) (r : ρ) : Table τ ρ where
  rows := t.rows.put i t.next (some r)
  next := t.next + 1
  unborn k hk := by
    obtain ⟨hc, hp⟩ := t.unborn k (by omega)
    have hne : k ≠ t.next := by omega
    exact ⟨hc, by simp only [Versions.put, Function.update_of_ne hne, hp]⟩

def commit (t : Table τ ρ) (i : τ) : Table τ ρ where
  rows := t.rows.commit i
  next := t.next
  unborn k hk := by
    refine ⟨seen_unborn hk, ?_⟩
    simp [Versions.commit, Versions.rollback, (t.unborn k hk).2]

def rollback (t : Table τ ρ) (i : τ) : Table τ ρ where
  rows := t.rows.rollback i
  next := t.next
  unborn k hk := by
    refine ⟨(t.unborn k hk).1, ?_⟩
    simp [Versions.rollback, (t.unborn k hk).2]

theorem committed_update (h : t.update i g = some t') : t'.committed k = t.committed k := by
  unfold update at h
  split at h
  · obtain rfl := Option.some.inj h
    rfl
  · cases h

theorem next_update (h : t.update i g = some t') : t'.next = t.next := by
  unfold update at h
  split at h
  · obtain rfl := Option.some.inj h
    rfl
  · cases h

/-- What a transaction writes is no other's. -/
theorem own_of_update (h : t.update i g = some t') (hr : t.seen i k = some r)
    (hg : g k r = some r') (hij : j ≠ i) : t.own j k = none := by
  unfold update at h
  split at h
  · rename_i hall
    have hlt : k < t.next := by
      by_contra hge
      rw [seen_unborn (Nat.le_of_not_lt hge)] at hr
      cases hr
    have hk := List.all_eq_true.mp hall k (List.mem_range.mpr hlt)
    have hfree : t.rows.free i k = true := by simpa [hr, hg] using hk
    exact Versions.own_of_free hij hfree
  · cases h

theorem own_update_self (h : t.update i g = some t') :
    t'.own i k = match (t.seen i k).bind (g k) with
      | some r' => some (some r')
      | none => t.own i k := by
  unfold update at h
  split at h
  · obtain rfl := Option.some.inj h
    cases hw : (t.seen i k).bind (g k) with
    | none => simp [own, Versions.own, hw]
    | some r' => simp [own, Versions.own, hw, Option.filter]
  · cases h

theorem own_update_other (h : t.update i g = some t') (hij : j ≠ i) :
    t'.own j k = t.own j k := by
  cases hw : (t.seen i k).bind (g k) with
  | some r' =>
      obtain ⟨r, hr, hg⟩ := Option.bind_eq_some_iff.mp hw
      rw [own_of_update h hr hg hij]
      have hself := own_update_self (k := k) h
      rw [hw] at hself
      cases hother : t'.own j k with
      | none => rfl
      | some row => exact absurd (own_inj hother hself) hij
  | none =>
      unfold update at h
      split at h
      · obtain rfl := Option.some.inj h
        simp [own, Versions.own, hw]
      · cases h

/-- A row that the statement does not write keeps its version. -/
theorem own_update_of_none (h : t.update i g = some t') (hw : (t.seen i k).bind (g k) = none) :
    t'.own j k = t.own j k := by
  by_cases hij : j = i
  · subst hij
    rw [own_update_self h, hw]
  · exact own_update_other h hij

omit [DecidableEq τ] in
theorem committed_insert [DecidableEq τ] : (t.insert i r).committed k = t.committed k := rfl

theorem own_insert_of_ne (h : k ≠ t.next) : (t.insert i r).own j k = t.own j k :=
  Versions.own_put_of_ne h

theorem own_insert_self : (t.insert i r).own i t.next = some (some r) := Versions.own_put_self

theorem own_insert_other (h : j ≠ i) : (t.insert i r).own j k = t.own j k := by
  refine Versions.own_put_other h ?_
  simp [Versions.free, (t.unborn t.next (le_refl _)).2]

/-- One row is written; the statement waits while it is another's. -/
def write (t : Table τ ρ) (i : τ) (k : ℕ) (row : Option ρ) : Option (Table τ ρ) :=
  if h : k < t.next ∧ t.rows.free i k then
    some { rows := t.rows.put i k row
           next := t.next
           unborn := fun j hj => by
             obtain ⟨hc, hp⟩ := t.unborn j hj
             have hne : j ≠ k := by omega
             exact ⟨hc, by simp only [Versions.put, Function.update_of_ne hne, hp]⟩ }
  else none

section write

variable {row : Option ρ}

theorem committed_write (h : t.write i k row = some t') : t'.committed = t.committed := by
  unfold write at h
  split at h
  · obtain rfl := Option.some.inj h
    rfl
  · cases h

theorem next_write (h : t.write i k row = some t') : t'.next = t.next := by
  unfold write at h
  split at h
  · obtain rfl := Option.some.inj h
    rfl
  · cases h

theorem own_write_self (h : t.write i k row = some t') : t'.own i k = some row := by
  unfold write at h
  split at h
  · obtain rfl := Option.some.inj h
    exact Versions.own_put_self
  · cases h

theorem own_write_ne {m : ℕ} (h : t.write i k row = some t') (hne : m ≠ k) :
    t'.own j m = t.own j m := by
  unfold write at h
  split at h
  · obtain rfl := Option.some.inj h
    exact Versions.own_put_of_ne hne
  · cases h

theorem own_write_other {m : ℕ} (h : t.write i k row = some t') (hij : j ≠ i) :
    t'.own j m = t.own j m := by
  unfold write at h
  split at h
  next hk =>
    obtain rfl := Option.some.inj h
    exact Versions.own_put_other hij hk.2
  next => cases h

/-- A written row was no other's. -/
theorem own_of_write (h : t.write i k row = some t') (hij : j ≠ i) : t.own j k = none := by
  unfold write at h
  split at h
  next hk => exact Versions.own_of_free hij hk.2
  next => cases h

end write

/-- The rows that the statement finds with `p` are deleted. -/
def deleteWhere (t : Table τ ρ) (i : τ) (p : ρ → Bool) : Option (Table τ ρ) :=
  if (List.range t.next).all fun k => !(t.seen i k).any p || t.rows.free i k then
    some { rows := { t.rows with
             pending := fun k => if (t.seen i k).any p then some (i, none) else t.rows.pending k }
           next := t.next
           unborn := fun k hk => by
             refine ⟨(t.unborn k hk).1, ?_⟩
             simp [seen_unborn hk, (t.unborn k hk).2] }
  else none

section deleteWhere

variable {p : ρ → Bool}

theorem committed_deleteWhere (h : t.deleteWhere i p = some t') :
    t'.committed = t.committed := by
  unfold deleteWhere at h
  split at h
  · obtain rfl := Option.some.inj h
    rfl
  · cases h

/-- A row that is still seen was seen before. -/
theorem own_deleteWhere_self (h : t.deleteWhere i p = some t') :
    t'.own i k = if (t.seen i k).any p then some none else t.own i k := by
  unfold deleteWhere at h
  split at h
  · obtain rfl := Option.some.inj h
    by_cases hp : (t.seen i k).any p = true
    · simp [own, Versions.own, hp, Option.filter]
    · simp [own, Versions.own, hp]
  · cases h

theorem own_deleteWhere_other (h : t.deleteWhere i p = some t') (hij : j ≠ i) :
    t'.own j k = t.own j k := by
  unfold deleteWhere at h
  split at h
  next hall =>
    obtain rfl := Option.some.inj h
    by_cases hp : (t.seen i k).any p = true
    · have hlt : k < t.next := by
        by_contra hge
        simp [seen_unborn (Nat.le_of_not_lt hge)] at hp
      have hfree : t.rows.free i k = true := by
        simpa [hp] using List.all_eq_true.mp hall k (List.mem_range.mpr hlt)
      have hold : t.own j k = none := Versions.own_of_free hij hfree
      rw [hold]
      simp [own, Versions.own, hp, Option.filter, Ne.symm hij]
    · simp [own, Versions.own, hp]
  next => cases h

end deleteWhere

@[simp] theorem committed_commit : (t.commit i).committed k = t.seen i k := rfl

@[simp] theorem own_commit_self : (t.commit i).own i k = none := Versions.own_commit_self

theorem own_commit_other (h : j ≠ i) : (t.commit i).own j k = t.own j k :=
  Versions.own_commit_other h

@[simp] theorem committed_rollback : (t.rollback i).committed k = t.committed k := rfl

@[simp] theorem own_rollback_self : (t.rollback i).own i k = none := Versions.own_rollback_self

theorem own_rollback_other (h : j ≠ i) : (t.rollback i).own j k = t.own j k :=
  Versions.own_rollback_other h

end transactions

end Table
