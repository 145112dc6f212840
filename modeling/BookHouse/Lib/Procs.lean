/-
Processes that run side by side.

The processes of a system are a list in which each keeps its place; a process moves by
being replaced there, and a new one takes the next place.  What the others look like is
unchanged, and a quantity summed over all of them changes by what the one that moved
changed.
-/
import Mathlib.Algebra.BigOperators.Group.List.Basic
import Mathlib.Tactic.Abel

namespace Procs

variable {π M : Type*} {l : List π} {i j : ℕ} {p q r : π}

/-- After a move, a process is the one that moved or one that was there before. -/
theorem get_set (hp : l[i]? = some p) (hr : (l.set i q)[j]? = some r) :
    (j = i ∧ r = q) ∨ (j ≠ i ∧ l[j]? = some r) := by
  have hlt : i < l.length := (List.getElem?_eq_some_iff.mp hp).1
  by_cases hij : i = j
  · subst hij
    rw [List.getElem?_set_self hlt] at hr
    exact .inl ⟨rfl, (Option.some.inj hr).symm⟩
  · rw [List.getElem?_set_ne hij] at hr
    exact .inr ⟨fun hc => hij hc.symm, hr⟩

theorem get_set_self (hp : l[i]? = some p) : (l.set i q)[i]? = some q :=
  List.getElem?_set_self (List.getElem?_eq_some_iff.mp hp).1

theorem get_set_ne (hne : j ≠ i) : (l.set i q)[j]? = l[j]? :=
  List.getElem?_set_ne fun hc => hne hc.symm

/-- After a start, a process is the new one or one that was there before. -/
theorem get_append (hr : (l ++ [q])[j]? = some r) : (j = l.length ∧ r = q) ∨ l[j]? = some r := by
  by_cases hj : j < l.length
  · rw [List.getElem?_append_left hj] at hr
    exact .inr hr
  · rw [List.getElem?_append_right (not_lt.mp hj)] at hr
    obtain ⟨hz, hq⟩ := List.getElem?_eq_some_iff.mp hr
    have hone : j - l.length < 1 := hz
    refine .inl ⟨by omega, ?_⟩
    simpa using hq.symm

theorem get_append_of_some (hp : l[i]? = some p) : (l ++ [q])[i]? = some p := by
  rw [List.getElem?_append_left (List.getElem?_eq_some_iff.mp hp).1]
  exact hp

/-- What holds of every process, and of the one that moved, holds after the move. -/
theorem forall_set {P : π → Prop} (h : ∀ x ∈ l, P x) (hq : P q) : ∀ x ∈ l.set i q, P x := by
  intro x hx
  rcases List.mem_or_eq_of_mem_set hx with hl | rfl
  · exact h x hl
  · exact hq

theorem forall_append {P : π → Prop} (h : ∀ x ∈ l, P x) (hq : P q) : ∀ x ∈ l ++ [q], P x := by
  intro x hx
  rcases List.mem_append.mp hx with hl | hn
  · exact h x hl
  · rw [List.mem_singleton.mp hn]
    exact hq

/-- **A sum over the processes changes by what the one that moved changed.** -/
theorem sum_set [AddCommGroup M] (hp : l[i]? = some p) (f : π → M) :
    ((l.set i q).map f).sum = (l.map f).sum - f p + f q := by
  induction l generalizing i with
  | nil => simp at hp
  | cons a rest ih =>
      cases i with
      | zero =>
          obtain rfl : a = p := by simpa using hp
          simp only [List.set_cons_zero, List.map_cons, List.sum_cons]
          abel
      | succ k =>
          have hk : rest[k]? = some p := by simpa using hp
          simp only [List.set_cons_succ, List.map_cons, List.sum_cons, ih hk]
          abel

/-- A process that moves without changing its share leaves the sum as it was. -/
theorem sum_set_eq [AddCommGroup M] (hp : l[i]? = some p) {f : π → M} (hf : f q = f p) :
    ((l.set i q).map f).sum = (l.map f).sum := by
  rw [sum_set hp, hf, sub_add_cancel]

/-- A process that moves and keeps its share in a selection leaves the selection as it was. -/
theorem filter_map_set {β : Type*} (hp : l[i]? = some p) {c : π → Bool} {f : π → β}
    (hc : c q = c p) (hf : f q = f p) :
    ((l.set i q).filter c).map f = (l.filter c).map f := by
  induction l generalizing i with
  | nil => simp at hp
  | cons a rest ih =>
      cases i with
      | zero =>
          obtain rfl : a = p := by simpa using hp
          by_cases hq : c a = true
          · simp [hc, hq, hf]
          · simp [hc, hq]
      | succ k =>
          have hk : rest[k]? = some p := by simpa using hp
          by_cases ha : c a = true
          · simp [ha, ih hk]
          · simp [ha, ih hk]

/-- A count of the processes changes by what the one that moved changed. -/
theorem countP_set (hp : l[i]? = some p) (c : π → Bool) :
    (l.set i q).countP c + (if c p then 1 else 0) = l.countP c + (if c q then 1 else 0) := by
  induction l generalizing i with
  | nil => simp at hp
  | cons a rest ih =>
      cases i with
      | zero =>
          obtain rfl : a = p := by simpa using hp
          simp only [List.set_cons_zero, List.countP_cons]
          omega
      | succ k =>
          have hk : rest[k]? = some p := by simpa using hp
          have := ih hk
          simp only [List.set_cons_succ, List.countP_cons]
          omega

@[simp] theorem sum_append [AddCommMonoid M] (f : π → M) :
    ((l ++ [q]).map f).sum = (l.map f).sum + f q := by
  simp

end Procs
