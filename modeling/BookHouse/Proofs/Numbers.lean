/-
Document numbers are gapless and unique.

A transaction that has taken numbers holds the row, so at most one transaction at a time
has any, and what it has taken continues what is committed.  `Gapless` says just that; a
commit moves the numbers over in order, a rollback forgets them together with the row
version that counted them.  The numbers are distinct as texts because `padNo` can be read
back, whatever the width.
-/
import BookHouse.Platform.CounterDesk
import Mathlib.Data.List.Range

namespace BookHouse

/-! ### Reading a number back -/

theorem toList_pushn (s : String) (c : Char) (n : ℕ) :
    (s.pushn c n).toList = s.toList ++ List.replicate n c := by
  rw [String.pushn_eq_repeat_push]
  induction n with
  | zero => simp [Nat.repeat]
  | succ n ih => rw [Nat.repeat, String.toList_push, ih, List.replicate_succ', List.append_assoc]

/-- Leading zeros do not change what the digits say. -/
theorem ofDigitChars_padNo (pfx : String) (n width : ℕ) :
    ∃ digits : List Char, (padNo pfx n width).toList = pfx.toList ++ digits ∧
      Nat.ofDigitChars 10 digits 0 = n := by
  refine ⟨List.replicate (width - (toString n).length) '0' ++ Nat.toDigits 10 n, ?_, ?_⟩
  · simp only [padNo, String.toList_append, toList_pushn, Nat.toString_eq_repr, Nat.toList_repr]
    simp
  · rw [Nat.ofDigitChars_append, Nat.ofDigitChars_replicate_zero, Nat.mul_zero,
      Nat.ofDigitChars_ten_toDigits]

/-- **Two numbers of a counter that print the same are the same, also past the padding.** -/
theorem padNo_injective (pfx : String) (width : ℕ) :
    Function.Injective fun n => padNo pfx n width := by
  intro n m h
  obtain ⟨digits, hn, hval⟩ := ofDigitChars_padNo pfx n width
  obtain ⟨digits', hm, hval'⟩ := ofDigitChars_padNo pfx m width
  have hsame : pfx.toList ++ digits = pfx.toList ++ digits' := by
    rw [← hn, ← hm]
    exact congrArg String.toList h
  have hdigits : digits = digits' := List.append_cancel_left hsame
  rw [← hval, ← hval', hdigits]

namespace DocumentCounter

/-- The counter after `n` numbers. -/
def after (c : DocumentCounter) (n : ℕ) : DocumentCounter := { c with nextValue := c.nextValue + n }

/-- The next `n` numbers. -/
def numbers (c : DocumentCounter) (n : ℕ) : List String :=
  (List.range' c.nextValue n).map fun v => padNo c.pfx v c.padding

variable {c : DocumentCounter} {m n : ℕ}

@[simp] theorem after_zero : c.after 0 = c := rfl

theorem after_after : (c.after m).after n = c.after (m + n) := by
  simp [after, Nat.add_assoc]

@[simp] theorem numbers_zero : c.numbers 0 = [] := rfl

@[simp] theorem length_numbers : (c.numbers n).length = n := by
  simp [numbers]

/-- What comes after the first `m` numbers continues them. -/
theorem numbers_add : c.numbers (m + n) = c.numbers m ++ (c.after m).numbers n := by
  simp only [numbers, after]
  rw [← List.map_append, List.range'_append_1]

theorem numbers_one : c.numbers 1 = [padNo c.pfx c.nextValue c.padding] := rfl

theorem numbers_nodup : (c.numbers n).Nodup :=
  List.Nodup.map (padNo_injective c.pfx c.padding) List.nodup_range'

end DocumentCounter

namespace CounterDesk

open DocumentCounter

variable {rows : CounterScope → Option DocumentCounter} {s s' t : CounterDesk} {tx : TxId}
  {scope : CounterScope}

/-- The counter a run starts with. -/
def opening (rows : CounterScope → Option DocumentCounter) (scope : CounterScope) :
    DocumentCounter :=
  (rows scope).getD scope.fresh

/-- What is committed, and the versions that are not, count the numbers that were given. -/
structure Gapless (rows : CounterScope → Option DocumentCounter) (s : CounterDesk) : Prop where
  /-- a counter that was there is never deleted -/
  kept : ∀ scope, (rows scope).isSome → (s.table.committed scope).isSome
  row : ∀ scope, (s.table.committed scope).getD (opening rows scope) =
    (opening rows scope).after (s.held scope).length
  held : ∀ scope, s.held scope = (opening rows scope).numbers (s.held scope).length
  /-- a transaction with a version has taken the numbers that it counts -/
  own : ∀ tx scope row, s.table.own tx scope = some row →
    row = some ((opening rows scope).after ((s.held scope).length + (s.taken tx scope).length))
  taken : ∀ tx scope, s.taken tx scope =
    ((opening rows scope).after (s.held scope).length).numbers (s.taken tx scope).length
  idle : ∀ tx scope, s.table.own tx scope = none → s.taken tx scope = []

theorem start_gapless : Gapless rows (start rows) where
  kept _ h := h
  row scope := by
    show ((rows scope).getD _) = _
    cases h : rows scope <;> simp [opening, h, start]
  held _ := rfl
  own tx scope row h := by simp [start] at h
  taken _ _ := rfl
  idle _ _ _ := rfl

/-- What a transaction sees of a counter counts all that was given to it and before. -/
theorem Gapless.seen (h : Gapless rows s) {row : DocumentCounter}
    (hseen : s.table.seen tx scope = some row) :
    row = (opening rows scope).after ((s.held scope).length + (s.taken tx scope).length) := by
  cases hown : s.table.own tx scope with
  | some r =>
      rw [Versions.seen_of_own hown] at hseen
      exact Option.some.inj (hseen.symm.trans (h.own tx scope r hown))
  | none =>
      rw [Versions.seen_of_own_none hown] at hseen
      have hrow := h.row scope
      rw [hseen, Option.getD_some] at hrow
      rw [h.idle tx scope hown]
      exact hrow

theorem rollback_gapless (h : Gapless rows s) : Gapless rows (s.rollback tx) where
  kept := h.kept
  row := h.row
  held := h.held
  own u k row hown := by
    by_cases hu : u = tx
    · subst hu
      simp [rollback] at hown
    · simp only [rollback, Versions.own_rollback_other hu] at hown
      simp only [rollback, Function.update_of_ne hu]
      exact h.own u k row hown
  taken u k := by
    by_cases hu : u = tx
    · subst hu
      simp [rollback]
    · simp only [rollback, Function.update_of_ne hu]
      exact h.taken u k
  idle u k hown := by
    by_cases hu : u = tx
    · subst hu
      simp [rollback]
    · simp only [rollback, Versions.own_rollback_other hu] at hown
      simp only [rollback, Function.update_of_ne hu]
      exact h.idle u k hown

/-- A version that counts what its transaction has taken, the old numbers or one more. -/
theorem Gapless.put (h : Gapless rows s) (hfree : s.table.free tx scope)
    (calling : TxId → Option CounterScope) (numbers : List String) (row : DocumentCounter)
    (hnumbers : numbers = ((opening rows scope).after (s.held scope).length).numbers numbers.length)
    (hrow : row = (opening rows scope).after ((s.held scope).length + numbers.length)) :
    Gapless rows { s with
      table := s.table.put tx scope (some row), calling
      taken := Function.update s.taken tx (Function.update (s.taken tx) scope numbers) } where
  kept := h.kept
  row := h.row
  held := h.held
  own u k r hown := by
    by_cases hu : u = tx
    · subst hu
      by_cases hk : k = scope
      · subst hk
        simp only [Versions.own_put_self, Option.some.injEq] at hown
        simp only [Function.update_self]
        rw [← hown, hrow]
      · simp only [Versions.own_put_of_ne hk] at hown
        simp only [Function.update_self, Function.update_of_ne hk]
        exact h.own u k r hown
    · simp only [Versions.own_put_other hu hfree] at hown
      simp only [Function.update_of_ne hu]
      exact h.own u k r hown
  taken u k := by
    by_cases hu : u = tx
    · subst hu
      by_cases hk : k = scope
      · subst hk
        simp only [Function.update_self]
        exact hnumbers
      · simp only [Function.update_self, Function.update_of_ne hk]
        exact h.taken u k
    · simp only [Function.update_of_ne hu]
      exact h.taken u k
  idle u k hown := by
    by_cases hu : u = tx
    · subst hu
      by_cases hk : k = scope
      · subst hk
        simp at hown
      · simp only [Versions.own_put_of_ne hk] at hown
        simp only [Function.update_self, Function.update_of_ne hk]
        exact h.idle u k hown
    · simp only [Versions.own_put_other hu hfree] at hown
      simp only [Function.update_of_ne hu]
      exact h.idle u k hown

/-- Nobody has taken a number of a counter that is not there. -/
theorem Gapless.unused (h : Gapless rows s) (hcommitted : s.table.committed scope = none) :
    (s.held scope).length = 0 ∧ opening rows scope = scope.fresh := by
  have hrows : rows scope = none := by
    cases hr : rows scope with
    | none => rfl
    | some r =>
        have := h.kept scope (by simp [hr])
        simp [hcommitted] at this
  have hrow := h.row scope
  rw [hcommitted, Option.getD_none] at hrow
  have hnext := congrArg nextValue hrow
  simp only [after] at hnext
  exact ⟨by omega, by rw [opening, hrows]; rfl⟩

theorem insert_gapless (h : Gapless rows s) (hstep : s.insert tx scope = some s') :
    Gapless rows s' := by
  unfold insert at hstep
  split at hstep
  · cases hstep
  simp only at hstep
  split at hstep
  · obtain rfl := Option.some.inj hstep
    exact ⟨h.kept, h.row, h.held, h.own, h.taken, h.idle⟩
  rename_i hnone
  split at hstep
  · rename_i hfree
    obtain rfl := Option.some.inj hstep
    simp only [Bool.or_eq_true, not_or, Option.not_isSome_iff_eq_none] at hnone
    obtain ⟨hlen, hfresh⟩ := h.unused hnone.1
    have htaken : s.taken tx scope = [] := h.idle tx scope hnone.2
    have hsame : Function.update s.taken tx (Function.update (s.taken tx) scope []) = s.taken := by
      rw [← htaken, Function.update_eq_self, Function.update_eq_self]
    have hput := h.put hfree (Function.update s.calling tx (some scope)) [] scope.fresh rfl
      (by rw [hlen, hfresh]; rfl)
    rwa [hsame] at hput
  · cases hstep

theorem update_gapless (h : Gapless rows s) (hstep : s.update tx = some s') :
    Gapless rows s' := by
  unfold update at hstep
  split at hstep
  · cases hstep
  rename_i scope _
  split at hstep
  · rename_i hfree
    split at hstep
    · obtain rfl := Option.some.inj hstep
      exact rollback_gapless h
    · rename_i row hseen
      obtain rfl := Option.some.inj hstep
      have hrow := h.seen hseen
      refine h.put hfree _ _ _ ?_ ?_
      · rw [List.length_append, List.length_singleton, numbers_add, ← h.taken tx scope, after_after,
          numbers_one, ← hrow]
      · rw [List.length_append, List.length_singleton, hrow, ← Nat.add_assoc]
        rfl
  · cases hstep

/-- A commit moves what the transaction has taken to what is held. -/
theorem commit_gapless (h : Gapless rows s) (hstep : s.commit tx = some s') :
    Gapless rows s' := by
  unfold commit at hstep
  split at hstep
  · cases hstep
  obtain rfl := Option.some.inj hstep
  -- where another transaction has a version, this one has taken nothing
  have hother : ∀ u k r, u ≠ tx → s.table.own u k = some r → s.taken tx k = [] := by
    intro u k r hu hown
    refine h.idle tx k ?_
    cases hown' : s.table.own tx k with
    | none => rfl
    | some r' => exact absurd (Versions.own_inj hown hown') hu
  refine ⟨?_, ?_, ?_, ?_, ?_, ?_⟩
  · intro k hk
    simp only [Versions.committed_commit]
    cases hown : s.table.own tx k with
    | none => rw [Versions.seen_of_own_none hown]; exact h.kept k hk
    | some r => rw [Versions.seen_of_own hown, h.own tx k r hown]; rfl
  · intro k
    simp only [Versions.committed_commit, List.length_append]
    cases hown : s.table.own tx k with
    | none => rw [Versions.seen_of_own_none hown, h.idle tx k hown]; exact h.row k
    | some r => rw [Versions.seen_of_own hown, h.own tx k r hown]; rfl
  · intro k
    simp only [List.length_append, numbers_add]
    rw [← h.held k, ← h.taken tx k]
  · intro u k r hown
    by_cases hu : u = tx
    · subst hu
      simp at hown
    · simp only [Versions.own_commit_other hu] at hown
      simp only [Function.update_of_ne hu, hother u k r hu hown, List.append_nil]
      exact h.own u k r hown
  · intro u k
    by_cases hu : u = tx
    · subst hu
      simp
    · simp only [Function.update_of_ne hu]
      cases hown : s.table.own u k with
      | none => rw [h.idle u k hown]; rfl
      | some r =>
          rw [hother u k r hu hown, List.append_nil]
          exact h.taken u k
  · intro u k hown
    by_cases hu : u = tx
    · subst hu
      simp
    · simp only [Versions.own_commit_other hu] at hown
      simp only [Function.update_of_ne hu]
      exact h.idle u k hown

theorem step_gapless {a : CounterAction} (h : Gapless rows s) (hstep : counterStep s a = some s') :
    Gapless rows s' := by
  cases a with
  | insert tx scope => exact insert_gapless h hstep
  | update tx => exact update_gapless h hstep
  | commit tx => exact commit_gapless h hstep
  | rollback tx =>
      obtain rfl := Option.some.inj hstep
      exact rollback_gapless h

/-- The counter as it is committed. -/
def counter (rows : CounterScope → Option DocumentCounter) (s : CounterDesk)
    (scope : CounterScope) : DocumentCounter :=
  (s.table.committed scope).getD (opening rows scope)

/-- **In every state of every run the committed numbers of a scope are the consecutive ones
from its start, and no two of them are the same text.** -/
theorem numbers_gapless (rows : CounterScope → Option DocumentCounter) (as : List CounterAction)
    (t : CounterDesk) (scope : CounterScope)
    (hrun : Machine.runFrom counterStep (start rows) as = some t) :
    (opening rows scope).nextValue ≤ (counter rows t scope).nextValue ∧
      t.held scope =
        (List.range' (opening rows scope).nextValue
            ((counter rows t scope).nextValue - (opening rows scope).nextValue)).map
          (fun v => padNo (opening rows scope).pfx v (opening rows scope).padding) ∧
      (t.held scope).Nodup := by
  have h : Gapless rows t :=
    Machine.runFrom_invariant (fun _ _ _ hi hs => step_gapless hi hs) as _ t start_gapless hrun
  have hnext : (counter rows t scope).nextValue =
      (opening rows scope).nextValue + (t.held scope).length := by
    rw [counter, h.row scope]
    rfl
  refine ⟨by omega, ?_, ?_⟩
  · rw [hnext, Nat.add_sub_cancel_left]
    exact h.held scope
  · rw [h.held scope]
    exact numbers_nodup

/-- Two first calls race in an empty database: the first one rolls back, the second one has
waited, and a third one follows. -/
def firstCalls : List CounterAction :=
  [.insert 0 .order, .update 0, .rollback 0, .insert 1 .order, .update 1, .insert 1 .purchase,
   .update 1, .commit 1, .insert 2 .order, .update 2, .commit 2]

theorem numbers_gapless_race : ∃ t,
    Machine.runFrom counterStep (start fun _ => none) firstCalls = some t ∧
      t.held .order = ["CLO-2042", "CLO-2043"] ∧
      (opening (fun _ => none) .order).nextValue ≤ (counter (fun _ => none) t .order).nextValue ∧
      t.held .order =
        (List.range' (opening (fun _ => none) .order).nextValue
            ((counter (fun _ => none) t .order).nextValue -
              (opening (fun _ => none) .order).nextValue)).map
          (fun v => padNo (opening (fun _ => none) .order).pfx v
            (opening (fun _ => none) .order).padding) ∧
      (t.held .order).Nodup := by
  have hruns : (Machine.runFrom counterStep (start fun _ => none) firstCalls).any
      (fun t => t.held .order = ["CLO-2042", "CLO-2043"]) = true := by
    decide +kernel
  obtain ⟨t, ht, hheld⟩ := (Option.any_eq_true _ _).mp hruns
  exact ⟨t, ht, of_decide_eq_true hheld, numbers_gapless _ firstCalls t .order ht⟩

/-! ### A call that nothing interrupts -/

/-- After the upsert the transaction sees a counter: the one it saw, or a fresh one. -/
theorem insert_seen (hs : Gapless rows s) (h : s.insert tx scope = some t) :
    t.calling tx = some scope ∧ t.taken = s.taken ∧
      t.table.seen tx scope = some ((s.table.seen tx scope).getD scope.fresh) := by
  unfold insert at h
  split at h
  · cases h
  simp only at h
  split at h
  · rename_i hthere
    obtain rfl := Option.some.inj h
    refine ⟨by simp, rfl, ?_⟩
    cases hown : s.table.own tx scope with
    | none =>
        rw [hown] at hthere
        obtain ⟨row, hrow⟩ := Option.isSome_iff_exists.mp (by simpa using hthere)
        simp only [Versions.seen_of_own_none hown, hrow, Option.getD_some]
    | some row =>
        obtain rfl := hs.own tx scope row hown
        simp only [Versions.seen_of_own hown, Option.getD_some]
  rename_i hnone
  split at h
  · obtain rfl := Option.some.inj h
    simp only [Bool.or_eq_true, not_or, Option.not_isSome_iff_eq_none] at hnone
    refine ⟨by simp, rfl, ?_⟩
    rw [Versions.seen_of_own Versions.own_put_self, Versions.seen_of_own_none hnone.2, hnone.1]
    rfl
  · cases h

/-- What `nextNumber` returns and leaves, from the counter it finds. -/
theorem nextNumber_eq (counters : List DocumentCounter) (scope : CounterScope) {row : DocumentCounter}
    (hrow : (Rows.lookup DocumentCounter.scope scope counters).getD scope.fresh = row) :
    (nextNumber counters scope).1 = padNo row.pfx row.nextValue row.padding ∧
      Rows.lookup DocumentCounter.scope scope (nextNumber counters scope).2 = some (row.after 1) := by
  have hfresh : scope.fresh.scope = scope := by cases scope <;> rfl
  have hthere : Rows.lookup DocumentCounter.scope scope
      (if counters.any (·.scope = scope) then counters else counters ++ [scope.fresh]) =
        some row := by
    cases hlook : Rows.lookup DocumentCounter.scope scope counters with
    | some c =>
        have hany : counters.any (·.scope = scope) = true :=
          List.any_eq_true.mpr ⟨c, Rows.mem_of_lookup hlook, by simp [Rows.key_of_lookup hlook]⟩
        rw [if_pos hany, hlook, ← hrow, hlook, Option.getD_some]
    | none =>
        have hmem : scope ∉ counters.map DocumentCounter.scope := by
          rw [← Rows.lookup_isSome, hlook]
          simp
        have hany : ¬ counters.any (·.scope = scope) = true := by
          intro h
          obtain ⟨c, hc, hscope⟩ := List.any_eq_true.mp h
          exact hmem (List.mem_map.mpr ⟨c, hc, by simpa using hscope⟩)
        rw [if_neg hany, Rows.lookup_append_new hmem hfresh, ← hrow, hlook, Option.getD_none]
  constructor
  · simp only [nextNumber, hthere, Option.getD_some]
  · have hkey : ∀ c : DocumentCounter,
        { c with nextValue := c.nextValue + 1 }.scope = c.scope := fun _ => rfl
    simp only [nextNumber]
    rw [Rows.lookup_modify_self hkey, hthere]
    rfl

/-- **A call that nothing interrupts takes the number that `nextNumber` takes, and leaves the
counter as `nextNumber` does.** -/
theorem next_eq_nextNumber {counters : List DocumentCounter} {u : CounterDesk}
    (hs : Gapless rows s)
    (hsees : s.table.seen tx scope = Rows.lookup DocumentCounter.scope scope counters)
    (hinsert : s.insert tx scope = some u) (hupdate : u.update tx = some t) :
    t.taken tx scope = s.taken tx scope ++ [(nextNumber counters scope).1] ∧
      t.table.seen tx scope =
        Rows.lookup DocumentCounter.scope scope (nextNumber counters scope).2 := by
  obtain ⟨hcalling, htaken, hseen⟩ := insert_seen hs hinsert
  rw [hsees] at hseen
  obtain ⟨hnumber, hleft⟩ := nextNumber_eq counters scope rfl
  unfold update at hupdate
  simp only [hcalling, hseen] at hupdate
  split at hupdate
  · obtain rfl := Option.some.inj hupdate
    refine ⟨?_, ?_⟩
    · simp only [Function.update_self, htaken, hnumber]
    · rw [Versions.seen_of_own Versions.own_put_self, hleft]
      rfl
  · cases hupdate

end CounterDesk

end BookHouse
