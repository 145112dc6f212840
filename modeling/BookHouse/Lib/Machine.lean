/-
Runs of a machine that takes labelled steps.

A machine is a partial step function: `step s a = none` says that the action `a`
is not enabled in `s`.  All the nondeterminism of a system is in the choice of the
actions, so a run is just a list of them, and it can be evaluated.

Two things are proved once here and used for every machine.  An invariant that each
step preserves holds at the end of each run; and when the steps preserve it only
where some condition is met, it holds at the end of the runs whose steps all met
that condition.  The second is what a defect with a known trigger needs: the runs
that stay clear of the trigger are fine.
-/
import Mathlib.Data.List.Basic

namespace Machine

variable {σ α : Type*}

/-- The state after a list of actions, `none` when one of them was not enabled. -/
def runFrom (step : σ → α → Option σ) : σ → List α → Option σ
  | s, [] => some s
  | s, a :: rest =>
    match step s a with
    | none => none
    | some s' => runFrom step s' rest

/-- Every action of the run is taken in a state that admits it. -/
def GuardedRun (step : σ → α → Option σ) (ok : σ → α → Prop) : σ → List α → Prop
  | _, [] => True
  | s, a :: rest => ok s a ∧ ∀ s', step s a = some s' → GuardedRun step ok s' rest

/-- Every state the run passes through, the first and the last included. -/
def Along (step : σ → α → Option σ) (P : σ → Prop) : σ → List α → Prop
  | s, [] => P s
  | s, a :: rest => P s ∧ ∀ s', step s a = some s' → Along step P s' rest

variable {step : σ → α → Option σ} {ok : σ → α → Prop} {I P : σ → Prop}

instance decidableGuardedRun [∀ s a, Decidable (ok s a)] :
    ∀ (as : List α) (s : σ), Decidable (GuardedRun step ok s as)
  | [], _ => isTrue trivial
  | a :: rest, s =>
    haveI : Decidable (∀ s', step s a = some s' → GuardedRun step ok s' rest) :=
      match h : step s a with
      | none => isTrue fun _ hs => by cases hs
      | some s' =>
        match decidableGuardedRun rest s' with
        | isTrue hg => isTrue fun _ hs => Option.some.inj hs ▸ hg
        | isFalse hg => isFalse fun hall => hg (hall s' rfl)
    inferInstanceAs (Decidable (ok s a ∧ _))

@[simp] theorem runFrom_nil (s : σ) : runFrom step s ([] : List α) = some s := rfl

theorem runFrom_cons_of_step {s s' : σ} {a : α} {rest : List α} (h : step s a = some s') :
    runFrom step s (a :: rest) = runFrom step s' rest := by
  simp only [runFrom, h]

/-- A run that starts with `a` takes that step and goes on from where it leads. -/
theorem runFrom_cons {s t : σ} {a : α} {rest : List α}
    (h : runFrom step s (a :: rest) = some t) :
    ∃ s', step s a = some s' ∧ runFrom step s' rest = some t := by
  cases hs : step s a with
  | none => simp [runFrom, hs] at h
  | some s' => exact ⟨s', rfl, by rwa [runFrom_cons_of_step hs] at h⟩

/-- A run of two lists is a run of the first and then of the second. -/
theorem runFrom_append {as bs : List α} {s t : σ} (h : runFrom step s (as ++ bs) = some t) :
    ∃ s', runFrom step s as = some s' ∧ runFrom step s' bs = some t := by
  induction as generalizing s with
  | nil => exact ⟨s, rfl, h⟩
  | cons a rest ih =>
      obtain ⟨s₁, hs₁, hrest⟩ := runFrom_cons h
      obtain ⟨s', hs', hbs⟩ := ih hrest
      exact ⟨s', by rw [runFrom_cons_of_step hs₁, hs'], hbs⟩

/-- What each admitted step preserves, each guarded run preserves. -/
theorem guarded_invariant
    (hstep : ∀ s a s', I s → ok s a → step s a = some s' → I s') :
    ∀ (as : List α) (s t : σ), I s → GuardedRun step ok s as →
      runFrom step s as = some t → I t := by
  intro as
  induction as with
  | nil =>
      intro s t hs _ hrun
      have hst : s = t := by simpa using hrun
      exact hst ▸ hs
  | cons a rest ih =>
      intro s t hs hg hrun
      obtain ⟨s', hsa, hrest⟩ := runFrom_cons hrun
      exact ih s' t (hstep s a s' hs hg.1 hsa) (hg.2 s' hsa) hrest

/-- A condition that always holds admits every run. -/
theorem guardedRun_of_forall (h : ∀ s a, ok s a) :
    ∀ (as : List α) (s : σ), GuardedRun step ok s as := by
  intro as
  induction as with
  | nil => intro s; trivial
  | cons a rest ih => intro s; exact ⟨h s a, fun s' _ => ih s'⟩

/-- A condition on the actions alone. -/
theorem guardedRun_of_mem {ok : α → Prop} :
    ∀ (as : List α) (s : σ), (∀ a ∈ as, ok a) → GuardedRun step (fun _ a => ok a) s as := by
  intro as
  induction as with
  | nil => intro s _; trivial
  | cons a rest ih =>
      intro s h
      exact ⟨h a List.mem_cons_self, fun s' _ => ih s' fun b hb => h b (List.mem_cons_of_mem a hb)⟩

/-- A run that meets two conditions at every step meets both. -/
theorem GuardedRun.and {ok' : σ → α → Prop} :
    ∀ (as : List α) (s : σ), GuardedRun step ok s as → GuardedRun step ok' s as →
      GuardedRun step (fun s a => ok s a ∧ ok' s a) s as := by
  intro as
  induction as with
  | nil => intro s _ _; trivial
  | cons a rest ih =>
      intro s h h'
      exact ⟨⟨h.1, h'.1⟩, fun s' hs => ih s' (h.2 s' hs) (h'.2 s' hs)⟩

/-- What a condition gives where an invariant holds, it gives along the run. -/
theorem GuardedRun.imp {ok' : σ → α → Prop} (hstep : ∀ s a s', I s → step s a = some s' → I s')
    (hok : ∀ s a, I s → ok s a → ok' s a) :
    ∀ (as : List α) (s : σ), I s → GuardedRun step ok s as → GuardedRun step ok' s as := by
  intro as
  induction as with
  | nil => intro s _ _; trivial
  | cons a rest ih =>
      intro s hs h
      exact ⟨hok s a hs h.1, fun s' hs' => ih s' (hstep s a s' hs hs') (h.2 s' hs')⟩

/-- What each step preserves, each run preserves. -/
theorem runFrom_invariant (hstep : ∀ s a s', I s → step s a = some s' → I s') :
    ∀ (as : List α) (s t : σ), I s → runFrom step s as = some t → I t := by
  intro as s t hs hrun
  have hguarded : ∀ s a s', I s → (fun _ _ => True : σ → α → Prop) s a →
      step s a = some s' → I s' := fun s a s' hi _ ha => hstep s a s' hi ha
  exact guarded_invariant hguarded as s t hs (guardedRun_of_forall (fun _ _ => trivial) as s) hrun

/-- The invariant also holds of every state a guarded run passes through. -/
theorem along_of_guarded
    (hstep : ∀ s a s', I s → ok s a → step s a = some s' → I s') :
    ∀ (as : List α) (s : σ), I s → GuardedRun step ok s as → Along step I s as := by
  intro as
  induction as with
  | nil => intro s hs _; exact hs
  | cons a rest ih =>
      intro s hs hg
      exact ⟨hs, fun s' hsa => ih s' (hstep s a s' hs hg.1 hsa) (hg.2 s' hsa)⟩

/-- Where a step keeps `P` exactly when it is admitted, a run stays in `P` exactly when all
its steps are. -/
theorem along_iff_guarded
    (hstep : ∀ s a s', I s → P s → step s a = some s' → I s' ∧ (P s' ↔ ok s a)) :
    ∀ (as : List α) (s t : σ), I s → P s → runFrom step s as = some t →
      (Along step P s as ↔ GuardedRun step ok s as) := by
  intro as
  induction as with
  | nil =>
      intro s t _ hs _
      exact ⟨fun _ => trivial, fun _ => hs⟩
  | cons a rest ih =>
      intro s t hi hs hrun
      obtain ⟨s', hsa, hrest⟩ := runFrom_cons hrun
      obtain ⟨hi', hiff⟩ := hstep s a s' hi hs hsa
      constructor
      · rintro ⟨-, halong⟩
        have hrun' := halong s' hsa
        have hs' : P s' := by
          cases rest with
          | nil => exact hrun'
          | cons b more => exact hrun'.1
        refine ⟨hiff.mp hs', fun x hx => ?_⟩
        obtain rfl := Option.some.inj (hsa.symm.trans hx)
        exact (ih s' t hi' hs' hrest).mp hrun'
      · rintro ⟨hok, hguard⟩
        refine ⟨hs, fun x hx => ?_⟩
        obtain rfl := Option.some.inj (hsa.symm.trans hx)
        exact (ih s' t hi' (hiff.mpr hok) hrest).mpr (hguard s' hsa)

theorem Along.head {s : σ} {as : List α} (h : Along step P s as) : P s := by
  cases as with
  | nil => exact h
  | cons a rest => exact h.1

theorem Along.mono {Q : σ → Prop} (hPQ : ∀ s, P s → Q s) :
    ∀ (as : List α) (s : σ), Along step P s as → Along step Q s as := by
  intro as
  induction as with
  | nil => intro s h; exact hPQ s h
  | cons a rest ih => intro s h; exact ⟨hPQ s h.1, fun s' hs => ih s' (h.2 s' hs)⟩

end Machine
