/-
Computations that return a result or fail: taking a successful one apart.

A successful sequence of steps is a successful first step followed by a successful
rest, and a successful loop is a chain of successful rounds.  A property of a loop is
then an induction over its list with one lemma about a round.
-/
import Mathlib.Data.List.Forall2

namespace Result

universe u v

variable {ε : Type u} {α β σ : Type v}

theorem bind_ok {x : Except ε α} {f : α → Except ε β} {r : β} :
    (x >>= f) = .ok r ↔ ∃ a, x = .ok a ∧ f a = .ok r := by
  cases x with
  | error e =>
      constructor
      · intro h
        cases h
      · rintro ⟨a, h, -⟩
        cases h
  | ok a =>
      constructor
      · intro h
        exact ⟨a, rfl, h⟩
      · rintro ⟨b, h, hb⟩
        cases h
        exact hb

theorem map_ok {x : Except ε α} {f : α → β} {r : β} :
    x.map f = .ok r ↔ ∃ a, x = .ok a ∧ f a = r := by
  cases x with
  | error e =>
      constructor
      · intro h
        cases h
      · rintro ⟨a, h, -⟩
        cases h
  | ok a =>
      constructor
      · intro h
        exact ⟨a, rfl, Except.ok.inj h⟩
      · rintro ⟨b, h, rfl⟩
        cases h
        rfl

theorem pure_ok {a b : α} : (pure a : Except ε α) = .ok b ↔ a = b := by
  constructor
  · intro h
    cases h
    rfl
  · rintro rfl
    rfl

theorem toOption_some {x : Except ε α} {a : α} : x.toOption = some a ↔ x = .ok a := by
  cases x with
  | error e => simp [Except.toOption]
  | ok b => simp [Except.toOption]

/-- A loop that gives a result gives one for each element. -/
theorem mapM_forall₂ {α β : Type} {f : α → Option β} :
    ∀ {l : List α} {r : List β}, l.mapM f = some r → List.Forall₂ (fun a b => f a = some b) l r := by
  intro l
  induction l with
  | nil =>
      intro r h
      obtain rfl : [] = r := by simpa using h
      exact .nil
  | cons a rest ih =>
      intro r h
      simp only [List.mapM_cons, Option.bind_eq_bind, Option.bind_eq_some_iff, Option.pure_def,
        Option.some.injEq] at h
      obtain ⟨b, hb, bs, hbs, rfl⟩ := h
      exact .cons hb (ih hbs)

theorem exists_of_forall₂ {α β : Type} {R : α → β → Prop} {l : List α} {r : List β} {a : α}
    (h : List.Forall₂ R l r) (ha : a ∈ l) : ∃ b ∈ r, R a b := by
  induction h with
  | nil => cases ha
  | @cons x y xs ys hxy _ ih =>
      rcases List.mem_cons.mp ha with rfl | hmem
      · exact ⟨y, List.mem_cons_self, hxy⟩
      · obtain ⟨b, hb, hR⟩ := ih hmem
        exact ⟨b, List.mem_cons_of_mem _ hb, hR⟩

theorem foldlM_nil_ok {f : σ → α → Except ε σ} {s t : σ} :
    [].foldlM f s = .ok t ↔ s = t := by
  rw [List.foldlM_nil]
  exact pure_ok

theorem foldlM_cons_ok {f : σ → α → Except ε σ} {a : α} {rest : List α} {s t : σ} :
    (a :: rest).foldlM f s = .ok t ↔ ∃ s', f s a = .ok s' ∧ rest.foldlM f s' = .ok t := by
  rw [List.foldlM_cons]
  exact bind_ok

/-- A check that passes on a whole list passes on each of its elements. -/
theorem forM_ok {f : α → Except ε PUnit} :
    ∀ l : List α, l.forM f = .ok PUnit.unit → ∀ a ∈ l, f a = .ok PUnit.unit := by
  intro l
  induction l with
  | nil => intro _ a ha; simp at ha
  | cons x rest ih =>
      intro h a ha
      have hbind : (f x >>= fun _ => rest.forM f) = .ok PUnit.unit := h
      obtain ⟨⟨⟩, hx, hrest⟩ := bind_ok.mp hbind
      rcases List.mem_cons.mp ha with rfl | hr
      · exact hx
      · exact ih hrest a hr

/-- A reflexive and transitive relation that each round keeps, the loop keeps. -/
theorem foldlM_rel {f : σ → α → Except ε σ} {R : σ → σ → Prop} (hrefl : ∀ s, R s s)
    (htrans : ∀ s t u, R s t → R t u → R s u) (hstep : ∀ s a t, f s a = .ok t → R s t) :
    ∀ (l : List α) (s t : σ), l.foldlM f s = .ok t → R s t := by
  intro l
  induction l with
  | nil =>
      intro s t h
      obtain rfl := foldlM_nil_ok.mp h
      exact hrefl s
  | cons a rest ih =>
      intro s t h
      obtain ⟨s', ha, hrest⟩ := foldlM_cons_ok.mp h
      exact htrans s s' t (hstep s a s' ha) (ih s' t hrest)

/-- Two loops whose rounds agree wherever an invariant holds are the same loop. -/
theorem foldlM_congr {f g : σ → α → Except ε σ} {I : σ → List α → Prop}
    (heq : ∀ s a rest, I s (a :: rest) → f s a = g s a)
    (hstep : ∀ s a rest t, I s (a :: rest) → f s a = .ok t → I t rest) :
    ∀ (l : List α) (s : σ), I s l → l.foldlM f s = l.foldlM g s := by
  intro l
  induction l with
  | nil => intro s _; rfl
  | cons a rest ih =>
      intro s h
      rw [List.foldlM_cons, List.foldlM_cons, ← heq s a rest h]
      cases hf : f s a with
      | error e => rfl
      | ok t => exact ih t (hstep s a rest t h hf)

/-- A change of the state that each round commutes with, the loop commutes with. -/
theorem foldlM_comm {f : σ → α → Except ε σ} {φ : σ → σ}
    (h : ∀ s a, f (φ s) a = (f s a).map φ) :
    ∀ (l : List α) (s : σ), l.foldlM f (φ s) = (l.foldlM f s).map φ := by
  intro l
  induction l with
  | nil => intro s; rfl
  | cons a rest ih =>
      intro s
      rw [List.foldlM_cons, List.foldlM_cons, h]
      cases f s a with
      | error e => rfl
      | ok t => exact ih t

/-! ### A failure that does not happen -/

/-- The computation never fails with `e`, and what it returns satisfies `P`. -/
def Spares (e : ε) (P : α → Prop) : Except ε α → Prop
  | .ok a => P a
  | .error f => f ≠ e

section spares

variable {e f : ε} {P : α → Prop} {Q : β → Prop} {x : Except ε α} {a : α}

theorem Spares.ok (h : Spares e P x) (hx : x = .ok a) : P a := by
  rw [hx] at h
  exact h

theorem Spares.ne (h : Spares e P x) : x ≠ .error e := by
  rintro rfl
  exact h rfl

theorem spares_iff : Spares e P x ↔ x ≠ .error e ∧ ∀ a, x = .ok a → P a := by
  constructor
  · intro h
    exact ⟨h.ne, fun _ hx => h.ok hx⟩
  · rintro ⟨hne, hok⟩
    cases x with
    | ok a => exact hok a rfl
    | error f => exact fun hf => hne (congrArg _ hf)

theorem Spares.mono {P' : α → Prop} (h : Spares e P x) (hP : ∀ a, P a → P' a) :
    Spares e P' x := by
  cases x with
  | ok a => exact hP a h
  | error f => exact h

theorem Spares.bind {g : α → Except ε β} (h : Spares e P x)
    (hg : ∀ a, P a → Spares e Q (g a)) : Spares e Q (x >>= g) := by
  cases x with
  | ok a => exact hg a h
  | error f => exact h

theorem Spares.map {g : α → β} (h : Spares e P x) (hg : ∀ a, P a → Q (g a)) :
    Spares e Q (x.map g) := by
  cases x with
  | ok a => exact hg a h
  | error f => exact h

/-- What each round spares and keeps, the loop does. -/
theorem spares_foldlM {I : σ → Prop} {g : σ → α → Except ε σ} :
    ∀ (l : List α) (s : σ), (∀ a ∈ l, ∀ s, I s → Spares e I (g s a)) → I s →
      Spares e I (l.foldlM g s) := by
  intro l
  induction l with
  | nil =>
      intro s _ hs
      exact hs
  | cons a rest ih =>
      intro s hround hs
      rw [List.foldlM_cons]
      refine (hround a List.mem_cons_self s hs).bind fun t ht => ?_
      exact ih t (fun b hb => hround b (List.mem_cons_of_mem _ hb)) ht

theorem spares_forM {g : α → Except ε PUnit} :
    ∀ l : List α, (∀ a ∈ l, Spares e (fun _ => True) (g a)) →
      Spares e (fun _ => True) (l.forM g) := by
  intro l
  induction l with
  | nil => exact fun _ => trivial
  | cons a rest ih =>
      intro hall
      show Spares e _ (g a >>= fun _ => rest.forM g)
      exact (hall a List.mem_cons_self).bind fun _ _ =>
        ih fun b hb => hall b (List.mem_cons_of_mem _ hb)

end spares

end Result
