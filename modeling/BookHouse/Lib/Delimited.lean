/-
Texts that can be told apart where they end.

A text is told apart from others when, whatever comes after it, the whole can be cut in only
one way.  Runs of characters of one kind, and lists of such texts between a separator and a
closing mark, are cut in one way too.
-/
import Mathlib.Data.List.Basic

namespace Delimited

universe u v w

variable {α : Type u}

/-- A rest that begins with a stop, or with nothing. -/
def Stopped (stop : α → Prop) (rest : List α) : Prop := ∀ x, rest.head? = some x → stop x

/-- Whatever stopped rests follow, `s` and `t` are cut off at the same place, and then `C`. -/
def Cut (stop : α → Prop) (s t : List α) (C : Prop) : Prop :=
  ∀ r r', Stopped stop r → Stopped stop r' → s ++ r = t ++ r' → C ∧ r = r'

variable {stop : α → Prop} {s t r r' : List α} {C D : Prop}

theorem Stopped.cons {x : α} (h : stop x) : Stopped stop (x :: r) := by
  intro y hy
  obtain rfl := Option.some.inj hy
  exact h

theorem Stopped.nil : Stopped stop [] := by
  intro y hy
  cases hy

theorem Cut.mono (h : Cut stop s t C) (himp : C → D) : Cut stop s t D := by
  intro r r' hr hr' heq
  obtain ⟨hc, hrest⟩ := h r r' hr hr' heq
  exact ⟨himp hc, hrest⟩

/-- Without a rest the two texts are the same only if `C`. -/
theorem Cut.self (h : Cut stop s t C) (heq : s = t) : C :=
  (h [] [] Stopped.nil Stopped.nil (by rw [heq])).1

/-- A run of characters of one kind ends at the first of another. -/
theorem split_run {p : α → Prop} : ∀ s t : List α, (∀ x ∈ s, p x) → (∀ x ∈ t, p x) →
    Cut (fun x => ¬ p x) s t (s = t) := by
  intro s
  induction s with
  | nil =>
      intro t _ ht r r' hr _ heq
      cases t with
      | nil => exact ⟨rfl, heq⟩
      | cons y t =>
          rw [List.nil_append] at heq
          refine absurd (ht y List.mem_cons_self) (hr y ?_)
          rw [heq]
          rfl
  | cons x s ih =>
      intro t hs ht r r' hr hr' heq
      cases t with
      | nil =>
          rw [List.nil_append] at heq
          refine absurd (hs x List.mem_cons_self) (hr' x ?_)
          rw [← heq]
          rfl
      | cons y t =>
          obtain ⟨rfl, htail⟩ := List.cons.inj heq
          obtain ⟨rfl, hrest⟩ := ih t (fun z hz => hs z (List.mem_cons_of_mem _ hz))
            (fun z hz => ht z (List.mem_cons_of_mem _ hz)) r r' hr hr' htail
          exact ⟨rfl, hrest⟩

/-- In lists that are related element by element, each element has its other. -/
theorem exists_of_forall₂ {β : Type v} {γ : Type w} {R : β → γ → Prop} {xs : List β}
    {ys : List γ} (h : List.Forall₂ R xs ys) : ∀ x ∈ xs, ∃ y ∈ ys, R x y := by
  induction h with
  | nil =>
      intro x hx
      cases hx
  | cons hR _ ih =>
      intro x hx
      rcases List.mem_cons.mp hx with rfl | hx
      · exact ⟨_, List.mem_cons_self, hR⟩
      · obtain ⟨y, hy, hxy⟩ := ih x hx
        exact ⟨y, List.mem_cons_of_mem _ hy, hxy⟩

section joined

variable {β : Type v} {γ : Type w} {enc : β → List α} {enc' : γ → List α} {R : β → γ → Prop}
  {sep close : α}

/-- The elements between separators, up to the closing mark. -/
def joined (sep close : α) (enc : β → List α) (xs : List β) : List α :=
  [sep].intercalate (xs.map enc) ++ [close]

theorem joined_nil : joined sep close enc [] = [close] := rfl

theorem joined_cons (x : β) (xs : List β) : joined sep close enc (x :: xs) =
    enc x ++ (if xs = [] then [close] else sep :: joined sep close enc xs) := by
  cases xs with
  | nil => simp [joined, List.intercalate]
  | cons y ys => simp [joined, List.intercalate]

/-- Lists of texts that are cut in one way are cut in one way, element by element. -/
theorem cut_joined (hne : sep ≠ close) (hsep : stop sep) (hclose : stop close) {any : α → Prop} :
    ∀ (xs : List β) (ys : List γ), (∀ x ∈ xs, ∀ y ∈ ys, Cut stop (enc x) (enc' y) (R x y)) →
      (∀ x ∈ xs, ∃ c rest, enc x = c :: rest ∧ c ≠ close) →
      (∀ y ∈ ys, ∃ c rest, enc' y = c :: rest ∧ c ≠ close) →
      Cut any (joined sep close enc xs) (joined sep close enc' ys) (List.Forall₂ R xs ys) := by
  intro xs
  induction xs with
  | nil =>
      intro ys _ _ hys r r' _ _ heq
      cases ys with
      | nil => exact ⟨List.Forall₂.nil, List.append_cancel_left heq⟩
      | cons y ys =>
          obtain ⟨c, rest, hc, hnot⟩ := hys y List.mem_cons_self
          rw [joined_nil, joined_cons, hc] at heq
          exact absurd (List.cons.inj heq).1.symm hnot
  | cons x xs ih =>
      intro ys hcut hxs hys r r' hr hr' heq
      cases ys with
      | nil =>
          obtain ⟨c, rest, hc, hnot⟩ := hxs x List.mem_cons_self
          rw [joined_nil, joined_cons, hc] at heq
          exact absurd (List.cons.inj heq).1 hnot
      | cons y ys =>
          have hstop : ∀ (b : Prop) [Decidable b] (tail rest : List α),
              Stopped stop ((if b then [close] else sep :: tail) ++ rest) := by
            intro b _ tail rest
            split
            · exact Stopped.cons hclose
            · exact Stopped.cons hsep
          rw [joined_cons, joined_cons, List.append_assoc, List.append_assoc] at heq
          obtain ⟨hR, htail⟩ := hcut x List.mem_cons_self y List.mem_cons_self _ _
            (hstop _ _ _) (hstop _ _ _) heq
          by_cases hx : xs = []
          · subst hx
            rw [if_pos rfl] at htail
            split at htail
            · rename_i hy
              subst hy
              exact ⟨List.Forall₂.cons hR List.Forall₂.nil, List.append_cancel_left htail⟩
            · exact absurd (List.cons.inj htail).1 hne.symm
          · rw [if_neg hx] at htail
            split at htail
            · exact absurd (List.cons.inj htail).1 hne
            · obtain ⟨hall, hrest⟩ := ih ys
                (fun a ha b hb => hcut a (List.mem_cons_of_mem _ ha) b (List.mem_cons_of_mem _ hb))
                (fun a ha => hxs a (List.mem_cons_of_mem _ ha))
                (fun b hb => hys b (List.mem_cons_of_mem _ hb)) r r' hr hr'
                (List.cons.inj htail).2
              exact ⟨List.Forall₂.cons hR hall, hrest⟩

end joined

end Delimited
