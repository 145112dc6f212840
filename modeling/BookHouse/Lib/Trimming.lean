/-
Lists with something blank around them.

A list is blank all through, or it is something tight, that begins and ends with other than
blanks, between two blank ends (`exists_tight`).  Dropping the blanks at either end or at both
is then known from that form, and nothing else about the functions that do it is needed.
-/
import Mathlib.Data.List.DropRight

namespace Trimming

variable {α : Type*} {p : α → Bool} {l pre post x y : List α}

def Blanks (p : α → Bool) (l : List α) : Prop := ∀ a ∈ l, p a = true

/-- Something that begins and ends with other than a blank. -/
structure Tight (p : α → Bool) (l : List α) : Prop where
  ne_nil : l ≠ []
  head : ∀ a, l.head? = some a → p a = false
  last : ∀ a, l.getLast? = some a → p a = false

theorem Blanks.nil : Blanks p [] := by
  intro a ha
  cases ha

theorem Blanks.append (hx : Blanks p x) (hy : Blanks p y) : Blanks p (x ++ y) := fun a ha =>
  (List.mem_append.mp ha).elim (hx a) (hy a)

theorem Blanks.singleton {a : α} (h : p a = true) : Blanks p [a] := by
  intro b hb
  rwa [List.mem_singleton.mp hb]

theorem not_blank_of_mem {a : α} (ha : a ∈ l) (h : p a = false) : ¬Blanks p l := fun hb => by
  rw [hb a ha] at h
  cases h

theorem Tight.not_blank (h : Tight p x) : ¬Blanks p x := by
  obtain ⟨a, rest, rfl⟩ := List.exists_cons_of_ne_nil h.ne_nil
  exact not_blank_of_mem List.mem_cons_self (h.head a rfl)

theorem Tight.append (hx : Tight p x) (hy : Tight p y) (mid : List α) :
    Tight p (x ++ mid ++ y) := by
  obtain ⟨a, rest, rfl⟩ := List.exists_cons_of_ne_nil hx.ne_nil
  refine ⟨by simp, fun b hb => hx.head b hb, fun b hb => hy.last b ?_⟩
  rwa [List.getLast?_append_of_ne_nil _ hy.ne_nil] at hb

/-- Nothing tight ends with a blank end. -/
theorem Tight.eq_nil_of_blank (h : Tight p (x ++ y)) (hy : Blanks p y) : y = [] := by
  by_contra hne
  have hlast := h.last (y.getLast hne) (by
    rw [List.getLast?_append_of_ne_nil _ hne, List.getLast?_eq_getLast_of_ne_nil hne])
  rw [hy _ (List.getLast_mem hne)] at hlast
  cases hlast

theorem Tight.suffix (h : Tight p (x ++ y)) (hne : y ≠ [])
    (hhead : ∀ a, y.head? = some a → p a = false) : Tight p y :=
  ⟨hne, hhead, fun a ha => h.last a (by rwa [List.getLast?_append_of_ne_nil _ hne])⟩

/-! ### Dropping the blanks -/

theorem dropWhile_of_head (h : ∀ a, l.head? = some a → p a = false) : l.dropWhile p = l := by
  cases l with
  | nil => rfl
  | cons a rest => exact List.dropWhile_cons_of_neg (by simp [h a rfl])

theorem dropWhile_append (hpre : Blanks p pre) (hx : ∀ a, x.head? = some a → p a = false) :
    (pre ++ x).dropWhile p = x := by
  rw [List.dropWhile_append_of_pos hpre, dropWhile_of_head hx]

theorem rdropWhile_append (hpost : Blanks p post) (hx : ∀ a, x.getLast? = some a → p a = false) :
    (x ++ post).rdropWhile p = x := by
  have hback : Blanks p post.reverse := fun a ha => hpost a (List.mem_reverse.mp ha)
  rw [List.rdropWhile, List.reverse_append, dropWhile_append hback, List.reverse_reverse]
  intro a ha
  exact hx a (by rwa [List.head?_reverse] at ha)

theorem head_dropWhile (l : List α) : ∀ a, (l.dropWhile p).head? = some a → p a = false := by
  induction l with
  | nil =>
      intro a ha
      cases ha
  | cons b rest ih =>
      cases hb : p b with
      | true => rwa [List.dropWhile_cons_of_pos hb]
      | false =>
          rw [List.dropWhile_cons_of_neg (by simp [hb])]
          rintro a ha
          rwa [← Option.some.inj ha]

/-- What was dropped from the front is blank. -/
theorem exists_dropWhile (l : List α) : ∃ pre, Blanks p pre ∧ l = pre ++ l.dropWhile p :=
  ⟨l.takeWhile p, fun _ ha => List.mem_takeWhile_imp ha, List.takeWhile_append_dropWhile.symm⟩

theorem getLast_rdropWhile (l : List α) :
    ∀ a, (l.rdropWhile p).getLast? = some a → p a = false := by
  intro a ha
  rw [List.rdropWhile, List.getLast?_reverse] at ha
  exact head_dropWhile _ a ha

theorem exists_rdropWhile (l : List α) : ∃ post, Blanks p post ∧ l = l.rdropWhile p ++ post :=
  ⟨l.rtakeWhile p, fun _ ha => List.mem_rtakeWhile_imp ha,
    List.rdropWhile_append_rtakeWhile.symm⟩

/-- **A list is blank, or something tight between blanks.** -/
theorem exists_tight (p : α → Bool) (l : List α) : Blanks p l ∨
    ∃ pre x post, Blanks p pre ∧ Tight p x ∧ Blanks p post ∧ l = pre ++ x ++ post := by
  obtain ⟨pre, hpre, hl⟩ := exists_dropWhile (p := p) l
  obtain ⟨post, hpost, hrest⟩ := exists_rdropWhile (p := p) (l.dropWhile p)
  by_cases hnil : (l.dropWhile p).rdropWhile p = []
  · rw [hnil, List.nil_append] at hrest
    left
    rw [hl, hrest]
    exact hpre.append hpost
  · refine Or.inr ⟨pre, _, post, hpre, ⟨hnil, fun a ha => ?_, getLast_rdropWhile _⟩, hpost, ?_⟩
    · refine head_dropWhile l a ?_
      rw [hrest, List.head?_append_of_ne_nil _ hnil]
      exact ha
    · rw [List.append_assoc, ← hrest]
      exact hl

theorem strip_append (hpre : Blanks p pre) (hx : Tight p x) (hpost : Blanks p post) :
    ((pre ++ x ++ post).dropWhile p).rdropWhile p = x := by
  rw [List.append_assoc, List.dropWhile_append_of_pos hpre, dropWhile_of_head,
    rdropWhile_append hpost hx.last]
  intro a ha
  rw [List.head?_append_of_ne_nil _ hx.ne_nil] at ha
  exact hx.head a ha

theorem strip_blank (h : Blanks p l) : (l.dropWhile p).rdropWhile p = [] := by
  rw [List.dropWhile_eq_nil_iff.mpr h, List.rdropWhile_nil]

theorem Tight.strip (hx : Tight p x) : (x.dropWhile p).rdropWhile p = x := by
  simpa using strip_append Blanks.nil hx Blanks.nil

end Trimming
