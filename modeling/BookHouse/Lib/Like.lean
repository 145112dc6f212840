/-
Patterns of SQL's LIKE.

A pattern is read into items: a character that stands for itself, one that stands for any
character, and one that stands for any text.  An escape character takes the meaning from the
one after it, and has to have one after it.

What is proved here is what escaping is for: a text that is escaped means itself, so between
two signs for any text it asks whether it occurs, and before one whether the text begins
with it.  Ignoring case does not disturb that, as long as the signs are no letters.
-/
import Mathlib.Data.List.Infix

namespace Like

/-- The characters with a meaning of their own. -/
structure Signs (α : Type*) where
  many : α
  one : α
  escape : α
  many_ne_one : many ≠ one
  many_ne_escape : many ≠ escape
  one_ne_escape : one ≠ escape

inductive Item (α : Type*)
  | lit (c : α)
  /-- any character -/
  | one
  /-- any text -/
  | many
deriving DecidableEq, Repr

variable {α : Type*}

/-- What a pattern is true of. -/
inductive Matches : List (Item α) → List α → Prop
  | nil : Matches [] []
  | lit {p : List (Item α)} {s : List α} (c : α) (h : Matches p s) : Matches (.lit c :: p) (c :: s)
  | one {p : List (Item α)} {s : List α} (c : α) (h : Matches p s) : Matches (.one :: p) (c :: s)
  | many {p : List (Item α)} {s : List α} (skipped : List α) (h : Matches p s) :
      Matches (.many :: p) (skipped ++ s)

section matches_

variable {p q : List (Item α)} {s t : List α}

theorem matches_nil : Matches ([] : List (Item α)) s ↔ s = [] := by
  constructor
  · intro h
    cases h
    rfl
  · rintro rfl
    exact .nil

theorem matches_many : Matches (.many :: p) s ↔ ∃ r, r <:+ s ∧ Matches p r := by
  constructor
  · intro h
    cases h with
    | many skipped h => exact ⟨_, List.suffix_append _ _, h⟩
  · rintro ⟨r, ⟨skipped, rfl⟩, h⟩
    exact .many skipped h

theorem Matches.append (hp : Matches p s) (hq : Matches q t) : Matches (p ++ q) (s ++ t) := by
  induction hp with
  | nil => exact hq
  | lit c _ ih => exact .lit c ih
  | one c _ ih => exact .one c ih
  | many skipped _ ih =>
      rw [List.append_assoc]
      exact .many skipped ih

/-- Two patterns in a row divide the text between them. -/
theorem matches_append : Matches (p ++ q) s ↔ ∃ a b, s = a ++ b ∧ Matches p a ∧ Matches q b := by
  constructor
  · induction p generalizing s with
    | nil =>
        intro h
        exact ⟨[], s, rfl, .nil, h⟩
    | cons item p ih =>
        intro h
        rw [List.cons_append] at h
        cases h with
        | lit c h =>
            obtain ⟨a, b, rfl, ha, hb⟩ := ih h
            exact ⟨c :: a, b, rfl, .lit c ha, hb⟩
        | one c h =>
            obtain ⟨a, b, rfl, ha, hb⟩ := ih h
            exact ⟨c :: a, b, rfl, .one c ha, hb⟩
        | many skipped h =>
            obtain ⟨a, b, rfl, ha, hb⟩ := ih h
            exact ⟨skipped ++ a, b, (List.append_assoc _ _ _).symm, .many skipped ha, hb⟩
  · rintro ⟨a, b, rfl, ha, hb⟩
    exact ha.append hb

/-- Characters that stand for themselves. -/
theorem matches_lits : Matches (t.map .lit) s ↔ s = t := by
  constructor
  · induction t generalizing s with
    | nil => exact fun h => matches_nil.mp h
    | cons c t ih =>
        intro h
        cases h with
        | lit c h => rw [ih h]
  · rintro rfl
    induction s with
    | nil => exact .nil
    | cons c s ih => exact .lit c ih

theorem matches_any : Matches [.many] s := by
  have h : Matches [.many] (s ++ []) := .many s .nil
  rwa [List.append_nil] at h

theorem matches_starts : Matches (t.map .lit ++ [.many]) s ↔ t <+: s := by
  rw [matches_append]
  constructor
  · rintro ⟨a, b, rfl, ha, -⟩
    rw [matches_lits.mp ha]
    exact List.prefix_append t b
  · rintro ⟨b, rfl⟩
    exact ⟨t, b, rfl, matches_lits.mpr rfl, matches_any⟩

theorem matches_contains : Matches (.many :: (t.map .lit ++ [.many])) s ↔ t <:+: s := by
  rw [matches_many]
  constructor
  · rintro ⟨r, hr, h⟩
    exact (matches_starts.mp h).isInfix.trans hr.isInfix
  · rintro ⟨a, b, rfl⟩
    refine ⟨t ++ b, ⟨a, by rw [List.append_assoc]⟩, ?_⟩
    exact matches_starts.mpr (List.prefix_append t b)

end matches_

/-! ### Patterns that are run -/

section test

variable [DecidableEq α]

def test : List (Item α) → List α → Bool
  | [], s => s.isEmpty
  | .lit c :: p, d :: s => decide (c = d) && test p s
  | .one :: p, _ :: s => test p s
  | .many :: p, s => s.tails.any (test p)
  | _ :: _, [] => false

theorem test_iff {p : List (Item α)} {s : List α} : test p s = true ↔ Matches p s := by
  induction p generalizing s with
  | nil => rw [test, List.isEmpty_iff, matches_nil]
  | cons item p ih =>
      cases item with
      | many =>
          rw [test, List.any_eq_true, matches_many]
          simp only [List.mem_tails, ih]
      | lit c =>
          cases s with
          | nil => simp only [test, Bool.false_eq_true, false_iff]; rintro ⟨⟩
          | cons d s =>
              rw [test, Bool.and_eq_true, decide_eq_true_eq, ih]
              constructor
              · rintro ⟨rfl, h⟩
                exact .lit c h
              · intro h
                cases h with
                | lit c h => exact ⟨rfl, h⟩
      | one =>
          cases s with
          | nil => simp only [test, Bool.false_eq_true, false_iff]; rintro ⟨⟩
          | cons d s =>
              rw [test, ih]
              constructor
              · exact fun h => .one d h
              · intro h
                cases h with
                | one d h => exact h

end test

/-! ### Patterns that are written -/

section written

variable [DecidableEq α] (x : Signs α)

namespace Signs

def isSign (c : α) : Bool := c = x.escape || c = x.many || c = x.one

theorem isSign_iff {c : α} : x.isSign c = true ↔ c = x.escape ∨ c = x.many ∨ c = x.one := by
  simp [isSign, or_assoc]

/-- What a character means where none before it takes its meaning. -/
def item (c : α) : Item α := if c = x.many then .many else if c = x.one then .one else .lit c

/-- The items of a pattern; `none` when it ends with the escape character. -/
def parse : List α → Option (List (Item α))
  | [] => some []
  | [c] => if c = x.escape then none else some [x.item c]
  | c :: d :: rest =>
    if c = x.escape then (parse rest).map (.lit d :: ·)
    else (parse (d :: rest)).map (x.item c :: ·)

/-- `text LIKE pattern`; `none` is an error. -/
def like (text pattern : List α) : Option Bool := (x.parse pattern).map (test · text)

/-- Every sign behind the escape character. -/
def escaped (text : List α) : List α :=
  text.flatMap fun c => if x.isSign c then [x.escape, c] else [c]

variable {x}

theorem parse_cons {c : α} (hc : c ≠ x.escape) (rest : List α) :
    x.parse (c :: rest) = (x.parse rest).map (x.item c :: ·) := by
  cases rest with
  | nil => rw [parse, parse, if_neg hc, Option.map_some]
  | cons d rest => rw [parse, if_neg hc]

theorem parse_escape (d : α) (rest : List α) :
    x.parse (x.escape :: d :: rest) = (x.parse rest).map (.lit d :: ·) := by
  rw [parse, if_pos rfl]

theorem item_of_not_sign {c : α} (h : x.isSign c = false) : c ≠ x.escape ∧ x.item c = .lit c := by
  simp only [isSign, Bool.or_eq_false_iff, decide_eq_false_iff_not] at h
  obtain ⟨⟨hescape, hmany⟩, hone⟩ := h
  exact ⟨hescape, by rw [item, if_neg hmany, if_neg hone]⟩

theorem parse_many (rest : List α) :
    x.parse (x.many :: rest) = (x.parse rest).map (.many :: ·) := by
  rw [parse_cons x.many_ne_escape, item, if_pos rfl]

/-- Escaped characters stand for themselves. -/
theorem parse_escaped (text rest : List α) :
    x.parse (x.escaped text ++ rest) = (x.parse rest).map (text.map .lit ++ ·) := by
  induction text with
  | nil => simp [escaped]
  | cons c text ih =>
      rw [escaped, List.flatMap_cons, List.append_assoc, ← escaped]
      cases hc : x.isSign c with
      | true =>
          rw [if_pos rfl, List.cons_append, List.cons_append, List.nil_append, parse_escape, ih,
            Option.map_map]
          rfl
      | false =>
          obtain ⟨hne, hitem⟩ := item_of_not_sign hc
          rw [if_neg (by decide), List.cons_append, List.nil_append, parse_cons hne, hitem, ih,
            Option.map_map]
          rfl

/-- **An escaped text between two signs for any text: it occurs.** -/
theorem like_contains (t s : List α) :
    x.like s (x.many :: (x.escaped t ++ [x.many])) = some true ↔ t <:+: s := by
  rw [like, parse_many, parse_escaped, parse_many, parse, Option.map_some, Option.map_some,
    Option.map_some, Option.map_some, Option.some_inj, test_iff]
  exact matches_contains

/-- **An escaped text before a sign for any text: the text begins with it.** -/
theorem like_starts (t s : List α) :
    x.like s (x.escaped t ++ [x.many]) = some true ↔ t <+: s := by
  rw [like, parse_escaped, parse_many, parse, Option.map_some, Option.map_some, Option.map_some,
    Option.some_inj, test_iff]
  exact matches_starts

/-- Letters of another case make the same pattern of a text. -/
theorem map_escaped {f : α → α} (hfix : ∀ c, x.isSign c = true → f c = c)
    (hsign : ∀ c, x.isSign (f c) = x.isSign c) (text : List α) :
    (x.escaped text).map f = x.escaped (text.map f) := by
  have hescape : f x.escape = x.escape := hfix _ (by simp [isSign])
  induction text with
  | nil => rfl
  | cons c text ih =>
      simp only [escaped, List.flatMap_cons, List.map_append, List.map_cons, hsign] at ih ⊢
      rw [ih]
      cases x.isSign c with
      | true => simp [hescape]
      | false => simp

end Signs

end written

end Like
