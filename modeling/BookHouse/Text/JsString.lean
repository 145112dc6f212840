/-
JavaScript strings as the language has them: sequences of UTF-16 code units, lone surrogates
and all.
-/
import Mathlib.Data.List.Basic

namespace BookHouse

abbrev JsString := List UInt16

/-- The code units of a character. -/
def utf16 (c : Char) : JsString :=
  if c.toNat < 0x10000 then [c.toNat.toUInt16]
  else
    let n := c.toNat - 0x10000
    [(0xD800 + n / 0x400).toUInt16, (0xDC00 + n % 0x400).toUInt16]

/-- A string literal of the source. -/
def js (s : String) : JsString := s.toList.flatMap utf16

def leadsSurrogate (u : UInt16) : Bool := 0xD800 ≤ u && u ≤ 0xDBFF

def trailsSurrogate (u : UInt16) : Bool := 0xDC00 ≤ u && u ≤ 0xDFFF

theorem unit_inj {m n : ℕ} (hm : m < 0x10000) (hn : n < 0x10000)
    (h : m.toUInt16 = n.toUInt16) : m = n := by
  have hnat : m.toUInt16.toNat = n.toUInt16.toNat := congrArg UInt16.toNat h
  rwa [UInt16.toNat_ofNat_of_lt' hm, UInt16.toNat_ofNat_of_lt' hn] at hnat

/-- The units of a text begin with those of one character. -/
theorem utf16_unique {c d : Char} {r r' : JsString} (h : utf16 c ++ r = utf16 d ++ r') :
    c = d ∧ r = r' := by
  have hvalid : ∀ e : Char, e.toNat < 0xD800 ∨ (0xDFFF < e.toNat ∧ e.toNat < 0x110000) :=
    fun e => e.valid
  have hc := hvalid c
  have hd := hvalid d
  unfold utf16 at h
  by_cases hcs : c.toNat < 0x10000
  · by_cases hds : d.toNat < 0x10000
    · rw [if_pos hcs, if_pos hds] at h
      obtain ⟨hunit, hrest⟩ := List.cons.inj h
      exact ⟨Char.toNat_inj.mp (unit_inj hcs hds hunit), hrest⟩
    · rw [if_pos hcs, if_neg hds] at h
      obtain ⟨hunit, -⟩ := List.cons.inj h
      have := unit_inj hcs (by omega) hunit
      omega
  · by_cases hds : d.toNat < 0x10000
    · rw [if_neg hcs, if_pos hds] at h
      obtain ⟨hunit, -⟩ := List.cons.inj h
      have := unit_inj (by omega) hds hunit
      omega
    · rw [if_neg hcs, if_neg hds] at h
      obtain ⟨hlead, htail⟩ := List.cons.inj h
      obtain ⟨htrail, hrest⟩ := List.cons.inj htail
      have hl := unit_inj (by omega) (by omega) hlead
      have ht := unit_inj (by omega) (by omega) htrail
      refine ⟨Char.toNat_inj.mp ?_, hrest⟩
      omega

theorem js_injective : Function.Injective js := by
  have hchars : ∀ l l' : List Char, l.flatMap utf16 = l'.flatMap utf16 → l = l' := by
    have hne : ∀ c r, utf16 c ++ r ≠ ([] : JsString) := by
      intro c r h
      unfold utf16 at h
      split at h <;> cases h
    intro l
    induction l with
    | nil =>
        intro l' h
        cases l' with
        | nil => rfl
        | cons d l' => exact absurd h.symm (hne d _)
    | cons c l ih =>
        intro l' h
        cases l' with
        | nil => exact absurd h (hne c _)
        | cons d l' =>
            obtain ⟨rfl, hrest⟩ := utf16_unique h
            rw [ih l' hrest]
  exact fun s t h => String.toList_inj.mp (hchars _ _ h)

/-- A line feed is a unit of its own. -/
theorem line_not_mem_js {s : String} (h : '\n' ∉ s.toList) : (0x0A : UInt16) ∉ js s := by
  intro hmem
  obtain ⟨c, hc, hunit⟩ := List.mem_flatMap.mp hmem
  have hvalid : c.toNat < 0xD800 ∨ (0xDFFF < c.toNat ∧ c.toNat < 0x110000) := c.valid
  unfold utf16 at hunit
  split at hunit
  next hsmall =>
    have hten : ('\n').toNat = c.toNat :=
      unit_inj (by decide) hsmall (List.mem_singleton.mp hunit)
    rw [Char.toNat_inj.mp hten] at h
    exact h hc
  next hbig =>
    rcases List.mem_cons.mp hunit with heq | hmem
    · have := unit_inj (m := 10) (by decide) (by omega) heq
      omega
    · have := unit_inj (m := 10) (by decide) (by omega) (List.mem_singleton.mp hmem)
      omega

end BookHouse
