/-
Printed numbers and strings can be read back.

A number is cut into the parts of its layout at the point and the exponent, and the layout
gives its digits back when the zeros around them are dropped.  A string is read by undoing
its escapes one at a time.  Both can be told from any other where they end.
-/
import BookHouse.Lib.Delimited
import BookHouse.Text.Json
import Mathlib.Data.Nat.Digits.Lemmas

namespace BookHouse

open Delimited

/-! ### Digits -/

def isDigitUnit (u : UInt16) : Prop := 0x30 ≤ u ∧ u ≤ 0x39

theorem digitUnit_isDigit (d : Fin 10) : isDigitUnit (digitUnit d) := by
  revert d
  unfold isDigitUnit
  decide

theorem digitUnits_isDigit {ds : List (Fin 10)} : ∀ u ∈ digitUnits ds, isDigitUnit u := by
  intro u hu
  obtain ⟨d, -, rfl⟩ := List.mem_map.mp hu
  exact digitUnit_isDigit d

theorem digitUnits_injective : Function.Injective digitUnits :=
  List.map_injective_iff.mpr (by decide)

/-- The digits of a natural number say which it is. -/
theorem ofDigits_natDigits (n : ℕ) :
    Nat.ofDigits 10 ((natDigits n).map Fin.val).reverse = n := by
  unfold natDigits
  split
  · rename_i h
    rw [h]
    rfl
  · have hval : ((Nat.digits 10 n).reverse.map (Fin.ofNat 10)).map Fin.val =
        (Nat.digits 10 n).reverse := by
      rw [List.map_map]
      refine (List.map_congr_left fun d hd => ?_).trans (List.map_id _)
      exact Nat.mod_eq_of_lt (Nat.digits_lt_base (by norm_num) (List.mem_reverse.mp hd))
    rw [hval, List.reverse_reverse, Nat.ofDigits_digits]

theorem natDigits_injective {a b : ℕ} (h : natDigits a = natDigits b) : a = b := by
  rw [← ofDigits_natDigits a, h, ofDigits_natDigits]

/-! ### Numbers -/

theorem exponentText_injective : Function.Injective exponentText := by
  intro a b h
  cases a with
  | none =>
      cases b with
      | none => rfl
      | some e => cases h
  | some e =>
      cases b with
      | none => cases h
      | some f =>
          obtain ⟨-, hrest⟩ := List.cons.inj h
          obtain ⟨hsign, hdigits⟩ := List.cons.inj hrest
          have habs := natDigits_injective (digitUnits_injective hdigits)
          have hneg : e < 0 ↔ f < 0 := by
            by_cases he : e < 0
            · by_cases hf : f < 0
              · exact iff_of_true he hf
              · rw [if_pos he, if_neg hf] at hsign
                exact absurd hsign (by decide)
            · by_cases hf : f < 0
              · rw [if_neg he, if_pos hf] at hsign
                exact absurd hsign (by decide)
              · exact iff_of_false he hf
          congr 1
          omega

theorem exponentText_stopped (e : Option ℤ) :
    Stopped (fun u => ¬ isDigitUnit u) (exponentText e) := by
  cases e with
  | none => exact Stopped.nil
  | some e => exact Stopped.cons (by unfold isDigitUnit; decide)

theorem Layout.text_injective {a b : Layout} (h : a.text = b.text) : a = b := by
  have hstopped : ∀ l : Layout, Stopped (fun u => ¬ isDigitUnit u)
      ((if l.frac = [] then [] else 0x2E :: digitUnits l.frac) ++ exponentText l.exponent) := by
    intro l
    split
    · exact exponentText_stopped _
    · exact Stopped.cons (by unfold isDigitUnit; decide)
  obtain ⟨hwhole, hrest⟩ := split_run _ _ digitUnits_isDigit digitUnits_isDigit _ _
    (hstopped a) (hstopped b) h
  have hpoint : ∀ (ds : List (Fin 10)) (e f : Option ℤ), exponentText e ≠
      0x2E :: digitUnits ds ++ exponentText f := by
    intro ds e f heq
    cases e with
    | none => cases heq
    | some e => exact absurd (List.cons.inj heq).1 (by decide)
  have hparts : a.frac = b.frac ∧ a.exponent = b.exponent := by
    by_cases ha : a.frac = []
    · by_cases hb : b.frac = []
      · rw [if_pos ha, if_pos hb] at hrest
        exact ⟨ha.trans hb.symm, exponentText_injective hrest⟩
      · rw [if_pos ha, if_neg hb] at hrest
        exact absurd hrest (hpoint _ _ _)
    · by_cases hb : b.frac = []
      · rw [if_neg ha, if_pos hb] at hrest
        exact absurd hrest.symm (hpoint _ _ _)
      · rw [if_neg ha, if_neg hb] at hrest
        obtain ⟨hfrac, hexp⟩ := split_run _ _ digitUnits_isDigit digitUnits_isDigit _ _
          (exponentText_stopped _) (exponentText_stopped _) (List.cons.inj hrest).2
        exact ⟨digitUnits_injective hfrac, exponentText_injective hexp⟩
  obtain ⟨hfrac, hexp⟩ := hparts
  cases a
  cases b
  cases digitUnits_injective hwhole
  cases hfrac
  cases hexp
  rfl

theorem Significand.ne_nil (s : Significand) : s.digits ≠ [] := by
  obtain ⟨d, hd, -⟩ := s.first
  rintro h
  rw [h] at hd
  cases hd

/-- A layout shows the digits with zeros around them, and its point says where they stand. -/
theorem Significand.layout_digits (s : Significand) (n : ℤ) : ∃ a b : ℕ,
    (s.layout n).whole ++ (s.layout n).frac =
      List.replicate a 0 ++ (s.digits ++ List.replicate b 0) ∧
    n = (s.layout n).whole.length + (s.layout n).exponent.getD 0 - a := by
  have hlen : 0 < s.digits.length := List.length_pos_iff.mpr s.ne_nil
  unfold Significand.layout
  dsimp only
  split
  · split
    · refine ⟨0, _, by simp; rfl, ?_⟩
      simp
      omega
    split
    · refine ⟨0, 0, by simp, ?_⟩
      simp
      omega
    · refine ⟨(-n).toNat + 1, 0, ?_, ?_⟩
      · simp [List.replicate_succ]
      · simp
        omega
  · refine ⟨0, 0, ?_, ?_⟩
    · rw [List.take_append_drop]
      simp
    · simp
      omega

/-- The digits between the zeros are found by dropping the zeros. -/
theorem trimmed_unique {s t : Significand} {a b c d : ℕ}
    (h : List.replicate a 0 ++ (s.digits ++ List.replicate b 0) =
      List.replicate c 0 ++ (t.digits ++ List.replicate d 0)) :
    a = c ∧ s.digits = t.digits := by
  have hzeros : ∀ n : ℕ, ∀ x ∈ List.replicate n (0 : Fin 10), x = 0 :=
    fun n x hx => (List.mem_replicate.mp hx).2
  have hfirst : ∀ (s : Significand) (n : ℕ),
      Stopped (fun x => ¬ x = 0) (s.digits ++ List.replicate n 0) := by
    intro s n x hx
    obtain ⟨d, hd, hne⟩ := s.first
    rw [List.head?_append, hd] at hx
    obtain rfl := Option.some.inj hx
    exact hne
  have hlast : ∀ s : Significand, Stopped (fun x => ¬ x = 0) s.digits.reverse := by
    intro s x hx hzero
    rw [List.head?_reverse, hzero] at hx
    exact s.last hx
  obtain ⟨hac, hrest⟩ := split_run _ _ (hzeros a) (hzeros c) _ _ (hfirst s b) (hfirst t d) h
  have hrev := congrArg List.reverse hrest
  rw [List.reverse_append, List.reverse_append, List.reverse_replicate,
    List.reverse_replicate] at hrev
  obtain ⟨-, hdigits⟩ := split_run _ _ (hzeros b) (hzeros d) _ _ (hlast s) (hlast t) hrev
  refine ⟨?_, List.reverse_injective hdigits⟩
  simpa using congrArg List.length hac

theorem Significand.layout_injective {s t : Significand} {m n : ℤ}
    (h : s.layout m = t.layout n) : s = t ∧ m = n := by
  obtain ⟨a, b, hs, hm⟩ := s.layout_digits m
  obtain ⟨c, d, ht, hn⟩ := t.layout_digits n
  rw [h] at hs hm
  obtain ⟨hac, hdigits⟩ := trimmed_unique (hs.symm.trans ht)
  constructor
  · cases s
    cases t
    cases hdigits
    rfl
  · omega

/-- A layout begins with a digit. -/
theorem Significand.layout_whole (s : Significand) (n : ℤ) : (s.layout n).whole ≠ [] := by
  unfold Significand.layout
  dsimp only
  split
  · split
    · simp [s.ne_nil]
    split
    · rename_i hpos
      have htoNat : n.toNat ≠ 0 := by omega
      simp [s.ne_nil, htoNat]
    · simp
  · simp [s.ne_nil]

theorem Layout.text_head {l : Layout} (h : l.whole ≠ []) :
    ∃ u rest, l.text = u :: rest ∧ isDigitUnit u := by
  unfold Layout.text
  cases hw : l.whole with
  | nil => exact absurd hw h
  | cons d ds => exact ⟨digitUnit d, _, rfl, digitUnit_isDigit d⟩

/-- `0` is printed as no other number is. -/
theorem Significand.layout_ne_zero (s : Significand) (n : ℤ) : s.layout n ≠ ⟨[0], [], none⟩ := by
  intro h
  obtain ⟨a, b, hs, -⟩ := s.layout_digits n
  rw [h] at hs
  obtain ⟨d, hd, hne⟩ := s.first
  have hmem : d ∈ [(0 : Fin 10)] ++ [] := by
    rw [hs]
    exact List.mem_append_right _ (List.mem_append_left _ (List.mem_of_mem_head? hd))
  simp at hmem
  exact hne hmem

theorem JsFinite.text_injective : Function.Injective JsFinite.text := by
  have hlayout : JsFinite.zero.text = (⟨[0], [], none⟩ : Layout).text := rfl
  have hzero : ∀ neg s n, JsFinite.zero.text ≠ (JsFinite.decimal neg s n).text := by
    intro neg s n h
    cases neg with
    | true => exact absurd (List.cons.inj h).1 (by decide)
    | false => exact s.layout_ne_zero n (Layout.text_injective (h.symm.trans hlayout))
  have hsign : ∀ s n t m, (JsFinite.decimal true s n).text ≠ (JsFinite.decimal false t m).text := by
    intro s n t m h
    obtain ⟨u, rest, hu, hdigit⟩ := Layout.text_head (t.layout_whole m)
    have hcons : 0x2D :: (s.layout n).text = u :: rest := h.trans hu
    obtain ⟨rfl, -⟩ := List.cons.inj hcons
    exact absurd hdigit (by unfold isDigitUnit; decide)
  intro a b h
  cases a with
  | zero =>
      cases b with
      | zero => rfl
      | decimal neg s n => exact absurd h (hzero neg s n)
  | decimal neg s n =>
      cases b with
      | zero => exact absurd h.symm (hzero neg s n)
      | decimal neg' t m =>
          have hneg : neg = neg' := by
            cases neg with
            | true =>
                cases neg' with
                | true => rfl
                | false => exact absurd h (hsign _ _ _ _)
            | false =>
                cases neg' with
                | true => exact absurd h.symm (hsign _ _ _ _)
                | false => rfl
          subst hneg
          obtain ⟨rfl, rfl⟩ := Significand.layout_injective
            (Layout.text_injective (List.append_cancel_left h))
          rfl

/-- The characters that numbers are printed with. -/
def isNumberUnit (u : UInt16) : Prop := isDigitUnit u ∨ u = 0x2B ∨ u = 0x2D ∨ u = 0x2E ∨ u = 0x65

theorem Layout.text_units (l : Layout) : ∀ u ∈ l.text, isNumberUnit u := by
  have hdigits : ∀ ds : List (Fin 10), ∀ u ∈ digitUnits ds, isNumberUnit u :=
    fun ds u hu => Or.inl (digitUnits_isDigit u hu)
  intro u hu
  unfold Layout.text at hu
  rcases List.mem_append.mp hu with hu | hu
  · exact hdigits _ u hu
  rcases List.mem_append.mp hu with hu | hu
  · split at hu
    · cases hu
    · rcases List.mem_cons.mp hu with rfl | hu
      · simp [isNumberUnit]
      · exact hdigits _ u hu
  · cases he : l.exponent with
    | none =>
        rw [he] at hu
        cases hu
    | some e =>
        rw [he] at hu
        rcases List.mem_cons.mp hu with rfl | hu
        · simp [isNumberUnit]
        rcases List.mem_cons.mp hu with rfl | hu
        · unfold isNumberUnit
          split
          · simp
          · simp
        · exact hdigits _ u hu

theorem JsFinite.text_units (n : JsFinite) : ∀ u ∈ n.text, isNumberUnit u := by
  intro u hu
  cases n with
  | zero =>
      obtain rfl := List.mem_singleton.mp hu
      exact Or.inl (by unfold isDigitUnit; decide)
  | decimal neg s point =>
      rcases List.mem_append.mp hu with hu | hu
      · split at hu
        · obtain rfl := List.mem_singleton.mp hu
          simp [isNumberUnit]
        · cases hu
      · exact Layout.text_units _ u hu

/-- A number begins with a digit or a minus. -/
theorem JsFinite.text_head (n : JsFinite) :
    ∃ u rest, n.text = u :: rest ∧ (isDigitUnit u ∨ u = 0x2D) := by
  cases n with
  | zero => exact ⟨0x30, [], rfl, Or.inl (by unfold isDigitUnit; decide)⟩
  | decimal neg s point =>
      cases neg with
      | true => exact ⟨0x2D, _, rfl, Or.inr rfl⟩
      | false =>
          obtain ⟨u, rest, hu, hdigit⟩ := Layout.text_head (s.layout_whole point)
          exact ⟨u, rest, hu, Or.inl hdigit⟩

/-! ### Strings -/

/-- The value of a hexadecimal digit. -/
def unhex (u : UInt16) : ℕ := if u.toNat < 0x61 then u.toNat - 0x30 else u.toNat - 0x61 + 10

/-- The code unit of a short escape. -/
def unescape (u : UInt16) : UInt16 :=
  if u = 0x62 then 0x08
  else if u = 0x74 then 0x09
  else if u = 0x6E then 0x0A
  else if u = 0x66 then 0x0C
  else if u = 0x72 then 0x0D
  else u

/-- The string up to its closing quote, and what comes after. -/
def unquote : JsString → Option (JsString × JsString)
  | [] => none
  | u :: rest =>
      if u = 0x22 then some ([], rest)
      else if u = 0x5C then
        match rest with
        | e :: rest =>
            if e = 0x75 then
              match rest with
              | a :: b :: c :: d :: rest =>
                  (unquote rest).map fun p =>
                    (UInt16.ofNat (((unhex a * 16 + unhex b) * 16 + unhex c) * 16 + unhex d) :: p.1,
                      p.2)
              | _ => none
            else (unquote rest).map fun p => (unescape e :: p.1, p.2)
        | [] => none
      else (unquote rest).map fun p => (u :: p.1, p.2)

theorem unhex_hexUnit {d : ℕ} (h : d < 16) : unhex (hexUnit d) = d := by
  revert d
  decide

theorem unquote_raw {u : UInt16} (hquote : u ≠ 0x22) (hslash : u ≠ 0x5C) (rest : JsString) :
    unquote (u :: rest) = (unquote rest).map fun p => (u :: p.1, p.2) := by
  rw [unquote.eq_def]
  simp only [if_neg hquote, if_neg hslash]

theorem unquote_close (rest : JsString) : unquote (0x22 :: rest) = some ([], rest) := by
  rw [unquote.eq_def]
  simp only [if_pos]

theorem unquote_short {e : UInt16} (he : e ≠ 0x75) (rest : JsString) :
    unquote (0x5C :: e :: rest) = (unquote rest).map fun p => (unescape e :: p.1, p.2) := by
  have hslash : (0x5C : UInt16) ≠ 0x22 := by decide
  rw [unquote.eq_def]
  simp only [if_neg hslash, if_pos, if_neg he]

theorem unquote_unicode (u : UInt16) (rest : JsString) :
    unquote (unicodeEscape u ++ rest) = (unquote rest).map fun p => (u :: p.1, p.2) := by
  have hlt : u.toNat < 65536 := u.toNat_lt
  have hvalue : ((u.toNat / 4096 * 16 + u.toNat / 256 % 16) * 16 + u.toNat / 16 % 16) * 16 +
      u.toNat % 16 = u.toNat := by omega
  have h1 : unhex (hexUnit (u.toNat / 4096)) = u.toNat / 4096 := unhex_hexUnit (by omega)
  have h2 : unhex (hexUnit (u.toNat / 256 % 16)) = u.toNat / 256 % 16 := unhex_hexUnit (by omega)
  have h3 : unhex (hexUnit (u.toNat / 16 % 16)) = u.toNat / 16 % 16 := unhex_hexUnit (by omega)
  have h4 : unhex (hexUnit (u.toNat % 16)) = u.toNat % 16 := unhex_hexUnit (by omega)
  have hu : UInt16.ofNat u.toNat = u := UInt16.ofNat_toNat
  simp only [unicodeEscape, List.cons_append, List.nil_append, unquote, h1, h2, h3, h4, hvalue, hu]
  rfl

theorem unquote_unit (u : UInt16) (rest : JsString) :
    unquote (quoteUnit u ++ rest) = (unquote rest).map fun p => (u :: p.1, p.2) := by
  unfold quoteUnit
  split_ifs with h1 h2 h3 h4 h5 h6 h7 h8
  · subst h1
    exact unquote_short (by decide) rest
  · subst h2
    exact unquote_short (by decide) rest
  · subst h3
    exact unquote_short (by decide) rest
  · subst h4
    exact unquote_short (by decide) rest
  · subst h5
    exact unquote_short (by decide) rest
  · subst h6
    exact unquote_short (by decide) rest
  · subst h7
    exact unquote_short (by decide) rest
  · exact unquote_unicode u rest
  · exact unquote_raw h6 h7 rest

theorem surrogate_raw {u : UInt16} (h : leadsSurrogate u = true ∨ trailsSurrogate u = true) :
    u ≠ 0x22 ∧ u ≠ 0x5C := by
  constructor
  · rintro rfl
    exact absurd h (by decide)
  · rintro rfl
    exact absurd h (by decide)

theorem unquote_quoteBody (s rest : JsString) :
    unquote (quoteBody s ++ 0x22 :: rest) = some (s, rest) := by
  induction s using quoteBody.induct with
  | case1 u v tail hpair ih =>
      obtain ⟨hu, hv⟩ := Bool.and_eq_true_iff.mp hpair
      rw [quoteBody, if_pos hpair, List.cons_append, List.cons_append,
        unquote_raw (surrogate_raw (Or.inl hu)).1 (surrogate_raw (Or.inl hu)).2,
        unquote_raw (surrogate_raw (Or.inr hv)).1 (surrogate_raw (Or.inr hv)).2, ih]
      rfl
  | case2 u v tail hpair ih =>
      rw [quoteBody, if_neg hpair, List.append_assoc, unquote_unit, ih]
      rfl
  | case3 u =>
      rw [quoteBody, unquote_unit, unquote_close]
      rfl
  | case4 => exact unquote_close rest

/-- A string in quotes ends at its closing quote, whatever follows. -/
theorem cut_quoteJson {stop : UInt16 → Prop} (s t : JsString) :
    Cut stop (quoteJson s) (quoteJson t) (s = t) := by
  intro r r' _ _ h
  have hbody : quoteBody s ++ 0x22 :: r = quoteBody t ++ 0x22 :: r' := by
    simpa [quoteJson] using h
  have hread := unquote_quoteBody s r
  rw [hbody, unquote_quoteBody] at hread
  obtain ⟨ht, hr⟩ := Prod.mk.inj (Option.some.inj hread)
  exact ⟨ht.symm, hr.symm⟩

end BookHouse
