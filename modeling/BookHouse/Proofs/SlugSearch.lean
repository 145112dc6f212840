/-
The search for a free slug ends, and when what it ends with is free.

A candidate ends in its number, so candidates for different numbers are different, whatever
the base was cut to (`candidate_injective`).  Of more of them than there are taken slugs one
is free, and the loop stops at the first.

The slugs that are loaded are the base and what begins with the base and a dash.  A candidate
that was not cut is one of those.  A candidate that was cut is not, and then it may be taken
by a row that was not asked for: that is the only way to a slug that is not free.
-/
import BookHouse.Catalog.SlugSearch
import BookHouse.Lib.Delimited

namespace BookHouse

namespace Slug

/-! ### Lengths -/

/-- The length of a text in UTF-16 units. -/
def units (text : String) : ℕ := (js text).length

def suffix (n : ℕ) : String := "-" ++ toString n

variable {base a b text slug : String} {taken : List String} {maxLength m n : ℕ}

theorem units_append (a b : String) : units (a ++ b) = units a + units b := by
  simp [units, js, String.toList_append]

/-- A part of a text is not longer than the text. -/
theorem units_le_of_sublist {l l' : List Char} (h : List.Sublist l l') :
    units (String.ofList l) ≤ units (String.ofList l') := by
  simpa [units, js] using (h.flatMap utf16).length_le

theorem units_dropDashes (text : String) : units (dropDashes text) ≤ units text := by
  have hpart := List.rdropWhile_prefix (fun c : Char => decide (c = '-')) text.toList
  simpa [dropDashes] using units_le_of_sublist hpart.sublist

theorem units_cut (n : ℕ) (text : String) : units (cut n text) ≤ n := by
  have hgo : ∀ (l : List Char) (n : ℕ), ((cut.go n l).flatMap utf16).length ≤ n := by
    intro l
    induction l with
    | nil => simp [cut.go]
    | cons c rest ih =>
        intro n
        rw [cut.go]
        split
        · rename_i hfits
          rw [List.flatMap_cons, List.length_append]
          have := ih (n - (utf16 c).length)
          omega
        · simp
  simpa [units, js, cut] using hgo text.toList n

theorem cut_self (h : units text ≤ n) : cut n text = text := by
  have hgo : ∀ (l : List Char) (n : ℕ), (l.flatMap utf16).length ≤ n → cut.go n l = l := by
    intro l
    induction l with
    | nil => simp [cut.go]
    | cons c rest ih =>
        intro n hn
        rw [List.flatMap_cons, List.length_append] at hn
        rw [cut.go, if_pos (by omega), ih _ (by omega)]
  rw [cut, hgo _ _ h, String.ofList_toList]

theorem toList_suffix (n : ℕ) : (suffix n).toList = '-' :: Nat.toDigits 10 n := by
  simp [suffix]

/-- A suffix is made of characters of one unit each. -/
theorem units_suffix (n : ℕ) : units (suffix n) = (suffix n).length := by
  have hone : ∀ c ∈ (suffix n).toList, (utf16 c).length = 1 := by
    intro c hc
    have hsmall : c.toNat < 0x10000 := by
      rw [toList_suffix, List.mem_cons] at hc
      rcases hc with rfl | hdigit
      · decide
      · have h : c.isDigit = true :=
          Nat.isDigit_of_mem_toDigits (b := 10) (by decide) (by decide) hdigit
        simp only [Char.isDigit, Bool.and_eq_true, decide_eq_true_eq, UInt32.le_iff_toNat_le] at h
        have hhigh : c.toNat ≤ 57 := h.2
        omega
    simp [utf16, hsmall]
  rw [units, js, List.length_flatMap, List.map_congr_left hone, List.map_const',
    List.sum_replicate_nat, mul_one, String.length_toList]

/-! ### Candidates -/

theorem candidate_eq : candidate base maxLength n =
    dropDashes (cut (maxLength - (suffix n).length) base) ++ suffix n := rfl

/-- A number can be read back from its digits. -/
theorem toDigits_injective : Function.Injective (Nat.toDigits 10) := fun m n h => by
  rw [← Nat.ofDigitChars_ten_toDigits (n := m), h, Nat.ofDigitChars_ten_toDigits]

/-- **Candidates for different numbers are different.** -/
theorem candidate_injective : Function.Injective (candidate base maxLength) := by
  intro m n h
  -- read from the end, a candidate is the digits of its number and then a dash
  have hback : ∀ k, (candidate base maxLength k).toList.reverse =
      (Nat.toDigits 10 k).reverse ++
        '-' :: (dropDashes (cut (maxLength - (suffix k).length) base)).toList.reverse := by
    intro k
    simp [candidate_eq, toList_suffix]
  have hdigits : ∀ k, ∀ c ∈ (Nat.toDigits 10 k).reverse, c.isDigit = true := fun k c hc =>
    Nat.isDigit_of_mem_toDigits (by decide) (by decide) (List.mem_reverse.mp hc)
  have heq := congrArg (fun s : String => s.toList.reverse) h
  simp only [hback] at heq
  have hsame := (Delimited.split_run _ _ (hdigits m) (hdigits n) _ _
    (Delimited.Stopped.cons (by decide)) (Delimited.Stopped.cons (by decide)) heq).1
  exact toDigits_injective (List.reverse_injective hsame)

/-- Of more candidates than taken slugs, one is free. -/
theorem exists_free (base : String) (taken : List String) (maxLength : ℕ) :
    ∃ n ≤ taken.length, candidate base maxLength (n + 2) ∉ taken := by
  by_contra hall
  push Not at hall
  have hnd : ((List.range (taken.length + 1)).map fun n =>
      candidate base maxLength (n + 2)).Nodup :=
    List.nodup_range.map fun m n h => Nat.add_right_cancel (candidate_injective h)
  have hsub : (List.range (taken.length + 1)).map (fun n => candidate base maxLength (n + 2)) ⊆
      taken := by
    intro slug hslug
    obtain ⟨n, hn, rfl⟩ := List.mem_map.mp hslug
    exact hall n (Nat.lt_succ_iff.mp (List.mem_range.mp hn))
  have hlen := (List.subperm_of_subset hnd hsub).length_le
  rw [List.length_map, List.length_range] at hlen
  omega

/-! ### The loop -/

/-- The loop ends at the first free candidate, wherever it started before it. -/
theorem Search.of_first (hfree : candidate base maxLength n ∉ taken) :
    ∀ k m, m + k = n → (∀ i, m ≤ i → i < n → candidate base maxLength i ∈ taken) →
      Search base taken maxLength m (candidate base maxLength n) := by
  intro k
  induction k with
  | zero =>
      rintro m rfl _
      exact .found hfree
  | succ k ih =>
      intro m hm htaken
      refine .next (htaken m le_rfl (by omega)) (ih (m + 1) (by omega) fun i hi hlt => ?_)
      exact htaken i (by omega) hlt

theorem Search.first (h : Search base taken maxLength m slug) :
    ∃ n, m ≤ n ∧ slug = candidate base maxLength n ∧ candidate base maxLength n ∉ taken ∧
      ∀ i, m ≤ i → i < n → candidate base maxLength i ∈ taken := by
  induction h with
  | @found n h => exact ⟨n, le_rfl, rfl, h, fun i hle hlt => absurd hlt (not_lt.mpr hle)⟩
  | @next m slug h _ ih =>
      obtain ⟨n, hle, hslug, hfree, htaken⟩ := ih
      refine ⟨n, by omega, hslug, hfree, fun i hi hlt => ?_⟩
      rcases Nat.eq_or_lt_of_le hi with rfl | hlt'
      · exact h
      · exact htaken i hlt' hlt

/-- `n` is the number of the first free candidate. -/
def First (base : String) (taken : List String) (maxLength n : ℕ) : Prop :=
  2 ≤ n ∧ candidate base maxLength n ∉ taken ∧
    ∀ i, 2 ≤ i → i < n → candidate base maxLength i ∈ taken

theorem First.unique (hm : First base taken maxLength m) (hn : First base taken maxLength n) :
    m = n := by
  rcases lt_trichotomy m n with hlt | heq | hlt
  · exact absurd (hn.2.2 m hm.1 hlt) hm.2.1
  · exact heq
  · exact absurd (hm.2.2 n hn.1 hlt) hn.2.1

/-- There is a first one, and not far off. -/
theorem exists_first (base : String) (taken : List String) (maxLength : ℕ) :
    ∃ n ≤ taken.length + 2, First base taken maxLength n := by
  obtain ⟨k, hk, hfree⟩ := exists_free base taken maxLength
  have hex : ∃ n, 2 ≤ n ∧ candidate base maxLength n ∉ taken := ⟨k + 2, by omega, hfree⟩
  classical
  refine ⟨Nat.find hex, ?_, (Nat.find_spec hex).1, (Nat.find_spec hex).2, fun i hi hlt => ?_⟩
  · exact (Nat.find_min' hex ⟨by omega, hfree⟩).trans (by omega)
  · by_contra hnot
    exact Nat.find_min hex hlt ⟨hi, hnot⟩

theorem search_iff : Search base taken maxLength 2 slug ↔
    ∃ n, First base taken maxLength n ∧ slug = candidate base maxLength n := by
  constructor
  · intro h
    obtain ⟨n, hle, hslug, hfree, htaken⟩ := h.first
    exact ⟨n, ⟨hle, hfree, htaken⟩, hslug⟩
  · rintro ⟨n, ⟨hle, hfree, htaken⟩, rfl⟩
    exact Search.of_first hfree (n - 2) 2 (by omega) htaken

/-- There is room for the suffix of every number that can come up. -/
def Room (taken : List String) (maxLength : ℕ) : Prop :=
  ∀ n ≤ taken.length + 2, (suffix n).length ≤ maxLength

theorem Picks.unique {slug' : String} (h : Picks base taken maxLength slug)
    (h' : Picks base taken maxLength slug') : slug = slug' := by
  cases h with
  | root hnot =>
      cases h' with
      | root => rfl
      | search hin => exact absurd hin hnot
  | search hin hloop =>
      cases h' with
      | root hnot => exact absurd hin hnot
      | search _ hloop' =>
          obtain ⟨m, hm, rfl⟩ := search_iff.mp hloop
          obtain ⟨n, hn, rfl⟩ := search_iff.mp hloop'
          rw [hm.unique hn]

/-- The search that `pickUniqueSlug` does among as many candidates as it can need. -/
theorem picks_pickUniqueSlug (base : String) (taken : List String) (maxLength : ℕ) :
    Picks base taken maxLength (pickUniqueSlug base taken maxLength) := by
  unfold pickUniqueSlug
  dsimp only
  split
  · rename_i hroot
    exact .root hroot
  · rename_i hroot
    refine .search (not_not.mp hroot) (search_iff.mpr ?_)
    obtain ⟨n, hle, hfirst⟩ := exists_first base taken maxLength
    obtain ⟨k, rfl⟩ := Nat.exists_eq_add_of_le' hfirst.1
    have hfind : ((List.range (taken.length + 1)).find? fun n =>
        decide (candidate base maxLength (n + 2) ∉ taken)) = some k := by
      rw [List.find?_range_eq_some]
      refine ⟨by simpa using hfirst.2.1, List.mem_range.mpr (by omega), fun j hj => ?_⟩
      simpa using hfirst.2.2 (j + 2) (by omega) (by omega)
    exact ⟨k + 2, hfirst, by rw [hfind, Option.getD_some]⟩

/-! ### What the query leaves out -/

open SlugService (asked others loaded)

variable {baseMax : ℕ} {other : List String} {rows : List SlugRow} {excludeId : Option ℕ}

/-- A base as `slugBase` makes them: it does not end in a dash, and is short enough. -/
structure IsBase (base : String) (baseMax : ℕ) : Prop where
  ends : dropDashes base = base
  short : units base ≤ baseMax

/-- A candidate that is short enough without a cut. -/
theorem candidate_of_fits (hends : dropDashes base = base)
    (hfits : units base + (suffix n).length ≤ maxLength) :
    candidate base maxLength n = base ++ suffix n := by
  rw [candidate_eq, cut_self (by omega), hends]

theorem asked_iff {base slug : String} :
    asked base slug = true ↔ slug = base ∨ base.toList ++ ['-'] <+: slug.toList := by
  simp [asked, String.toList_append, List.isPrefixOf_iff_prefix]

theorem mem_loaded : slug ∈ loaded rows excludeId base ↔
    slug ∈ others rows excludeId ∧ asked base slug = true := List.mem_filter

/--
The base and its candidates up to one that has to be cut are taken, and so is that one, by a
row that is not asked for.
-/
def CutTaken (base : String) (other : List String) (maxLength : ℕ) : Prop :=
  ∃ n, 2 ≤ n ∧ maxLength < units base + (suffix n).length ∧ base ∈ other ∧
    (∀ i, 2 ≤ i → i < n → candidate base maxLength i ∈ other ∧
      asked base (candidate base maxLength i) = true) ∧
    candidate base maxLength n ∈ other ∧ asked base (candidate base maxLength n) = false

theorem dropDashes_dropDashes (text : String) : dropDashes (dropDashes text) = dropDashes text := by
  simp only [dropDashes, String.toList_ofList]
  rw [List.rdropWhile_idempotent]

theorem slugBase_isBase {slugify : String → String} {source fallback : String}
    (h : IsBase fallback baseMax) : IsBase (slugBase slugify source fallback baseMax) baseMax := by
  unfold slugBase
  dsimp only
  split
  · exact h
  · exact ⟨dropDashes_dropDashes _, (units_dropDashes _).trans (units_cut _ _)⟩

end Slug

open Slug

theorem SlugTable.base_isBase (slugify : String → String) (t : SlugTable) (source : String) :
    IsBase (t.base slugify source) t.baseMax := by
  refine slugBase_isBase ?_
  cases t <;> exact ⟨by decide, by decide⟩

theorem SlugTable.baseMax_le (t : SlugTable) : t.baseMax + 4 ≤ t.max := by cases t <;> decide

open SlugService (asked others loaded)

/-- A number with a suffix of more than four characters has four digits at least. -/
theorem thousand_le {n : ℕ} (h : 4 < (suffix n).length) : 1000 ≤ n := by
  by_contra hlt
  have hdigits := (Nat.length_toDigits_le_iff (b := 10) (n := n) (k := 3) (by decide)
    (by decide)).mpr (by omega)
  rw [← String.length_toList, toList_suffix, List.length_cons] at h
  omega

/-- **So few slugs are loaded that no candidate is cut.** -/
theorem SlugTable.not_cutTaken (t : SlugTable) {slugify : String → String} {source : String}
    {rows : List SlugRow} {excludeId : Option ℕ}
    (hfew : (loaded rows excludeId (t.base slugify source)).length < 999) :
    ¬CutTaken (t.base slugify source) (others rows excludeId) t.max := by
  rintro ⟨n, hle, hlong, hin, htaken, -, -⟩
  have hbase := t.base_isBase slugify source
  obtain ⟨base, hb⟩ : ∃ base, base = t.base slugify source := ⟨_, rfl⟩
  rw [← hb] at hfew hlong hin htaken hbase
  have hmax := t.baseMax_le
  have hn : 1000 ≤ n := thousand_le (by have := hbase.short; omega)
  -- the base and the candidates from 2 to 999 are different slugs, all of them loaded
  have hfits : ∀ i < 998, candidate base t.max (i + 2) = base ++ suffix (i + 2) := by
    intro i hi
    refine candidate_of_fits hbase.ends ?_
    have hsuffix : ¬4 < (suffix (i + 2)).length := fun hc => by
      have := thousand_le hc
      omega
    have := hbase.short
    omega
  have hsub : base :: (List.range 998).map (fun i => candidate base t.max (i + 2)) ⊆
      loaded rows excludeId base := by
    intro slug hslug
    rcases List.mem_cons.mp hslug with rfl | hslug
    · exact mem_loaded.mpr ⟨hin, asked_iff.mpr (Or.inl rfl)⟩
    · obtain ⟨i, hi, rfl⟩ := List.mem_map.mp hslug
      have := List.mem_range.mp hi
      exact mem_loaded.mpr (htaken (i + 2) (by omega) (by omega))
  have hnd : (base :: (List.range 998).map fun i => candidate base t.max (i + 2)).Nodup := by
    refine List.nodup_cons.mpr ⟨fun hmem => ?_,
      List.nodup_range.map fun i j h => Nat.add_right_cancel (candidate_injective h)⟩
    obtain ⟨i, hi, heq⟩ := List.mem_map.mp hmem
    rw [hfits i (List.mem_range.mp hi)] at heq
    have hlen := congrArg units heq
    rw [units_append, units_suffix, ← String.length_toList, toList_suffix] at hlen
    simp at hlen
  have hcount := (List.subperm_of_subset hnd hsub).length_le
  simp only [List.length_cons, List.length_map, List.length_range] at hcount
  omega

def letters (k : ℕ) : String := String.ofList (List.replicate k 'a')

end BookHouse
