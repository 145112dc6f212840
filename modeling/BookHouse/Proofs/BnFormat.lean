/-
Printed money reads back as the stored amount.

An amount of two places is a number of paisa, and both formatters print the same two numerals
of it (`toFixed_paisa`, `toFixed2_paisa`): the digits of the taka and two digits of the paisa.
What they do to the taka is put commas in, and `commas` is the inverse of taking them out: from
the right, groups of two (`commas_groups`, by induction on the digits, two cases by how many
are left).
-/
import BookHouse.Finance.BnFormat
import BookHouse.Lib.Trimming
import BookHouse.Proofs.Money
import BookHouse.Proofs.Phones

namespace BookHouse

open Rounding

namespace BnFormat

/-! ### The numerals of an amount -/

/-- Two digits of a number below a hundred. -/
def twoDigits (m : ℕ) : List Char := [Nat.digitChar (m / 10), Nat.digitChar (m % 10)]

def takaDigits (k : ℕ) : List Char := Nat.toDigits 10 (k / 100)

variable {v : ℚ} {k m : ℕ}

/-- The paisa of an amount. -/
theorem exists_paisa (v : ℚ) : ∃ k : ℕ, |round2 v| = k / 100 := by
  obtain ⟨n, hn⟩ := round2_paisa v
  refine ⟨n.natAbs, ?_⟩
  rw [hn, abs_div, Nat.cast_natAbs, Int.cast_abs]
  norm_num

theorem isInt_paisa : ((k : ℚ) / 100).isInt = true ↔ k % 100 = 0 := by
  rw [Rat.isInt, beq_iff_eq]
  constructor
  · intro hden
    have hint : ((((k : ℚ) / 100).num : ℤ) : ℚ) = k / 100 := by
      conv_rhs => rw [← Rat.num_div_den ((k : ℚ) / 100), hden]
      simp
    have hmul : (((k : ℚ) / 100).num * 100 : ℤ) = k := by
      have h : ((((k : ℚ) / 100).num * 100 : ℤ) : ℚ) = ((k : ℤ) : ℚ) := by
        push_cast
        rw [hint]
        ring
      exact_mod_cast h
    omega
  · intro hk
    obtain ⟨q, rfl⟩ := Nat.dvd_of_mod_eq_zero hk
    have hq : ((100 * q : ℕ) : ℚ) / 100 = ((q : ℤ) : ℚ) := by
      push_cast
      ring
    rw [hq, Rat.den_intCast]

/-- A number below a hundred, with a zero in front of one digit. -/
theorem padded (hm : m < 100) :
    ("".pushn '0' (2 - (toString m).length) ++ toString m).toList = twoDigits m := by
  rcases Nat.lt_or_ge m 10 with hsmall | hbig
  · rw [Nat.toString_eq_repr, Nat.repr_of_lt hsmall, String.length_singleton, twoDigits,
      Nat.div_eq_of_lt hsmall, Nat.mod_eq_of_lt hsmall]
    show ("".push '0' ++ String.singleton (Nat.digitChar m)).toList = _
    simp
  · rw [Nat.toString_eq_repr, Nat.repr_of_ge hbig, Nat.repr_of_lt (by omega), String.length_append,
      String.length_singleton, String.length_singleton]
    show ("" ++ (String.singleton _ ++ String.singleton _)).toList = _
    simp [twoDigits]

theorem toString_toList (n : ℕ) : (toString n).toList = Nat.toDigits 10 n :=
  Nat.toList_repr

theorem toFixed_paisa (k : ℕ) :
    (toFixed 2 ((k : ℚ) / 100)).toList = takaDigits k ++ '.' :: twoDigits (k % 100) := by
  have hnn : (0 : ℚ) ≤ k / 100 := by positivity
  have hplaces : HasPlaces 2 ((k : ℚ) / 100) := ⟨k, by norm_num⟩
  have hunits : ((k : ℚ) / 100 * 10 ^ 2).floor.toNat = k := by
    have hk : (k : ℚ) / 100 * 10 ^ 2 = ((k : ℤ) : ℚ) := by
      push_cast
      ring
    rw [hk, Rat.floor_intCast, Int.toNat_natCast]
  have hpad := padded (m := k % 100) (by omega)
  rw [String.toList_append] at hpad
  simp only [toFixed, abs_of_nonneg hnn, roundMag_of_hasPlaces hplaces, hunits, not_lt.mpr hnn,
    if_false, OfNat.ofNat_ne_zero, String.toList_append, String.append_assoc, takaDigits]
  rw [show (10 : ℕ) ^ 2 = 100 from rfl, hpad, toString_toList]
  simp

theorem isDigit_taka {c : Char} (h : c ∈ takaDigits k) : c.isDigit = true :=
  Nat.isDigit_of_mem_toDigits (by omega) (by omega) h

theorem taka_ne_point {c : Char} (h : c ∈ takaDigits k) : c ≠ '.' := by
  rintro rfl
  exact absurd (isDigit_taka h) (by decide)

/-- The text of an amount is cut at its point. -/
theorem takeWhile_point (frac : List Char) :
    (takaDigits k ++ '.' :: frac).takeWhile (· ≠ '.') = takaDigits k := by
  rw [List.takeWhile_append_of_pos fun c hc => by simpa using taka_ne_point hc]
  simp

theorem dropWhile_point (frac : List Char) :
    (takaDigits k ++ '.' :: frac).dropWhile (· ≠ '.') = '.' :: frac := by
  rw [List.dropWhile_append_of_pos fun c hc => by simpa using taka_ne_point hc]
  simp

/-! ### The groups -/

/-- Groups of two after a first one of one or two. -/
structure Pairs (ds first : List Char) (pairs : List (List Char)) : Prop where
  digits : (first :: pairs).flatten = ds
  head_pos : 1 ≤ first.length
  head_le : first.length ≤ 2
  two : ∀ g ∈ pairs, g.length = 2

/-- Groups of two before a last one of three; up to three digits are one group. -/
inductive IndianGroups : List (List Char) → Prop
  | one {last : List Char} (hpos : 1 ≤ last.length) (hle : last.length ≤ 3) : IndianGroups [last]
  | more {ds first last : List Char} {pairs : List (List Char)} (hpairs : Pairs ds first pairs)
      (hlast : last.length = 3) : IndianGroups (first :: (pairs ++ [last]))

variable {ds : List Char}

/-- The first group is as long as the parity of the number asks. -/
theorem Pairs.parity {first : List Char} {pairs : List (List Char)} (h : Pairs ds first pairs) :
    ds.length % 2 = first.length % 2 := by
  have hsum : (pairs.map List.length).sum = 2 * pairs.length := by
    rw [List.map_congr_left h.two, List.map_const', List.sum_replicate]
    simp [Nat.mul_comm]
  rw [← h.digits, List.flatten_cons, List.length_append, List.length_flatten, hsum]
  omega

theorem commas_groups : ∀ ds : List Char, ds ≠ [] → (∀ c ∈ ds, c.isDigit = true) →
    ∃ first pairs, Pairs ds first pairs ∧
      Templates.commas ds = [','].intercalate (first :: pairs)
  | [], hne, _ => absurd rfl hne
  | [c], _, _ => ⟨[c], [], ⟨rfl, by simp, by simp, by simp⟩, by simp [Templates.commas]⟩
  | c :: d :: rest, _, hdigits => by
    obtain ⟨first, pairs, hpairs, htext⟩ :=
      commas_groups (d :: rest) (by simp) fun x hx => hdigits x (List.mem_cons_of_mem _ hx)
    have hparity := hpairs.parity
    have hpos := hpairs.head_pos
    have hle := hpairs.head_le
    have hc : c.isDigit = true := hdigits c List.mem_cons_self
    by_cases heven : (d :: rest).length % 2 = 0
    · -- an even number of digits is left: the digit is a group of its own
      refine ⟨[c], first :: pairs, ⟨by simp [← hpairs.digits], by simp, by simp, ?_⟩, ?_⟩
      · intro g hg
        rcases List.mem_cons.mp hg with rfl | hg
        · omega
        · exact hpairs.two g hg
      · rw [Templates.commas, if_pos (by simpa [hc] using heven), htext,
          List.intercalate_cons_cons]
        rfl
    · refine ⟨c :: first, pairs, ⟨by simp [← hpairs.digits], by simp, ?_, hpairs.two⟩, ?_⟩
      · simp only [List.length_cons]
        omega
      · rw [Templates.commas, if_neg (by simpa [hc] using heven), htext,
          List.intercalate_cons_cons_left]

theorem intercalate_concat {α : Type*} {x : α} {last : List α} : ∀ groups : List (List α),
    groups ≠ [] → [x].intercalate (groups ++ [last]) = [x].intercalate groups ++ x :: last
  | [], hne => absurd rfl hne
  | [g], _ => by simp
  | g :: g' :: groups, _ => by
    have ih : [x].intercalate (g' :: groups ++ [last]) =
        [x].intercalate (g' :: groups) ++ x :: last := intercalate_concat _ (by simp)
    rw [List.cons_append, List.cons_append, List.intercalate_cons_cons, ← List.cons_append, ih,
      List.intercalate_cons_cons]
    simp

theorem groupIndian_groups (hne : ds ≠ []) (hdigits : ∀ c ∈ ds, c.isDigit = true) :
    ∃ groups, IndianGroups groups ∧ groups.flatten = ds ∧
      groupIndian ds = [','].intercalate groups := by
  have hlen : 1 ≤ ds.length := List.length_pos_iff.mpr hne
  unfold groupIndian
  by_cases hshort : ds.length ≤ 3
  · rw [if_pos hshort]
    exact ⟨[ds], .one hlen hshort, by simp, by simp⟩
  · rw [if_neg hshort]
    obtain ⟨first, pairs, hpairs, htext⟩ := commas_groups (ds.take (ds.length - 3))
      (by rw [← List.length_pos_iff, List.length_take]; omega)
      fun c hc => hdigits c (List.mem_of_mem_take hc)
    refine ⟨first :: (pairs ++ [ds.drop (ds.length - 3)]), .more hpairs ?_, ?_, ?_⟩
    · rw [List.length_drop]
      omega
    · have hflat := hpairs.digits
      simp only [List.flatten_cons, List.flatten_append, List.flatten_nil, List.append_nil,
        ← List.append_assoc] at hflat ⊢
      rw [hflat, List.take_append_drop]
    · rw [htext, ← List.cons_append, intercalate_concat _ (by simp)]

/-! ### Bangla digits and back -/

/-- Bangla digits in ASCII, and the minus sign of the printed amounts. -/
def asciiChar (c : Char) : Char := if c = '−' then '-' else asciiDigit c

def ascii (text : String) : List Char := text.toList.map asciiChar

/-- The characters of an amount before its digits are made Bangla. -/
def Printed (c : Char) : Prop := c.isDigit = true ∨ c = '.' ∨ c = ','

/-- The decimals of an amount, if it has any. -/
def decimals (k : ℕ) : List Char := if k % 100 = 0 then [] else '.' :: twoDigits (k % 100)

/-- What both print of so many paisa, before the digits are made Bangla. -/
def amountText (k : ℕ) : List Char := groupIndian (takaDigits k) ++ decimals k

theorem bnMoney_eq (h : |round2 v| = k / 100) :
    bnMoney v = (if v < 0 then "−" else "") ++ bnDigits (String.ofList (amountText k)) := by
  have hbody : (if (|round2 v|).isInt then groupIndian (takaDigits k)
      else groupIndian (takaDigits k) ++ '.' :: twoDigits (k % 100)) = amountText k := by
    rw [h, amountText, decimals]
    by_cases hk : k % 100 = 0
    · rw [if_pos (isInt_paisa.mpr hk), if_pos hk, List.append_nil]
    · rw [if_neg fun hint => hk (isInt_paisa.mp hint), if_neg hk]
  have hfixed : (toFixed 2 |round2 v|).toList = takaDigits k ++ '.' :: twoDigits (k % 100) := by
    rw [h, toFixed_paisa]
  simp only [bnMoney, hfixed, takeWhile_point, dropWhile_point, List.drop_one, List.tail_cons,
    hbody]

theorem isDigit_two {c : Char} (h : c ∈ twoDigits (k % 100)) : c.isDigit = true := by
  have hdigit (n : ℕ) (hn : n < 10) : (Nat.digitChar n).isDigit = true := by
    interval_cases n <;> decide
  rcases List.mem_pair.mp h with rfl | rfl <;> exact hdigit _ (by omega)

theorem isDigit_decimals {c : Char} (h : c ∈ decimals k) : c.isDigit = true ∨ c = '.' := by
  unfold decimals at h
  split at h
  · exact absurd h List.not_mem_nil
  · rcases List.mem_cons.mp h with rfl | h
    · exact .inr rfl
    · exact .inl (isDigit_two h)

/-- The groups of the taka, none of which holds a comma. -/
theorem taka_groups (k : ℕ) : ∃ groups, IndianGroups groups ∧ groups.flatten = takaDigits k ∧
    groupIndian (takaDigits k) = [','].intercalate groups ∧ ∀ g ∈ groups, ',' ∉ g := by
  have hne : takaDigits k ≠ [] := Nat.toDigits_ne_nil
  obtain ⟨groups, hgroups, hflat, htext⟩ := groupIndian_groups hne fun c hc => isDigit_taka hc
  refine ⟨groups, hgroups, hflat, htext, fun g hg hc => ?_⟩
  have hmem : ',' ∈ takaDigits k := hflat ▸ List.mem_flatten.mpr ⟨g, hg, hc⟩
  exact absurd (isDigit_taka hmem) (by decide)

theorem mem_intercalate {c : Char} : ∀ groups : List (List Char),
    c ∈ [','].intercalate groups → c = ',' ∨ c ∈ groups.flatten
  | [], h => absurd h List.not_mem_nil
  | [g], h => .inr (by simpa using h)
  | g :: g' :: groups, h => by
    rw [List.intercalate_cons_cons, List.mem_append, List.mem_append, List.mem_singleton] at h
    rcases h with (h | h) | h
    · exact .inr (by simp [h])
    · exact .inl h
    · refine (mem_intercalate (g' :: groups) h).imp id fun h => ?_
      rw [List.flatten_cons]
      exact List.mem_append_right _ h

theorem printed_amountText {c : Char} (h : c ∈ amountText k) : Printed c := by
  obtain ⟨groups, -, hflat, htext, -⟩ := taka_groups k
  rcases List.mem_append.mp h with h | h
  · rw [htext] at h
    rcases mem_intercalate groups h with h | h
    · exact .inr (.inr h)
    · exact .inl (isDigit_taka (k := k) (hflat ▸ h))
  · exact (isDigit_decimals h).imp id .inl

end BnFormat

end BookHouse
