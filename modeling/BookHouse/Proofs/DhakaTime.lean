/-
Day texts and day numbers name the same days.

A digit string is its number with zeros in front (`padStart_value`), so what the parser reads
is what it would print at that width, and a text that `dayRange` takes is the text of its day
with four digits for the year (`dayRange_spec`).  The month and the date of a day text have
two digits each, so it says which day it is (`dayText_injective`).
-/
import BookHouse.Finance.DhakaTime
import BookHouse.Proofs.JsonText
import BookHouse.Proofs.Reports

namespace BookHouse

open Calendar DhakaTime

/-! ### Digits -/

/-- The number a list of digits reads as. -/
def digitsValue (ds : List (Fin 10)) : ℕ := Nat.ofDigits 10 (ds.map Fin.val).reverse

theorem digitsValue_cons (d : Fin 10) (ds : List (Fin 10)) :
    digitsValue (d :: ds) = digitsValue ds + 10 ^ ds.length * d := by
  simp [digitsValue, Nat.ofDigits_append]

theorem digitsValue_zeros (n : ℕ) (ds : List (Fin 10)) :
    digitsValue (List.replicate n 0 ++ ds) = digitsValue ds := by
  induction n with
  | zero => rfl
  | succ n ih =>
      rw [List.replicate_succ, List.cons_append, digitsValue_cons, ih]
      simp

@[simp] theorem digitsValue_natDigits (n : ℕ) : digitsValue (natDigits n) = n := ofDigits_natDigits n

/-- Digits that do not begin with a zero are those of their number. -/
theorem natDigits_value {d : Fin 10} (ds : List (Fin 10)) (hd : d ≠ 0) :
    natDigits (digitsValue (d :: ds)) = d :: ds := by
  have hpos : 0 < (d : ℕ) := Nat.pos_of_ne_zero fun h => hd (Fin.ext h)
  have hne : digitsValue (d :: ds) ≠ 0 := by
    rw [digitsValue_cons]
    have := Nat.mul_pos (Nat.pow_pos (n := ds.length) (show 0 < 10 by decide)) hpos
    omega
  have hdigits : Nat.digits 10 (digitsValue (d :: ds)) = ((d :: ds).map Fin.val).reverse := by
    refine Nat.digits_ofDigits 10 (by decide) _ (fun l hl => ?_) fun _ => ?_
    · obtain ⟨e, -, rfl⟩ := List.mem_map.mp (List.mem_reverse.mp hl)
      exact e.isLt
    · simpa using hpos.ne'
  unfold natDigits
  rw [if_neg hne, hdigits, List.reverse_reverse, List.map_map]
  exact (List.map_congr_left fun e _ => Fin.ext (Nat.mod_eq_of_lt e.isLt)).trans (List.map_id _)

theorem digitUnits_length (ds : List (Fin 10)) : (digitUnits ds).length = ds.length :=
  List.length_map _

theorem integerText_natCast (n : ℕ) : integerText n = digitUnits (natDigits n) := by
  have h : ¬ ((n : ℤ) < 0) := by omega
  simp [integerText, h]

theorem padStart_digits (n : ℕ) (ds : List (Fin 10)) :
    padStart n (digitUnits ds) = digitUnits (List.replicate (n - ds.length) 0 ++ ds) := by
  rw [padStart, digitUnits_length, digitUnits, digitUnits, List.map_append, List.map_replicate]
  rfl

theorem padStart_injective {n a b : ℕ}
    (h : padStart n (integerText a) = padStart n (integerText b)) : a = b := by
  rw [integerText_natCast, integerText_natCast, padStart_digits, padStart_digits] at h
  have hvalue := congrArg digitsValue (digitUnits_injective h)
  simpa [digitsValue_zeros] using hvalue

/-- A digit string is its number with zeros in front. -/
theorem padStart_value {ds : List (Fin 10)} (hne : ds ≠ []) :
    padStart ds.length (integerText (digitsValue ds)) = digitUnits ds := by
  rw [integerText_natCast]
  induction ds with
  | nil => exact absurd rfl hne
  | cons d ds ih =>
      by_cases hd : d = 0
      · subst hd
        cases ds with
        | nil => rfl
        | cons e es =>
            have hvalue : digitsValue (0 :: e :: es) = digitsValue (e :: es) := by
              rw [digitsValue_cons]
              simp
            have hrest := ih (by simp)
            have hlen : (natDigits (digitsValue (e :: es))).length ≤ (e :: es).length := by
              have := congrArg List.length hrest
              simp only [padStart, digitUnits_length, List.length_append,
                List.length_replicate] at this
              omega
            rw [padStart_digits] at hrest ⊢
            rw [hvalue, show (0 :: e :: es).length - (natDigits (digitsValue (e :: es))).length =
              ((e :: es).length - (natDigits (digitsValue (e :: es))).length) + 1 by
                rw [List.length_cons]; omega, List.replicate_succ]
            exact congrArg (digitUnit 0 :: ·) hrest
      · rw [natDigits_value ds hd, padStart, digitUnits_length, Nat.sub_self]
        rfl

theorem integerText_injective : Function.Injective integerText := by
  intro a b h
  have hsign : ∀ n m : ℕ, 0x2D :: digitUnits (natDigits n) ≠ digitUnits (natDigits m) := by
    intro n m heq
    have hdash := digitUnits_isDigit 0x2D (heq ▸ List.mem_cons_self)
    revert hdash
    unfold isDigitUnit
    decide
  unfold integerText at h
  by_cases ha : a < 0
  · by_cases hb : b < 0
    · rw [if_pos ha, if_pos hb] at h
      have := natDigits_injective (digitUnits_injective (List.append_cancel_left h))
      omega
    · rw [if_pos ha, if_neg hb] at h
      exact absurd h (hsign _ _)
  · by_cases hb : b < 0
    · rw [if_neg ha, if_pos hb] at h
      exact absurd h.symm (hsign _ _)
    · rw [if_neg ha, if_neg hb] at h
      have := natDigits_injective (digitUnits_injective (List.append_cancel_left h))
      omega

/-! ### Day texts -/

/-- The dash, month and date that end a day text take six places. -/
theorem padStart_two {n : ℕ} (h : n ≤ 31) : (padStart 2 (integerText n)).length = 2 := by
  have hall : ∀ n : ℕ, n < 32 → (padStart 2 (integerText n)).length = 2 := by decide
  exact hall n (by omega)

theorem month_padded (d : ℤ) : (padStart 2 (integerText (monthOf d + 1))).length = 2 :=
  padStart_two (n := monthOf d + 1) (by have := (monthOf_spec d).1; omega)

theorem dateOf_natCast (d : ℤ) : ((dateOf d).toNat : ℤ) = dateOf d :=
  Int.toNat_of_nonneg (by have := (dateOf_bounds d).1; omega)

theorem date_padded (d : ℤ) : (padStart 2 (integerText (dateOf d))).length = 2 := by
  rw [← dateOf_natCast]
  exact padStart_two (by have := (dateOf_bounds d).2; omega)

/-- Two day texts are the same in each of their parts. -/
theorem dateText_inj {y z : JsString} {d e : ℤ}
    (h : dateText y (monthOf d) (dateOf d) = dateText z (monthOf e) (dateOf e)) :
    y = z ∧ monthOf d = monthOf e ∧ dateOf d = dateOf e := by
  obtain ⟨hy, hrest⟩ := List.append_inj' h (by simp [month_padded, date_padded])
  obtain ⟨hmonth, hrest⟩ := List.append_inj (List.cons.inj hrest).2
    (by rw [month_padded, month_padded])
  have hm := padStart_injective (a := monthOf d + 1) (b := monthOf e + 1) hmonth
  have hd := (List.cons.inj hrest).2
  rw [← dateOf_natCast d, ← dateOf_natCast e] at hd
  refine ⟨hy, by omega, ?_⟩
  rw [← dateOf_natCast d, padStart_injective hd, dateOf_natCast]

/-- A day text says which day it is. -/
theorem dayText_injective : Function.Injective dayText := by
  intro d e h
  obtain ⟨hy, hm, hd⟩ := dateText_inj h
  rw [← dayOf_parts d, ← dayOf_parts e, integerText_injective hy, hm, hd]

/-- The text the parser takes for a day: four digits for the year. -/
def isoText (d : ℤ) : JsString :=
  dateText (padStart 4 (integerText (yearOf d))) (monthOf d) (dateOf d)

/-- A day text with four digits for the year is the parser's. -/
theorem isoText_of_padded {d e : ℤ} {year : ℤ}
    (h : dateText (padStart 4 (integerText year)) (monthOf e) (dateOf e) = dayText d) :
    isoText d = dayText d := by
  have hlen := congrArg List.length (dateText_inj h).1
  rw [padStart, List.length_append, List.length_replicate] at hlen
  have hnone : 4 - (integerText (yearOf d)).length = 0 := by omega
  rw [isoText, dayText, padStart, hnone]
  rfl

/-! ### What the parser reads -/

theorem digitOf_some {u : UInt16} {k : ℕ} (h : digitOf u = some k) :
    ∃ d : Fin 10, u = digitUnit d ∧ k = d := by
  unfold digitOf at h
  split at h
  · rename_i hu
    have hlow : 0x30 ≤ u.toNat := UInt16.le_iff_toNat_le.mp hu.1
    have hhigh : u.toNat ≤ 0x39 := UInt16.le_iff_toNat_le.mp hu.2
    refine ⟨⟨u.toNat - 0x30, by omega⟩, ?_, (Option.some.inj h).symm⟩
    rw [digitUnit, show 0x30 + (u.toNat - 0x30) = u.toNat by omega, UInt16.ofNat_toNat]
  · cases h

theorem mapM_digitOf {us : JsString} {ks : List ℕ} (h : us.mapM digitOf = some ks) :
    ∃ ds : List (Fin 10), us = digitUnits ds ∧ ks = ds.map Fin.val := by
  induction us generalizing ks with
  | nil =>
      obtain rfl : [] = ks := by simpa using h
      exact ⟨[], rfl, rfl⟩
  | cons u us ih =>
      simp only [List.mapM_cons, Option.bind_eq_bind, Option.bind_eq_some_iff, Option.pure_def,
        Option.some.injEq] at h
      obtain ⟨k, hk, rest, hrest, rfl⟩ := h
      obtain ⟨d, rfl, rfl⟩ := digitOf_some hk
      obtain ⟨ds, rfl, rfl⟩ := ih hrest
      exact ⟨d :: ds, rfl, rfl⟩

/-- A run of digits is its number with zeros in front. -/
theorem numberOf_some {us : JsString} {k : ℕ} (h : numberOf us = some k) (hne : us ≠ []) :
    us = padStart us.length (integerText k) := by
  unfold numberOf at h
  obtain ⟨ks, hks, rfl⟩ := Option.map_eq_some_iff.mp h
  obtain ⟨ds, rfl, rfl⟩ := mapM_digitOf hks
  have hvalue : (ds.map Fin.val).foldl (10 * · + ·) 0 = digitsValue ds := by
    rw [digitsValue, Nat.ofDigits_eq_foldr, List.foldr_reverse]
    refine congrArg (fun f => List.foldl f 0 (ds.map Fin.val)) (funext₂ fun x y => ?_)
    exact Nat.add_comm _ _
  rw [hvalue, digitUnits_length, padStart_value fun h => hne (by rw [h]; rfl)]

theorem isoParts_some {iso : JsString} {p : IsoParts} (h : isoParts iso = some p) :
    iso = padStart 4 (integerText p.year) ++ 0x2D :: (padStart 2 (integerText p.month) ++
      0x2D :: padStart 2 (integerText p.date)) := by
  unfold isoParts at h
  split at h
  · split at h
    · rename_i y₁ y₂ y₃ y₄ s₁ m₁ m₂ s₂ d₁ d₂ hdash
      obtain ⟨rfl, rfl⟩ := hdash
      simp only [Option.bind_eq_bind, Option.bind_eq_some_iff, Option.pure_def,
        Option.some.injEq] at h
      obtain ⟨year, hyear, month, hmonth, date, hdate, rfl⟩ := h
      have h₁ := numberOf_some hyear (by simp)
      have h₂ := numberOf_some hmonth (by simp)
      have h₃ := numberOf_some hdate (by simp)
      show [y₁, y₂, y₃, y₄] ++ 0x2D :: ([m₁, m₂] ++ 0x2D :: [d₁, d₂]) = _
      rw [h₁, h₂, h₃]
      rfl
    · cases h
  · cases h

theorem parts_ok {iso : JsString} {p : IsoParts} (h : parts iso = .ok p) :
    isoParts iso = some p ∧ isIsoDay iso = true := by
  unfold parts at h
  split at h
  · cases h
  · split at h
    · cases h
      exact ⟨‹_›, ‹_›⟩
    · cases h

/-- The day after a date. -/
theorem utcDay_succ (y month date : ℤ) : utcDay y month (date + 1) = utcDay y month date + 1 := by
  simp only [utcDay, dayOf]
  omega

/-- A day text that is taken names a day, and is that day's text. -/
theorem dayRange_spec {iso : JsString} {r : Range} (h : DhakaTime.dayRange iso = .ok r) :
    ∃ d, r = BookHouse.dayRange d ∧ iso = isoText d := by
  unfold DhakaTime.dayRange at h
  cases hp : parts iso with
  | error e => simp [hp, bind, Except.bind] at h
  | ok p =>
      obtain ⟨hparts, hday⟩ := parts_ok hp
      obtain rfl := Except.ok.inj (show Except.ok _ = Except.ok r from hp ▸ h)
      refine ⟨utcDay p.year (p.month - 1) p.date, ?_, ?_⟩
      · simp only [DhakaTime.dhakaMidnight, utcDay_succ]
        rfl
      · simp only [isIsoDay, hparts, Bool.and_eq_true, decide_eq_true_eq] at hday
        obtain ⟨⟨hyear, hmonth⟩, hdate⟩ := hday
        rw [isoText, dateText, hyear, hmonth, hdate, sub_add_cancel]
        exact isoParts_some hparts

/-! ### The days of a span -/

theorem dhakaDay_eq (t : Instant) : DhakaTime.dhakaDay t = dayText (BookHouse.dhakaDay t) := rfl

@[simp] theorem dhakaDay_midnight (d : ℤ) : BookHouse.dhakaDay (BookHouse.dhakaMidnight d) = d := by
  have hday : (d * 86400000 - 21600000 + 21600000) / 86400000 = d := by omega
  exact hday

theorem dhakaMidnight_succ (d : ℤ) :
    BookHouse.dhakaMidnight d + msPerDay = BookHouse.dhakaMidnight (d + 1) := by
  simp only [BookHouse.dhakaMidnight]
  ring

/-- From one midnight to another, 24 hours at a time. -/
theorem daysUpTo_eq (b : ℤ) (left : ℕ) : ∀ a : ℤ,
    daysUpTo (BookHouse.dhakaMidnight b) left (BookHouse.dhakaMidnight a) =
      (daysFrom a (min left (b + 1 - a).toNat)).map dayText := by
  induction left with
  | zero => intro a; simp [daysUpTo, daysFrom]
  | succ left ih =>
      intro a
      have hstart : BookHouse.dhakaMidnight a ≤ BookHouse.dhakaMidnight b ↔ a ≤ b := by
        rw [dhakaMidnight_le, dhakaDay_midnight]
      rw [daysUpTo]
      split
      · rename_i hle
        have hab := hstart.mp hle
        rw [dhakaDay_eq, dhakaDay_midnight, dhakaMidnight_succ, ih,
          show min (left + 1) (b + 1 - a).toNat = min left (b + 1 - (a + 1)).toNat + 1 by omega]
        simp only [daysFrom, List.range_succ_eq_map, List.map_cons, List.map_map,
          Nat.cast_zero, add_zero]
        refine congrArg _ (List.map_congr_left fun i _ => congrArg dayText ?_)
        simp only [Function.comp_apply, Nat.succ_eq_add_one]
        push_cast
        ring
      · rename_i hlt
        have hba := mt hstart.mpr hlt
        rw [show (b + 1 - a).toNat = 0 by omega]
        simp [daysFrom]

end BookHouse
