/-
The calendar helpers agree: `dhaka-time.ts`, and what the orders, the reports and the customers
compute of it by themselves.

Everything is carried over to day numbers.  The texts the parser takes are those of the days
of the years 100 to 9999 (`dayRange_isoText`, `dayRange_isoDay`), since a year below 100 names
one of the last century; a date whose month or day runs past the end is an offset from the
first of a month (`utcDay_monthBegin`), and months are in a row (`Calendar.monthNo_eq_iff`).
-/
import BookHouse.Platform.DhakaDays
import BookHouse.Proofs.DhakaTime
import BookHouse.Reports.Dashboard

namespace BookHouse

open Calendar DhakaTime

/-! ### Texts of a fixed width -/

theorem digitOf_digitUnit (d : Fin 10) : digitOf (digitUnit d) = some (d : ℕ) := by
  revert d
  decide

theorem numberOf_digitUnits (ds : List (Fin 10)) :
    numberOf (digitUnits ds) = some (digitsValue ds) := by
  have hread : (digitUnits ds).mapM digitOf = some (ds.map Fin.val) := by
    induction ds with
    | nil => rfl
    | cons d ds ih =>
        rw [digitUnits, List.map_cons, List.mapM_cons, digitOf_digitUnit]
        rw [digitUnits] at ih
        simp [ih]
  rw [numberOf, hread, Option.map_some, digitsValue, Nat.ofDigits_eq_foldr, List.foldr_reverse]
  refine congrArg (fun f => some (List.foldl f 0 (ds.map Fin.val))) (funext₂ fun x y => ?_)
  exact Nat.add_comm _ _

theorem natDigits_length {n k : ℕ} (hk : 0 < k) (h : n < 10 ^ k) : (natDigits n).length ≤ k := by
  unfold natDigits
  split
  · exact hk
  · rw [List.length_map, List.length_reverse]
    exact (Nat.digits_length_le_iff (by omega) n).mpr h

/-- A number that fits is read back from its padded text. -/
theorem numberOf_padStart (k n : ℕ) : numberOf (padStart k (integerText n)) = some n := by
  rw [integerText_natCast, padStart_digits, numberOf_digitUnits, digitsValue_zeros,
    digitsValue_natDigits]

theorem padStart_length {n k : ℕ} (hk : 0 < k) (h : n < 10 ^ k) :
    (padStart k (integerText n)).length = k := by
  have hlen := natDigits_length hk h
  rw [integerText_natCast, padStart, List.length_append, List.length_replicate, digitUnits_length]
  omega

theorem isoParts_padded {y m d : ℕ} (hy : y < 10 ^ 4) (hm : m < 10 ^ 2) (hd : d < 10 ^ 2) :
    isoParts (padStart 4 (integerText y) ++ 0x2D :: (padStart 2 (integerText m) ++
      0x2D :: padStart 2 (integerText d))) = some ⟨y, m, d⟩ := by
  have hyear := numberOf_padStart 4 y
  have hmonth := numberOf_padStart 2 m
  have hdate := numberOf_padStart 2 d
  obtain ⟨y₁, y₂, y₃, y₄, hy'⟩ : ∃ a b c e, padStart 4 (integerText y) = [a, b, c, e] :=
    List.length_eq_four.mp (padStart_length (by omega) hy)
  obtain ⟨m₁, m₂, hm'⟩ := List.length_eq_two.mp (padStart_length (by omega) hm)
  obtain ⟨d₁, d₂, hd'⟩ := List.length_eq_two.mp (padStart_length (by omega) hd)
  rw [hy'] at hyear ⊢
  rw [hm'] at hmonth ⊢
  rw [hd'] at hdate ⊢
  simp [isoParts, hyear, hmonth, hdate]

/-- Four digits make a number below ten thousand. -/
theorem numberOf_lt {us : JsString} {k : ℕ} (h : numberOf us = some k) : k < 10 ^ us.length := by
  unfold numberOf at h
  obtain ⟨ks, hks, rfl⟩ := Option.map_eq_some_iff.mp h
  obtain ⟨ds, rfl, rfl⟩ := mapM_digitOf hks
  have hvalue := numberOf_digitUnits ds
  unfold numberOf at hvalue
  rw [hks, Option.map_some, Option.some.injEq] at hvalue
  rw [hvalue, digitUnits_length, digitsValue]
  have hlt := Nat.ofDigits_lt_base_pow_length (b := 10) (l := (ds.map Fin.val).reverse) (by omega)
    fun x hx => by
      obtain ⟨d, -, rfl⟩ := List.mem_map.mp (List.mem_reverse.mp hx)
      exact d.isLt
  simpa using hlt

theorem isoParts_year {iso : JsString} {p : IsoParts} (h : isoParts iso = some p) :
    p.year < 10 ^ 4 := by
  unfold isoParts at h
  split at h
  · split at h
    · simp only [Option.bind_eq_bind, Option.bind_eq_some_iff, Option.pure_def,
        Option.some.injEq] at h
      obtain ⟨year, hyear, month, hmonth, date, hdate, rfl⟩ := h
      exact numberOf_lt hyear
    · cases h
  · cases h

/-! ### Days the parser takes -/

section

variable {y month date d e : ℤ}

/-- A date is an offset from the first of a month. -/
theorem utcDay_monthBegin (hy : ¬(0 ≤ y ∧ y ≤ 99)) :
    utcDay y month date = monthBegin (12 * y + month) + (date - 1) := by
  rw [utcDay, if_neg hy, monthBegin, dayOf, dayOf,
    show (12 * y + month) / 12 = y + month / 12 by omega,
    show (12 * y + month) % 12 = month % 12 by omega]
  omega

/-- The years that four digits name. -/
def IsoDay (d : ℤ) : Prop := 100 ≤ yearOf d ∧ yearOf d ≤ 9999

theorem utcDay_parts (h : 100 ≤ yearOf d) : utcDay (yearOf d) (monthOf d) (dateOf d) = d := by
  rw [utcDay_monthBegin (by omega)]
  have hday := dayOf_parts d
  have hm := (monthOf_spec d).1
  simp only [monthBegin, dayOf] at hday ⊢
  rw [show (12 * yearOf d + (monthOf d : ℤ)) / 12 = yearOf d by omega,
    show ((12 * yearOf d + (monthOf d : ℤ)) % 12).toNat = monthOf d by omega]
  omega

theorem parts_isoText (h : IsoDay d) :
    parts (isoText d) = .ok ⟨(yearOf d).toNat, monthOf d + 1, (dateOf d).toNat⟩ := by
  obtain ⟨hlow, hhigh⟩ := h
  have hm := (monthOf_spec d).1
  obtain ⟨hpos, hlast⟩ := dateOf_bounds d
  have hy : ((yearOf d).toNat : ℤ) = yearOf d := by omega
  have hd := dateOf_natCast d
  have hread : isoParts (isoText d) = some ⟨(yearOf d).toNat, monthOf d + 1, (dateOf d).toNat⟩ := by
    rw [isoText, dateText, ← hy, ← hd]
    exact isoParts_padded (m := monthOf d + 1) (by omega) (by omega) (by omega)
  have hday : utcDay (yearOf d).toNat (((monthOf d + 1 : ℕ) : ℤ) - 1) (dateOf d).toNat = d := by
    rw [hy, hd, Nat.cast_add, Nat.cast_one, add_sub_cancel_right, utcDay_parts hlow]
  have hvalid : isIsoDay (isoText d) = true := by
    simp only [isIsoDay, hread, hday, Bool.and_eq_true, decide_eq_true_eq]
    exact ⟨⟨hy.symm, by omega⟩, hd.symm⟩
  rw [parts, hread]
  exact if_pos hvalid

theorem dayRange_isoText (h : IsoDay d) :
    DhakaTime.dayRange (isoText d) = .ok (BookHouse.dayRange d) := by
  have hy : ((yearOf d).toNat : ℤ) = yearOf d := by have := h.1; omega
  unfold DhakaTime.dayRange
  rw [parts_isoText h]
  simp only [bind, Except.bind, pure, Except.pure, DhakaTime.dhakaMidnight, utcDay_succ, hy,
    dateOf_natCast, Nat.cast_add, Nat.cast_one, add_sub_cancel_right, utcDay_parts h.1]
  rfl

/-- A year below 100 is read as one of the last century. -/
theorem yearOf_legacy (hy : 0 ≤ y ∧ y ≤ 99) (hm : -1 ≤ month) (hd : 0 ≤ date) :
    1899 ≤ yearOf (utcDay y month date) := by
  have hday : utcDay y month date = monthBegin (12 * (1900 + y) + month) + (date - 1) := by
    rw [← utcDay_monthBegin (by omega), utcDay, utcDay, if_pos hy, if_neg (by omega)]
  have hmono : monthBegin (12 * 1900 - 1) ≤ monthBegin (12 * (1900 + y) + month) :=
    monthBegin_le_iff.mpr (by omega)
  have hfirst : yearStart 1899 ≤ monthBegin (12 * 1900 - 1) - 1 := by decide
  obtain ⟨-, hended⟩ := yearOf_spec (utcDay y month date)
  have hlt : yearStart 1899 < yearStart (yearOf (utcDay y month date) + 1) := by omega
  have := yearStart_lt_iff.mp hlt
  omega

/-- What `parts` reads is the year, the month and the date of a day of those years. -/
theorem parts_isoDay {iso : JsString} {p : IsoParts} (h : parts iso = .ok p) :
    ∃ d, IsoDay d ∧ iso = isoText d ∧
      p = ⟨(yearOf d).toNat, monthOf d + 1, (dateOf d).toNat⟩ := by
  obtain ⟨hparts, hvalid⟩ := parts_ok h
  simp only [isIsoDay, hparts, Bool.and_eq_true, decide_eq_true_eq] at hvalid
  obtain ⟨⟨hyear, hmonth⟩, hdate⟩ := hvalid
  obtain ⟨year, month, date⟩ := p
  generalize hday : utcDay year ((month : ℤ) - 1) date = d at hyear hmonth hdate
  have hlow : 100 ≤ yearOf d := by
    by_contra hlt
    have hle : (year : ℤ) ≤ 99 := by simp only at hyear; omega
    have hlegacy : 1899 ≤ yearOf (utcDay year ((month : ℤ) - 1) date) :=
      yearOf_legacy ⟨by omega, hle⟩ (by omega) (by omega)
    rw [hday] at hlegacy
    omega
  have hhigh : yearOf d ≤ 9999 := by
    have hlt := isoParts_year hparts
    simp only at hlt hyear
    omega
  refine ⟨d, ⟨hlow, hhigh⟩, ?_, ?_⟩
  · rw [isoText, dateText, hyear, hmonth, hdate, sub_add_cancel]
    exact isoParts_some hparts
  · simp only at hyear hmonth hdate
    rw [hyear, hdate, Int.toNat_natCast, Int.toNat_natCast]
    congr 1
    omega

theorem dayRange_isoDay {iso : JsString} {r : Range} (h : DhakaTime.dayRange iso = .ok r) :
    ∃ d, IsoDay d ∧ iso = isoText d ∧ r = BookHouse.dayRange d := by
  cases hp : parts iso with
  | error e => simp [DhakaTime.dayRange, hp, bind, Except.bind] at h
  | ok p =>
      obtain ⟨d, hd, rfl, -⟩ := parts_isoDay hp
      exact ⟨d, hd, rfl, Except.ok.inj (h.symm.trans (dayRange_isoText hd))⟩

theorem year_padded_inj (hd : IsoDay d) (he : IsoDay e) :
    padStart 4 (integerText (yearOf d)) = padStart 4 (integerText (yearOf e)) ↔
      yearOf d = yearOf e := by
  have hd0 := hd.1
  have he0 := he.1
  refine ⟨fun h => ?_, fun h => by rw [h]⟩
  rw [← Int.toNat_of_nonneg (show 0 ≤ yearOf d by omega),
    ← Int.toNat_of_nonneg (show 0 ≤ yearOf e by omega)] at h
  have := padStart_injective h
  omega

/-- A day of those years is named by its text. -/
theorem isoText_injective (hd : IsoDay d) (he : IsoDay e) (h : isoText d = isoText e) : d = e := by
  obtain ⟨hy, hm, hdate⟩ := dateText_inj h
  rw [← dayOf_parts d, ← dayOf_parts e, hm, hdate, (year_padded_inj hd he).mp hy]

/-- From the year 1000 on a day's own text is the one the parser takes. -/
theorem isoText_eq (h : 1000 ≤ yearOf d) : isoText d = dayText d := by
  have hy : ((yearOf d).toNat : ℤ) = yearOf d := by omega
  have hlen : 4 ≤ (natDigits (yearOf d).toNat).length := by
    by_contra hlt
    have hshort : (Nat.digits 10 (yearOf d).toNat).length ≤ 3 := by
      unfold natDigits at hlt
      rw [if_neg (by omega), List.length_map, List.length_reverse] at hlt
      omega
    have := (Nat.digits_length_le_iff (by omega) _).mp hshort
    omega
  rw [isoText, dayText, ← hy, padStart, integerText_natCast, digitUnits_length,
    Nat.sub_eq_zero_of_le hlen]
  rfl

end

/-! ### Days and months of an instant -/

section

variable {t : Instant}

/-- The instants of the Dhaka years 1000 to 9999. -/
def FourDigitYear (t : Instant) : Prop :=
  1000 ≤ yearOf (dhakaDay t) ∧ yearOf (dhakaDay t) ≤ 9999

theorem FourDigitYear.isoDay (h : FourDigitYear t) : IsoDay (dhakaDay t) :=
  ⟨by have := h.1; omega, h.2⟩

theorem FourDigitYear.text (h : FourDigitYear t) :
    DhakaTime.dhakaDay t = isoText (dhakaDay t) := (isoText_eq h.1).symm

theorem dhakaDay_iff (ht : FourDigitYear t) {iso : JsString} {r : Range}
    (h : DhakaTime.dayRange iso = .ok r) :
    DhakaTime.dhakaDay t = iso ↔ r.start ≤ t ∧ t < r.end_ := by
  obtain ⟨d, hd, rfl, rfl⟩ := dayRange_isoDay h
  have hholds : (BookHouse.dayRange d).holds t = true ↔
      (BookHouse.dayRange d).start ≤ t ∧ t < (BookHouse.dayRange d).end_ := by
    rw [Range.holds, Bool.and_eq_true, decide_eq_true_eq, decide_eq_true_eq]
  rw [ht.text, ← hholds, dayRange_holds]
  exact ⟨isoText_injective ht.isoDay hd, fun h => by rw [h]⟩

theorem dayRange_dhakaDay (ht : FourDigitYear t) :
    DhakaTime.dayRange (DhakaTime.dhakaDay t) = .ok (BookHouse.dayRange (dhakaDay t)) := by
  rw [ht.text, dayRange_isoText ht.isoDay]

/-- The months before an instant's Dhaka month. -/
def dhakaMonth (t : Instant) : ℤ := monthNo (dhakaDay t)

/-- A month of instants begins at the midnight of its first day. -/
theorem dhakaMonth_isLeast (n : ℤ) :
    IsLeast {u | dhakaMonth u = n} (dhakaMidnight (monthBegin n)) := by
  constructor
  · show monthNo (dhakaDay (dhakaMidnight (monthBegin n))) = n
    rw [dhakaDay_midnight, monthNo_monthBegin]
  · intro u hu
    exact dhakaMidnight_le.mpr ((monthBegin_isLeast n).2 hu)

/-- A midnight that a `Date` can hold is a UTC midnight less six hours that it can hold too. -/
theorem timeClip_midnight (b : ℤ) :
    ((timeClip (b * msPerDay)).bind fun utc => timeClip (utc - dhakaOffsetMs)) =
      timeClip (dhakaMidnight b) := by
  by_cases hb : |b * msPerDay| ≤ 8640000000000000
  · rw [timeClip, if_pos hb]
    rfl
  · have hout : ¬|dhakaMidnight b| ≤ 8640000000000000 := by
      have hday : ¬|b * 86400000| ≤ 8640000000000000 := hb
      have hoff : ¬|b * 86400000 - 21600000| ≤ 8640000000000000 := by
        rw [abs_le] at hday ⊢
        omega
      exact hoff
    rw [timeClip, if_neg hb, timeClip, if_neg hout]
    rfl

theorem dhakaMonthStart_eq (ht : FourDigitYear t) (k : ℤ) :
    CustomerStats.dhakaMonthStart t k =
      timeClip (dhakaMidnight (monthBegin (dhakaMonth t + k))) := by
  have hlow : yearStart 1000 ≤ dhakaDay t :=
    (yearStart_le_iff.mpr ht.1).trans (yearOf_spec _).1
  have hhigh : dhakaDay t < yearStart 10000 :=
    (yearOf_spec _).2.trans_le (yearStart_le_iff.mpr (by have := ht.2; omega))
  have hlocal : timeClip (t + dhakaOffsetMs) = some (t + dhakaOffsetMs) := by
    rw [timeClip, if_pos]
    have hfirst : (-354285 : ℤ) ≤ (t + 21600000) / 86400000 := hlow
    have hlast : (2932897 : ℤ) > (t + 21600000) / 86400000 := hhigh
    have hbound : (-8640000000000000 : ℤ) ≤ t + 21600000 ∧
        (8640000000000000 : ℤ) ≥ t + 21600000 := by omega
    exact abs_le.mpr hbound
  have hday : utcDay (yearOf (dhakaDay t)) (monthOf (dhakaDay t) + k) 1 =
      monthBegin (dhakaMonth t + k) := by
    have := ht.1
    rw [utcDay_monthBegin (by omega), dhakaMonth, monthNo]
    ring_nf
  have hdays : (t + dhakaOffsetMs) / msPerDay = dhakaDay t := rfl
  rw [CustomerStats.dhakaMonthStart, hlocal]
  simp only [Option.bind_eq_bind, Option.bind_some, hdays, hday]
  exact timeClip_midnight _

end

/-! ### Tenures -/

section tenures

variable {kind : Tenure} {n d e : ℤ} {t : Instant}

/-- The tenure a day is in, counted in tenures of its kind. -/
def tenureNo (kind : Tenure) (d : ℤ) : ℤ :=
  match kind with
  | .day => d
  | .month => monthNo d
  | .year => yearOf d

/-- The first day of a tenure. -/
def tenureBegin (kind : Tenure) (n : ℤ) : ℤ :=
  match kind with
  | .day => n
  | .month => monthBegin n
  | .year => yearStart n

theorem tenureNo_eq_iff :
    tenureNo kind d = n ↔ tenureBegin kind n ≤ d ∧ d < tenureBegin kind (n + 1) := by
  cases kind
  · show d = n ↔ n ≤ d ∧ d < n + 1
    omega
  · exact monthNo_eq_iff
  · exact yearOf_eq_iff

def tenureSpan (kind : Tenure) (n : ℤ) : Range :=
  { start := dhakaMidnight (tenureBegin kind n), end_ := dhakaMidnight (tenureBegin kind (n + 1)) }

theorem tenureSpan_holds :
    (tenureSpan kind n).start ≤ t ∧ t < (tenureSpan kind n).end_ ↔
      tenureNo kind (dhakaDay t) = n := by
  rw [tenureNo_eq_iff, tenureSpan, dhakaMidnight_le, ← not_le, dhakaMidnight_le, not_le]

theorem midnight_le_iff : dhakaMidnight d ≤ dhakaMidnight e ↔ d ≤ e := by
  rw [dhakaMidnight_le, dhakaDay_midnight]

/-- The days of a tenure are those whose range it contains. -/
theorem within_iff : (tenureSpan kind n).start ≤ (BookHouse.dayRange d).start ∧
    (BookHouse.dayRange d).end_ ≤ (tenureSpan kind n).end_ ↔ tenureNo kind d = n := by
  rw [tenureNo_eq_iff, tenureSpan, BookHouse.dayRange, midnight_le_iff, midnight_le_iff]
  omega

theorem tenureRange_isoText (h : IsoDay d) :
    tenureRange kind (isoText d) = .ok (tenureSpan kind (tenureNo kind d)) := by
  have hy : ((yearOf d).toNat : ℤ) = yearOf d := by have := h.1; omega
  have hlow := h.1
  unfold tenureRange
  rw [parts_isoText h]
  cases kind with
  | day => exact dayRange_isoText h
  | month =>
      have hstart : utcDay (yearOf d) (monthOf d) 1 = monthBegin (monthNo d) := by
        rw [utcDay_monthBegin (by omega), monthNo]
        omega
      have hend : utcDay (yearOf d) (monthOf d + 1) 1 = monthBegin (monthNo d + 1) := by
        rw [utcDay_monthBegin (by omega), monthNo, add_assoc]
        omega
      simp only [bind, Except.bind, pure, Except.pure, DhakaTime.dhakaMidnight, hy, Nat.cast_add,
        Nat.cast_one, add_sub_cancel_right, hstart, hend]
      rfl
  | year =>
      have hbegin (y : ℤ) (hy : 100 ≤ y) : utcDay y 0 1 = yearStart y := by
        rw [utcDay_monthBegin (by omega), yearStart_eq]
        ring_nf
      simp only [bind, Except.bind, pure, Except.pure, DhakaTime.dhakaMidnight, hy, sub_self,
        hbegin (yearOf d) hlow, hbegin (yearOf d + 1) (by omega)]
      rfl

/-- How many characters of a day's text name its tenure. -/
def tenureWidth : Tenure → ℕ
  | .day => 10
  | .month => 7
  | .year => 4

theorem year_padded (h : IsoDay d) : (padStart 4 (integerText (yearOf d))).length = 4 := by
  obtain ⟨hlow, hhigh⟩ := h
  rw [← Int.toNat_of_nonneg (show 0 ≤ yearOf d by omega)]
  exact padStart_length (by omega) (by omega)

theorem isoText_take (hd : IsoDay d) (he : IsoDay e) :
    (isoText d).take (tenureWidth kind) = (isoText e).take (tenureWidth kind) ↔
      tenureNo kind d = tenureNo kind e := by
  cases kind with
  | day =>
      have hall {d : ℤ} (h : IsoDay d) : (isoText d).take 10 = isoText d := by
        refine List.take_of_length_le ?_
        simp [isoText, dateText, year_padded h, month_padded, date_padded]
      show (isoText d).take 10 = (isoText e).take 10 ↔ d = e
      rw [hall hd, hall he]
      exact ⟨isoText_injective hd he, fun h => by rw [h]⟩
  | month =>
      have hcut {d : ℤ} (h : IsoDay d) : (isoText d).take 7 =
          padStart 4 (integerText (yearOf d)) ++
            0x2D :: padStart 2 (integerText (monthOf d + 1)) := by
        have htext : isoText d = (padStart 4 (integerText (yearOf d)) ++
            0x2D :: padStart 2 (integerText (monthOf d + 1))) ++
              0x2D :: padStart 2 (integerText (dateOf d)) := by
          simp [isoText, dateText]
        rw [htext]
        exact List.take_left' (by simp [year_padded h, month_padded])
      show (isoText d).take 7 = (isoText e).take 7 ↔ monthNo d = monthNo e
      rw [hcut hd, hcut he]
      have hmd := (monthOf_spec d).1
      have hme := (monthOf_spec e).1
      constructor
      · intro h
        obtain ⟨hyear, hrest⟩ := List.append_inj h (by rw [year_padded hd, year_padded he])
        have hmonth := padStart_injective (a := monthOf d + 1) (b := monthOf e + 1)
          (List.cons.inj hrest).2
        rw [monthNo, monthNo, (year_padded_inj hd he).mp hyear]
        omega
      · intro h
        unfold monthNo at h
        rw [show yearOf d = yearOf e by omega, show monthOf d = monthOf e by omega]
  | year =>
      have hcut {d : ℤ} (h : IsoDay d) : (isoText d).take 4 = padStart 4 (integerText (yearOf d)) :=
        List.take_left' (year_padded h)
      show (isoText d).take 4 = (isoText e).take 4 ↔ yearOf d = yearOf e
      rw [hcut hd, hcut he, year_padded_inj hd he]

/-- A day of a tenure is a day the parser takes, if another of its days is. -/
theorem isoDay_of_tenure (hd : IsoDay d) (h : tenureNo kind e = tenureNo kind d) : IsoDay e := by
  have hyear : yearOf e = yearOf d := by
    cases kind with
    | day => rw [show e = d from h]
    | month =>
        have hmd := (monthOf_spec d).1
        have hme := (monthOf_spec e).1
        simp only [tenureNo, monthNo] at h
        omega
    | year => exact h
  unfold IsoDay at hd ⊢
  omega

/-- The number of the tenure that the parts of an anchor name. -/
def anchorNo (p : IsoParts) : Tenure → ℤ
  | .day => utcDay p.year (p.month - 1) p.date
  | .month => 12 * p.year + p.month
  | .year => p.year

/-- Both counts are of the same tenures; the parts count a month from 1. -/
theorem number_isoText (h : IsoDay d) :
    anchorNo ⟨(yearOf d).toNat, monthOf d + 1, (dateOf d).toNat⟩ kind -
      (if kind = .month then 1 else 0) = tenureNo kind d := by
  have hy : ((yearOf d).toNat : ℤ) = yearOf d := by have := h.1; omega
  cases kind with
  | day =>
      show utcDay (yearOf d).toNat ((monthOf d + 1 : ℕ) - 1 : ℤ) (dateOf d).toNat - 0 = d
      rw [hy, dateOf_natCast, Nat.cast_add, Nat.cast_one, add_sub_cancel_right, utcDay_parts h.1,
        sub_zero]
  | month =>
      show 12 * ((yearOf d).toNat : ℤ) + (monthOf d + 1 : ℕ) - 1 = 12 * yearOf d + monthOf d
      omega
  | year =>
      show ((yearOf d).toNat : ℤ) - 0 = yearOf d
      omega

/-- A tenure is the days it contains, and the next one begins where it ends. -/
structure TenureAgrees (kind : Tenure) (anchor : JsString) (r : Range) : Prop where
  union : ∀ t, r.start ≤ t ∧ t < r.end_ ↔ ∃ iso day, DhakaTime.dayRange iso = .ok day ∧
    (r.start ≤ day.start ∧ day.end_ ≤ r.end_) ∧ day.start ≤ t ∧ t < day.end_
  days : ∀ iso day, DhakaTime.dayRange iso = .ok day →
    (r.start ≤ day.start ∧ day.end_ ≤ r.end_ ↔
      iso.take (tenureWidth kind) = anchor.take (tenureWidth kind))
  next : ∀ p next q r', parts anchor = .ok p → parts next = .ok q →
    anchorNo q kind = anchorNo p kind + 1 → tenureRange kind next = .ok r' →
    r'.start = r.end_

theorem tenureAgrees (hd : IsoDay d) :
    TenureAgrees kind (isoText d) (tenureSpan kind (tenureNo kind d)) := by
  refine ⟨fun t => ⟨fun ht => ?_, ?_⟩, fun iso day hday => ?_, ?_⟩
  · -- the day the instant falls on
    have hno := tenureSpan_holds.mp ht
    have hday := dayRange_holds.mpr (rfl : dhakaDay t = dhakaDay t)
    rw [Range.holds, Bool.and_eq_true, decide_eq_true_eq, decide_eq_true_eq] at hday
    exact ⟨_, _, dayRange_isoText (isoDay_of_tenure hd hno), within_iff.mpr hno, hday⟩
  · rintro ⟨iso, day, -, hwithin, hday⟩
    exact ⟨hwithin.1.trans hday.1, hday.2.trans_le hwithin.2⟩
  · obtain ⟨e, he, rfl, rfl⟩ := dayRange_isoDay hday
    rw [within_iff, isoText_take he hd]
  · intro p next q r' hp hq hnext hr
    obtain ⟨e, he, rfl, rfl⟩ := parts_isoDay hq
    obtain rfl := Except.ok.inj ((parts_isoText hd).symm.trans hp)
    obtain rfl := Except.ok.inj ((tenureRange_isoText he).symm.trans hr)
    have hno : tenureNo kind e = tenureNo kind d + 1 := by
      rw [← number_isoText hd, ← number_isoText he]
      omega
    rw [tenureSpan, tenureSpan, hno]

end tenures

/-! ### The days of a span -/

section

variable {d e : ℤ}

/-- The days from one to another, both included: each begins where the one before it ends. -/
structure ListsDays (firstIso lastIso : JsString) (first last : Range) (days : List JsString) :
    Prop where
  texts : days = (List.range ((last.start - first.start) / msPerDay + 1).toNat).map
    fun i : ℕ => DhakaTime.dhakaDay (first.start + i * msPerDay)
  nodup : days.Nodup
  ends : FourDigitYear first.start → days.head? = some firstIso ∧ days.getLast? = some lastIso
  ranges : FourDigitYear first.start → ∀ (i : ℕ) iso, days[i]? = some iso →
    DhakaTime.dayRange iso = .ok { start := first.start + i * msPerDay,
                                   end_ := first.start + (i + 1) * msPerDay }

theorem midnight_add (d : ℤ) (i : ℕ) : dhakaMidnight d + i * msPerDay = dhakaMidnight (d + i) := by
  simp only [dhakaMidnight]
  ring

theorem midnight_sub (d e : ℤ) : (dhakaMidnight e - dhakaMidnight d) / msPerDay = e - d := by
  have h : (e * 86400000 - 21600000 - (d * 86400000 - 21600000)) / 86400000 = e - d := by omega
  exact h

theorem yearOf_mono (h : d ≤ e) : yearOf d ≤ yearOf e := by
  have := yearStart_lt_iff.mp (((yearOf_spec d).1.trans h).trans_lt (yearOf_spec e).2)
  omega

theorem eachDay_isoText (hd : IsoDay d) (he : IsoDay e) (max : ℕ) :
    eachDay (isoText d) (isoText e) max =
      .ok ((daysFrom d (min max (e + 1 - d).toNat)).map dayText) := by
  unfold eachDay
  rw [dayRange_isoText hd, dayRange_isoText he, ← daysUpTo_eq]
  rfl

theorem listsDays (he : IsoDay e) (hle : d ≤ e) :
    ListsDays (isoText d) (isoText e) (BookHouse.dayRange d) (BookHouse.dayRange e)
      ((daysFrom d (e + 1 - d).toNat).map dayText) := by
  have hcount : (e + 1 - d).toNat = (e - d).toNat + 1 := by omega
  have hyears (h : FourDigitYear (dhakaMidnight d)) {i : ℕ} (hi : i < (e + 1 - d).toNat) :
      IsoDay (d + i) ∧ isoText (d + i) = dayText (d + i) := by
    have hlow := h.1
    rw [dhakaDay_midnight] at hlow
    have hfirst := yearOf_mono (show d ≤ d + i by omega)
    have hlast := yearOf_mono (show d + i ≤ e by omega)
    have hhigh := he.2
    exact ⟨⟨by omega, by omega⟩, isoText_eq (by omega)⟩
  constructor
  · rw [BookHouse.dayRange, BookHouse.dayRange, midnight_sub, show e - d + 1 = e + 1 - d by ring,
      daysFrom, List.map_map]
    refine List.map_congr_left fun i _ => ?_
    rw [midnight_add, dhakaDay_eq, dhakaDay_midnight]
    rfl
  · exact (nodup_daysFrom _ _).map dayText_injective
  · intro h
    constructor
    · have htext := (hyears h (i := 0) (by omega)).2
      simp only [Nat.cast_zero, add_zero] at htext
      rw [hcount, daysFrom, List.range_succ_eq_map]
      simp [htext]
    · have htext := (hyears h (i := (e - d).toNat) (by omega)).2
      rw [Int.toNat_of_nonneg (by omega), show d + (e - d) = e by ring] at htext
      rw [hcount, daysFrom, List.range_succ]
      simp [htext, Int.toNat_of_nonneg (show 0 ≤ e - d by omega)]
  · intro h i iso hi
    rw [daysFrom, List.map_map, List.getElem?_map, Option.map_eq_some_iff] at hi
    obtain ⟨j, hj, rfl⟩ := hi
    obtain ⟨hlt, rfl⟩ := List.getElem?_eq_some_iff.mp hj
    rw [List.length_range] at hlt
    rw [List.getElem_range]
    obtain ⟨hday, htext⟩ := hyears h hlt
    show DhakaTime.dayRange (dayText (d + i)) = _
    rw [← htext, dayRange_isoText hday, BookHouse.dayRange, BookHouse.dayRange, midnight_add,
      show ((i : ℤ) + 1) = ((i + 1 : ℕ) : ℤ) by push_cast; rfl, midnight_add]
    push_cast
    rw [add_assoc]

end

/-! ### The helpers agree -/

structure DhakaCalendar : Prop where
  day : ∀ t, FourDigitYear t → ∀ iso r, DhakaTime.dayRange iso = .ok r →
    (DhakaTime.dhakaDay t = iso ↔ r.start ≤ t ∧ t < r.end_)
  dayStart : ∀ t, FourDigitYear t → ∃ r, DhakaTime.dayRange (DhakaTime.dhakaDay t) = .ok r ∧
    OrderFilters.dhakaDayStart t = r.start ∧ dhakaDayStart t = r.start
  monthStart : ∀ t, FourDigitYear t → ∀ k, ∃ start,
    IsLeast {u | dhakaMonth u = dhakaMonth t + k} start ∧
      CustomerStats.dhakaMonthStart t k = timeClip start
  tenure : ∀ kind anchor day, DhakaTime.dayRange anchor = .ok day →
    ∃ r, tenureRange kind anchor = .ok r ∧ TenureAgrees kind anchor r
  eachDay : ∀ firstIso lastIso first last, DhakaTime.dayRange firstIso = .ok first →
    DhakaTime.dayRange lastIso = .ok last → first.start ≤ last.start →
      last.start < first.start + 400 * msPerDay →
        ∃ days, DhakaTime.eachDay firstIso lastIso = .ok days ∧
          ListsDays firstIso lastIso first last days

theorem dhakaCalendar : DhakaCalendar := by
  refine ⟨fun t ht iso r h => dhakaDay_iff ht h, fun t ht => ?_, fun t ht k => ?_,
    fun kind anchor day h => ?_, fun firstIso lastIso first last hfirst hlast hle hspan => ?_⟩
  · exact ⟨_, dayRange_dhakaDay ht, rfl, rfl⟩
  · exact ⟨_, dhakaMonth_isLeast _, dhakaMonthStart_eq ht k⟩
  · obtain ⟨d, hd, rfl, -⟩ := dayRange_isoDay h
    exact ⟨_, tenureRange_isoText hd, tenureAgrees hd⟩
  · obtain ⟨d, hd, rfl, rfl⟩ := dayRange_isoDay hfirst
    obtain ⟨e, he, rfl, rfl⟩ := dayRange_isoDay hlast
    have hde : d ≤ e := midnight_le_iff.mp hle
    have hlt : e < d + 400 := by
      have h : e * 86400000 - 21600000 < d * 86400000 - 21600000 + 400 * 86400000 := hspan
      omega
    refine ⟨_, eachDay_isoText hd he 400, ?_⟩
    rw [show min 400 (e + 1 - d).toNat = (e + 1 - d).toNat by omega]
    exact listsDays he hde

/--
Ten million months from 1970 there is a month, and no `Date` for its start; and a day of the year
500 is listed under a text with three digits for the year.
-/
theorem dhakaMonthStart_invalid : FourDigitYear 0 ∧
    CustomerStats.dhakaMonthStart 0 10000000 = none ∧
    (¬∀ t, FourDigitYear t → ∀ k, ∃ start, IsLeast {u | dhakaMonth u = dhakaMonth t + k} start ∧
      CustomerStats.dhakaMonthStart t k = some start) ∧
    DhakaTime.eachDay (js "0500-01-01") (js "0500-01-01") = .ok [js "500-01-01"] := by
  have hyear : FourDigitYear 0 := by
    unfold FourDigitYear
    decide +kernel
  have hnone : CustomerStats.dhakaMonthStart 0 10000000 = none := by decide +kernel
  refine ⟨hyear, hnone, fun h => ?_, by decide +kernel⟩
  obtain ⟨start, -, hstart⟩ := h 0 hyear 10000000
  rw [hnone] at hstart
  cases hstart

end BookHouse
