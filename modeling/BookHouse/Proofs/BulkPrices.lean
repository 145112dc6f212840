/-
What the bulk edits of `product-bulk.service.ts` do to a price and to its badge.

Two roundings meet in the badge: the struck price is rounded to whole taka, and the
percentage read back from it to a whole percent.  With `q = 1 - percent / 100` the struck
price is off by half a taka at most, which moves the percentage by `50 q / old`; from 100
taka on that is below one half, so the second rounding takes it back.

A price change has one rounding, and the direction holds up to it: the new price is
compared with the old one put on the same grid of ৳5.  Off the grid the rounding can go
further than the percentage did, and then a price that was to go up goes down.
-/
import BookHouse.Catalog.PriceDesk
import BookHouse.Proofs.Money

namespace BookHouse

open Rounding

/-! ### The badge -/

section Badge

variable {price old : Money}

theorem discountPct_of_lt (h0 : 0 ≤ price) (h : price < old) :
    discountPct price (some old) = toPlaces .halfUp 0 ((1 - price / old) * 100) := by
  rw [discountPct, if_neg]
  push Not
  exact ⟨lt_of_le_of_lt h0 h, h⟩

/-- The share of the struck price that is taken off, in percent. -/
theorem takenOff_mem (h0 : 0 ≤ price) (h : price < old) :
    0 ≤ (1 - price / old) * 100 ∧ (1 - price / old) * 100 ≤ 100 := by
  have hold : 0 < old := lt_of_le_of_lt h0 h
  have hle : price / old ≤ 1 := (div_le_one hold).mpr h.le
  have hnn : 0 ≤ price / old := by positivity
  constructor <;> linarith

theorem discountPct_mem (h0 : 0 ≤ price) (h : price < old) :
    0 ≤ discountPct price (some old) ∧ discountPct price (some old) ≤ 100 := by
  obtain ⟨hlow, hhigh⟩ := takenOff_mem h0 h
  rw [discountPct_of_lt h0 h]
  exact ⟨toPlaces_nonneg hlow, toPlaces_le hlow (by simpa using HasPlaces.of_int 100) hhigh⟩

theorem discountPct_mono {price' old' : Money} (h0 : 0 ≤ price') (hprice : price' ≤ price)
    (h : price < old) (hold : old ≤ old') :
    discountPct price (some old) ≤ discountPct price' (some old') := by
  have h0' : 0 ≤ price := h0.trans hprice
  have hpos : 0 < old := lt_of_le_of_lt h0' h
  have hdiv : price' / old' ≤ price / old := by gcongr
  rw [discountPct_of_lt h0' h, discountPct_of_lt h0 (lt_of_le_of_lt hprice (h.trans_le hold))]
  refine toPlaces_mono (takenOff_mem h0' h).1 ?_
  linarith

/-- The struck price before it is rounded, and how far the rounding goes. -/
theorem compareAt_near {p : ℚ} (hprice : 0 ≤ price) (hp : p < 100) :
    |toPlaces .halfUp 0 (price / (1 - p / 100)) - price / (1 - p / 100)| ≤ 1 / 2 := by
  have hq : 0 < 1 - p / 100 := by linarith
  exact halfUp_near (by positivity)

/-- One percent of 100 taka is more than the rounding. -/
theorem lt_compareAt {p : ℚ} (hprice : 100 ≤ price) (hlow : 1 ≤ p) (hp : p < 100) :
    price < toPlaces .halfUp 0 (price / (1 - p / 100)) := by
  have hq : 0 < 1 - p / 100 := by linarith
  have hnear := (abs_le.mp (compareAt_near (by linarith : (0 : ℚ) ≤ price) hp)).1
  have hexact : price + 1 ≤ price / (1 - p / 100) := by
    rw [le_div_iff₀ hq]
    nlinarith
  linarith

/-- Rounding the struck price moves the badge by less than half a percent. -/
theorem badge_near {p old : ℚ} (hprice : 100 ≤ price) (hlow : 1 ≤ p) (hp : p < 100)
    (hpos : 0 < old) (hold : |old - price / (1 - p / 100)| ≤ 1 / 2) :
    |(1 - price / old) * 100 - p| < 1 / 2 := by
  obtain ⟨q, hqdef⟩ : ∃ q, q = 1 - p / 100 := ⟨_, rfl⟩
  have hq : 0 < q := by linarith
  have hq1 : q ≤ 99 / 100 := by linarith
  rw [← hqdef] at hold
  obtain ⟨hbelow, habove⟩ := abs_le.mp hold
  have hexact : price / q * q = price := by field_simp
  have hoff : |q * old - price| ≤ q / 2 := by
    rw [abs_le]
    constructor <;> nlinarith
  -- the struck price is at least a hundred taka over `q`, half a taka less
  have hbig : 99 * q < old := by
    have hdiv : 100 ≤ price / q * q := by linarith
    nlinarith
  have hp' : p = 100 * (1 - q) := by linarith
  have hsplit : (1 - price / old) * 100 - p = 100 * (q * old - price) / old := by
    rw [hp']
    field_simp
    ring
  rw [hsplit, abs_div, abs_mul, abs_of_pos hpos, abs_of_pos (by norm_num : (0 : ℚ) < 100),
    div_lt_iff₀ hpos]
  nlinarith

/--
**A bulk discount shows the percentage asked for**, and the badge follows both prices.
A price is never negative: `products_price_nonneg`.
-/
theorem discount_shows :
    (∀ (price : Money) (p : ℕ), 100 ≤ price → Paisa price → 1 ≤ p → p ≤ 95 →
      ∃ old : ℤ, compareAtForDiscount price p = some (old : ℚ) ∧ price < old ∧
        discountPct price (compareAtForDiscount price p) = p) ∧
    ∀ price old : Money, 0 ≤ price → price < old →
      (0 ≤ discountPct price (some old) ∧ discountPct price (some old) ≤ 100) ∧
      (∀ old', old ≤ old' → discountPct price (some old) ≤ discountPct price (some old')) ∧
      ∀ price', price ≤ price' → price' < old →
        discountPct price' (some old) ≤ discountPct price (some old) := by
  refine ⟨fun price p hprice _ hlow hhigh => ?_, fun price old h0 h =>
    ⟨discountPct_mem h0 h, fun old' hold => discountPct_mono h0 le_rfl h hold,
      fun price' hle hlt => discountPct_mono h0 hle hlt le_rfl⟩⟩
  have hlow' : (1 : ℚ) ≤ p := by exact_mod_cast hlow
  have hhigh' : (p : ℚ) ≤ 95 := by exact_mod_cast hhigh
  have hp : (p : ℚ) < 100 := by linarith
  have h0 : (0 : ℚ) ≤ price := by linarith
  have hq : (0 : ℚ) < 1 - p / 100 := by linarith
  have hnear := compareAt_near h0 hp
  have hlt := lt_compareAt hprice hlow' hp
  have hstruck : compareAtForDiscount price p =
      some (toPlaces .halfUp 0 (price / (1 - p / 100))) := by
    have hcond : (decide ((0 : ℚ) < p) && decide ((p : ℚ) < 100)) = true := by
      simp only [Bool.and_eq_true, decide_eq_true_eq]
      exact ⟨by linarith, hp⟩
    rw [compareAtForDiscount, if_pos hcond]
    exact if_pos hlt
  refine ⟨⌊price / (1 - p / 100) + 1 / 2⌋, ?_, ?_, ?_⟩
  · rw [hstruck, halfUp_eq_floor (by positivity)]
  · rwa [← halfUp_eq_floor (by positivity)]
  · rw [hstruck, discountPct_of_lt h0 hlt]
    have hbadge := badge_near hprice hlow' hp (lt_of_le_of_lt h0 hlt) hnear
    exact_mod_cast halfUp_eq_of_near (n := (p : ℤ)) (takenOff_mem h0 hlt).1
      (by exact_mod_cast hbadge)

theorem discount_shows_fifteen :
    (∃ old : ℤ, compareAtForDiscount 350 (15 : ℕ) = some (old : ℚ) ∧ (350 : ℚ) < old ∧
      discountPct 350 (compareAtForDiscount 350 (15 : ℕ)) = (15 : ℕ)) ∧
    discountPct 350 (some 450) ≤ 100 :=
  ⟨discount_shows.1 350 15 (by norm_num) ⟨35000, by norm_num⟩ (by norm_num) (by norm_num),
    (discount_shows.2 350 450 (by norm_num) (by norm_num)).1.2⟩

end Badge

/-! ### The price change -/

section Change

variable {price price' percent : ℚ}

/-- The price moved by the percentage, before it is put on the grid. -/
def adjustedPrice (price percent : ℚ) : Direction → ℚ
  | .up => price * ((100 + percent) / 100)
  | .down => price * ((100 - percent) / 100)

/-- The nearest step of ৳5, and ৳5 at least. -/
def onGrid (v : ℚ) : Money :=
  let rounded := roundTo v priceStep
  if rounded < priceStep then priceStep else rounded

theorem bulkAdjustedPrice_eq (price percent : ℚ) (direction : Direction) :
    bulkAdjustedPrice price percent direction = onGrid (adjustedPrice price percent direction) := by
  cases direction with
  | up => rfl
  | down =>
      simp only [bulkAdjustedPrice, onGrid, adjustedPrice, reduceCtorEq, if_false, sub_eq_add_neg]

theorem onGrid_eq_max (v : ℚ) : onGrid v = max (roundTo v priceStep) priceStep := by
  unfold onGrid
  dsimp only
  split
  · rename_i h
    exact (max_eq_right h.le).symm
  · rename_i h
    exact (max_eq_left (not_lt.mp h)).symm

theorem roundTo_mono {v w step : ℚ} (h0 : 0 ≤ v) (hstep : 0 < step) (h : v ≤ w) :
    roundTo v step ≤ roundTo w step := by
  have hdiv : v / step ≤ w / step := by gcongr
  exact mul_le_mul_of_nonneg_right (toPlaces_mono (by positivity) hdiv) hstep.le

theorem onGrid_mono {v w : ℚ} (h0 : 0 ≤ v) (h : v ≤ w) : onGrid v ≤ onGrid w := by
  rw [onGrid_eq_max, onGrid_eq_max]
  exact max_le_max_right _ (roundTo_mono h0 (by norm_num [priceStep]) h)

theorem roundTo_step (n : ℕ) : roundTo (5 * n) priceStep = 5 * n := by
  have hwhole : toPlaces .halfUp 0 (n : ℚ) = n :=
    toPlaces_of_hasPlaces (by simpa using HasPlaces.of_int (n : ℤ))
  rw [roundTo, priceStep, mul_div_cancel_left₀ _ (by norm_num : (5 : ℚ) ≠ 0), hwhole, mul_comm]

/-- A step of the grid stays where it is. -/
theorem onGrid_step {n : ℕ} (hn : 0 < n) : onGrid (5 * n) = 5 * n := by
  have hn1 : (1 : ℚ) ≤ n := by exact_mod_cast hn
  have hleast : priceStep ≤ 5 * n := by
    rw [priceStep]
    linarith
  rw [onGrid_eq_max, roundTo_step, max_eq_left hleast]

theorem onGrid_isStep {v : ℚ} (h0 : 0 ≤ v) : ∃ n : ℕ, 0 < n ∧ onGrid v = 5 * n := by
  rw [onGrid_eq_max, roundTo, priceStep, halfUp_eq_floor (by positivity)]
  obtain ⟨m, hm⟩ : ∃ m : ℤ, m = ⌊v / 5 + 1 / 2⌋ := ⟨_, rfl⟩
  rw [← hm]
  rcases lt_or_ge 0 m with hpos | hle
  · obtain ⟨n, rfl⟩ := Int.eq_ofNat_of_zero_le hpos.le
    have hn : 0 < n := by exact_mod_cast hpos
    have hn1 : (1 : ℚ) ≤ n := by exact_mod_cast hn
    refine ⟨n, hn, ?_⟩
    rw [max_eq_left (by push_cast; linarith)]
    push_cast
    ring
  · have hm0 : (m : ℚ) ≤ 0 := by exact_mod_cast hle
    refine ⟨1, Nat.one_pos, ?_⟩
    rw [max_eq_right (by linarith)]
    norm_num

/-- Half a step is as far as the rounding goes, and the least price is not in its way. -/
theorem onGrid_near {v : ℚ} (h : 5 ≤ v) : |onGrid v - v| ≤ 5 / 2 := by
  have hround : |roundTo v priceStep - v| ≤ 5 / 2 := by
    obtain ⟨hbelow, habove⟩ := abs_le.mp (halfUp_near (by positivity : 0 ≤ v / 5))
    have hv : v / 5 * 5 = v := by ring
    rw [roundTo, priceStep, abs_le]
    constructor <;> linarith
  have hleast : priceStep ≤ roundTo v priceStep := by
    have hfive : roundTo 5 priceStep = priceStep := by simpa [priceStep] using roundTo_step 1
    calc priceStep = roundTo 5 priceStep := hfive.symm
      _ ≤ roundTo v priceStep := roundTo_mono (by norm_num) (by norm_num [priceStep]) h
  rw [onGrid_eq_max, max_eq_left hleast]
  exact hround

theorem adjustedPrice_nonneg (h0 : 0 ≤ price) (hlow : 0 ≤ percent) (hhigh : percent ≤ 100)
    (direction : Direction) : 0 ≤ adjustedPrice price percent direction := by
  have hdown : 0 ≤ (100 - percent) / 100 := by linarith
  cases direction <;> simp only [adjustedPrice] <;> positivity

/-- What a bulk price change owes the price it changes. -/
structure PriceChange (price percent : ℚ) : Prop where
  up : onGrid price ≤ bulkAdjustedPrice price percent .up
  down : bulkAdjustedPrice price percent .down ≤ onGrid price
  /-- On the grid the direction is that of the price itself. -/
  step : ∀ n : ℕ, 0 < n → price = 5 * n →
    price ≤ bulkAdjustedPrice price percent .up ∧ bulkAdjustedPrice price percent .down ≤ price
  isStep : ∀ direction, ∃ n : ℕ, 0 < n ∧ bulkAdjustedPrice price percent direction = 5 * n
  near : ∀ direction, 5 ≤ adjustedPrice price percent direction →
    |bulkAdjustedPrice price percent direction - adjustedPrice price percent direction| ≤ 5 / 2
  mono : ∀ direction price', price ≤ price' →
    bulkAdjustedPrice price percent direction ≤ bulkAdjustedPrice price' percent direction

/-- **A bulk price change goes the way it says, up to the grid.** -/
theorem bulkPrice_direction (price percent : ℚ) (hprice : 0 < price) (hmin : 1 / 100 ≤ percent)
    (hmax : percent ≤ 90) : PriceChange price percent := by
  have hlow : 0 ≤ percent := by linarith
  have hhigh : percent ≤ 100 := by linarith
  have hnn := adjustedPrice_nonneg hprice.le hlow hhigh
  have hup : onGrid price ≤ bulkAdjustedPrice price percent .up := by
    rw [bulkAdjustedPrice_eq]
    refine onGrid_mono hprice.le ?_
    simp only [adjustedPrice]
    nlinarith
  have hdown : bulkAdjustedPrice price percent .down ≤ onGrid price := by
    rw [bulkAdjustedPrice_eq]
    refine onGrid_mono (hnn .down) ?_
    simp only [adjustedPrice]
    nlinarith
  refine ⟨hup, hdown, fun n hn hstep => ?_, fun direction => ?_, fun direction h => ?_,
    fun direction price' hle => ?_⟩
  · have hgrid : onGrid price = price := by rw [hstep, onGrid_step hn]
    rw [hgrid] at hup hdown
    exact ⟨hup, hdown⟩
  · rw [bulkAdjustedPrice_eq]
    exact onGrid_isStep (hnn direction)
  · rw [bulkAdjustedPrice_eq]
    exact onGrid_near h
  · rw [bulkAdjustedPrice_eq, bulkAdjustedPrice_eq]
    refine onGrid_mono (hnn direction) ?_
    have hfactor : 0 ≤ (100 - percent) / 100 := by linarith
    cases direction <;> simp only [adjustedPrice] <;> gcongr

theorem bulkPrice_direction_ten : PriceChange 350 10 :=
  bulkPrice_direction 350 10 (by norm_num) (by norm_num) (by norm_num)

/-- One percent up takes a book of ৳101 to ৳100. -/
theorem raise_lowers : ¬∀ price percent : ℚ, 0 < price → Paisa price → 1 / 100 ≤ percent →
    percent ≤ 90 → Paisa percent → price ≤ bulkAdjustedPrice price percent .up := by
  intro h
  have hup := h 101 1 (by norm_num) ⟨10100, by norm_num⟩ (by norm_num) (by norm_num)
    ⟨100, by norm_num⟩
  have hround : toPlaces .halfUp 0 (101 * ((100 + 1) / 100) / 5 : ℚ) = (20 : ℤ) :=
    halfUp_eq_of_near (by norm_num) (by norm_num [abs_lt])
  rw [bulkAdjustedPrice_eq, onGrid_eq_max, adjustedPrice, roundTo, priceStep, hround] at hup
  norm_num at hup

end Change

end BookHouse
