/-
Rounding a rational number to a fixed number of decimal places.

The numbers with `dp` places are the multiples of `1 / 10 ^ dp`; they are closed
under sums, and rounding leaves them alone.  Both modes round the magnitude and put
the sign back: `down` drops the digits past the last place, `halfUp` goes to the
nearest multiple and away from zero on a tie.  What a bound argument needs of either
is the same: it never leaves the interval between two numbers that have the places.
-/
import Mathlib.Data.Rat.Floor
import Mathlib.Algebra.BigOperators.Group.List.Basic
import Mathlib.Tactic.Ring
import Mathlib.Tactic.Linarith
import Mathlib.Tactic.Positivity
import Mathlib.Tactic.FieldSimp

namespace Rounding

/-- `x` is written with at most `dp` decimal places. -/
def HasPlaces (dp : ℕ) (x : ℚ) : Prop := ∃ n : ℤ, x = n / 10 ^ dp

inductive Mode
  | down
  | halfUp
deriving DecidableEq, Repr

/-- The magnitude rounded to `dp` places. -/
def roundMag (mode : Mode) (dp : ℕ) (x : ℚ) : ℚ :=
  match mode with
  | .down => (⌊x * 10 ^ dp⌋ : ℤ) / 10 ^ dp
  | .halfUp => (⌊x * 10 ^ dp + 1 / 2⌋ : ℤ) / 10 ^ dp

/-- Round the magnitude and put the sign back. -/
def toPlaces (mode : Mode) (dp : ℕ) (x : ℚ) : ℚ :=
  if x < 0 then -roundMag mode dp (-x) else roundMag mode dp x

/-! ### The numbers with `dp` places -/

namespace HasPlaces

variable {dp : ℕ} {x y : ℚ}

theorem of_int (n : ℤ) : HasPlaces dp (n : ℚ) :=
  ⟨n * 10 ^ dp, by push_cast; field_simp⟩

theorem zero : HasPlaces dp 0 := ⟨0, by simp⟩

theorem add (hx : HasPlaces dp x) (hy : HasPlaces dp y) : HasPlaces dp (x + y) := by
  obtain ⟨m, rfl⟩ := hx
  obtain ⟨n, rfl⟩ := hy
  exact ⟨m + n, by push_cast; ring⟩

theorem neg (hx : HasPlaces dp x) : HasPlaces dp (-x) := by
  obtain ⟨m, rfl⟩ := hx
  exact ⟨-m, by push_cast; ring⟩

theorem sub (hx : HasPlaces dp x) (hy : HasPlaces dp y) : HasPlaces dp (x - y) := by
  rw [sub_eq_add_neg]
  exact hx.add hy.neg

theorem mul_int (hx : HasPlaces dp x) (n : ℤ) : HasPlaces dp (x * n) := by
  obtain ⟨m, rfl⟩ := hx
  exact ⟨m * n, by push_cast; ring⟩

theorem sum {l : List ℚ} (h : ∀ x ∈ l, HasPlaces dp x) : HasPlaces dp l.sum := by
  induction l with
  | nil => simpa using zero
  | cons a rest ih =>
      rw [List.sum_cons]
      exact (h a (by simp)).add (ih fun x hx => h x (by simp [hx]))

/-- One more unit in the last place. -/
theorem add_unit (hx : HasPlaces dp x) : HasPlaces dp (x + 1 / 10 ^ dp) :=
  hx.add ⟨1, by simp⟩

/-- Numbers with fewer places have more places too. -/
theorem mono {dp' : ℕ} (h : dp ≤ dp') (hx : HasPlaces dp x) : HasPlaces dp' x := by
  obtain ⟨m, rfl⟩ := hx
  refine ⟨m * 10 ^ (dp' - dp), ?_⟩
  have hpow : (10 : ℚ) ^ dp' = 10 ^ dp * 10 ^ (dp' - dp) := by
    rw [← pow_add, Nat.add_sub_cancel' h]
  push_cast
  rw [hpow]
  field_simp

end HasPlaces

/-! ### What rounding does -/

variable {mode : Mode} {dp : ℕ} {x y g : ℚ}

theorem roundMag_hasPlaces : HasPlaces dp (roundMag mode dp x) := by
  cases mode <;> exact ⟨_, rfl⟩

theorem toPlaces_hasPlaces : HasPlaces dp (toPlaces mode dp x) := by
  unfold toPlaces
  split
  · exact roundMag_hasPlaces.neg
  · exact roundMag_hasPlaces

theorem roundMag_of_hasPlaces (h : HasPlaces dp x) : roundMag mode dp x = x := by
  obtain ⟨n, rfl⟩ := h
  have hn : (n : ℚ) / 10 ^ dp * 10 ^ dp = n := by field_simp
  cases mode with
  | down => simp [roundMag, hn]
  | halfUp =>
      have hfloor : ⌊(n : ℚ) + 1 / 2⌋ = n := by
        rw [Int.floor_eq_iff]
        constructor <;> linarith
      simp only [roundMag, hn, hfloor]

/-- Rounding leaves a number that has the places alone. -/
theorem toPlaces_of_hasPlaces (h : HasPlaces dp x) : toPlaces mode dp x = x := by
  unfold toPlaces
  split
  · rw [roundMag_of_hasPlaces h.neg, neg_neg]
  · exact roundMag_of_hasPlaces h

theorem roundMag_mono (h : x ≤ y) : roundMag mode dp x ≤ roundMag mode dp y := by
  have hmul : x * 10 ^ dp ≤ y * 10 ^ dp := by
    have : (0 : ℚ) ≤ 10 ^ dp := by positivity
    exact mul_le_mul_of_nonneg_right h this
  have hpos : (0 : ℚ) ≤ 10 ^ dp := by positivity
  cases mode with
  | down =>
      exact div_le_div_of_nonneg_right (Int.cast_le.mpr (Int.floor_le_floor hmul)) hpos
  | halfUp =>
      have hhalf : x * 10 ^ dp + 1 / 2 ≤ y * 10 ^ dp + 1 / 2 := by linarith
      exact div_le_div_of_nonneg_right (Int.cast_le.mpr (Int.floor_le_floor hhalf)) hpos

theorem toPlaces_of_nonneg (h : 0 ≤ x) : toPlaces mode dp x = roundMag mode dp x := by
  rw [toPlaces, if_neg (not_lt.mpr h)]

theorem roundMag_zero : roundMag mode dp 0 = 0 := roundMag_of_hasPlaces HasPlaces.zero

theorem toPlaces_nonneg (h : 0 ≤ x) : 0 ≤ toPlaces mode dp x := by
  rw [toPlaces_of_nonneg h, ← @roundMag_zero mode dp]
  exact roundMag_mono h

/-- Rounding does not go past a number that has the places. -/
theorem toPlaces_le (h0 : 0 ≤ x) (hg : HasPlaces dp g) (h : x ≤ g) :
    toPlaces mode dp x ≤ g := by
  rw [toPlaces_of_nonneg h0, ← @roundMag_of_hasPlaces mode _ _ hg]
  exact roundMag_mono h

theorem down_le (h : 0 ≤ x) : toPlaces .down dp x ≤ x := by
  rw [toPlaces_of_nonneg h, roundMag, div_le_iff₀ (by positivity)]
  exact Int.floor_le _

theorem lt_down_add (h : 0 ≤ x) : x < toPlaces .down dp x + 1 / 10 ^ dp := by
  rw [toPlaces_of_nonneg h, roundMag, ← add_div, lt_div_iff₀ (by positivity)]
  exact Int.lt_floor_add_one _

theorem toPlaces_mono (h0 : 0 ≤ x) (h : x ≤ y) : toPlaces mode dp x ≤ toPlaces mode dp y := by
  rw [toPlaces_of_nonneg h0, toPlaces_of_nonneg (h0.trans h)]
  exact roundMag_mono h

/-! ### To the nearest whole number -/

theorem halfUp_eq_floor (h : 0 ≤ x) : toPlaces .halfUp 0 x = (⌊x + 1 / 2⌋ : ℤ) := by
  simp [toPlaces_of_nonneg h, roundMag]

theorem halfUp_near (h : 0 ≤ x) : |toPlaces .halfUp 0 x - x| ≤ 1 / 2 := by
  have hle := Int.floor_le (x + 1 / 2)
  have hlt := Int.lt_floor_add_one (x + 1 / 2)
  rw [halfUp_eq_floor h, abs_le]
  constructor <;> linarith

/-- A number closer than one half to a whole number is rounded to it. -/
theorem halfUp_eq_of_near {n : ℤ} (h0 : 0 ≤ x) (h : |x - n| < 1 / 2) :
    toPlaces .halfUp 0 x = n := by
  obtain ⟨hlow, hhigh⟩ := abs_lt.mp h
  have hfloor : ⌊x + 1 / 2⌋ = n := by
    rw [Int.floor_eq_iff]
    constructor <;> linarith
  rw [halfUp_eq_floor h0, hfloor]

end Rounding
