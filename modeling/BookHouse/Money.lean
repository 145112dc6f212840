/-
Money, as `common/utils/money.ts` computes it, and as `domain/bangla.ts` prints it.

An amount is an exact decimal, here a rational number; half-up rounding to two
places (paisa) happens where the source calls `round2`, and nowhere else.
-/
import BookHouse.Lib.Rounding
import BookHouse.Lib.Apportion

namespace BookHouse

open Rounding Apportion

abbrev Money := ℚ

/-- Half-up to two places, away from zero on a tie. -/
def round2 (v : ℚ) : Money := toPlaces .halfUp 2 v

/-- `pct` of `amount`, e.g. `percentOf 1000 10 = 100`. -/
def percentOf (amount pct : ℚ) : Money := round2 (amount * pct / 100)

/--
Split `total` across `weights` proportionally so the parts add up exactly
(largest remainder).  Used to allocate a coupon over lines and a bundle price over
its books.
-/
def allocate (total : ℚ) (weights : List ℚ) : List Money :=
  let t := round2 total
  let wSum := weights.sum
  if wSum = 0 then weights.mapIdx fun i _ => if i = 0 then t else 0
  else
    let raw := weights.map fun x => t * x / wSum
    let floored := raw.map (toPlaces .down 2)
    let rest := (t - floored.sum) * 100
    let frac := List.zipWith (fun x f => x - f) raw floored
    settle (1 / 100) frac rest floored

/-! ### Printing -/

/-- `Decimal.toFixed`: exactly `dp` decimal places, rounded half up. -/
def toFixed (dp : ℕ) (v : ℚ) : String :=
  let units := (roundMag .halfUp dp |v| * 10 ^ dp).floor.toNat
  let sign := if v < 0 then "-" else ""
  let whole := toString (units / 10 ^ dp)
  if dp = 0 then sign ++ whole
  else
    let frac := toString (units % 10 ^ dp)
    sign ++ whole ++ "." ++ "".pushn '0' (dp - frac.length) ++ frac

/-- 500 → "৫০০". -/
def bnDigits (v : String) : String :=
  v.map fun c => if c.isDigit then Char.ofNat ('০'.toNat + (c.toNat - '0'.toNat)) else c

/-- 500 → "৳৫০০", 49.5 → "৳৪৯.৫০" (whole taka print without paisa). -/
def takaBn (v : ℚ) : String :=
  "৳" ++ bnDigits (if v.isInt then toFixed 0 v else toFixed 2 v)

end BookHouse
