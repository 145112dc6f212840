/-
Amounts on the printed documents: `finance/shared/domain/bn-format.ts`.

The grouping's regular expression is the one of the messages (`Templates.commas`), on a string
that is cut in another way.
-/
import BookHouse.Notifications.Templates

namespace BookHouse

namespace BnFormat

/-- 1234567 → "12,34,567" -/
def groupIndian (int : List Char) : List Char :=
  if int.length ≤ 3 then int
  else
    let last3 := int.drop (int.length - 3)
    let rest := Templates.commas (int.take (int.length - 3))
    rest ++ ',' :: last3

/--
Money for people: whole taka without decimals, otherwise 2dp, Indian grouping, Bangla digits.
Rounding keeps the sign of an amount, also of one that it rounds to zero.
-/
def bnMoney (v : ℚ) : String :=
  let r := round2 v
  let neg := v < 0
  let abs := |r|
  let whole := abs.isInt
  let fixed := (toFixed 2 abs).toList
  let int := fixed.takeWhile (· ≠ '.')
  let frac := (fixed.dropWhile (· ≠ '.')).drop 1
  let grouped := groupIndian int
  (if neg then "−" else "") ++
    bnDigits (String.ofList (if whole then grouped else grouped ++ '.' :: frac))

def bnTaka (v : ℚ) : String := "৳" ++ bnMoney v

end BnFormat

end BookHouse
