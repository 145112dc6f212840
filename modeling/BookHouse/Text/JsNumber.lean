/-
Finite JavaScript numbers and how the language prints them (`Number::toString`).

A number is the shortest decimal that reads as it: its significant digits and where the
point stands.  `0` and `-0` are one number, as `===` has it, and print the same.
-/
import BookHouse.Text.JsString
import Mathlib.Data.Nat.Digits.Defs

namespace BookHouse

/-- Decimal digits with none to drop at either end. -/
structure Significand where
  digits : List (Fin 10)
  first : ∃ d, digits.head? = some d ∧ d ≠ 0
  last : digits.getLast? ≠ some 0

inductive JsFinite
  | zero
  /-- `± 0.d₁d₂… × 10 ^ point` -/
  | decimal (neg : Bool) (s : Significand) (point : ℤ)

def digitUnit (d : Fin 10) : UInt16 := UInt16.ofNat (0x30 + d.val)

def digitUnits (ds : List (Fin 10)) : JsString := ds.map digitUnit

/-- The decimal digits of a natural number. -/
def natDigits (n : ℕ) : List (Fin 10) :=
  if n = 0 then [0] else (Nat.digits 10 n).reverse.map (Fin.ofNat 10)

/-- The parts of a printed number: before the point, after it, the exponent. -/
structure Layout where
  whole : List (Fin 10)
  frac : List (Fin 10)
  exponent : Option ℤ
deriving DecidableEq, Repr

/-- Plain digits between `1e-7` and `1e21`, else an exponent. -/
def Significand.layout (s : Significand) (n : ℤ) : Layout :=
  let k : ℤ := s.digits.length
  if -5 ≤ n ∧ n ≤ 21 then
    if k ≤ n then ⟨s.digits ++ List.replicate (n - k).toNat 0, [], none⟩
    else if 0 < n then ⟨s.digits.take n.toNat, s.digits.drop n.toNat, none⟩
    else ⟨[0], List.replicate (-n).toNat 0 ++ s.digits, none⟩
  else ⟨s.digits.take 1, s.digits.drop 1, some (n - 1)⟩

def exponentText : Option ℤ → JsString
  | none => []
  | some e => 0x65 :: (if e < 0 then 0x2D else 0x2B) :: digitUnits (natDigits e.natAbs)

def Layout.text (l : Layout) : JsString :=
  digitUnits l.whole ++ ((if l.frac = [] then [] else 0x2E :: digitUnits l.frac) ++
    exponentText l.exponent)

/-- `String(v)` -/
def JsFinite.text : JsFinite → JsString
  | .zero => [0x30]
  | .decimal neg s point => (if neg then [0x2D] else []) ++ (s.layout point).text

example : (JsFinite.decimal true ⟨[1, 2, 5], ⟨1, rfl, by decide⟩, by decide⟩ 2).text =
    js "-12.5" := by decide

example : (JsFinite.decimal false ⟨[1], ⟨1, rfl, by decide⟩, by decide⟩ (-6)).text =
    js "1e-7" := by decide

end BookHouse
