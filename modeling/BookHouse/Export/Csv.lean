/-
The four CSV writers: `orders/domain/csv.ts`, `catalog/domain/csv.ts`,
`customers/domain/csv.ts` and `finance/reports/domain/csv.ts`.

Each joins its cells with commas and its rows with CRLF behind a byte order mark.  They
treat text alike and differ in what they make of numbers, booleans and dates.
-/
import BookHouse.Lib.Csv
import BookHouse.Text.JsString

namespace BookHouse

/-- Quote, comma, CR and LF. -/
def csvMarks : Csv.Marks UInt16 where
  quote := 0x22
  comma := 0x2C
  cr := 0x0D
  lf := 0x0A
  distinct := by decide

/-- A number as far as the writers look at it. -/
structure JsNumber where
  /-- `String(v)`: digits, sign, point and exponent, or `Infinity`, `-Infinity`, `NaN` -/
  text : JsString
  /-- `Number.isFinite(v)` -/
  finite : Bool
  plain : ∀ u ∈ text, csvMarks.special u = false

inductive CsvCell
  | text (s : JsString)
  | number (v : JsNumber)
  | boolean (b : Bool)
  | null
  | undefined

/-- `/^[=+\-@\t\r]/.test(s)` -/
def runsAsFormula (s : JsString) : Bool :=
  s.head?.any fun u => [0x3D, 0x2B, 0x2D, 0x40, 0x09, 0x0D].contains u

def guardFormula (s : JsString) : JsString := if runsAsFormula s then 0x27 :: s else s

/-- `/[",\r\n]/.test(s) ? "${s.replace(/"/g, '""')}" : s` -/
def quoteCell (s : JsString) : JsString :=
  if s.any fun u => u = 0x22 || u = 0x2C || u = 0x0D || u = 0x0A then
    0x22 :: (s.flatMap fun u => if u = 0x22 then [u, u] else [u]) ++ [0x22]
  else s

/-- How a writer shows numbers and booleans, and whether it quotes them like text. -/
structure CsvStyle where
  number : JsNumber → JsString
  boolean : Bool → JsString
  wrap : JsString → JsString

/-- One cell: nothing for `null` and `undefined`, text guarded and quoted. -/
def CsvStyle.cell (w : CsvStyle) : CsvCell → JsString
  | .null | .undefined => []
  | .number v => w.wrap (w.number v)
  | .boolean b => w.wrap (w.boolean b)
  | .text s => quoteCell (guardFormula s)

/-- `\uFEFF`, the rows joined by CRLF, CRLF. -/
def csvText {γ : Type} (cell : γ → JsString) (rows : List (List γ)) : JsString :=
  [0xFEFF] ++ [0x0D, 0x0A].intercalate (rows.map fun r => [0x2C].intercalate (r.map cell)) ++
    [0x0D, 0x0A]

namespace Orders

def csvStyle : CsvStyle where
  number v := v.text
  boolean b := js (if b then "true" else "false")
  wrap := quoteCell

def csvCell (c : CsvCell) : JsString := csvStyle.cell c

/-- CSV with a UTF-8 BOM so Excel shows Bangla correctly. -/
def toCsv (rows : List (List CsvCell)) : JsString := csvText csvCell rows

end Orders

namespace Catalog

def csvStyle : CsvStyle where
  number v := if v.finite then v.text else []
  boolean b := js (if b then "yes" else "no")
  wrap s := s

def cell (c : CsvCell) : JsString := csvStyle.cell c

def toCsv (rows : List (List CsvCell)) : JsString := csvText cell rows

end Catalog

namespace Customers

def csvStyle : CsvStyle where
  number v := v.text
  boolean b := js (if b then "true" else "false")
  wrap := quoteCell

def cell (c : CsvCell) : JsString := csvStyle.cell c

def toCsv (rows : List (List CsvCell)) : JsString := csvText cell rows

end Customers

namespace Finance

/-- The cells of the finance reports, which have dates as well. -/
inductive CsvCell
  | plain (c : BookHouse.CsvCell)
  /-- a `Date`, as its `toISOString()` -/
  | date (iso : JsString)

def csvStyle : CsvStyle where
  number v := if v.finite then v.text else []
  boolean b := js (if b then "true" else "false")
  wrap s := s

def cell : CsvCell → JsString
  | .plain c => csvStyle.cell c
  | .date iso => quoteCell (guardFormula iso)

def toCsv (headers : List JsString) (rows : List (List CsvCell)) : JsString :=
  csvText cell (headers.map (fun h => .plain (.text h)) :: rows)

end Finance

/-- A reader of RFC 4180 that drops the byte order mark. -/
def readCsv : JsString → Option (List (List JsString))
  | 0xFEFF :: body => csvMarks.decode body
  | _ => none

end BookHouse
