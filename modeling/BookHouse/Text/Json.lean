/-
JSON values as a request body has them, and how `JSON.stringify` writes a string.

Strings are written well formed: a surrogate without its other half is escaped like a
control character.
-/
import BookHouse.Lib.Rows
import BookHouse.Text.JsNumber

namespace BookHouse

inductive JsValue
  | null
  | undefined
  | boolean (b : Bool)
  | number (n : JsFinite)
  | string (s : JsString)
  /-- a `Date`, as its `toISOString()` -/
  | date (iso : JsString)
  | array (items : List JsValue)
  | object (members : List (JsString × JsValue))

def hexUnit (d : ℕ) : UInt16 := UInt16.ofNat (if d < 10 then 0x30 + d else 0x61 + (d - 10))

/-- `\u` and four hexadecimal digits. -/
def unicodeEscape (u : UInt16) : JsString :=
  let n := u.toNat
  [0x5C, 0x75, hexUnit (n / 4096), hexUnit (n / 256 % 16), hexUnit (n / 16 % 16), hexUnit (n % 16)]

/-- One code unit on its own. -/
def quoteUnit (u : UInt16) : JsString :=
  if u = 0x08 then [0x5C, 0x62]
  else if u = 0x09 then [0x5C, 0x74]
  else if u = 0x0A then [0x5C, 0x6E]
  else if u = 0x0C then [0x5C, 0x66]
  else if u = 0x0D then [0x5C, 0x72]
  else if u = 0x22 then [0x5C, 0x22]
  else if u = 0x5C then [0x5C, 0x5C]
  else if u < 0x20 || leadsSurrogate u || trailsSurrogate u then unicodeEscape u
  else [u]

def quoteBody : JsString → JsString
  | u :: v :: rest =>
      if leadsSurrogate u && trailsSurrogate v then u :: v :: quoteBody rest
      else quoteUnit u ++ quoteBody (v :: rest)
  | [u] => quoteUnit u
  | [] => []

/-- `JSON.stringify(s)` -/
def quoteJson (s : JsString) : JsString := 0x22 :: quoteBody s ++ [0x22]

def JsValue.isUndefined : JsValue → Bool
  | .undefined => true
  | _ => false

/-- `obj[k]`, `none` where there is no such member or it is `undefined`. -/
def member (k : JsString) (members : List (JsString × JsValue)) : Option JsValue :=
  ((Rows.lookup Prod.fst k members).map Prod.snd).filter fun v => !v.isUndefined

/-- Objects have each key once. -/
inductive JsValue.WellFormed : JsValue → Prop
  | null : WellFormed .null
  | undefined : WellFormed .undefined
  | boolean b : WellFormed (.boolean b)
  | number n : WellFormed (.number n)
  | string s : WellFormed (.string s)
  | date iso : WellFormed (.date iso)
  | array {items : List JsValue} (h : ∀ v ∈ items, WellFormed v) : WellFormed (.array items)
  | object {members : List (JsString × JsValue)} (hkeys : (members.map Prod.fst).Nodup)
      (h : ∀ m ∈ members, WellFormed m.2) : WellFormed (.object members)

/-- A request body. -/
structure JsonBody where
  value : JsValue
  wellFormed : value.WellFormed

end BookHouse
