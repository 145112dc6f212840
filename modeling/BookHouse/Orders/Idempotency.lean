/-
`orders/domain/idempotency.ts`: what a replayed checkout is compared by.

`stableStringify` writes a body with its keys sorted and undefined members dropped, and
`hashRequest` hashes it behind the scope and the caller.
-/
import BookHouse.Text.Json
import Mathlib.Data.List.Sort

namespace BookHouse

/-- Keys in the order of `sort()`: by code units. -/
def keyLe (a b : JsString × JsString) : Prop := a.1 ≤ b.1

instance : DecidableRel keyLe := fun a b => inferInstanceAs (Decidable (a.1 ≤ b.1))

mutual

def stableStringify : JsValue → JsString
  | .null | .undefined => js "null"
  | .boolean b => js (if b then "true" else "false")
  | .number n => n.text
  | .string s => quoteJson s
  | .date iso => quoteJson iso
  | .array items => 0x5B :: [0x2C].intercalate (stringifyItems items) ++ [0x5D]
  | .object members =>
      0x7B :: [0x2C].intercalate ((List.insertionSort keyLe (stringifyMembers members)).map
        fun m => quoteJson m.1 ++ 0x3A :: m.2) ++ [0x7D]

/-- `value.map((v) => (v === undefined ? 'null' : stableStringify(v)))` -/
def stringifyItems : List JsValue → List JsString
  | [] => []
  | .undefined :: items => js "null" :: stringifyItems items
  | v :: items => stableStringify v :: stringifyItems items

/-- The keys that are not `undefined`, each with the text of its value. -/
def stringifyMembers : List (JsString × JsValue) → List (JsString × JsString)
  | [] => []
  | (_, .undefined) :: members => stringifyMembers members
  | (k, v) :: members => (k, stableStringify v) :: stringifyMembers members

end

/-- The text that is hashed: scope, caller and body on lines of their own. -/
def requestText (scope caller : JsString) (body : JsValue) : JsString :=
  scope ++ 0x0A :: caller ++ 0x0A :: stableStringify body

/-- sha256 over scope + caller + body — a replayed key with a different body is rejected. -/
def hashRequest {δ : Type} (sha256 : JsString → δ) (scope caller : JsString) (body : JsValue) : δ :=
  sha256 (requestText scope caller body)

example : stableStringify (.object [(js "b", .number .zero), (js "c", .undefined),
    (js "a", .array [.undefined, .string (js "x\"")])]) = js "\x7b\"a\":[null,\"x\\\"\"],\"b\":0\x7d" := by
  decide +kernel

end BookHouse
