/-
Searching the catalogue: `catalog/domain/search.ts` and the search condition of
`catalog/shared/product-list.repository.ts`.

Unicode's tables, in the runtime and in the database, and the trigrams of `pg_trgm` are
parameters.  ILIKE lower-cases both sides a character at a time, which does nothing to the
signs of a pattern and makes none.
-/
import BookHouse.Catalog.ProductList
import BookHouse.Catalog.Slug
import BookHouse.Lib.Like

namespace BookHouse

open Sql

namespace Search

def likeSigns : Like.Signs Char where
  many := '%'
  one := '_'
  escape := '\\'
  many_ne_one := by decide
  many_ne_escape := by decide
  one_ne_escape := by decide

/-- What the runtime and the database know of texts. -/
structure TextHost where
  /-- `normalize('NFC')` -/
  nfc : String → String
  toLowerCase : String → String
  /-- the letter as ILIKE compares it -/
  fold : Char → Char
  fold_sign : ∀ c, likeSigns.isSign c = true → fold c = c
  fold_other : ∀ c, likeSigns.isSign (fold c) = likeSigns.isSign c
  wordSimilarity : String → String → ℚ

/-- Cap on tokens so a pasted paragraph cannot build a huge query. -/
def maxSearchTokens : ℕ := 6

/-- `replace(/\s+/g, ' ')`; `after` says that a blank has just been read. -/
def collapse : (after : Bool) → List Char → List Char
  | _, [] => []
  | after, c :: rest =>
    if isBlank c then if after then collapse true rest else ' ' :: collapse true rest
    else c :: collapse false rest

/-- Collapse whitespace, NFC-normalise (Bangla combining marks), trim. -/
def normaliseQuery (host : TextHost) (q : Option String) : String :=
  cut 120 (trim (String.ofList (collapse false (host.nfc (q.getD "")).toList)))

/-- `norm.split(' ').filter(Boolean)` -/
def words (norm : String) : List String :=
  ((norm.toList.splitOn ' ').map String.ofList).filter (· ≠ "")

/-- Tokens every hit must contain: deduplicated, longest first. -/
def searchTokens (host : TextHost) (q : Option String) : List String :=
  let norm := host.toLowerCase (normaliseQuery host q)
  if norm = "" then []
  else ((words norm).eraseDups.insertionSort fun a b =>
    (js b).length ≤ (js a).length).take maxSearchTokens

/-- Escape LIKE wildcards so user input is matched literally. -/
def escapeLike (s : String) : String :=
  String.ofList (s.toList.flatMap fun c => if c ∈ ['\\', '%', '_'] then ['\\', c] else [c])

def containsPattern (token : String) : String := "%" ++ escapeLike token ++ "%"

/-- `text ILIKE pattern` -/
def ilike (host : TextHost) (text : Option String) (pattern : String) : Truth :=
  text.bind fun text =>
    likeSigns.like (text.toList.map host.fold) (pattern.toList.map host.fold)

/-- The columns that only the search reads. -/
structure SearchColumns where
  subtitle : Option String := none
  legacyId : Option ℕ := none
deriving DecidableEq, Repr

/-- `/^\d{1,9}$/.test(full)`, with the number -/
def legacyNumber (full : String) : Option ℕ :=
  if full.toList.all Char.isDigit && 1 ≤ full.toList.length && full.toList.length ≤ 9 then
    some (Nat.ofDigitChars 10 full.toList 0)
  else none

variable (host : TextHost) (q : Option String)

/-- A token must appear in the title or subtitle, for the administration also in the SKU. -/
def tokenCond (isPublic : Bool) (p : CatalogueProduct) (cols : SearchColumns) (t : String) :
    Truth :=
  let pat := containsPattern t
  if isPublic then (ilike host (some p.title) pat).or (ilike host cols.subtitle pat)
  else ((ilike host (some p.title) pat).or (ilike host cols.subtitle pat)).or
    (ilike host (some p.sku) pat)

/--
Every token must appear, or the whole query must be trigram-close to the title (typos, Bangla
spelling variants).
-/
def searchCond (isPublic : Bool) (p : CatalogueProduct) (cols : SearchColumns) : Option Truth :=
  let tokens := searchTokens host q
  if tokens = [] then none
  else
    let full := normaliseQuery host q
    let found := (Truth.all (tokens.map (tokenCond host isPublic p cols))).or
      (some (decide (0.45 ≤ host.wordSimilarity full p.title)))
    if isPublic then some found
    else match legacyNumber full with
      | some n => some (found.or (ProductList.eq cols.legacyId (some n)))
      | none => some found

/-- The tables, with the columns that are searched. -/
structure SearchTables extends ListTables where
  searched : ProductId → SearchColumns := fun _ => {}

/-- The rows of the list that the search leaves. -/
def findRows (t : SearchTables) (f : ProductList.Filter) (now : Instant) :
    List ProductList.Row :=
  (t.products.flatMap (ProductList.rowsOf t.toListTables now)).filter fun r =>
    ((ProductList.conditions f now r).and
      ((searchCond host q f.isPublic r.p (t.searched r.p.id)).getD (some true))).Holds

end Search

end BookHouse
