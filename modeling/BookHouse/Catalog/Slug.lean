/-
The titles and slugs of products and bundles: `catalog/domain/slug.ts`,
`catalog/shared/slug.service.ts`, the `@Trim()` fields of the write DTOs, and the names that
creating, editing and duplicating a row give it.

`slugify` keeps the letters and digits of any script, so it rests on Unicode's tables and is a
parameter.  Lengths are counted in UTF-16 units.
-/
import BookHouse.Orders.Coupons
import BookHouse.Text.JsString
import Mathlib.Data.List.DropRight

namespace BookHouse

/-- `text.slice(0, n)`; a character that does not fit is left out. -/
def cut (n : ℕ) (text : String) : String := String.ofList (go n text.toList)
where
  go : ℕ → List Char → List Char
    | _, [] => []
    | n, c :: rest => if (utf16 c).length ≤ n then c :: go (n - (utf16 c).length) rest else []

/-- Without the dashes at the end. -/
def dropDashes (text : String) : String := String.ofList (text.toList.rdropWhile (· = '-'))

/-- `@Trim()`: a blank text is no text. -/
def trimmed (value : Option String) : Option String :=
  (value.map trim).filter (· ≠ "")

namespace Slug

/-- Slug from a title, or `fallback` when the title has no letters/digits at all. -/
def slugBase (slugify : String → String) (input : String) (fallback : String := "item")
    (maxLength : ℕ := 180) : String :=
  let s := dropDashes (cut maxLength (slugify input))
  if s = "" then fallback else s

/-- The suffix is kept inside `maxLength` by trimming the base. -/
def candidate (base : String) (maxLength n : ℕ) : String :=
  let suffix := "-" ++ toString n
  dropDashes (cut (maxLength - suffix.length) base) ++ suffix

/-- First free slug among base, base-2, base-3 …: of more candidates than slugs taken, one is. -/
def pickUniqueSlug (base : String) (taken : List String) (maxLength : ℕ := 200) : String :=
  let root := cut maxLength base
  if root ∉ taken then root
  else
    let n := ((List.range (taken.length + 1)).find? fun n =>
      candidate base maxLength (n + 2) ∉ taken).getD (taken.length + 1)
    candidate base maxLength (n + 2)

end Slug

/-- Tables whose `slug` is globally unique, with their columns' lengths. -/
inductive SlugScope
  | product | bundle
deriving DecidableEq, Repr

def SlugScope.name : SlugScope → String
  | product => "product"
  | bundle => "bundle"

def SlugScope.max (_ : SlugScope) : ℕ := 200

/-- `unique(scope, source)`, where `taken` are the slugs that the query found. -/
def SlugService.unique (slugify : String → String) (scope : SlugScope) (source : String)
    (taken : List String) : String :=
  Slug.pickUniqueSlug (Slug.slugBase slugify source scope.name (scope.max - 4)) taken scope.max

/-! ### Names -/

/-- The name columns of a product or a bundle. -/
structure Named where
  title : String
  slug : String
deriving DecidableEq, Repr

/-- What a request says about them: a title it has to give, a slug it may. -/
structure NameDto where
  title : Option String
  slug : Option String := none
deriving DecidableEq, Repr

namespace Named

variable (slugify : String → String) (scope : SlugScope)

def copySuffix : String := " (কপি)"

/-- A request without a title is refused. -/
def create (dto : NameDto) (taken : List String) : Option Named :=
  (trimmed dto.title).map fun title =>
    { title, slug := (trimmed dto.slug).getD (SlugService.unique slugify scope title taken) }

/-- What the request leaves out stays. -/
def update (dto : NameDto) (n : Named) : Named :=
  { title := (trimmed dto.title).getD n.title, slug := (trimmed dto.slug).getD n.slug }

/-- A draft copy, with a slug of its own. -/
def duplicate (taken : List String) (n : Named) : Named :=
  let title := cut 240 (n.title ++ copySuffix)
  { title, slug := SlugService.unique slugify .product title taken }

end Named

/-- The names a row can have: it is created or copied, and then edited any number of times. -/
inductive Named.Reachable (slugify : String → String) : Named → Prop
  | create {scope : SlugScope} {dto : NameDto} {taken : List String} {n : Named}
      (h : Named.create slugify scope dto taken = some n) : Reachable slugify n
  | update {n : Named} (dto : NameDto) (h : Reachable slugify n) : Reachable slugify (n.update dto)
  | duplicate {n : Named} (taken : List String) (h : Reachable slugify n) :
      Reachable slugify (n.duplicate slugify taken)

end BookHouse
