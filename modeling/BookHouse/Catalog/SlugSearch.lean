/-
How a free slug is looked for: the loop of `pickUniqueSlug`, and the slugs that
`SlugService.unique` and `uniqueCategory` load for it.

The loop has no bound, so it is a relation here: `Search n slug` says that from candidate `n`
on it ends with `slug`.  A base is made of letters, digits and dashes, so it has none of the
characters that `LIKE` reads in a way of its own.
-/
import BookHouse.Catalog.Slug

namespace BookHouse

namespace Slug

/-- `for (let n = 2; ; n++)` -/
inductive Search (base : String) (taken : List String) (maxLength : ℕ) : ℕ → String → Prop
  | found {n : ℕ} (h : candidate base maxLength n ∉ taken) :
      Search base taken maxLength n (candidate base maxLength n)
  | next {n : ℕ} {slug : String} (h : candidate base maxLength n ∈ taken)
      (hrest : Search base taken maxLength (n + 1) slug) : Search base taken maxLength n slug

/-- What `pickUniqueSlug` returns. -/
inductive Picks (base : String) (taken : List String) (maxLength : ℕ) : String → Prop
  | root (h : cut maxLength base ∉ taken) : Picks base taken maxLength (cut maxLength base)
  | search {slug : String} (h : cut maxLength base ∈ taken)
      (hloop : Search base taken maxLength 2 slug) : Picks base taken maxLength slug

end Slug

/-- The tables with slugs; those of categories are unique in a section. -/
inductive SlugTable
  | product | bundle | author | publisher | brand | category
deriving DecidableEq, Repr

namespace SlugTable

def fallback : SlugTable → String
  | product => "product"
  | bundle => "bundle"
  | author => "author"
  | publisher => "publisher"
  | brand => "brand"
  | category => "category"

def max : SlugTable → ℕ
  | product | bundle => 200
  | author | publisher | brand => 160
  | category => 120

/-- How long a base can be. -/
def baseMax : SlugTable → ℕ
  | category => 110
  | t => t.max - 4

def base (slugify : String → String) (t : SlugTable) (source : String) : String :=
  Slug.slugBase slugify source t.fallback t.baseMax

end SlugTable

structure SlugRow where
  id : ℕ
  slug : String
deriving DecidableEq, Repr

namespace SlugService

/-- `slug = base OR slug LIKE 'base-%'` -/
def asked (base slug : String) : Bool :=
  slug = base || (base ++ "-").toList.isPrefixOf slug.toList

/-- The slugs of the rows, but for the row that is written. -/
def others (rows : List SlugRow) (excludeId : Option ℕ) : List String :=
  (rows.filter fun r => some r.id ≠ excludeId).map (·.slug)

def loaded (rows : List SlugRow) (excludeId : Option ℕ) (base : String) : List String :=
  (others rows excludeId).filter (asked base)

end SlugService

end BookHouse
