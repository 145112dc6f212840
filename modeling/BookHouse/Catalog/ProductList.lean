/-
Which products are listed, and at what price: the SQL of
`catalog/shared/product-list.repository.ts`, the Prisma filter of `catalog/shared/visibility.ts`
and `catalog/domain/effective-price.ts`.

The rules are written twice.  The list joins a product with its section, its categories and
its cheapest live deal, and filters in SQL, where a condition may be unknown; the pages load a
product by the Prisma filter and price it in TypeScript.  What is searched for, the order of
the rows and the page that is cut from them are left out.
-/
import BookHouse.Catalog.Availability
import BookHouse.Catalog.Catalogue
import BookHouse.Lib.ThreeValued

namespace BookHouse

open Sql

/-! ### What a product costs -/

/-- The price columns of a product. -/
structure PricedLike where
  price : Money
  compareAtPrice : Option Money := none
deriving DecidableEq, Repr

structure EffectivePrice where
  /-- what the customer pays now -/
  price : Money
  /-- struck-through price to show (regular price during a deal, else compare-at) -/
  compareAt : Option Money
  /-- regular price, for order snapshots -/
  listPrice : Money
  /-- when the deal ends -/
  deal : Option Instant
deriving DecidableEq, Repr

/-- A live deal (started, not ended, not cancelled, cheaper than regular) wins. -/
def PricedLike.effectivePrice (p : PricedLike) (deals : List DealLike) (now : Instant) :
    EffectivePrice :=
  match ((deals.filter (·.isLive p.price now)).insertionSort fun a b =>
      a.dealPrice ≤ b.dealPrice).head? with
  | some live =>
    { price := live.dealPrice, compareAt := some p.price, listPrice := p.price,
      deal := some live.endsAt }
  | none =>
    { price := p.price, compareAt := p.compareAtPrice.filter (p.price < ·), listPrice := p.price,
      deal := none }

/-- Deals that may be live, as product queries load them. -/
def liveDealsWhere (now : Instant) (d : DealLike) : Bool :=
  d.cancelledAt.isNone && d.startsAt ≤ now && now < d.endsAt

/-! ### The tables -/

/-- A section with its storefront switch. -/
structure ListedSection extends Section where
  isVisible : Bool := true
deriving DecidableEq, Repr

structure ProductDeal extends DealLike where
  productId : ProductId
deriving DecidableEq, Repr

/-- The tables the list joins, with their primary and foreign keys. -/
structure ListTables where
  sections : List ListedSection := []
  categories : List Category := []
  products : List CatalogueProduct := []
  deals : List ProductDeal := []
  section_ids : (sections.map (·.id)).Nodup
  category_ids : (categories.map (·.id)).Nodup
  section_fk : ∀ p ∈ products, p.sectionId ∈ sections.map (·.id)
  category_fk : ∀ p ∈ products, p.categoryId ∈ categories.map (·.id)
  subcategory_fk : ∀ p ∈ products, ∀ c, p.subcategoryId = some c → c ∈ categories.map (·.id)

namespace ListTables

variable (t : ListTables) (p : CatalogueProduct)

def dealsOf : List DealLike := (t.deals.filter (·.productId = p.id)).map (·.toDealLike)

def priced : PricedLike := { price := p.price, compareAtPrice := p.compareAtPrice }

/-- `publicProductWhere`: the storefront may show the product. -/
def publicProductWhere (now : Instant) : Bool :=
  p.deletedAt.isNone && p.status = .active &&
    (Rows.lookup (·.id) p.sectionId t.sections).any (·.isVisible) &&
    (Rows.lookup (·.id) p.categoryId t.categories).any (fun c =>
      c.isVisible && c.deletedAt.isNone) &&
    (p.subcategoryId.isNone ||
      (p.subcategoryId.bind fun id => Rows.lookup (·.id) id t.categories).any fun c =>
        c.isVisible && c.deletedAt.isNone) &&
    (p.publishedAt.isNone || p.publishedAt.any (· ≤ now))

end ListTables

/-! ### The list -/

namespace ProductList

/-- `a = b` of two columns -/
def eq {κ : Type} [DecidableEq κ] : Option κ → Option κ → Truth := compare fun a b => a = b

/-- One row of the join: `ld` is the price of the cheapest live deal. -/
structure Row where
  p : CatalogueProduct
  s : ListedSection
  c : Category
  sc : Option Category
  ld : Option Money
deriving DecidableEq, Repr

/-- The WHERE of the lateral join. -/
def dealCond (p : CatalogueProduct) (at_ : Instant) (d : ProductDeal) : Truth :=
  Truth.all [
    eq (some d.productId) (some p.id),
    isNull d.cancelledAt,
    compare (fun a b => decide (a ≤ b)) (some d.startsAt) (some at_),
    compare (fun a b => decide (b < a)) (some d.endsAt) (some at_),
    compare (fun a b => decide (a < b)) (some d.dealPrice) (some p.price)]

/-- `ORDER BY d.deal_price LIMIT 1` -/
def liveDeal (t : ListTables) (p : CatalogueProduct) (at_ : Instant) : Option Money :=
  (((select (dealCond p at_) t.deals).map (·.dealPrice)).insertionSort (· ≤ ·)).head?

/-- What the join makes of one product. -/
def rowsOf (t : ListTables) (at_ : Instant) (p : CatalogueProduct) : List Row :=
  (select (fun s => eq (some s.id) (some p.sectionId)) t.sections).flatMap fun s =>
    (select (fun c => eq (some c.id) (some p.categoryId)) t.categories).flatMap fun c =>
      (leftJoin (fun sc => eq (some sc.id) p.subcategoryId) t.categories).map fun sc =>
        { p, s, c, sc, ld := liveDeal t p at_ }

/-- `EFF`: a live, cheaper deal wins. -/
def Row.eff (r : Row) : Money := r.ld.getD r.p.price

/-- The filters on visibility, deals and prices. -/
structure Filter where
  /-- `scope: 'public'`, else `'admin'` -/
  isPublic : Bool := true
  /-- admin only -/
  deleted : Bool := false
  status : Option ContentStatus := none
  onDeal : Bool := false
  minPrice : Option Money := none
  maxPrice : Option Money := none
deriving DecidableEq, Repr

/-- Only storefront-visible rows. -/
def publicConditions (at_ : Instant) (r : Row) : List Truth :=
  [isNull r.p.deletedAt, eq (some r.p.status) (some .active),
   some r.s.isVisible, some r.c.isVisible, isNull r.c.deletedAt,
   (isNull (r.sc.map (·.id))).or
     (Truth.and (r.sc.map (·.isVisible)) (isNull (r.sc.bind (·.deletedAt)))),
   (isNull r.p.publishedAt).or (compare (fun a b => decide (a ≤ b)) r.p.publishedAt (some at_))]

/-- Everything, soft-deleted rows only on request. -/
def adminConditions (f : Filter) (r : Row) : List Truth :=
  [if f.deleted then some r.p.deletedAt.isSome else isNull r.p.deletedAt] ++
    (f.status.map fun status => eq (some r.p.status) (some status)).toList

/-- `where(f, at)` -/
def conditions (f : Filter) (at_ : Instant) (r : Row) : Truth :=
  Truth.all
    ((if f.isPublic then publicConditions at_ r else adminConditions f r) ++
      (if f.onDeal then [some r.ld.isSome] else []) ++
      (f.minPrice.map fun least => compare (fun a b => decide (b ≤ a)) (some r.eff) (some least)).toList ++
      (f.maxPrice.map fun most => compare (fun a b => decide (a ≤ b)) (some r.eff) (some most)).toList)

/-- The products of the list. -/
def findIds (t : ListTables) (f : Filter) (now : Instant) : List ProductId :=
  ((t.products.flatMap (rowsOf t now)).filter fun r => (conditions f now r).Holds).map (·.p.id)

end ProductList

end BookHouse
