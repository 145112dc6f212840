/-
Where products stand: `catalog/products/application/product-guards.ts`, the writes of
`product-admin.service.ts` and `product-bulk.service.ts` that place a product, and
`catalog/taxonomy/application/category-admin.service.ts`.

A product is in a main category and maybe a sub-category of it; its section is copied from
the category.  Products and categories are deleted softly, so their rows stay.  An action is
a committed call; one that is refused is no step.  The slug and the SKU that are made up for
a row are part of the action, and `sameName` is the database's comparison without case.
-/
import BookHouse.Finance.CashLedger
import BookHouse.Orders.Pricing

namespace BookHouse

structure Section where
  id : SectionId
  code : String
deriving DecidableEq, Repr

structure Category where
  id : CategoryId
  sectionId : SectionId
  parentId : Option CategoryId := none
  slug : String
  nameBn : String
  nameEn : Option String := none
  isVisible : Bool := true
  sortOrder : ℤ := 0
  deletedAt : Option Instant := none
deriving DecidableEq, Repr

/-- The columns of a product that its administration checks. -/
structure CatalogueProduct where
  id : ProductId
  sku : String
  slug : String
  sectionId : SectionId
  categoryId : CategoryId
  subcategoryId : Option CategoryId := none
  publisherId : Option ℕ := none
  brandId : Option ℕ := none
  status : ContentStatus := .active
  title : String
  price : Money
  compareAtPrice : Option Money := none
  costPrice : Option Money := none
  publishedAt : Option Instant := none
  deletedAt : Option Instant := none
  version : ℕ := 0
deriving DecidableEq, Repr

structure Catalogue where
  sections : List Section := []
  categories : List Category := []
  products : List CatalogueProduct := []
  /-- the ids of the rows that are not deleted -/
  publishers : List ℕ := []
  brands : List ℕ := []
  authors : List ℕ := []
  media : List ℕ := []
deriving DecidableEq, Repr

namespace Catalogue

/-- `findFirst({ where: { id, deletedAt: null } })` -/
def category? (s : Catalogue) (id : CategoryId) : Option Category :=
  (Rows.lookup Category.id id s.categories).filter (·.deletedAt.isNone)

/-- The same of a product. -/
def product? (s : Catalogue) (id : ProductId) : Option CatalogueProduct :=
  (Rows.lookup CatalogueProduct.id id s.products).filter (·.deletedAt.isNone)

def modifyProduct (s : Catalogue) (id : ProductId) (f : CatalogueProduct → CatalogueProduct) :
    Catalogue :=
  { s with products := Rows.modify CatalogueProduct.id id f s.products }

end Catalogue

/-! ### Guards -/

structure Placement where
  sectionId : SectionId
  sectionCode : String
  categoryId : CategoryId
  subcategoryId : Option CategoryId
deriving DecidableEq, Repr

namespace ProductGuards

/-- Main category must be a live root; sub-category must be a live child of it.  Section
follows the category. -/
def placement (s : Catalogue) (categoryId : CategoryId) (subcategoryId : Option CategoryId) :
    Except Failure Placement :=
  match s.category? categoryId with
  | none => .error (.notFound "Category" (toString categoryId))
  | some cat =>
    let place : Placement :=
      { sectionId := cat.sectionId,
        sectionCode := ((Rows.lookup Section.id cat.sectionId s.sections).map (·.code)).getD "",
        categoryId := cat.id, subcategoryId }
    if cat.parentId.isSome then
      .error (.rule "product.category_not_root" "মূল ক্যাটাগরি বাছুন — সাব-ক্যাটাগরি আলাদা ঘরে দিন")
    else
      match subcategoryId with
      | none => .ok place
      | some id =>
        match s.category? id with
        | none => .error (.notFound "Category" (toString id))
        | some sub =>
          if sub.parentId ≠ some cat.id then
            .error (.rule "product.subcategory_mismatch" "সাব-ক্যাটাগরিটি এই ক্যাটাগরির নয়")
          else .ok place

def compareAt (price : Money) (compareAt : Option Money) : Except Failure Unit :=
  match compareAt with
  | some struck =>
    if price < struck then .ok ()
    else .error (.rule "product.compare_below_price" "পুরনো দাম নতুন দামের চেয়ে বেশি হতে হবে")
  | none => .ok ()

def relations (s : Catalogue) (publisherId brandId : Option ℕ) (authorIds mediaIds : List ℕ) :
    Except Failure Unit :=
  if publisherId.any (· ∉ s.publishers) then
    .error (.notFound "Publisher" ((publisherId.map toString).getD ""))
  else if brandId.any (· ∉ s.brands) then
    .error (.notFound "Brand" ((brandId.map toString).getD ""))
  else if authorIds.any (· ∉ s.authors) then .error (.notFound "Author" "")
  else if mediaIds.any (· ∉ s.media) then .error (.notFound "MediaAsset" "")
  else .ok ()

end ProductGuards

/-! ### Products -/

structure CreateCatalogueProduct where
  categoryId : CategoryId
  subcategoryId : Option CategoryId := none
  title : String
  sku : Option String := none
  slug : Option String := none
  status : Option ContentStatus := none
  price : Money
  compareAtPrice : Option Money := none
  costPrice : Option Money := none
  publisherId : Option ℕ := none
  brandId : Option ℕ := none
  authorIds : List ℕ := []
  imageIds : List ℕ := []
  publishedAt : Option Instant := none
deriving DecidableEq, Repr

/-- A field that is left out is `none`, one that is null is `some none`. -/
structure UpdateCatalogueProduct where
  version : ℕ
  categoryId : Option (Option CategoryId) := none
  subcategoryId : Option (Option CategoryId) := none
  title : Option String := none
  sku : Option String := none
  slug : Option String := none
  status : Option ContentStatus := none
  price : Option Money := none
  compareAtPrice : Option (Option Money) := none
  costPrice : Option (Option Money) := none
  publisherId : Option (Option ℕ) := none
  brandId : Option (Option ℕ) := none
  authorIds : List ℕ := []
  publishedAt : Option (Option Instant) := none
deriving DecidableEq, Repr

namespace ProductAdmin

def staleVersion : Failure :=
  .conflict "product.version_conflict"
    "অন্য কেউ এই পণ্যটি এইমাত্র বদলেছেন — রিফ্রেশ করে আবার চেষ্টা করুন"

/-- The unique indexes, with what `mapUnique` makes of them. -/
def keysFree (s : Catalogue) (p : CatalogueProduct) : Except Failure Unit :=
  if s.products.any fun q => q.id ≠ p.id && q.sku = p.sku then
    .error (.conflict "product.sku_taken" "এই SKU আগেই আছে")
  else if s.products.any fun q => q.id ≠ p.id && q.slug = p.slug then
    .error (.conflict "product.slug_taken" "এই স্লাগ আগেই আছে")
  else .ok ()

def insert (s : Catalogue) (p : CatalogueProduct) : Except Failure Catalogue := do
  keysFree s p
  return { s with products := s.products ++ [p] }

def create (s : Catalogue) (dto : CreateCatalogueProduct) (slug sku : String) (now : Instant) :
    Except Failure Catalogue := do
  let place ← ProductGuards.placement s dto.categoryId dto.subcategoryId
  ProductGuards.compareAt dto.price dto.compareAtPrice
  ProductGuards.relations s dto.publisherId dto.brandId dto.authorIds dto.imageIds
  let status := dto.status.getD .active
  insert s
    { id := s.products.length, sku := dto.sku.getD sku, slug := dto.slug.getD slug,
      sectionId := place.sectionId, categoryId := place.categoryId,
      subcategoryId := place.subcategoryId, publisherId := dto.publisherId, brandId := dto.brandId,
      status, title := dto.title, price := dto.price, compareAtPrice := dto.compareAtPrice,
      costPrice := dto.costPrice,
      publishedAt := dto.publishedAt.orElse fun _ => if status = .draft then none else some now }

/-- The category an update asks for, and the sub-category that goes with it. -/
def nextPlace (cur : CatalogueProduct) (dto : UpdateCatalogueProduct) :
    CategoryId × Option CategoryId :=
  let nextCat := (dto.categoryId.join).getD cur.categoryId
  let nextSub := dto.subcategoryId.getD cur.subcategoryId
  -- old sub belongs to the old category
  if dto.categoryId.join.any (· ≠ cur.categoryId) && dto.subcategoryId.isNone then (nextCat, none)
  else (nextCat, nextSub)

def place (s : Catalogue) (cur : CatalogueProduct) (dto : UpdateCatalogueProduct) :
    Except Failure CatalogueProduct :=
  if dto.categoryId.isSome || dto.subcategoryId.isSome then do
    let (nextCat, nextSub) := nextPlace cur dto
    let place ← ProductGuards.placement s nextCat nextSub
    return { cur with sectionId := place.sectionId, categoryId := place.categoryId,
                      subcategoryId := place.subcategoryId }
  else .ok cur

/-- The struck price after an update; a price raised past the old one drops it. -/
def nextCompare (cur : CatalogueProduct) (dto : UpdateCatalogueProduct) (price : Money) :
    Except Failure (Option Money) :=
  match dto.compareAtPrice with
  | some struck => do
    ProductGuards.compareAt price struck
    return struck
  | none => .ok (cur.compareAtPrice.filter (price < ·))

def update (s : Catalogue) (id : ProductId) (dto : UpdateCatalogueProduct) (now : Instant) :
    Except Failure Catalogue :=
  match s.product? id with
  | none => .error (.notFound "Product" (toString id))
  | some cur =>
    if cur.version ≠ dto.version then .error staleVersion
    else do
      let placed ← place s cur dto
      let price := dto.price.getD cur.price
      let compareAtPrice ← nextCompare cur dto price
      ProductGuards.relations s dto.publisherId.join dto.brandId.join dto.authorIds []
      let next : CatalogueProduct :=
        { placed with
          title := dto.title.getD cur.title, sku := dto.sku.getD cur.sku,
          slug := dto.slug.getD cur.slug, status := dto.status.getD cur.status, price,
          compareAtPrice, costPrice := dto.costPrice.getD cur.costPrice,
          publisherId := dto.publisherId.getD cur.publisherId,
          brandId := dto.brandId.getD cur.brandId,
          publishedAt :=
            if dto.status = some .active && cur.publishedAt.isNone && dto.publishedAt.isNone then
              some now
            else dto.publishedAt.getD cur.publishedAt,
          version := cur.version + 1 }
      keysFree s next
      return s.modifyProduct id fun _ => next

def copySuffix : String := " (কপি)"

/-- Copy as a DRAFT with zero stock. -/
def duplicate (s : Catalogue) (id : ProductId) (slug sku : String) : Except Failure Catalogue :=
  match s.product? id with
  | none => .error (.notFound "Product" (toString id))
  | some src =>
    insert s
      { src with
        id := s.products.length, title := sliceTo 240 (src.title ++ copySuffix), status := .draft,
        sku, slug, publishedAt := none, deletedAt := none, version := 0 }

/-- Deletes one product. -/
def remove (s : Catalogue) (id : ProductId) (now : Instant) : Except Failure Catalogue :=
  match s.product? id with
  | none => .error (.notFound "Product" (toString id))
  | some _ =>
    .ok (s.modifyProduct id fun p => { p with deletedAt := some now, version := p.version + 1 })

def restore (s : Catalogue) (id : ProductId) : Except Failure Catalogue :=
  match (Rows.lookup CatalogueProduct.id id s.products).filter (·.deletedAt.isSome) with
  | none => .error (.notFound "Product" (toString id))
  | some p =>
    if ((Rows.lookup Category.id p.categoryId s.categories).bind (·.deletedAt)).isSome then
      .error (.rule "product.category_deleted"
        "পণ্যের ক্যাটাগরি মুছে ফেলা হয়েছে — আগে ক্যাটাগরি বদলান")
    else .ok (s.modifyProduct id fun p => { p with deletedAt := none, version := p.version + 1 })

end ProductAdmin

namespace ProductBulk

/-- All the rows, or none. -/
def load (s : Catalogue) (ids : List ProductId) : Except Failure Unit :=
  match ids.find? fun id => (s.product? id).isNone with
  | some id => .error (.notFound "Product" (toString id))
  | none => .ok ()

def updateMany (s : Catalogue) (ids : List ProductId) (f : CatalogueProduct → CatalogueProduct) :
    Catalogue :=
  { s with products := s.products.map fun p => if p.id ∈ ids then f p else p }

def move (s : Catalogue) (ids : List ProductId) (categoryId : CategoryId)
    (subcategoryId : Option CategoryId) : Except Failure Catalogue := do
  let place ← ProductGuards.placement s categoryId subcategoryId
  load s ids
  return updateMany s ids fun p =>
    { p with sectionId := place.sectionId, categoryId := place.categoryId,
             subcategoryId := place.subcategoryId, version := p.version + 1 }

/-- Deletes them all. -/
def remove (s : Catalogue) (ids : List ProductId) (now : Instant) : Except Failure Catalogue := do
  load s ids
  return updateMany s ids fun p => { p with deletedAt := some now, version := p.version + 1 }

end ProductBulk

/-! ### Categories -/

structure CreateCategoryDto where
  sectionId : SectionId
  parentId : Option CategoryId := none
  nameBn : String
  nameEn : Option String := none
  slug : Option String := none
  isVisible : Option Bool := none
  sortOrder : Option ℤ := none
deriving DecidableEq, Repr

structure UpdateCategoryDto where
  nameBn : Option String := none
  nameEn : Option (Option String) := none
  slug : Option String := none
  isVisible : Option Bool := none
  sortOrder : Option ℤ := none
deriving DecidableEq, Repr

namespace CategoryAdmin

def slugTaken : Failure := .conflict "category.slug_taken" "এই স্লাগ এই বিভাগে আগেই আছে"

/-- The unique index on a section's slugs. -/
def slugFree (s : Catalogue) (id : CategoryId) (sectionId : SectionId) (slug : String) : Bool :=
  s.categories.all fun c => c.id = id || c.sectionId ≠ sectionId || c.slug ≠ slug

variable (sameName : String → String → Bool)

def assertNameFree (s : Catalogue) (sectionId : SectionId) (parentId : Option CategoryId)
    (nameBn : String) (exceptId : Option CategoryId := none) : Except Failure Unit :=
  if s.categories.any fun c => c.sectionId = sectionId && c.parentId = parentId &&
      c.deletedAt.isNone && sameName c.nameBn nameBn && exceptId ≠ some c.id then
    .error (.conflict "category.duplicate" "এই ক্যাটাগরি আগেই আছে")
  else .ok ()

/-- A sub-category stands under a live root of its section. -/
def parentOk (s : Catalogue) (dto : CreateCategoryDto) : Except Failure Unit :=
  match dto.parentId with
  | none => .ok ()
  | some id =>
    match s.category? id with
    | none => .error (.notFound "Category" (toString id))
    | some parent =>
      if parent.parentId.isSome then
        .error (.rule "category.max_depth"
          "সাব-ক্যাটাগরির নিচে আর স্তর করা যায় না (সর্বোচ্চ ২ স্তর)")
      else if parent.sectionId ≠ dto.sectionId then
        .error (.rule "category.section_mismatch" "সাব-ক্যাটাগরি মূল ক্যাটাগরির বিভাগেই হতে হবে")
      else .ok ()

/-- After the last of its siblings. -/
def nextSortOrder (s : Catalogue) (sectionId : SectionId) (parentId : Option CategoryId) : ℤ :=
  (((s.categories.filter fun c => c.sectionId = sectionId && c.parentId = parentId &&
    c.deletedAt.isNone).map (·.sortOrder)).max?.getD (-1)) + 1

def create (s : Catalogue) (dto : CreateCategoryDto) (slug : String) : Except Failure Catalogue :=
  if (Rows.lookup Section.id dto.sectionId s.sections).isNone then
    .error (.notFound "Section" (toString dto.sectionId))
  else do
    parentOk s dto
    assertNameFree sameName s dto.sectionId dto.parentId dto.nameBn
    let cat : Category :=
      { id := s.categories.length, sectionId := dto.sectionId, parentId := dto.parentId,
        slug := dto.slug.getD slug, nameBn := dto.nameBn, nameEn := dto.nameEn,
        isVisible := dto.isVisible.getD true,
        sortOrder := dto.sortOrder.getD (nextSortOrder s dto.sectionId dto.parentId) }
    if slugFree s cat.id cat.sectionId cat.slug then
      return { s with categories := s.categories ++ [cat] }
    else .error slugTaken

def update (s : Catalogue) (id : CategoryId) (dto : UpdateCategoryDto) : Except Failure Catalogue :=
  match s.category? id with
  | none => .error (.notFound "Category" (toString id))
  | some cur => do
    if dto.nameBn.any fun name => name ≠ "" && name ≠ cur.nameBn then
      assertNameFree sameName s cur.sectionId cur.parentId (dto.nameBn.getD "") (some id)
    let next : Category :=
      { cur with
        nameBn := dto.nameBn.getD cur.nameBn, nameEn := dto.nameEn.getD cur.nameEn,
        slug := dto.slug.getD cur.slug, isVisible := dto.isVisible.getD cur.isVisible,
        sortOrder := dto.sortOrder.getD cur.sortOrder }
    if slugFree s id next.sectionId next.slug then
      return { s with categories := Rows.modify Category.id id (fun _ => next) s.categories }
    else .error slugTaken

/-- Slug to park on a soft-deleted row so its original slug can be reused. -/
def tombstoneSlug (slug : String) (id : CategoryId) : String :=
  let chars := (toString id).toList
  let tag := "~del-" ++ String.ofList (chars.drop (chars.length - 8))
  sliceTo (120 - tag.length) slug ++ tag

def park (now : Instant) (s : Catalogue) (c : Category) : Except Failure Catalogue :=
  let slug := tombstoneSlug c.slug c.id
  let parked (row : Category) : Category := { row with deletedAt := some now, slug }
  if slugFree s c.id c.sectionId slug then
    .ok { s with categories := Rows.modify Category.id c.id parked s.categories }
  else .error (.unique "categories_section_id_slug_key")

/-- Soft delete — only when no live product uses it (or its sub-categories). -/
def remove (s : Catalogue) (id : CategoryId) (now : Instant) : Except Failure Catalogue :=
  match s.category? id with
  | none => .error (.notFound "Category" (toString id))
  | some cur =>
    let children := s.categories.filter fun c => c.parentId = some id && c.deletedAt.isNone
    let ids := id :: children.map (·.id)
    let products := s.products.filter fun p =>
      p.deletedAt.isNone && (p.categoryId ∈ ids || p.subcategoryId.any (· ∈ ids))
    if 0 < products.length then
      .error (.conflict "category.has_products" ("এই ক্যাটাগরিতে " ++ toString products.length ++
        "টি পণ্য আছে — আগে অন্য ক্যাটাগরিতে সরান"))
    else (cur :: children).foldlM (park now) s

end CategoryAdmin

/-! ### The machine -/

inductive CatalogueAction
  | create (dto : CreateCatalogueProduct) (slug sku : String) (now : Instant)
  | update (id : ProductId) (dto : UpdateCatalogueProduct) (now : Instant)
  | duplicate (id : ProductId) (slug sku : String)
  | remove (id : ProductId) (now : Instant)
  | restore (id : ProductId)
  | bulkMove (ids : List ProductId) (categoryId : CategoryId) (subcategoryId : Option CategoryId)
  | bulkRemove (ids : List ProductId) (now : Instant)
  | createCategory (dto : CreateCategoryDto) (slug : String)
  | updateCategory (id : CategoryId) (dto : UpdateCategoryDto)
  | removeCategory (id : CategoryId) (now : Instant)
deriving DecidableEq, Repr

def catalogueCall (sameName : String → String → Bool) (s : Catalogue) :
    CatalogueAction → Except Failure Catalogue
  | .create dto slug sku now => ProductAdmin.create s dto slug sku now
  | .update id dto now => ProductAdmin.update s id dto now
  | .duplicate id slug sku => ProductAdmin.duplicate s id slug sku
  | .remove id now => ProductAdmin.remove s id now
  | .restore id => ProductAdmin.restore s id
  | .bulkMove ids categoryId subcategoryId => ProductBulk.move s ids categoryId subcategoryId
  | .bulkRemove ids now => ProductBulk.remove s ids now
  | .createCategory dto slug => CategoryAdmin.create sameName s dto slug
  | .updateCategory id dto => CategoryAdmin.update sameName s id dto
  | .removeCategory id now => CategoryAdmin.remove s id now

def catalogueStep (sameName : String → String → Bool) (s : Catalogue) (a : CatalogueAction) :
    Option Catalogue :=
  (catalogueCall sameName s a).toOption

end BookHouse
