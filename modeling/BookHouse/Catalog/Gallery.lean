/-
The images of a product: `catalog/products/application/product-images.service.ts`, with what
`create` and `duplicate` of `product-admin.service.ts` write of them and the indexes of
`product_images`.

One image of a product is its cover (`isPrimary`), which a partial unique index makes at most
one.  A call is one transaction, so a refused one leaves everything as it was.
-/
import BookHouse.Lib.Sorting
import BookHouse.Lib.UniqueIndex
import BookHouse.Catalog.Catalogue

namespace BookHouse

abbrev ImageId := ℕ
abbrev MediaId := ℕ

structure ProductImage where
  id : ImageId
  productId : ProductId
  mediaId : MediaId
  sortOrder : ℤ := 0
  isPrimary : Bool := false
deriving DecidableEq, Repr

def onePrimary : Failure := .unique "product_images_one_primary"

/-- One cover per product. -/
def primaryIndex : UniqueIndex Failure ProductImage := .on onePrimary (·.isPrimary) (·.productId)

def imageIndexes : List (UniqueIndex Failure ProductImage) :=
  [.on (.unique "product_images_pkey") (fun _ => true) (·.id),
   .on (.unique "product_images_product_id_media_id_key") (fun _ => true)
    fun i => (i.productId, i.mediaId),
   primaryIndex]

abbrev ImageTable := IndexedTable imageIndexes

def imagesOf (images : ImageTable) (productId : ProductId) : List ProductImage :=
  images.rows.filter (·.productId = productId)

/-- The products and their images. -/
structure Showcase where
  catalogue : Catalogue := {}
  images : ImageTable := .empty

/-- `orderBy: [{ isPrimary: 'desc' }, { sortOrder: 'asc' }]` -/
def CoverFirst (a b : ProductImage) : Prop :=
  (a.isPrimary ∧ ¬b.isPrimary) ∨ (a.isPrimary = b.isPrimary ∧ a.sortOrder ≤ b.sortOrder)

/-- What a call brings: the clock, the ids made for new rows, the keys made for a new product, and
how the database orders rows that compare the same. -/
structure ImageContext where
  now : Instant
  newId : ℕ → ImageId
  slug : String := ""
  sku : String := ""
  bySortOrder : Sorting.OrderBy fun a b : ProductImage => a.sortOrder ≤ b.sortOrder
  coverFirst : Sorting.OrderBy CoverFirst

/-- `ImageView`, without what the media row alone says. -/
structure ImageView where
  id : MediaId
  isPrimary : Bool
  sortOrder : ℤ
deriving DecidableEq, Repr

def toImage (img : ProductImage) : ImageView :=
  { id := img.mediaId, isPrimary := img.isPrimary, sortOrder := img.sortOrder }

/-- `@ArrayUnique()` -/
structure ReorderImagesDto where
  mediaIds : List MediaId
  unique : mediaIds.Nodup
deriving DecidableEq, Repr

namespace ProductImages

/-- `MAX_IMAGES` -/
def maxImages : ℕ := 20

def product (s : Showcase) (id : ProductId) : Except Failure CatalogueProduct :=
  match s.catalogue.product? id with
  | some p => .ok p
  | none => .error (.notFound "Product" (toString id))

def gallery (ctx : ImageContext) (images : ImageTable) (productId : ProductId) : List ImageView :=
  (ctx.coverFirst.run (imagesOf images productId)).map toImage

/-- `findUnique({ where: { productId_mediaId } })` -/
def findImage (images : ImageTable) (productId : ProductId) (mediaId : MediaId) :
    Except Failure ProductImage :=
  match images.rows.find? fun i => i.productId = productId && i.mediaId = mediaId with
  | some img => .ok img
  | none => .error (.notFound "ProductImage" (toString mediaId))

/-- `updateMany({ where: { productId, isPrimary: true }, data: { isPrimary: false } })` -/
def clearPrimary (images : ImageTable) (productId : ProductId) : Except Failure ImageTable :=
  images.update (fun i => i.productId = productId && i.isPrimary)
    fun i => { i with isPrimary := false }

def makePrimary (images : ImageTable) (id : ImageId) : Except Failure ImageTable :=
  images.update (fun i => i.id = id) fun i => { i with isPrimary := true }

/-- The images are written, and the product's version is raised. -/
def touch (s : Showcase) (images : ImageTable) (productId : ProductId) : Showcase where
  catalogue := s.catalogue.modifyProduct productId fun p => { p with version := p.version + 1 }
  images

def attach (ctx : ImageContext) (s : Showcase) (productId : ProductId) (mediaId : MediaId)
    (isPrimary : Option Bool) : Except Failure (Showcase × List ImageView) := do
  let _ ← product s productId
  if mediaId ∉ s.catalogue.media then .error (.notFound "MediaAsset" (toString mediaId))
  else
    let existing := ctx.bySortOrder.run (imagesOf s.images productId)
    if existing.any (·.mediaId = mediaId) then
      return (s, gallery ctx s.images productId)
    else if existing.length ≥ maxImages then
      .error (.rule "product.too_many_images" s!"একটি পণ্যে সর্বোচ্চ {maxImages}টি ছবি")
    else
      let primary := isPrimary = some true || existing.length = 0
      let images ← if primary then clearPrimary s.images productId else .ok s.images
      let sortOrder := (existing.getLast?.map (·.sortOrder)).getD (-1) + 1
      let images ←
        images.insert { id := ctx.newId 0, productId, mediaId, sortOrder, isPrimary := primary }
      return (touch s images productId, gallery ctx images productId)

/-- The updates of the requested order, one for each image. -/
def setOrder (productId : ProductId) (images : ImageTable) (ordered : List (MediaId × ℕ)) :
    Except Failure ImageTable :=
  ordered.foldlM
    (fun images (mediaId, i) =>
      images.update (fun x => x.productId = productId && x.mediaId = mediaId)
        fun x => { x with sortOrder := i })
    images

def reorder (ctx : ImageContext) (s : Showcase) (productId : ProductId) (dto : ReorderImagesDto) :
    Except Failure (Showcase × List ImageView) := do
  let _ ← product s productId
  let existing := imagesOf s.images productId
  if dto.mediaIds.length ≠ existing.length ||
      !dto.mediaIds.all (existing.map (·.mediaId)).contains then
    .error (.rule "product.images_mismatch" "ছবির তালিকা মিলছে না — রিফ্রেশ করে আবার সাজান")
  else
    let images ← setOrder productId s.images dto.mediaIds.zipIdx
    return (touch s images productId, gallery ctx images productId)

def setPrimary (ctx : ImageContext) (s : Showcase) (productId : ProductId) (mediaId : MediaId) :
    Except Failure (Showcase × List ImageView) := do
  let _ ← product s productId
  let img ← findImage s.images productId mediaId
  if img.isPrimary then
    return (s, gallery ctx s.images productId)
  else
    let images ← clearPrimary s.images productId
    let images ← makePrimary images img.id
    return (touch s images productId, gallery ctx images productId)

def detach (ctx : ImageContext) (s : Showcase) (productId : ProductId) (mediaId : MediaId) :
    Except Failure (Showcase × List ImageView) := do
  let _ ← product s productId
  let img ← findImage s.images productId mediaId
  let images := s.images.delete (·.id = img.id)
  let images ←
    if img.isPrimary then
      match (ctx.bySortOrder.run (imagesOf images productId)).head? with
      | some next => makePrimary images next.id
      | none => .ok images
    else .ok images
  return (touch s images productId, gallery ctx images productId)

/-- `create` of `product-admin.service.ts`, which writes the images of the new product; the first
is its cover. -/
def createProduct (ctx : ImageContext) (s : Showcase) (dto : CreateCatalogueProduct) :
    Except Failure Showcase := do
  let catalogue ← ProductAdmin.create s.catalogue dto ctx.slug ctx.sku ctx.now
  let productId := s.catalogue.products.length
  let images ← s.images.insertMany (dto.imageIds.zipIdx.map fun (mediaId, i) =>
    { id := ctx.newId i, productId, mediaId, sortOrder := i, isPrimary := i = 0 })
  return { catalogue, images }

/-- `duplicate`, which copies the images. -/
def duplicateProduct (ctx : ImageContext) (s : Showcase) (id : ProductId) : Except Failure Showcase := do
  let catalogue ← ProductAdmin.duplicate s.catalogue id ctx.slug ctx.sku
  let productId := s.catalogue.products.length
  let images ← s.images.insertMany ((imagesOf s.images id).zipIdx.map fun (img, i) =>
    { id := ctx.newId i, productId, mediaId := img.mediaId, sortOrder := img.sortOrder,
      isPrimary := img.isPrimary })
  return { catalogue, images }

end ProductImages

inductive ImageCall
  | create (dto : CreateCatalogueProduct)
  | duplicate (id : ProductId)
  | attach (productId : ProductId) (mediaId : MediaId) (isPrimary : Option Bool)
  | reorder (productId : ProductId) (dto : ReorderImagesDto)
  | setPrimary (productId : ProductId) (mediaId : MediaId)
  | detach (productId : ProductId) (mediaId : MediaId)

/-- The products and images after a call. -/
def ImageCall.run (ctx : ImageContext) (s : Showcase) : ImageCall → Except Failure Showcase
  | create dto => ProductImages.createProduct ctx s dto
  | duplicate id => ProductImages.duplicateProduct ctx s id
  | attach productId mediaId isPrimary =>
    (ProductImages.attach ctx s productId mediaId isPrimary).map (·.1)
  | reorder productId dto => (ProductImages.reorder ctx s productId dto).map (·.1)
  | setPrimary productId mediaId => (ProductImages.setPrimary ctx s productId mediaId).map (·.1)
  | detach productId mediaId => (ProductImages.detach ctx s productId mediaId).map (·.1)

/-- Each product's id is the number of products before it. -/
def Catalogue.Numbered (c : Catalogue) : Prop :=
  c.products.map (·.id) = List.range c.products.length

instance (c : Catalogue) : Decidable c.Numbered :=
  inferInstanceAs (Decidable (c.products.map (·.id) = List.range c.products.length))

inductive ShowcaseAction
  | call (ctx : ImageContext) (call : ImageCall)
  /-- any other call that writes the catalogue; no product's row is ever removed -/
  | elsewhere (catalogue : Catalogue)

def showcaseStep (s : Showcase) : ShowcaseAction → Option Showcase
  | .call ctx call => (call.run ctx s).toOption
  | .elsewhere catalogue =>
    if catalogue.Numbered ∧ s.catalogue.products.length ≤ catalogue.products.length then
      some { s with catalogue }
    else none

end BookHouse
