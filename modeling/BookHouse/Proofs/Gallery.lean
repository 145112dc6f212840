/-
A product with images has one cover, and a reordered gallery is in the order asked for.

The cover is kept as the default address is: from the middle state where the product has none,
setting one breaks no index.  A new product's images come in one statement, which marks one of
them.  Reordering gives each image its place in the request, so no two of a product compare the
same and the database has one way to list them.
-/
import BookHouse.Catalog.Gallery
import BookHouse.Proofs.AddressBook
import BookHouse.Proofs.Catalogue

namespace BookHouse

open IndexedTable Marks Result Sorting

/-- What the tables promise: rows are numbered, and an image is of a product that is there. -/
structure Showcase.Sound (s : Showcase) : Prop where
  numbered : s.catalogue.Numbered
  placed : ∀ i ∈ s.images.rows, i.productId < s.catalogue.products.length

/-- One cover for each product that has images. -/
def OneCover (s : Showcase) : Prop := ∀ p, (imagesOf s.images p).countP (·.isPrimary) =
  if imagesOf s.images p = [] then 0 else 1

/-- The cover comes first and the others as they were asked for. -/
def InRequestedOrder (s : Showcase) (productId : ProductId) (mediaIds : List MediaId)
    (view : List ImageView) : Prop :=
  (view = [] ∧ mediaIds = []) ∨
    ∃ cover ∈ imagesOf s.images productId, cover.isPrimary ∧
      view.map (·.id) = cover.mediaId :: mediaIds.erase cover.mediaId

abbrev HasCover (p : ProductId) (rows : List ProductImage) : Prop :=
  Served ProductImage.productId (fun _ => true) ProductImage.isPrimary p rows

/-- What the calls keep. -/
structure Covered (s : Showcase) : Prop extends s.Sound where
  served : ∀ p, HasCover p s.images.rows

variable {s s' : Showcase} {images : ImageTable} {p : ProductId} {a b : ProductImage}

/-! ### The indexes -/

theorem primaryIndex_clash : primaryIndex.clash a b = true ↔
    (a.isPrimary ∧ b.isPrimary) ∧ a.productId = b.productId := by
  simp [primaryIndex, UniqueIndex.on]

/-- The mark of an image is the one the index is about. -/
theorem imageMark : OnePerGroup ProductImage.productId (fun _ => true) ProductImage.isPrimary
    imageIndexes onePrimary := by
  intro ix hix he a b
  rcases List.mem_cons.mp hix with rfl | hix
  · simp [UniqueIndex.on, onePrimary] at he
  · rcases List.mem_cons.mp hix with rfl | hix
    · simp [UniqueIndex.on, onePrimary] at he
    · obtain rfl := List.mem_singleton.mp hix
      rw [primaryIndex_clash]
      simp [and_assoc]

theorem imageIds_ne (images : ImageTable) : images.rows.Pairwise fun a b => a.id ≠ b.id :=
  (clash_of_mem (t := images) List.mem_cons_self).imp fun h => by simpa [UniqueIndex.on] using h

theorem oneImageById (images : ImageTable) (id : ImageId) : images.rows.Pairwise fun a b =>
    ¬(decide (a.id = id) = true ∧ decide (b.id = id) = true) :=
  (imageIds_ne images).imp fun hne hboth =>
    hne ((of_decide_eq_true hboth.1).trans (of_decide_eq_true hboth.2).symm)

theorem image_eq_of_id (ha : a ∈ images.rows) (hb : b ∈ images.rows) (h : a.id = b.id) : a = b := by
  have hnd : (images.rows.map (·.id)).Nodup := List.pairwise_map.mpr (imageIds_ne images)
  exact List.inj_on_of_nodup_map hnd ha hb h

theorem media_ne (images : ImageTable) : images.rows.Pairwise fun a b =>
    (a.productId, a.mediaId) ≠ (b.productId, b.mediaId) :=
  (clash_of_mem (t := images) (List.mem_cons_of_mem _ List.mem_cons_self)).imp fun h => by
    simpa [UniqueIndex.on] using h

theorem covers_ne (images : ImageTable) : images.rows.Pairwise fun a b =>
    ¬((a.productId = p ∧ true ∧ a.isPrimary) ∧ (b.productId = p ∧ true ∧ b.isPrimary)) := by
  have hindex : primaryIndex ∈ imageIndexes := by simp [imageIndexes]
  have hclash := clash_of_mem (t := images) hindex
  refine hclash.imp fun {a b} h hab => ?_
  rw [primaryIndex_clash.mpr ⟨⟨hab.1.2.2, hab.2.2.2⟩, hab.1.1.trans hab.2.1.symm⟩] at h
  cases h

/-- A product has one cover at most. -/
theorem cover_eq (ha : a ∈ images.rows) (hb : b ∈ images.rows) (hab : a.productId = b.productId)
    (hpa : a.isPrimary) (hpb : b.isPrimary) : a = b := by
  by_contra hne
  have hindex : primaryIndex ∈ imageIndexes := by simp [imageIndexes]
  have hclash := clash_of_ne hindex ha hb hne
  rw [primaryIndex_clash.mpr ⟨⟨hpa, hpb⟩, hab⟩] at hclash
  cases hclash

/-! ### One cover is what the calls keep -/

theorem mem_imagesOf : a ∈ imagesOf images p ↔ a ∈ images.rows ∧ a.productId = p := by
  simp [imagesOf]

theorem oneCover_iff : OneCover s ↔ ∀ p, HasCover p s.images.rows := by
  constructor
  · rintro h p ⟨a, ha, hap, -⟩
    have hone := h p
    rw [if_neg (List.ne_nil_of_mem (mem_imagesOf.mpr ⟨ha, hap⟩))] at hone
    obtain ⟨x, hx, hprim⟩ := List.countP_pos_iff.mp (hone ▸ Nat.one_pos)
    obtain ⟨hrows, hxp⟩ := mem_imagesOf.mp hx
    exact ⟨x, hrows, hxp, rfl, hprim⟩
  · intro h p
    have hcount := (h p).countP (covers_ne s.images)
    have hfilter : (imagesOf s.images p).countP (·.isPrimary) = s.images.rows.countP fun r =>
        r.productId = p && (true && r.isPrimary) := by
      rw [imagesOf, List.countP_filter]
      exact List.countP_congr fun r _ => by simp [and_comm]
    have hnil : (s.images.rows.any fun r => decide (r.productId = p) && true) =
        !decide (imagesOf s.images p = []) := by
      rw [Bool.eq_iff_iff]
      simp [imagesOf, List.filter_eq_nil_iff]
    rw [hfilter, hcount, hnil]
    by_cases hp : imagesOf s.images p = []
    · simp [hp]
    · simp [hp]

/-! ### The products -/

theorem product_lt (h : s.Sound) {q : CatalogueProduct}
    (hq : s.catalogue.product? p = some q) : p < s.catalogue.products.length := by
  have hmem : p ∈ s.catalogue.products.map (·.id) := by
    obtain ⟨hlook, -⟩ := product?_some.mp hq
    exact Rows.lookup_isSome.mp (by rw [hlook]; rfl)
  rw [h.numbered] at hmem
  exact List.mem_range.mp hmem

theorem product_spares :
    Spares onePrimary (fun q => s.catalogue.product? p = some q) (ProductImages.product s p) := by
  unfold ProductImages.product
  split
  next q hq => exact hq
  next => simp [Spares, onePrimary]

theorem findImage_spares {m : MediaId} :
    Spares onePrimary (fun img => img ∈ images.rows ∧ img.productId = p ∧ img.mediaId = m)
      (ProductImages.findImage images p m) := by
  unfold ProductImages.findImage
  split
  next img hfind =>
    have hp := List.find?_some hfind
    simp only [Bool.and_eq_true, decide_eq_true_eq] at hp
    exact ⟨List.mem_of_find?_eq_some hfind, hp⟩
  next => simp [Spares, onePrimary]

/-- A call that writes images and raises the product's version. -/
theorem touch_covered (h : s.Sound) (hserved : ∀ j, HasCover j images.rows)
    (hplaced : ∀ i ∈ images.rows, i.productId < s.catalogue.products.length) :
    Covered (ProductImages.touch s images p) where
  numbered := by
    show (Rows.modify CatalogueProduct.id _ _ _).map (·.id) =
      List.range (Rows.modify CatalogueProduct.id _ _ _).length
    rw [Rows.length_modify]
    refine Eq.trans ?_ h.numbered
    apply Rows.map_modify
    exact fun _ => rfl
  placed := by
    show ∀ i ∈ images.rows, i.productId <
      (Rows.modify CatalogueProduct.id _ _ _).length
    rw [Rows.length_modify]
    exact hplaced
  served := hserved

/-- An update that keeps the images with their products. -/
theorem placed_rewrite {n : ℕ} {q : ProductImage → Bool} {f : ProductImage → ProductImage}
    {rows : List ProductImage} (h : ∀ i ∈ rows, i.productId < n)
    (hf : ∀ i, (f i).productId = i.productId) :
    ∀ i ∈ rows.map (rewrite q f), i.productId < n := by
  intro x hx
  obtain ⟨i, hi, rfl⟩ := List.mem_map.mp hx
  rw [rewrite_keeps hf]
  exact h i hi

theorem placed_append {n m : ℕ} {rows rs : List ProductImage} (h : ∀ i ∈ rows, i.productId < n)
    (hnm : n ≤ m) (hrs : ∀ i ∈ rs, i.productId < m) : ∀ i ∈ rows ++ rs, i.productId < m := by
  intro x hx
  rcases List.mem_append.mp hx with hx | hx
  · exact lt_of_lt_of_le (h x hx) hnm
  · exact hrs x hx

/-! ### The statements -/

theorem clearPrimary_spares (h : Covered s) :
    Spares onePrimary (fun images =>
        Cleared ProductImage.productId (fun _ => true) ProductImage.isPrimary p images.rows ∧
        (∀ i ∈ images.rows, i.productId < s.catalogue.products.length) ∧
        ∀ i ∈ s.images.rows, ∃ j ∈ images.rows, j.id = i.id ∧ j.productId = i.productId)
      (ProductImages.clearPrimary s.images p) := by
  refine (clear_spares (k := p) (f := fun i => { i with isPrimary := false }) imageMark h.served
    (fun r => ?_) fun r => ⟨rfl, rfl, rfl⟩).mono fun images himages => ?_
  · simp
  · obtain ⟨hrows, hcleared⟩ := himages
    refine ⟨hcleared, ?_, fun i hi => ?_⟩
    · rw [hrows]
      exact placed_rewrite h.placed fun _ => rfl
    · obtain ⟨j, hj, rfl | rfl⟩ := exists_rewrite hi hrows
      · exact ⟨_, hj, rfl, rfl⟩
      · exact ⟨_, hj, rfl, rfl⟩

theorem makePrimary_spares {n : ℕ} (h : Cleared ProductImage.productId (fun _ => true)
      ProductImage.isPrimary p images.rows)
    (hplaced : ∀ i ∈ images.rows, i.productId < n) (ha : a ∈ images.rows) (hp : a.productId = p) :
    Spares onePrimary (fun images' => (∀ j, HasCover j images'.rows) ∧
        ∀ i ∈ images'.rows, i.productId < n)
      (ProductImages.makePrimary images a.id) := by
  refine (mark_spares imageMark h (oneImageById images a.id) ha (decide_eq_true rfl) hp
    ⟨hp, rfl, rfl⟩).mono fun images' himages' => ⟨himages'.2, ?_⟩
  rw [himages'.1]
  exact placed_rewrite hplaced fun _ => rfl

/-! ### The calls -/

theorem attach_spares (h : Covered s) (ctx : ImageContext) (m : MediaId)
    (isPrimary : Option Bool) :
    Spares onePrimary (fun r => Covered r.1) (ProductImages.attach ctx s p m isPrimary) := by
  unfold ProductImages.attach
  refine product_spares.bind fun q hq => ?_
  have hlt := product_lt h.toSound hq
  dsimp only
  split
  · simp [Spares, onePrimary]
  · split
    · exact h
    · split
      · simp [Spares, onePrimary]
      · by_cases hmake : (isPrimary = some true ||
            (ctx.bySortOrder.run (imagesOf s.images p)).length = 0) = true
        · -- the cover is cleared, and the new image is it
          rw [if_pos hmake]
          refine (clearPrimary_spares h).bind fun images hclear => ?_
          obtain ⟨hcleared, hplaced, -⟩ := hclear
          refine (insert_marked_spares imageMark hcleared rfl hmake).bind fun images' h' => ?_
          refine touch_covered h.toSound h'.2 ?_
          rw [h'.1]
          exact placed_append hplaced le_rfl fun i hi => List.mem_singleton.mp hi ▸ hlt
        · -- the product has an image, and with it a cover
          rw [if_neg hmake]
          have hne : imagesOf s.images p ≠ [] := fun hnil => hmake (by
            rw [OrderBy.length_run]
            simp [hnil])
          obtain ⟨b, hb⟩ := List.exists_mem_of_ne_nil _ hne
          obtain ⟨hmem, hbp⟩ := mem_imagesOf.mp hb
          refine (insert_plain_spares imageMark h.served (by simpa using hmake)
            ⟨b, hmem, hbp, rfl⟩).bind fun images' h' => ?_
          refine touch_covered h.toSound h'.2 ?_
          rw [h'.1]
          exact placed_append h.placed le_rfl fun i hi => List.mem_singleton.mp hi ▸ hlt

theorem setPrimary_spares (h : Covered s) (ctx : ImageContext) (m : MediaId) :
    Spares onePrimary (fun r => Covered r.1) (ProductImages.setPrimary ctx s p m) := by
  unfold ProductImages.setPrimary
  refine product_spares.bind fun _ _ => findImage_spares.bind fun img himg => ?_
  obtain ⟨hmem, hp, -⟩ := himg
  split
  · exact h
  · refine (clearPrimary_spares h).bind fun images hclear => ?_
    obtain ⟨hcleared, hplaced, hkept⟩ := hclear
    obtain ⟨b, hb, hid, hbp⟩ := hkept img hmem
    have hmark := makePrimary_spares hcleared hplaced hb (hbp.trans hp)
    rw [hid] at hmark
    exact hmark.bind fun images' h' => touch_covered h.toSound h'.1 h'.2

theorem detach_spares (h : Covered s) (ctx : ImageContext) (m : MediaId) :
    Spares onePrimary (fun r => Covered r.1) (ProductImages.detach ctx s p m) := by
  unfold ProductImages.detach
  refine product_spares.bind fun _ _ => findImage_spares.bind fun img himg => ?_
  obtain ⟨hmem, hp, -⟩ := himg
  have honly : ∀ x ∈ s.images.rows, decide (x.id = img.id) = true → x = img := fun x hx hxi =>
    image_eq_of_id hx hmem (of_decide_eq_true hxi)
  have hplaced : ∀ i ∈ (s.images.delete (·.id = img.id)).rows,
      i.productId < s.catalogue.products.length := fun i hi => h.placed i (List.mem_filter.mp hi).1
  dsimp only
  by_cases hprim : img.isPrimary
  · rw [if_pos hprim]
    have hcleared : Cleared ProductImage.productId (fun _ => true) ProductImage.isPrimary p
        (s.images.delete (·.id = img.id)).rows := by
      refine delete_cleared h.served (fun x hx hxi => honly x hx hxi ▸ hp) fun x hx hxp hxprim => ?_
      rw [cover_eq hx hmem (hxp.trans hp.symm) hxprim hprim]
      exact decide_eq_true rfl
    split
    next next hnext =>
      obtain ⟨hn, hnp⟩ := mem_imagesOf.mp (ctx.bySortOrder.mem_of_head hnext)
      exact (makePrimary_spares hcleared hplaced hn hnp).bind fun images' h' =>
        touch_covered h.toSound h'.1 h'.2
    next hnone =>
      have hnil := ctx.bySortOrder.eq_nil_of_head hnone
      refine touch_covered h.toSound (hcleared.all_served fun hex => ?_) hplaced
      obtain ⟨b, hb, hbp, -⟩ := hex
      have hb' := mem_imagesOf.mpr ⟨hb, hbp⟩
      rw [hnil] at hb'
      cases hb'
  · rw [if_neg hprim]
    refine touch_covered h.toSound (delete_served h.served fun x hx hxi => ?_) hplaced
    rw [honly x hx hxi]
    simpa using hprim

/-! ### New products -/

theorem insert_products {c c' : Catalogue} {q : CatalogueProduct}
    (h : ProductAdmin.insert c q = .ok c') : c'.products = c.products ++ [q] := by
  obtain ⟨-, -, h⟩ := bind_ok.mp h
  obtain rfl := Except.ok.inj h
  rfl

theorem create_products {c c' : Catalogue} {dto : CreateCatalogueProduct} {slug sku : String}
    {now : Instant} (h : ProductAdmin.create c dto slug sku now = .ok c') :
    ∃ q, q.id = c.products.length ∧ c'.products = c.products ++ [q] := by
  obtain ⟨place, -, h⟩ := bind_ok.mp h
  obtain ⟨-, -, h⟩ := bind_ok.mp h
  obtain ⟨-, -, h⟩ := bind_ok.mp h
  exact ⟨_, rfl, insert_products h⟩

theorem duplicate_products {c c' : Catalogue} {id : ProductId} {slug sku : String}
    (h : ProductAdmin.duplicate c id slug sku = .ok c') :
    ∃ q, q.id = c.products.length ∧ c'.products = c.products ++ [q] := by
  unfold ProductAdmin.duplicate at h
  split at h
  · cases h
  · exact ⟨_, rfl, insert_products h⟩

theorem keysFree_onePrimary (c : Catalogue) (q : CatalogueProduct) :
    Spares onePrimary (fun _ => True) (ProductAdmin.keysFree c q) := by
  unfold ProductAdmin.keysFree
  repeat' split
  all_goals simp [Spares, onePrimary]

theorem insertProduct_spares (c : Catalogue) (q : CatalogueProduct) :
    Spares onePrimary (fun _ => True) (ProductAdmin.insert c q) :=
  (keysFree_onePrimary c q).bind fun _ _ => trivial

theorem create_spares (c : Catalogue) (dto : CreateCatalogueProduct) (slug sku : String)
    (now : Instant) :
    Spares onePrimary (fun _ => True) (ProductAdmin.create c dto slug sku now) := by
  have hplacement : Spares onePrimary (fun _ => True)
      (ProductGuards.placement c dto.categoryId dto.subcategoryId) := by
    unfold ProductGuards.placement
    repeat' split
    all_goals simp [Spares, onePrimary]
  have hcompare : Spares onePrimary (fun _ => True)
      (ProductGuards.compareAt dto.price dto.compareAtPrice) := by
    unfold ProductGuards.compareAt
    repeat' split
    all_goals simp [Spares, onePrimary]
  have hrelations : Spares onePrimary (fun _ => True)
      (ProductGuards.relations c dto.publisherId dto.brandId dto.authorIds dto.imageIds) := by
    unfold ProductGuards.relations
    repeat' split
    all_goals simp [Spares, onePrimary]
  unfold ProductAdmin.create
  exact hplacement.bind fun _ _ => hcompare.bind fun _ _ => hrelations.bind fun _ _ =>
    insertProduct_spares c _

theorem duplicate_spares (c : Catalogue) (id : ProductId) (slug sku : String) :
    Spares onePrimary (fun _ => True) (ProductAdmin.duplicate c id slug sku) := by
  unfold ProductAdmin.duplicate
  split
  · simp [Spares, onePrimary]
  · exact insertProduct_spares c _

/-- The images of a product that has just been added. -/
theorem newImages_covered (h : Covered s) {catalogue : Catalogue} {q : CatalogueProduct}
    (hid : q.id = s.catalogue.products.length)
    (hproducts : catalogue.products = s.catalogue.products ++ [q]) {rs : List ProductImage}
    (hrs : ∀ r ∈ rs, r.productId = s.catalogue.products.length)
    (hone : rs.Pairwise fun a b => ¬(a.isPrimary ∧ b.isPrimary))
    (hprim : rs ≠ [] → ∃ d ∈ rs, d.isPrimary) :
    Spares onePrimary (fun images => Covered { catalogue, images }) (s.images.insertMany rs) := by
  have hlen : catalogue.products.length = s.catalogue.products.length + 1 := by simp [hproducts]
  refine (group_spares imageMark h.served (fun x hx hxp => ?_) hrs hone fun hne => ?_).mono
    fun images himages => ⟨⟨?_, ?_⟩, himages.2⟩
  · exact (h.placed x hx).ne hxp
  · obtain ⟨d, hd, hdprim⟩ := hprim hne
    exact ⟨d, hd, rfl, hdprim⟩
  · show catalogue.products.map (·.id) = List.range catalogue.products.length
    rw [hlen, List.range_succ, ← h.numbered, hproducts, List.map_append, List.map_singleton, hid]
  · show ∀ i ∈ images.rows, i.productId < catalogue.products.length
    rw [himages.1, hlen]
    exact placed_append h.placed (Nat.le_succ _) fun i hi => by rw [hrs i hi]; exact Nat.lt_succ_self _

theorem createProduct_spares (h : Covered s) (ctx : ImageContext) (dto : CreateCatalogueProduct) :
    Spares onePrimary Covered (ProductImages.createProduct ctx s dto) := by
  unfold ProductImages.createProduct
  cases hc : ProductAdmin.create s.catalogue dto ctx.slug ctx.sku ctx.now with
  | error e =>
      rintro rfl
      exact (create_spares s.catalogue dto ctx.slug ctx.sku ctx.now).ne hc
  | ok catalogue =>
      obtain ⟨q, hid, hproducts⟩ := create_products hc
      refine (newImages_covered h hid hproducts (fun r hr => ?_) ?_ fun hne => ?_).bind
        fun images himages => himages
      · obtain ⟨x, -, rfl⟩ := List.mem_map.mp hr
        rfl
      · -- only the image at place 0 is the cover
        rw [List.pairwise_map]
        have hplaces : (dto.imageIds.zipIdx).Pairwise fun x y => x.2 ≠ y.2 := by
          rw [← List.pairwise_map (f := Prod.snd) (R := fun i j => i ≠ j), List.zipIdx_map_snd]
          exact List.nodup_range'
        refine hplaces.imp fun {x y} hne hboth => hne ?_
        simp only [decide_eq_true_eq] at hboth
        exact hboth.1.trans hboth.2.symm
      · cases himages : dto.imageIds with
        | nil => simp [himages] at hne
        | cons m rest => exact ⟨_, List.mem_cons_self, rfl⟩

theorem duplicateProduct_spares (h : Covered s) (ctx : ImageContext) (id : ProductId) :
    Spares onePrimary Covered (ProductImages.duplicateProduct ctx s id) := by
  unfold ProductImages.duplicateProduct
  cases hc : ProductAdmin.duplicate s.catalogue id ctx.slug ctx.sku with
  | error e =>
      rintro rfl
      exact (duplicate_spares s.catalogue id ctx.slug ctx.sku).ne hc
  | ok catalogue =>
      obtain ⟨q, hid, hproducts⟩ := duplicate_products hc
      refine (newImages_covered h hid hproducts (fun r hr => ?_) ?_ fun hne => ?_).bind
        fun images himages => himages
      · obtain ⟨x, -, rfl⟩ := List.mem_map.mp hr
        rfl
      · -- the source has one cover at most
        rw [List.pairwise_map]
        rw [← List.pairwise_map (f := Prod.fst)
          (R := fun a b : ProductImage => ¬(a.isPrimary ∧ b.isPrimary)), List.zipIdx_map_fst]
        refine ((covers_ne (p := id) s.images).filter _).imp_of_mem fun {a b} ha hb hab hboth => ?_
        exact hab ⟨⟨(mem_imagesOf.mp ha).2, rfl, hboth.1⟩, ⟨(mem_imagesOf.mp hb).2, rfl, hboth.2⟩⟩
      · have hsrc : imagesOf s.images id ≠ [] := fun hnil => hne (by simp [hnil])
        obtain ⟨a, ha⟩ := List.exists_mem_of_ne_nil _ hsrc
        obtain ⟨hmem, hap⟩ := mem_imagesOf.mp ha
        obtain ⟨d, hd, hdp, -, hdprim⟩ := h.served id ⟨a, hmem, hap, rfl⟩
        obtain ⟨i, hi, hget⟩ := List.mem_iff_getElem.mp (mem_imagesOf.mpr ⟨hd, hdp⟩)
        have hzip : (d, i) ∈ (imagesOf s.images id).zipIdx :=
          List.mk_mem_zipIdx_iff_getElem?.mpr (List.getElem?_eq_some_iff.mpr ⟨hi, hget⟩)
        exact ⟨_, List.mem_map_of_mem hzip, hdprim⟩

/-! ### Reordering -/

/-- What one update of a request leaves of an image. -/
def setPlace (p : ProductId) (o : MediaId × ℕ) (x : ProductImage) : ProductImage :=
  if x.productId = p ∧ x.mediaId = o.1 then { x with sortOrder := o.2 } else x

/-- What all of them leave. -/
def reordered (p : ProductId) (ordered : List (MediaId × ℕ)) (x : ProductImage) : ProductImage :=
  ordered.foldl (fun x o => setPlace p o x) x

theorem rewrite_eq_setPlace (o : MediaId × ℕ) :
    rewrite (fun x => decide (x.productId = p) && decide (x.mediaId = o.1))
      (fun x => { x with sortOrder := (o.2 : ℤ) }) = setPlace p o := by
  funext x
  simp [rewrite, setPlace]

theorem setPlace_keeps (o : MediaId × ℕ) (x : ProductImage) :
    (setPlace p o x).productId = x.productId ∧ (setPlace p o x).mediaId = x.mediaId ∧
      (setPlace p o x).isPrimary = x.isPrimary := by
  unfold setPlace
  split
  · exact ⟨rfl, rfl, rfl⟩
  · exact ⟨rfl, rfl, rfl⟩

theorem setOrder_spares :
    ∀ (ordered : List (MediaId × ℕ)) (images : ImageTable),
      (∀ j, HasCover j images.rows) →
      Spares onePrimary (fun images' => images'.rows = images.rows.map (reordered p ordered) ∧
          ∀ j, HasCover j images'.rows)
        (ProductImages.setOrder p images ordered) := by
  intro ordered
  induction ordered with
  | nil =>
      intro images h
      exact ⟨(List.map_id' _).symm, h⟩
  | cons o rest ih =>
      intro images h
      have hfirst := keep_spares (t := images)
        (p := fun x => decide (x.productId = p) && decide (x.mediaId = o.1))
        (f := fun x => { x with sortOrder := (o.2 : ℤ) }) imageMark h fun _ => ⟨rfl, rfl, rfl⟩
      refine hfirst.bind fun images₁ h₁ => (ih images₁ h₁.2).mono fun images₂ h₂ => ⟨?_, h₂.2⟩
      rw [h₂.1, h₁.1, rewrite_eq_setPlace, List.map_map]
      rfl

theorem reordered_keeps (ordered : List (MediaId × ℕ)) (x : ProductImage) :
    (reordered p ordered x).productId = x.productId ∧
      (reordered p ordered x).mediaId = x.mediaId ∧
      (reordered p ordered x).isPrimary = x.isPrimary := by
  induction ordered generalizing x with
  | nil => exact ⟨rfl, rfl, rfl⟩
  | cons o rest ih =>
      obtain ⟨hp, hm, hprim⟩ := ih (setPlace p o x)
      obtain ⟨hp', hm', hprim'⟩ := setPlace_keeps (p := p) o x
      exact ⟨hp.trans hp', hm.trans hm', hprim.trans hprim'⟩

/-- An image that the rest of the request does not name keeps its place. -/
theorem reordered_of_not_mem (ordered : List (MediaId × ℕ)) (x : ProductImage)
    (hx : x.mediaId ∉ ordered.map (·.1)) : reordered p ordered x = x := by
  induction ordered with
  | nil => rfl
  | cons o rest ih =>
      rw [List.map_cons, List.mem_cons, not_or] at hx
      have hstep : setPlace p o x = x := if_neg fun h => hx.1 h.2
      show reordered p rest (setPlace p o x) = x
      rw [hstep]
      exact ih hx.2

/-- An image gets the place it has in the request. -/
theorem reordered_sortOrder (ordered : List (MediaId × ℕ)) (hnd : (ordered.map (·.1)).Nodup)
    (x : ProductImage) (hp : x.productId = p) {i : ℕ} (hi : (x.mediaId, i) ∈ ordered) :
    (reordered p ordered x).sortOrder = i := by
  induction ordered with
  | nil => cases hi
  | cons o rest ih =>
      rw [List.map_cons, List.nodup_cons] at hnd
      show (reordered p rest (setPlace p o x)).sortOrder = _
      by_cases hm : x.mediaId = o.1
      · have hstep : setPlace p o x = { x with sortOrder := o.2 } := if_pos ⟨hp, hm⟩
        rw [hstep, reordered_of_not_mem rest _ (by simpa [hm] using hnd.1)]
        rcases List.mem_cons.mp hi with rfl | hrest
        · rfl
        · exact absurd (hm ▸ List.mem_map_of_mem (f := Prod.fst) hrest) hnd.1
      · have hstep : setPlace p o x = x := if_neg fun h => hm h.2
        rw [hstep]
        refine ih hnd.2 ((List.mem_cons.mp hi).resolve_left fun hc => hm ?_)
        exact congrArg Prod.fst hc

/-- The images of the product, each at the place the request gives it. -/
structure Arranged (images : ImageTable) (p : ProductId) (mediaIds : List MediaId) : Prop where
  perm : ((imagesOf images p).map (·.mediaId)).Perm mediaIds
  place : ∀ i ∈ imagesOf images p, i.sortOrder = mediaIds.idxOf i.mediaId

/-- A request that names as many images as there are, and only those, names each once. -/
theorem arranged_of_setOrder {images' : ImageTable} {mediaIds : List MediaId}
    (hnd : mediaIds.Nodup) (hlen : mediaIds.length = (imagesOf images p).length)
    (hall : ∀ m ∈ mediaIds, m ∈ (imagesOf images p).map (·.mediaId))
    (hrows : images'.rows = images.rows.map (reordered p mediaIds.zipIdx)) :
    Arranged images' p mediaIds := by
  have hof : imagesOf images' p = (imagesOf images p).map (reordered p mediaIds.zipIdx) := by
    rw [imagesOf, hrows, List.filter_map]
    congr 1
    exact List.filter_congr fun x _ => by
      rw [Function.comp_apply, (reordered_keeps (p := p) mediaIds.zipIdx x).1]
  have hmedia : (imagesOf images' p).map (·.mediaId) = (imagesOf images p).map (·.mediaId) := by
    rw [hof, List.map_map]
    exact List.map_congr_left fun x _ => (reordered_keeps mediaIds.zipIdx x).2.1
  have hsub : mediaIds.Subperm ((imagesOf images p).map (·.mediaId)) := hnd.subperm hall
  have hperm : ((imagesOf images p).map (·.mediaId)).Perm mediaIds :=
    (hsub.perm_of_length_le (by rw [List.length_map, hlen])).symm
  refine ⟨hmedia ▸ hperm, fun x hx => ?_⟩
  rw [hof] at hx
  obtain ⟨y, hy, rfl⟩ := List.mem_map.mp hx
  have hymem : y.mediaId ∈ mediaIds := hperm.mem_iff.mp (List.mem_map_of_mem hy)
  rw [(reordered_keeps mediaIds.zipIdx y).2.1]
  refine reordered_sortOrder _ ?_ y (mem_imagesOf.mp hy).2 ?_
  · rw [List.zipIdx_map_fst]
    exact hnd
  · refine List.mk_mem_zipIdx_iff_getElem?.mpr (List.getElem?_eq_some_iff.mpr ?_)
    exact ⟨List.idxOf_lt_length_of_mem hymem, List.getElem_idxOf _⟩

theorem pairwise_idxOf {l : List MediaId} (h : l.Nodup) :
    l.Pairwise fun a b => l.idxOf a ≤ l.idxOf b := by
  rw [List.pairwise_iff_getElem]
  intro i j hi hj hij
  rw [h.idxOf_getElem, h.idxOf_getElem]
  exact hij.le

/-- The gallery of arranged images. -/
theorem gallery_requested (hserved : HasCover p images.rows) {mediaIds : List MediaId}
    (hnd : mediaIds.Nodup) (h : Arranged images p mediaIds) (ctx : ImageContext) (s : Showcase)
    (hs : s.images = images) :
    InRequestedOrder s p mediaIds (ProductImages.gallery ctx images p) := by
  subst hs
  cases hrun : ctx.coverFirst.run (imagesOf s.images p) with
  | nil =>
      have hnil : imagesOf s.images p = [] :=
        ctx.coverFirst.eq_nil_of_head (by rw [hrun]; rfl)
      refine .inl ⟨by rw [ProductImages.gallery, hrun]; rfl, ?_⟩
      have hperm := h.perm
      rw [hnil] at hperm
      exact hperm.nil_eq.symm
  | cons first rest =>
      have hperm := ctx.coverFirst.perm (imagesOf s.images p)
      have hsorted := ctx.coverFirst.sorted (imagesOf s.images p)
      rw [hrun] at hperm hsorted
      obtain ⟨hfirst, hrest⟩ := List.pairwise_cons.mp hsorted
      have hmem : first ∈ imagesOf s.images p := hperm.mem_iff.mp List.mem_cons_self
      obtain ⟨hfrows, hfp⟩ := mem_imagesOf.mp hmem
      -- the cover cannot come later than the first
      have hprim : first.isPrimary := by
        obtain ⟨d, hd, hdp, -, hdprim⟩ := hserved ⟨first, hfrows, hfp, rfl⟩
        rcases List.mem_cons.mp (hperm.mem_iff.mpr (mem_imagesOf.mpr ⟨hd, hdp⟩)) with rfl | hdrest
        · exact hdprim
        · rcases hfirst d hdrest with ⟨-, hnot⟩ | ⟨heq, -⟩
          · exact absurd hdprim hnot
          · exact heq.trans hdprim
      have hmedianodup : ((first :: rest).map (·.mediaId)).Nodup :=
        ((hperm.map _).trans h.perm).nodup_iff.mpr hnd
      rw [List.map_cons, List.nodup_cons] at hmedianodup
      have hplain : ∀ x ∈ rest, ¬x.isPrimary := fun x hx hxprim => by
        have hxof : x ∈ imagesOf s.images p := hperm.mem_iff.mp (List.mem_cons_of_mem _ hx)
        obtain ⟨hxrows, hxp⟩ := mem_imagesOf.mp hxof
        obtain rfl := cover_eq hxrows hfrows (hxp.trans hfp.symm) hxprim hprim
        exact hmedianodup.1 (List.mem_map_of_mem hx)
      -- the others are the request without the cover, in the same order
      have hothers : (rest.map (·.mediaId)).Perm (mediaIds.erase first.mediaId) := by
        have hall := (hperm.map (·.mediaId)).trans h.perm
        rw [List.map_cons] at hall
        simpa using hall.erase first.mediaId
      have hothersSorted : (rest.map (·.mediaId)).Pairwise fun a b =>
          mediaIds.idxOf a ≤ mediaIds.idxOf b := by
        rw [List.pairwise_map]
        refine hrest.imp_of_mem fun {x y} hx hy hxy => ?_
        have hle : x.sortOrder ≤ y.sortOrder := by
          rcases hxy with ⟨hxprim, -⟩ | ⟨-, hle⟩
          · exact absurd hxprim (hplain x hx)
          · exact hle
        rw [h.place x (hperm.mem_iff.mp (List.mem_cons_of_mem _ hx)),
          h.place y (hperm.mem_iff.mp (List.mem_cons_of_mem _ hy))] at hle
        exact_mod_cast hle
      refine .inr ⟨first, hmem, hprim, ?_⟩
      rw [ProductImages.gallery, hrun, List.map_map, List.map_cons]
      refine congrArg (first.mediaId :: ·) ?_
      refine hothers.eq_of_pairwise ?_ hothersSorted
        ((pairwise_idxOf hnd).sublist List.erase_sublist)
      intro a b ha hb hab hba
      have hbmem : b ∈ mediaIds := List.mem_of_mem_erase hb
      have hamem : a ∈ mediaIds := List.mem_of_mem_erase (hothers.mem_iff.mp ha)
      exact (List.idxOf_inj hamem).mp (le_antisymm hab hba)

theorem reorder_spares (h : Covered s) (ctx : ImageContext) (dto : ReorderImagesDto) :
    Spares onePrimary (fun r => Covered r.1 ∧ InRequestedOrder r.1 p dto.mediaIds r.2)
      (ProductImages.reorder ctx s p dto) := by
  unfold ProductImages.reorder
  refine product_spares.bind fun _ _ => ?_
  dsimp only
  split
  · simp [Spares, onePrimary]
  next hmatch =>
    simp only [Bool.or_eq_true, decide_eq_true_eq, Bool.not_eq_true', not_or, not_not,
      Bool.not_eq_false, List.all_eq_true, List.contains_iff_mem] at hmatch
    refine (setOrder_spares dto.mediaIds.zipIdx s.images h.served).bind fun images himages => ?_
    have harranged := arranged_of_setOrder dto.unique hmatch.1 hmatch.2 himages.1
    refine ⟨touch_covered h.toSound himages.2 ?_,
      gallery_requested (himages.2 p) dto.unique harranged ctx _ rfl⟩
    rw [himages.1]
    intro x hx
    obtain ⟨i, hi, rfl⟩ := List.mem_map.mp hx
    rw [(reordered_keeps dto.mediaIds.zipIdx i).1]
    exact h.placed i hi

/-! ### Runs -/

/-- **What a call leaves, and that the index never refuses it.** -/
theorem ImageCall.run_spares (h : Covered s) (ctx : ImageContext) (call : ImageCall) :
    Spares onePrimary Covered (call.run ctx s) := by
  cases call with
  | create dto => exact createProduct_spares h ctx dto
  | duplicate id => exact duplicateProduct_spares h ctx id
  | attach p m isPrimary => exact (attach_spares h ctx m isPrimary).map fun _ hr => hr
  | reorder p dto => exact (reorder_spares h ctx dto).map fun _ hr => hr.1
  | setPrimary p m => exact (setPrimary_spares h ctx m).map fun _ hr => hr
  | detach p m => exact (detach_spares h ctx m).map fun _ hr => hr

theorem showcaseStep_covered (a : ShowcaseAction) (h : Covered s) (hstep : showcaseStep s a = some s') :
    Covered s' := by
  cases a with
  | call ctx call => exact (call.run_spares h ctx).ok (toOption_some.mp hstep)
  | elsewhere catalogue =>
      rw [showcaseStep] at hstep
      split at hstep
      next hrows =>
        obtain rfl := Option.some.inj hstep
        exact ⟨⟨hrows.1, fun i hi => lt_of_lt_of_le (h.placed i hi) hrows.2⟩, h.served⟩
      next => cases hstep

/-- **One default address, one cover, and neither index in the way.** -/
theorem one_default_one_cover {book book' : AddressBook} {s s' : Showcase}
    (as : List (AddressContext × AddressCall)) (bs : List ShowcaseAction)
    (hbook : OneDefault book) (hrun : Machine.runFrom addressStep book as = some book')
    (hs : s.Sound) (hcover : OneCover s) (hrun' : Machine.runFrom showcaseStep s bs = some s') :
    (OneDefault book' ∧ ∀ ctx call, AddressCall.run ctx book' call ≠ .error oneDefault) ∧
      OneCover s' ∧ (∀ ctx call, ImageCall.run ctx s' call ≠ .error onePrimary) ∧
      ∀ ctx p dto s'' view, ProductImages.reorder ctx s' p dto = .ok (s'', view) →
        InRequestedOrder s'' p dto.mediaIds view := by
  have hend : Covered s' :=
    Machine.runFrom_invariant (fun s a s' hs ha => showcaseStep_covered a hs ha) bs s s'
      ⟨hs, oneCover_iff.mp hcover⟩ hrun'
  refine ⟨addresses_defaulted as hbook hrun, oneCover_iff.mpr hend.served,
    fun ctx call => (call.run_spares hend ctx).ne, fun ctx p dto s'' view h => ?_⟩
  exact ((reorder_spares hend ctx dto).ok h).2

section bookStall

instance : Std.Total fun a b : CustomerAddress => b.createdAt ≤ a.createdAt :=
  ⟨fun _ _ => le_total _ _⟩

instance : IsTrans CustomerAddress fun a b => b.createdAt ≤ a.createdAt :=
  ⟨fun _ _ _ hab hbc => le_trans hbc hab⟩

instance : Std.Total fun a b : ProductImage => a.sortOrder ≤ b.sortOrder :=
  ⟨fun _ _ => le_total _ _⟩

instance : IsTrans ProductImage fun a b => a.sortOrder ≤ b.sortOrder :=
  ⟨fun _ _ _ hab hbc => le_trans hab hbc⟩

instance : DecidableRel CoverFirst := fun a b =>
  inferInstanceAs (Decidable ((a.isPrimary ∧ ¬b.isPrimary) ∨
    (a.isPrimary = b.isPrimary ∧ a.sortOrder ≤ b.sortOrder)))

instance : Std.Total CoverFirst := ⟨fun a b => by
  unfold CoverFirst
  cases a.isPrimary <;> cases b.isPrimary <;> simp [le_total]⟩

instance : IsTrans ProductImage CoverFirst := ⟨fun a b c => by
  unfold CoverFirst
  cases a.isPrimary <;> cases b.isPrimary <;> cases c.isPrimary <;> simp
  all_goals exact le_trans⟩

def rahim : AuthUser := { id := 0, customerId := some 4 }

def rahimsHome : AddressDto :=
  { recipientName := "রহিম", phone := "01711111111", districtId := 1, line := "মিরপুর ১০" }

def atHour (hour : ℤ) (newId : AddressId) : AddressContext :=
  { districts := [1], now := hour, newId, newestFirst := .insertion }

/-- Three addresses; the second becomes the default, and is deleted. -/
def rahimsCalls : List (AddressContext × AddressCall) :=
  [(atHour 1 10, .add rahim rahimsHome), (atHour 2 11, .add rahim rahimsHome),
   (atHour 3 12, .add rahim rahimsHome), (atHour 4 0, .setDefault rahim 11),
   (atHour 5 0, .delete rahim 11)]

def withIds (newId : ImageId) : ImageContext :=
  { now := 1, newId := (newId + ·), slug := "boi-copy", sku := "BKS-2", bySortOrder := .insertion,
    coverFirst := .insertion }

def pictureBook : CreateCatalogueProduct :=
  { categoryId := 0, title := "ছড়ার বই", sku := some "BKS-1", slug := some "boi", price := 100,
    imageIds := [7, 8] }

def emptyShowcase : Showcase where
  catalogue := { sections := [{ id := 0, code := "books" }],
                 categories := [{ id := 0, sectionId := 0, slug := "chhora", nameBn := "ছড়া" }],
                 media := [7, 8, 9] }

/-- A book with two images gets a third, which becomes the cover; it is copied, and the copy loses
its cover. -/
def showcaseCalls : List ShowcaseAction :=
  [.call (withIds 0) (.create pictureBook), .call (withIds 2) (.attach 0 9 (some true)),
   .call (withIds 3) (.reorder 0 ⟨[8, 9, 7], by decide⟩), .call (withIds 4) (.duplicate 0),
   .call (withIds 9) (.detach 1 9)]

theorem one_default_one_cover_bookStall : ∃ book' s',
    Machine.runFrom addressStep .empty rahimsCalls = some book' ∧
      Machine.runFrom showcaseStep emptyShowcase showcaseCalls = some s' ∧
      (OneDefault book' ∧ ∀ ctx call, AddressCall.run ctx book' call ≠ .error oneDefault) ∧
      OneCover s' ∧ (∀ ctx call, ImageCall.run ctx s' call ≠ .error onePrimary) ∧
      ∀ ctx p dto s'' view, ProductImages.reorder ctx s' p dto = .ok (s'', view) →
        InRequestedOrder s'' p dto.mediaIds view := by
  have hbook : (Machine.runFrom addressStep .empty rahimsCalls).isSome := by decide +kernel
  have hshowcase : (Machine.runFrom showcaseStep emptyShowcase showcaseCalls).isSome := by decide +kernel
  obtain ⟨book', hrun⟩ := Option.isSome_iff_exists.mp hbook
  obtain ⟨s', hrun'⟩ := Option.isSome_iff_exists.mp hshowcase
  refine ⟨book', s', hrun, hrun', ?_⟩
  exact one_default_one_cover rahimsCalls showcaseCalls ⟨fun _ => rfl, fun a ha => by cases ha⟩ hrun
    ⟨by decide, fun i hi => by cases hi⟩ (fun _ => rfl) hrun'

end bookStall

end BookHouse
