/-
Products stand in categories that are there.

The rows of categories and products stay when they are deleted, and nothing moves a
category, so every product, deleted or not, stands in a main category and a sub-category of
it (`CatalogueInv`).  That the two are not deleted is checked by whatever places a product and
kept by the removal of a category, which asks for live products.  A deleted product is not
asked for, so its places can go; `restore` looks at the category alone.
-/
import BookHouse.Catalog.Catalogue
import BookHouse.Lib.Machine
import BookHouse.Lib.Result

namespace BookHouse

variable {s t : Catalogue} {p : CatalogueProduct}

theorem category?_some {id : CategoryId} {cat : Category} : s.category? id = some cat ↔
    Rows.lookup Category.id id s.categories = some cat ∧ cat.deletedAt = none := by
  rw [Catalogue.category?, Option.filter_eq_some_iff, Option.isNone_iff_eq_none]

theorem product?_some {id : ProductId} : s.product? id = some p ↔
    Rows.lookup CatalogueProduct.id id s.products = some p ∧ p.deletedAt = none := by
  rw [Catalogue.product?, Option.filter_eq_some_iff, Option.isNone_iff_eq_none]

/-! ### Placements -/

/-- The category is a root, the section is its section, the sub-category is one of its own. -/
structure Stands (find : CategoryId → Option Category) (p : CatalogueProduct) (cat : Category) :
    Prop where
  category : find p.categoryId = some cat
  root : cat.parentId = none
  section_ : p.sectionId = cat.sectionId
  subcategory : ∀ id, p.subcategoryId = some id → ∃ sub, find id = some sub ∧
    sub.parentId = some cat.id

/-- The product refers to a main category that is not deleted, its sub-category is not deleted
and one of it, and its section is the category's. -/
def Placed (s : Catalogue) (p : CatalogueProduct) : Prop := ∃ cat, Stands s.category? p cat

/-- Deleted or not, the product refers to rows that belong together. -/
def Sited (s : Catalogue) (p : CatalogueProduct) : Prop :=
  ∃ cat, Stands (fun id => Rows.lookup Category.id id s.categories) p cat

def AllPlaced (s : Catalogue) : Prop := ∀ p ∈ s.products, p.deletedAt = none → Placed s p

/-- Only the three columns count. -/
theorem Stands.of_columns {find : CategoryId → Option Category} {cat : Category}
    {q : CatalogueProduct} (h : Stands find p cat) (hsection : q.sectionId = p.sectionId)
    (hcategory : q.categoryId = p.categoryId) (hsub : q.subcategoryId = p.subcategoryId) :
    Stands find q cat := by
  refine ⟨?_, h.root, hsection.trans h.section_, fun id hid => ?_⟩
  · rw [hcategory, h.category]
  · exact h.subcategory id (hsub ▸ hid)

theorem Placed.sited (h : Placed s p) : Sited s p := by
  obtain ⟨cat, hcat, hroot, hsection, hsub⟩ := h
  refine ⟨cat, (category?_some.mp hcat).1, hroot, hsection, fun id hid => ?_⟩
  obtain ⟨sub, hlive, hparent⟩ := hsub id hid
  exact ⟨sub, (category?_some.mp hlive).1, hparent⟩

/-- The sub-category, when set, is not deleted. -/
def subcategoryLives (s : Catalogue) (p : CatalogueProduct) : Bool :=
  p.subcategoryId.all fun id => (s.category? id).isSome

theorem Sited.placed_iff (h : Sited s p) (hcat : (s.category? p.categoryId).isSome) :
    Placed s p ↔ subcategoryLives s p = true := by
  obtain ⟨cat, hfound, hroot, hsection, hsub⟩ := h
  constructor
  · rintro ⟨cat', hplaced⟩
    cases hid : p.subcategoryId with
    | none => simp [subcategoryLives, hid]
    | some id =>
        obtain ⟨sub, hsome, -⟩ := hplaced.subcategory id hid
        simp [subcategoryLives, hid, hsome]
  · intro hlives
    obtain ⟨cat', hcat'⟩ := Option.isSome_iff_exists.mp hcat
    obtain rfl := Option.some.inj ((category?_some.mp hcat').1.symm.trans hfound)
    refine ⟨cat', hcat', hroot, hsection, fun id hid => ?_⟩
    obtain ⟨sub, hrow, hparent⟩ := hsub id hid
    simp only [subcategoryLives, hid, Option.all_some] at hlives
    obtain ⟨sub', hsub'⟩ := Option.isSome_iff_exists.mp hlives
    obtain rfl := Option.some.inj ((category?_some.mp hsub').1.symm.trans hrow)
    exact ⟨sub', hsub', hparent⟩

theorem placement_ok {categoryId : CategoryId} {subcategoryId : Option CategoryId}
    {place : Placement} (h : ProductGuards.placement s categoryId subcategoryId = .ok place)
    (hp : p.sectionId = place.sectionId ∧ p.categoryId = place.categoryId ∧
      p.subcategoryId = place.subcategoryId) : Placed s p := by
  unfold ProductGuards.placement at h
  cases hcat : s.category? categoryId with
  | none => simp [hcat] at h
  | some cat =>
      have hkey : cat.id = categoryId := Rows.key_of_lookup (category?_some.mp hcat).1
      simp only [hcat] at h
      split at h
      · cases h
      rename_i hroot
      have hroot : cat.parentId = none := by simpa using hroot
      cases hsub : subcategoryId with
      | none =>
          simp only [hsub] at h
          obtain rfl := Except.ok.inj h
          obtain ⟨hsection, hc, hs⟩ := hp
          exact ⟨cat, by rw [hc, hkey, hcat], hroot, hsection, fun id hid => by simp [hs] at hid⟩
      | some id =>
          simp only [hsub] at h
          cases hfound : s.category? id with
          | none => simp [hfound] at h
          | some sub =>
              simp only [hfound] at h
              split at h
              · cases h
              rename_i hparent
              obtain rfl := Except.ok.inj h
              obtain ⟨hsection, hc, hs⟩ := hp
              refine ⟨cat, by rw [hc, hkey, hcat], hroot, hsection, fun id' hid => ?_⟩
              obtain rfl : id = id' := Option.some.inj (hs.symm.trans hid)
              exact ⟨sub, hfound, not_not.mp hparent⟩

/-- An update either places the product anew or leaves it where it stands. -/
theorem place_placed {cur placed : CatalogueProduct} {dto : UpdateCatalogueProduct}
    (hcur : Placed s cur) (h : ProductAdmin.place s cur dto = .ok placed) :
    Placed s placed ∧ placed.id = cur.id := by
  unfold ProductAdmin.place at h
  split at h
  · obtain ⟨place, hplace, h⟩ := Result.bind_ok.mp h
    obtain rfl := Except.ok.inj h
    exact ⟨placement_ok hplace ⟨rfl, rfl, rfl⟩, rfl⟩
  · obtain rfl := Except.ok.inj h
    exact ⟨hcur, rfl⟩

/-! ### The invariant -/

structure CatalogueInv (s : Catalogue) : Prop where
  categoryIds : s.categories.map (·.id) = List.range s.categories.length
  productIds : s.products.map (·.id) = List.range s.products.length
  sited : ∀ p ∈ s.products, Sited s p

/-- A shop before its first category. -/
structure Catalogue.New (s : Catalogue) : Prop where
  categories : s.categories = []
  products : s.products = []

theorem Catalogue.New.inv (h : s.New) : CatalogueInv s where
  categoryIds := by simp [h.categories]
  productIds := by simp [h.products]
  sited := by simp [h.products]

theorem Catalogue.New.placed (h : s.New) : AllPlaced s := by simp [AllPlaced, h.products]

theorem CatalogueInv.categories_nodup (h : CatalogueInv s) : (s.categories.map (·.id)).Nodup := by
  rw [h.categoryIds]
  exact List.nodup_range

theorem CatalogueInv.products_nodup (h : CatalogueInv s) : (s.products.map (·.id)).Nodup := by
  rw [h.productIds]
  exact List.nodup_range

/-- The result of a call that keeps the catalogue in order. -/
structure InOrder (t : Catalogue) : Prop where
  inv : CatalogueInv t
  placed : AllPlaced t

/-! ### Product calls -/

section products

variable (hi : CatalogueInv s) (hs : AllPlaced s)

include hi hs in
theorem insert_inOrder (h : ProductAdmin.insert s p = .ok t) (hid : p.id = s.products.length)
    (hp : Placed s p) : InOrder t := by
  obtain ⟨-, -, h⟩ := Result.bind_ok.mp h
  obtain rfl := Except.ok.inj h
  refine ⟨⟨hi.categoryIds, ?_, fun q hq => ?_⟩, fun q hq hlive => ?_⟩
  · rw [List.map_append, hi.productIds, List.length_append, List.length_singleton, List.range_succ,
      List.map_singleton, hid]
  · rcases List.mem_append.mp hq with hq | hq
    · exact hi.sited q hq
    · rw [List.mem_singleton.mp hq]
      exact hp.sited
  · rcases List.mem_append.mp hq with hq | hq
    · exact hs q hq hlive
    · rw [List.mem_singleton.mp hq]
      exact hp

include hi in
/-- Rows are rewritten, each to one that stands where the categories allow. -/
theorem map_inOrder {f : CatalogueProduct → CatalogueProduct}
    (hid : ∀ q ∈ s.products, (f q).id = q.id)
    (hf : ∀ q ∈ s.products, Sited s (f q) ∧ ((f q).deletedAt = none → Placed s (f q))) :
    InOrder { s with products := s.products.map f } := by
  refine ⟨⟨hi.categoryIds, ?_, fun q hq => ?_⟩, fun q hq hlive => ?_⟩
  · rw [List.map_map, List.length_map, ← hi.productIds]
    exact List.map_congr_left hid
  · obtain ⟨r, hr, rfl⟩ := List.mem_map.mp hq
    exact (hf r hr).1
  · obtain ⟨r, hr, rfl⟩ := List.mem_map.mp hq
    exact (hf r hr).2 hlive

include hi hs

theorem create_inOrder {dto : CreateCatalogueProduct} {slug sku : String} {now : Instant}
    (h : ProductAdmin.create s dto slug sku now = .ok t) : InOrder t := by
  obtain ⟨place, hplace, h⟩ := Result.bind_ok.mp h
  obtain ⟨-, -, h⟩ := Result.bind_ok.mp h
  obtain ⟨-, -, h⟩ := Result.bind_ok.mp h
  exact insert_inOrder hi hs h rfl (placement_ok hplace ⟨rfl, rfl, rfl⟩)

theorem duplicate_inOrder {id : ProductId} {slug sku : String}
    (h : ProductAdmin.duplicate s id slug sku = .ok t) : InOrder t := by
  unfold ProductAdmin.duplicate at h
  split at h
  · cases h
  rename_i src hsrc
  obtain ⟨hrow, hlive⟩ := product?_some.mp hsrc
  obtain ⟨cat, hstands⟩ := hs src (Rows.mem_of_lookup hrow) hlive
  exact insert_inOrder hi hs h rfl ⟨cat, hstands.of_columns rfl rfl rfl⟩

theorem update_inOrder {id : ProductId} {dto : UpdateCatalogueProduct} {now : Instant}
    (h : ProductAdmin.update s id dto now = .ok t) : InOrder t := by
  unfold ProductAdmin.update at h
  split at h
  · cases h
  rename_i cur hcur
  obtain ⟨hrow, hlive⟩ := product?_some.mp hcur
  split at h
  · cases h
  obtain ⟨placed, hplace, h⟩ := Result.bind_ok.mp h
  obtain ⟨compareAtPrice, -, h⟩ := Result.bind_ok.mp h
  obtain ⟨-, -, h⟩ := Result.bind_ok.mp h
  obtain ⟨-, -, h⟩ := Result.bind_ok.mp h
  obtain rfl := Except.ok.inj h
  obtain ⟨hplaced, hid⟩ := place_placed (hs cur (Rows.mem_of_lookup hrow) hlive) hplace
  obtain ⟨cat, hstands⟩ := hplaced
  refine map_inOrder hi (fun q hq => ?_) fun q hq => ?_
  · split
    · rename_i hq
      rw [hq, ← Rows.key_of_lookup hrow]
      exact hid
    · rfl
  · split
    · exact ⟨Placed.sited ⟨cat, hstands.of_columns rfl rfl rfl⟩,
        fun _ => ⟨cat, hstands.of_columns rfl rfl rfl⟩⟩
    · exact ⟨hi.sited q hq, hs q hq⟩

/-- A deleted product is asked for nothing. -/
theorem deleted_inOrder (c : CatalogueProduct → Prop) [DecidablePred c] (now : Instant) :
    InOrder { s with
      products := s.products.map fun q =>
        if c q then { q with deletedAt := some now, version := q.version + 1 } else q } := by
  refine map_inOrder hi (fun q _ => ?_) fun q hq => ?_
  · split
    · rfl
    · rfl
  · split
    · obtain ⟨cat, hstands⟩ := hi.sited q hq
      exact ⟨⟨cat, hstands.of_columns rfl rfl rfl⟩, fun hlive => by simp at hlive⟩
    · exact ⟨hi.sited q hq, hs q hq⟩

theorem remove_inOrder {id : ProductId} {now : Instant}
    (h : ProductAdmin.remove s id now = .ok t) : InOrder t := by
  unfold ProductAdmin.remove at h
  split at h
  · cases h
  · obtain rfl := Except.ok.inj h
    exact deleted_inOrder hi hs (fun q => q.id = id) now

theorem bulkRemove_inOrder {ids : List ProductId} {now : Instant}
    (h : ProductBulk.remove s ids now = .ok t) : InOrder t := by
  obtain ⟨-, -, h⟩ := Result.bind_ok.mp h
  obtain rfl := Except.ok.inj h
  exact deleted_inOrder hi hs (fun q => q.id ∈ ids) now

theorem bulkMove_inOrder {ids : List ProductId} {categoryId : CategoryId}
    {subcategoryId : Option CategoryId}
    (h : ProductBulk.move s ids categoryId subcategoryId = .ok t) : InOrder t := by
  obtain ⟨place, hplace, h⟩ := Result.bind_ok.mp h
  obtain ⟨-, -, h⟩ := Result.bind_ok.mp h
  obtain rfl := Except.ok.inj h
  refine map_inOrder hi (fun q _ => ?_) fun q hq => ?_
  · split
    · rfl
    · rfl
  · split
    · have hnext : Placed s { q with
          sectionId := place.sectionId, categoryId := place.categoryId,
          subcategoryId := place.subcategoryId, version := q.version + 1 } :=
        placement_ok hplace ⟨rfl, rfl, rfl⟩
      exact ⟨hnext.sited, fun _ => hnext⟩
    · exact ⟨hi.sited q hq, hs q hq⟩

/-- **A product comes back to its category; its sub-category may be gone.** -/
theorem restore_inOrder_iff {id : ProductId} (h : ProductAdmin.restore s id = .ok t) :
    ∃ q, Rows.lookup CatalogueProduct.id id s.products = some q ∧ CatalogueInv t ∧
      (AllPlaced t ↔ subcategoryLives s q = true) := by
  unfold ProductAdmin.restore at h
  split at h
  · cases h
  rename_i q hq
  obtain ⟨hrow, -⟩ := Option.filter_eq_some_iff.mp hq
  split at h
  · cases h
  rename_i hcategory
  obtain rfl := Except.ok.inj h
  have hstanding := hi.sited q (Rows.mem_of_lookup hrow)
  have hcat : (s.category? q.categoryId).isSome := by
    obtain ⟨cat, hcat, -⟩ := hstanding
    have hdel : cat.deletedAt = none := by simpa [hcat] using hcategory
    rw [category?_some.mpr ⟨hcat, hdel⟩]
    rfl
  have hback : Placed s { q with deletedAt := none, version := q.version + 1 } ↔
      subcategoryLives s q = true := by
    have hagain : Sited s { q with deletedAt := none, version := q.version + 1 } := by
      obtain ⟨cat, hstands⟩ := hstanding
      exact ⟨cat, hstands.of_columns rfl rfl rfl⟩
    exact hagain.placed_iff hcat
  have hinv : CatalogueInv (s.modifyProduct id fun p =>
      { p with deletedAt := none, version := p.version + 1 }) := by
    refine ⟨hi.categoryIds, ?_, fun x hx => ?_⟩
    · simp only [Catalogue.modifyProduct, Rows.length_modify]
      rw [← hi.productIds]
      exact Rows.map_modify fun _ => rfl
    · obtain ⟨r, hr, rfl⟩ := List.mem_map.mp hx
      obtain ⟨cat, hstands⟩ := hi.sited r hr
      split
      · exact ⟨cat, hstands.of_columns rfl rfl rfl⟩
      · exact ⟨cat, hstands⟩
  refine ⟨q, hrow, hinv, ?_⟩
  rw [← hback]
  constructor
  · intro hall
    refine hall _ (List.mem_map.mpr ⟨q, Rows.mem_of_lookup hrow, ?_⟩) rfl
    rw [if_pos (Rows.key_of_lookup hrow)]
  · intro hplaced x hx hlive
    rcases Rows.mem_modify hi.products_nodup hrow hx with rfl | ⟨hx, -⟩
    · exact hplaced
    · exact hs x hx hlive

end products

/-! ### Category calls -/

section categories

/-- No category moves, and only the ones named are deleted. -/
structure KeepsRows (ids : List CategoryId) (s t : Catalogue) : Prop where
  products : t.products = s.products
  categoryIds : t.categories.map (·.id) = List.range t.categories.length
  rows : ∀ id cat, Rows.lookup Category.id id s.categories = some cat →
    ∃ cat', Rows.lookup Category.id id t.categories = some cat' ∧ cat'.parentId = cat.parentId ∧
      cat'.sectionId = cat.sectionId ∧ (id ∉ ids → cat'.deletedAt = cat.deletedAt)

variable {ids : List CategoryId} {u : Catalogue}

theorem KeepsRows.trans (hst : KeepsRows ids s t) (htu : KeepsRows ids t u) :
    KeepsRows ids s u := by
  refine ⟨htu.products.trans hst.products, htu.categoryIds, fun id cat hcat => ?_⟩
  obtain ⟨cat', hcat', hparent', hsection', hlive'⟩ := hst.rows id cat hcat
  obtain ⟨cat'', hcat'', hparent'', hsection'', hlive''⟩ := htu.rows id cat' hcat'
  exact ⟨cat'', hcat'', hparent''.trans hparent', hsection''.trans hsection',
    fun hid => (hlive'' hid).trans (hlive' hid)⟩

/-- A category keeps its id, so what stands in it stands in it still. -/
theorem Stands.keeps {find find' : CategoryId → Option Category} {cat : Category}
    (h : Stands find p cat) (hkey : ∀ id c, find id = some c → c.id = id)
    (hkey' : ∀ id c, find' id = some c → c.id = id)
    (hfind : ∀ id c, (id = p.categoryId ∨ p.subcategoryId = some id) → find id = some c →
      ∃ c', find' id = some c' ∧ c'.parentId = c.parentId ∧ c'.sectionId = c.sectionId) :
    ∃ cat', Stands find' p cat' := by
  obtain ⟨cat', hcat', hparent, hsection⟩ := hfind _ cat (.inl rfl) h.category
  refine ⟨cat', hcat', hparent.trans h.root, h.section_.trans hsection.symm, fun id hid => ?_⟩
  obtain ⟨sub, hsub, hof⟩ := h.subcategory id hid
  obtain ⟨sub', hsub', hparent', -⟩ := hfind id sub (.inr hid) hsub
  refine ⟨sub', hsub', ?_⟩
  rw [hparent', hof, hkey _ cat h.category, hkey' _ cat' hcat']

theorem KeepsRows.inOrder (h : KeepsRows ids s t) (hi : CatalogueInv s) (hs : AllPlaced s)
    (hspares : ∀ q ∈ s.products, q.deletedAt = none → q.categoryId ∉ ids ∧
      ∀ id, q.subcategoryId = some id → id ∉ ids) : InOrder t := by
  have hkey : ∀ (r : Catalogue) id c, Rows.lookup Category.id id r.categories = some c → c.id = id :=
    fun r id c hc => Rows.key_of_lookup hc
  refine ⟨⟨h.categoryIds, ?_, fun q hq => ?_⟩, fun q hq hlive => ?_⟩
  · rw [h.products]
    exact hi.productIds
  · rw [h.products] at hq
    obtain ⟨cat, hstands⟩ := hi.sited q hq
    refine hstands.keeps (hkey s) (hkey t) fun id c _ hc => ?_
    obtain ⟨c', hc', hparent, hsection, -⟩ := h.rows id c hc
    exact ⟨c', hc', hparent, hsection⟩
  · rw [h.products] at hq
    obtain ⟨cat, hstands⟩ := hs q hq hlive
    obtain ⟨hcategory, hsub⟩ := hspares q hq hlive
    refine hstands.keeps (fun id c hc => hkey s id c (category?_some.mp hc).1)
      (fun id c hc => hkey t id c (category?_some.mp hc).1) fun id c hid hc => ?_
    obtain ⟨hrow, hdel⟩ := category?_some.mp hc
    obtain ⟨c', hc', hparent, hsection, hsame⟩ := h.rows id c hrow
    have hout : id ∉ ids := by
      rcases hid with rfl | hid
      · exact hcategory
      · exact hsub id hid
    exact ⟨c', category?_some.mpr ⟨hc', (hsame hout).trans hdel⟩, hparent, hsection⟩

/-- Nothing is deleted. -/
theorem KeepsRows.inOrder_nil (h : KeepsRows [] s t) (hi : CatalogueInv s) (hs : AllPlaced s) :
    InOrder t :=
  h.inOrder hi hs fun q _ _ => by simp

/-- One row is rewritten where it stands. -/
theorem keepsRows_modify (hids : s.categories.map (·.id) = List.range s.categories.length)
    {id : CategoryId} {f : Category → Category}
    (hf : ∀ c ∈ s.categories, c.id = id → (f c).id = c.id ∧ (f c).parentId = c.parentId ∧
      (f c).sectionId = c.sectionId ∧ (id ∉ ids → (f c).deletedAt = c.deletedAt)) :
    KeepsRows ids s { s with categories := Rows.modify Category.id id f s.categories } := by
  have hsame : (Rows.modify Category.id id f s.categories).map (·.id) = s.categories.map (·.id) :=
    Rows.map_modify_of_mem fun c hc hid => (hf c hc hid).1
  have hrange : (Rows.modify Category.id id f s.categories).map (·.id) =
      List.range (Rows.modify Category.id id f s.categories).length := by
    rw [hsame, Rows.length_modify, hids]
  refine ⟨rfl, hrange, fun j cat hcat => ?_⟩
  have hnd : ((Rows.modify Category.id id f s.categories).map (·.id)).Nodup := by
    rw [hrange]
    exact List.nodup_range
  have hkey : cat.id = j := Rows.key_of_lookup hcat
  by_cases hid : cat.id = id
  · have hmem : f cat ∈ Rows.modify Category.id id f s.categories :=
      List.mem_map.mpr ⟨cat, Rows.mem_of_lookup hcat, if_pos hid⟩
    obtain ⟨hfid, hparent, hsection, hlive⟩ := hf cat (Rows.mem_of_lookup hcat) hid
    have hfound := Rows.lookup_of_mem hnd hmem
    rw [hfid, hkey] at hfound
    refine ⟨f cat, hfound, hparent, hsection, fun hout => hlive ?_⟩
    rwa [← hid, hkey]
  · have hmem : cat ∈ Rows.modify Category.id id f s.categories :=
      List.mem_map.mpr ⟨cat, Rows.mem_of_lookup hcat, if_neg hid⟩
    have hfound := Rows.lookup_of_mem hnd hmem
    rw [hkey] at hfound
    exact ⟨cat, hfound, rfl, rfl, fun _ => rfl⟩

theorem keepsRows_append (hids : s.categories.map (·.id) = List.range s.categories.length)
    {cat : Category} (hid : cat.id = s.categories.length) :
    KeepsRows ids s { s with categories := s.categories ++ [cat] } := by
  refine ⟨rfl, ?_, fun id c hc => ⟨c, Rows.lookup_append_of_some hc, rfl, rfl, fun _ => rfl⟩⟩
  rw [List.map_append, hids, List.length_append, List.length_singleton, List.range_succ,
    List.map_singleton, hid]

theorem park_keepsRows {now : Instant} {c : Category}
    (hids : s.categories.map (·.id) = List.range s.categories.length) (hc : c.id ∈ ids)
    (h : CategoryAdmin.park now s c = .ok t) : KeepsRows ids s t := by
  unfold CategoryAdmin.park at h
  simp only at h
  split at h
  · obtain rfl := Except.ok.inj h
    exact keepsRows_modify hids fun r _ _ => ⟨rfl, rfl, rfl, fun hout => absurd hc hout⟩
  · cases h

theorem parks_keepRows {now : Instant} {cs : List Category}
    (hids : s.categories.map (·.id) = List.range s.categories.length) (hcs : ∀ c ∈ cs, c.id ∈ ids)
    (h : cs.foldlM (CategoryAdmin.park now) s = .ok t) : KeepsRows ids s t := by
  induction cs generalizing s with
  | nil =>
      obtain rfl := Result.foldlM_nil_ok.mp h
      exact ⟨rfl, hids, fun _ cat hcat => ⟨cat, hcat, rfl, rfl, fun _ => rfl⟩⟩
  | cons c rest ih =>
      obtain ⟨u, hpark, hrest⟩ := Result.foldlM_cons_ok.mp h
      have hfirst := park_keepsRows hids (hcs c (List.mem_cons_self ..)) hpark
      exact hfirst.trans
        (ih hfirst.categoryIds (fun x hx => hcs x (List.mem_cons_of_mem _ hx)) hrest)

/-- **A category goes only when no live product is in it or in a sub-category that goes with it.** -/
theorem removeCategory_inOrder (hi : CatalogueInv s) (hs : AllPlaced s) {id : CategoryId}
    {now : Instant} (h : CategoryAdmin.remove s id now = .ok t) : InOrder t := by
  unfold CategoryAdmin.remove at h
  split at h
  · cases h
  rename_i cur hcur
  simp only at h
  split at h
  · cases h
  rename_i hempty
  generalize s.categories.filter (fun c => c.parentId = some id && c.deletedAt.isNone) = children
    at h hempty
  have hkey : cur.id = id := Rows.key_of_lookup (category?_some.mp hcur).1
  have hkeeps : KeepsRows (id :: children.map (·.id)) s t := by
    refine parks_keepRows hi.categoryIds (fun c hc => ?_) h
    rcases List.mem_cons.mp hc with rfl | hc
    · rw [hkey]
      exact List.mem_cons_self ..
    · exact List.mem_cons_of_mem _ (List.mem_map_of_mem hc)
  refine hkeeps.inOrder hi hs fun q hq hlive => ?_
  have hnone := List.eq_nil_of_length_eq_zero (Nat.eq_zero_of_not_pos hempty)
  have hout := List.filter_eq_nil_iff.mp hnone q hq
  simp only [hlive, Option.isNone_none, Bool.true_and, Bool.or_eq_true, decide_eq_true_eq,
    not_or] at hout
  refine ⟨hout.1, fun sub hsub hmem => hout.2 ?_⟩
  rw [hsub, Option.any_some]
  exact decide_eq_true hmem

theorem updateCategory_inOrder {sameName : String → String → Bool} (hi : CatalogueInv s)
    (hs : AllPlaced s) {id : CategoryId} {dto : UpdateCategoryDto}
    (h : CategoryAdmin.update sameName s id dto = .ok t) : InOrder t := by
  unfold CategoryAdmin.update at h
  split at h
  · cases h
  rename_i cur hcur
  obtain ⟨hrow, hdel⟩ := category?_some.mp hcur
  have hdone : ∀ next : Category, next.id = cur.id → next.parentId = cur.parentId →
      next.sectionId = cur.sectionId → next.deletedAt = cur.deletedAt →
      InOrder { s with categories := Rows.modify Category.id id (fun _ => next) s.categories } := by
    intro next hid hparent hsection hsame
    have hkeeps : KeepsRows [] s
        { s with categories := Rows.modify Category.id id (fun _ => next) s.categories } := by
      refine keepsRows_modify hi.categoryIds fun c hc hcid => ?_
      have hfound := Rows.lookup_of_mem hi.categories_nodup hc
      rw [hcid, hrow] at hfound
      obtain rfl := Option.some.inj hfound
      exact ⟨hid, hparent, hsection, fun _ => hsame⟩
    exact hkeeps.inOrder_nil hi hs
  simp only at h
  split at h
  · obtain ⟨-, -, h⟩ := Result.bind_ok.mp h
    split at h
    · obtain rfl := Except.ok.inj h
      exact hdone _ rfl rfl rfl rfl
    · cases h
  · split at h
    · obtain rfl := Except.ok.inj h
      exact hdone _ rfl rfl rfl rfl
    · cases h

theorem createCategory_inOrder {sameName : String → String → Bool} (hi : CatalogueInv s)
    (hs : AllPlaced s) {dto : CreateCategoryDto} {slug : String}
    (h : CategoryAdmin.create sameName s dto slug = .ok t) : InOrder t := by
  unfold CategoryAdmin.create at h
  split at h
  · cases h
  obtain ⟨-, -, h⟩ := Result.bind_ok.mp h
  obtain ⟨-, -, h⟩ := Result.bind_ok.mp h
  simp only at h
  split at h
  · obtain rfl := Except.ok.inj h
    exact KeepsRows.inOrder_nil (keepsRows_append hi.categoryIds rfl) hi hs
  · cases h

end categories

/-! ### The result -/

/-- A product is restored only while its sub-category, when it has one, is not deleted. -/
def restoreSpares (s : Catalogue) : CatalogueAction → Bool
  | .restore id => (Rows.lookup CatalogueProduct.id id s.products).all (subcategoryLives s)
  | _ => true

theorem catalogueStep_placed {sameName : String → String → Bool} {a : CatalogueAction}
    (hi : CatalogueInv s) (hs : AllPlaced s) (hstep : catalogueStep sameName s a = some t) :
    CatalogueInv t ∧ (AllPlaced t ↔ restoreSpares s a = true) := by
  have hcall := Result.toOption_some.mp hstep
  have hkept : InOrder t → restoreSpares s a = true →
      CatalogueInv t ∧ (AllPlaced t ↔ restoreSpares s a = true) :=
    fun h hspares => ⟨h.inv, ⟨fun _ => hspares, fun _ => h.placed⟩⟩
  cases a with
  | create dto slug sku now => exact hkept (create_inOrder hi hs hcall) rfl
  | update id dto now => exact hkept (update_inOrder hi hs hcall) rfl
  | duplicate id slug sku => exact hkept (duplicate_inOrder hi hs hcall) rfl
  | remove id now => exact hkept (remove_inOrder hi hs hcall) rfl
  | restore id =>
      obtain ⟨q, hrow, hinv, hiff⟩ := restore_inOrder_iff hi hs hcall
      rw [restoreSpares, hrow, Option.all_some]
      exact ⟨hinv, hiff⟩
  | bulkMove ids categoryId subcategoryId => exact hkept (bulkMove_inOrder hi hs hcall) rfl
  | bulkRemove ids now => exact hkept (bulkRemove_inOrder hi hs hcall) rfl
  | createCategory dto slug => exact hkept (createCategory_inOrder hi hs hcall) rfl
  | updateCategory id dto => exact hkept (updateCategory_inOrder hi hs hcall) rfl
  | removeCategory id now => exact hkept (removeCategory_inOrder hi hs hcall) rfl

/-- **Every product that is not deleted is placed in every state of a run, exactly when the run
restores no product whose sub-category is deleted.** -/
theorem products_placed_iff (sameName : String → String → Bool) (s t : Catalogue)
    (as : List CatalogueAction) (h : s.New)
    (hrun : Machine.runFrom (catalogueStep sameName) s as = some t) :
    Machine.Along (catalogueStep sameName) AllPlaced s as ↔
      Machine.GuardedRun (catalogueStep sameName) (fun s a => restoreSpares s a = true) s as :=
  Machine.along_iff_guarded (fun _ _ _ hi hs hstep => catalogueStep_placed hi hs hstep) as s t h.inv
    h.placed hrun

/-! ### A run -/

/-- A shop with one section and nothing in it. -/
def emptyShop : Catalogue where
  sections := [{ id := 1, code := "book" }]

theorem emptyShop_new : emptyShop.New := ⟨rfl, rfl⟩

def guideBook : CreateCatalogueProduct where
  categoryId := 0
  subcategoryId := some 1
  title := "পদার্থবিজ্ঞান গাইড"
  price := 350

/-- A book is put in a sub-category and deleted. -/
def shelvedAndDeleted : List CatalogueAction :=
  [.createCategory { sectionId := 1, nameBn := "নবম-দশম" } "নবম-দশম",
   .createCategory { sectionId := 1, parentId := some 0, nameBn := "গাইড" } "গাইড",
   .create guideBook "গাইড" "BK-1" 1, .remove 0 2]

/-- Restored at once, it stands where it stood. -/
theorem products_placed_iff_restored : ∃ t, Machine.runFrom (catalogueStep (· = ·)) emptyShop
      (shelvedAndDeleted ++ [.restore 0]) = some t ∧
    Machine.Along (catalogueStep (· = ·)) AllPlaced emptyShop (shelvedAndDeleted ++ [.restore 0]) := by
  have hruns : (Machine.runFrom (catalogueStep (· = ·)) emptyShop
      (shelvedAndDeleted ++ [.restore 0])).isSome = true := by decide +kernel
  have hguard : Machine.GuardedRun (catalogueStep (· = ·)) (fun s a => restoreSpares s a = true)
      emptyShop (shelvedAndDeleted ++ [.restore 0]) := by decide +kernel
  obtain ⟨t, ht⟩ := Option.isSome_iff_exists.mp hruns
  exact ⟨t, ht, (products_placed_iff _ _ _ _ emptyShop_new ht).mpr hguard⟩

/-- The sub-category is removed while the book is deleted, and the book comes back to it. -/
theorem restored_without_subcategory : emptyShop.New ∧
    ∃ t, Machine.runFrom (catalogueStep (· = ·)) emptyShop
      (shelvedAndDeleted ++ [.removeCategory 1 3, .restore 0]) = some t ∧ ¬ AllPlaced t := by
  have hruns : (Machine.runFrom (catalogueStep (· = ·)) emptyShop
      (shelvedAndDeleted ++ [.removeCategory 1 3, .restore 0])).any (fun t =>
        t.products.any fun p => p.deletedAt.isNone && decide (p.subcategoryId = some 1) &&
          (t.category? 1).isNone) = true := by decide +kernel
  obtain ⟨t, ht, hany⟩ := (Option.any_eq_true _ _).mp hruns
  obtain ⟨p, hp, hcond⟩ := List.any_eq_true.mp hany
  simp only [Bool.and_eq_true, decide_eq_true_eq, Option.isNone_iff_eq_none] at hcond
  refine ⟨emptyShop_new, t, ht, fun hall => ?_⟩
  obtain ⟨cat, hstands⟩ := hall p hp hcond.1.1
  obtain ⟨sub, hsub, -⟩ := hstands.subcategory 1 hcond.1.2
  rw [hcond.2] at hsub
  cases hsub

end BookHouse
