/-
Struck prices stay above selling prices.

Four of the five writers see to it themselves: a new product and an edit that names a struck
price are refused, an edit that does not drops it, the bulk edit of prices drops it, and the
bulk discount computes one above the price or none.  `restockLot` writes a price and does not
look at the struck one.  So a run keeps the relation as long as each of its restocks that
changes a price stays below what is struck; and in such a run the CHECK
`products_compare_gte_price` refuses nothing.
-/
import BookHouse.Catalog.PriceDesk
import BookHouse.Proofs.Holds
import BookHouse.Proofs.Money

namespace BookHouse

open Rounding Result

/-- The refusal of the CHECK on the struck price. -/
def belowPrice : Failure := .check "products_compare_gte_price"

/-- Every struck price is above its price. -/
def PriceDesk.Struck (s : PriceDesk) : Prop :=
  ∀ p ∈ s.catalogue.products, ∀ c, p.compareAtPrice = some c → p.price < c

/-- A call is not refused by the CHECK, and leaves struck prices above prices. -/
def PriceCall.Keeps (s : PriceDesk) (c : PriceCall) : Prop :=
  s.call c ≠ .error belowPrice ∧ (s.after c).Struck

/-- A restock leaves the product at a price below what is struck. -/
def PriceCall.staysBelow (s : PriceDesk) : PriceCall → Prop
  | .restockLot id dto _ =>
      ∀ p, s.catalogue.product? id = some p →
        ∀ c, p.compareAtPrice = some c → dto.salePrice.getD p.price < c
  | _ => True

/-! ### The amounts of a row -/

/-- A row whose amounts fit their columns, with the struck price above the price. -/
structure CatalogueProduct.Priced (p : CatalogueProduct) : Prop where
  price : Paisa p.price
  compareAt : ∀ c, p.compareAtPrice = some c → Paisa c ∧ p.price < c

theorem CatalogueProduct.Priced.column {p : CatalogueProduct} (h : p.Priced) :
    (PriceDesk.column p).price = p.price ∧
      (PriceDesk.column p).compareAtPrice = p.compareAtPrice := by
  refine ⟨round2_of_paisa h.price, ?_⟩
  cases hc : p.compareAtPrice with
  | none => simp [PriceDesk.column, hc]
  | some a => simp [PriceDesk.column, hc, round2_of_paisa (h.compareAt a hc).1]

/-- A row with the same prices. -/
theorem CatalogueProduct.Priced.of_same {p q : CatalogueProduct} (h : p.Priced)
    (hprice : q.price = p.price) (hcompare : q.compareAtPrice = p.compareAtPrice) : q.Priced := by
  constructor
  · rw [hprice]
    exact h.price
  · rw [hprice, hcompare]
    exact h.compareAt

/-- Products that are numbered in order, each with its struck price above its price. -/
structure Catalogue.AllPriced (c : Catalogue) : Prop where
  ids : c.products.map (·.id) = List.range c.products.length
  priced : ∀ p ∈ c.products, p.Priced

namespace PriceDesk

variable {s : PriceDesk} {p : CatalogueProduct} {c t : Catalogue}

theorem check_spares (h : p.Priced) : Spares belowPrice (fun _ => True) (check p) := by
  unfold check
  split
  · simp [Spares, belowPrice]
  split
  · rename_i hbelow
    obtain ⟨a, ha, hlt⟩ := (Option.any_eq_true _ _).mp hbelow
    exact absurd (of_decide_eq_true hlt) (not_lt.mpr (h.compareAt a ha).2.le)
  split
  · simp [Spares, belowPrice]
  split
  · simp [Spares, belowPrice]
  · trivial

/-- Rows with the same ids and prices. -/
theorem allPriced_map {f : CatalogueProduct → CatalogueProduct} (h : c.AllPriced)
    (hf : ∀ p ∈ c.products, (f p).id = p.id ∧ (f p).Priced) :
    Catalogue.AllPriced { c with products := c.products.map f } := by
  constructor
  · rw [List.length_map, ← h.ids, List.map_map]
    exact List.map_congr_left fun p hp => (hf p hp).1
  · intro q hq
    obtain ⟨p, hp, rfl⟩ := List.mem_map.mp hq
    exact (hf p hp).2

/-- What is written is what was asked for, and the CHECK has nothing to say. -/
theorem written_spares (h : c.AllPriced) :
    Spares belowPrice (fun t => t.AllPriced ∧ t.products = c.products.map column) (written c) := by
  have hcolumns : ∀ p ∈ c.products, (column p).id = p.id ∧ (column p).Priced := by
    intro p hp
    obtain ⟨hprice, hcompare⟩ := (h.priced p hp).column
    exact ⟨rfl, (h.priced p hp).of_same hprice hcompare⟩
  unfold written
  have hchecks : Spares belowPrice (fun _ => True) ((c.products.map column).forM check) := by
    refine spares_forM _ fun q hq => ?_
    obtain ⟨p, hp, rfl⟩ := List.mem_map.mp hq
    exact check_spares (hcolumns p hp).2
  refine hchecks.bind fun _ _ => ?_
  exact ⟨allPriced_map h hcolumns, rfl⟩

theorem save_spares (h : c.AllPriced) : Spares belowPrice
    (fun t => t.catalogue.AllPriced ∧ t.catalogue.products = c.products.map column)
    (s.save c) := by
  unfold save
  exact (written_spares h).bind fun t ht => ht

theorem stocked_priced (h : s.catalogue.AllPriced) (store : Store) :
    (s.stocked store).catalogue.AllPriced :=
  allPriced_map h fun p hp => ⟨rfl, (h.priced p hp).of_same rfl rfl⟩

end PriceDesk

/-! ### The guards and the stock's writes -/

section guards

variable {c : Catalogue}

theorem placement_spares (categoryId : CategoryId) (subcategoryId : Option CategoryId) :
    Spares belowPrice (fun _ => True) (ProductGuards.placement c categoryId subcategoryId) := by
  unfold ProductGuards.placement
  split
  · simp [Spares, belowPrice]
  dsimp only
  split
  · simp [Spares, belowPrice]
  split
  · trivial
  split
  · simp [Spares, belowPrice]
  split
  · simp [Spares, belowPrice]
  · trivial

theorem compareAt_spares (price : Money) (struck : Option Money) :
    Spares belowPrice (fun _ => ∀ a, struck = some a → price < a)
      (ProductGuards.compareAt price struck) := by
  unfold ProductGuards.compareAt
  split
  · rename_i a
    split
    · rename_i hlt
      intro b hb
      exact Option.some.inj hb ▸ hlt
    · simp [Spares, belowPrice]
  · intro b hb
    cases hb

theorem relations_spares (publisherId brandId : Option ℕ) (authorIds mediaIds : List ℕ) :
    Spares belowPrice (fun _ => True)
      (ProductGuards.relations c publisherId brandId authorIds mediaIds) := by
  unfold ProductGuards.relations
  split
  · simp [Spares, belowPrice]
  split
  · simp [Spares, belowPrice]
  split
  · simp [Spares, belowPrice]
  split
  · simp [Spares, belowPrice]
  · trivial

theorem keysFree_spares (p : CatalogueProduct) :
    Spares belowPrice (fun _ => True) (ProductAdmin.keysFree c p) := by
  unfold ProductAdmin.keysFree
  split
  · simp [Spares, belowPrice]
  split
  · simp [Spares, belowPrice]
  · trivial

theorem insert_spares {p : CatalogueProduct} (h : c.AllPriced) (hid : p.id = c.products.length)
    (hp : p.Priced) : Spares belowPrice Catalogue.AllPriced (ProductAdmin.insert c p) := by
  unfold ProductAdmin.insert
  refine (keysFree_spares p).bind fun _ _ => ⟨?_, ?_⟩
  · show (c.products ++ [p]).map (·.id) = List.range (c.products ++ [p]).length
    rw [List.map_append, h.ids, List.map_singleton, hid, List.length_append,
      List.length_singleton, List.range_succ]
  · intro q hq
    rcases List.mem_append.mp hq with hq | hq
    · exact h.priced q hq
    · exact List.mem_singleton.mp hq ▸ hp

end guards

namespace Inventory

variable {s : Store} {p : ProductId} {ctx : StockContext}

theorem updateProduct_spares (cond : Product → Bool) (f : Product → Product) :
    Spares belowPrice (fun _ => True) (updateProduct s p cond f) := by
  unfold updateProduct
  split
  · trivial
  · rename_i row _
    have hcheck : Spares belowPrice (fun _ => True) (f row).check := by
      unfold Product.check
      split
      · simp [Spares, belowPrice]
      split
      · simp [Spares, belowPrice]
      · trivial
    exact hcheck.bind fun _ _ => trivial

theorem log_spares (row : Product) (type : StockMovementType) (dOn dRes : ℤ)
    (cost : Option Money) : Spares belowPrice (fun _ => True) (log s row type dOn dRes ctx cost) := by
  unfold log
  split
  · simp [Spares, belowPrice]
  split
  · simp [Spares, belowPrice]
  · trivial

theorem createLot_spares (source : LotSource) (qty : ℤ) (cost price : Option Money)
    (purchase : Option PurchaseId) (received : Option Instant) (now : Instant) :
    Spares belowPrice (fun _ => True) (createLot s p source qty cost price purchase received now) := by
  unfold createLot
  split
  · simp [Spares, belowPrice]
  split
  · simp [Spares, belowPrice]
  · trivial

/-- The stock's writes know nothing of struck prices. -/
theorem addBatch_spares (qty : ℤ) (batch : Batch) :
    Spares belowPrice (fun _ => True) (addBatch s p qty batch ctx) := by
  unfold addBatch
  split
  · simp [Spares, belowPrice]
  split
  · simp [Spares, belowPrice]
  refine (updateProduct_spares _ _).bind fun updated _ => ?_
  split
  · simp [Spares, belowPrice]
  · refine (log_spares _ _ _ _ _).bind fun _ _ => ?_
    exact (createLot_spares _ _ _ _ _ _ _).bind fun _ _ => trivial

theorem setOnHand_spares (onHand : ℤ) (type : Option StockMovementType) :
    Spares belowPrice (fun _ => True) (setOnHand s p onHand ctx type) := by
  unfold setOnHand
  split
  · simp [Spares, belowPrice]
  split
  · simp [Spares, belowPrice]
  dsimp only
  split
  · trivial
  split
  · simp [Spares, belowPrice]
  refine (updateProduct_spares _ _).bind fun updated _ => ?_
  split
  · simp [Spares, belowPrice]
  refine (log_spares _ _ _ _ _).bind fun t _ => ?_
  refine Spares.map (P := fun _ => True) ?_ fun _ _ => trivial
  split
  · exact createLot_spares _ _ _ _ _ _ _
  · trivial

end Inventory

/-! ### The calls -/

namespace PriceDesk

variable {s : PriceDesk} {c : Catalogue} {now : Instant}

theorem opening_spares {store : Store} (id : ProductId) (n : ℤ) :
    Spares belowPrice (fun _ => True) (StockWriter.setOnHand store id n { now } .opening) := by
  unfold StockWriter.setOnHand
  have hlock : Spares belowPrice (fun _ => True) (StockWriter.lock store id) := by
    unfold StockWriter.lock
    split
    · simp [Spares, belowPrice]
    · trivial
  refine hlock.bind fun cur _ => ?_
  split
  · trivial
  · exact (Inventory.setOnHand_spares _ _).bind fun _ _ => trivial

theorem create_spares (h : s.catalogue.AllPriced) (dto : CreatePricedProduct)
    (slug sku : String) :
    Spares belowPrice (fun t => t.catalogue.AllPriced) (s.create dto slug sku now) := by
  have hplaces : ∀ {v : Money}, PriceOk v → Paisa v := by
    intro v hv
    rw [← hv.places]
    exact round2_paisa v
  have hrow : Spares belowPrice Catalogue.AllPriced
      (ProductAdmin.create s.catalogue dto.toCreateCatalogueProduct slug sku now) := by
    unfold ProductAdmin.create
    refine (placement_spares _ _).bind fun place _ => ?_
    refine (compareAt_spares _ _).bind fun _ hstruck => ?_
    refine (relations_spares _ _ _ _).bind fun _ _ => ?_
    refine insert_spares h rfl ⟨hplaces dto.priceOk, fun a ha => ⟨?_, hstruck a ha⟩⟩
    exact hplaces (dto.compareAtOk a ha)
  unfold create
  refine hrow.bind fun c hc => (save_spares hc).bind fun s' hs' => ?_
  split
  · exact (opening_spares _ _).bind fun r _ => stocked_priced hs'.1 _
  · exact hs'.1

theorem place_spares {c : Catalogue} (cur : CatalogueProduct) (dto : UpdateCatalogueProduct) :
    Spares belowPrice (fun placed => placed.id = cur.id) (ProductAdmin.place c cur dto) := by
  unfold ProductAdmin.place
  split
  · exact (placement_spares _ _).bind fun _ _ => rfl
  · rfl

/-- The struck price of an edit is above the price it leaves. -/
theorem nextCompare_spares {cur : CatalogueProduct} (h : cur.Priced) (dto : UpdatePricedProduct)
    (price : Money) : Spares belowPrice
      (fun struck => ∀ a, struck = some a → Paisa a ∧ price < a)
      (ProductAdmin.nextCompare cur dto.toUpdateCatalogueProduct price) := by
  unfold ProductAdmin.nextCompare
  split
  · rename_i struck hdto
    refine (compareAt_spares price struck).bind fun _ habove a ha => ⟨?_, habove a ha⟩
    obtain rfl := ha
    rw [← (dto.compareAtOk a hdto).places]
    exact round2_paisa a
  · intro a ha
    obtain ⟨hcur, hlt⟩ := Option.filter_eq_some_iff.mp ha
    exact ⟨(h.compareAt a hcur).1, of_decide_eq_true hlt⟩

theorem update_spares (h : s.catalogue.AllPriced) (id : ProductId) (dto : UpdatePricedProduct) :
    Spares belowPrice (fun t => t.catalogue.AllPriced) (s.update id dto now) := by
  have hrow : Spares belowPrice Catalogue.AllPriced
      (ProductAdmin.update s.catalogue id dto.toUpdateCatalogueProduct now) := by
    unfold ProductAdmin.update
    split
    · simp [Spares, belowPrice]
    rename_i cur hcur
    split
    · simp [Spares, belowPrice, ProductAdmin.staleVersion]
    obtain ⟨hl, -⟩ := Option.filter_eq_some_iff.mp hcur
    have hpriced := h.priced cur (Rows.mem_of_lookup hl)
    have hprice : Paisa (dto.price.getD cur.price) := by
      cases hp : dto.price with
      | none => exact hpriced.price
      | some v =>
        rw [Option.getD_some, ← (dto.priceOk v hp).places]
        exact round2_paisa v
    refine (place_spares cur _).bind fun placed hplaced => ?_
    refine (nextCompare_spares hpriced dto _).bind fun struck hstruck => ?_
    refine (relations_spares _ _ _ _).bind fun _ _ => ?_
    refine (keysFree_spares _).bind fun _ _ => ?_
    refine allPriced_map h fun p hp => ?_
    by_cases hid : p.id = id
    · rw [if_pos hid]
      exact ⟨hplaced.trans ((Rows.key_of_lookup hl).trans hid.symm), hprice, hstruck⟩
    · rw [if_neg hid]
      exact ⟨rfl, h.priced p hp⟩
  unfold update
  exact hrow.bind fun c hc => (save_spares hc).mono fun _ ht => ht.1

theorem duplicate_spares (h : s.catalogue.AllPriced) (id : ProductId) (slug sku : String) :
    Spares belowPrice (fun t => t.catalogue.AllPriced) (s.duplicate id slug sku) := by
  have hrow : Spares belowPrice Catalogue.AllPriced
      (ProductAdmin.duplicate s.catalogue id slug sku) := by
    unfold ProductAdmin.duplicate
    split
    · simp [Spares, belowPrice]
    rename_i src hsrc
    obtain ⟨hl, -⟩ := Option.filter_eq_some_iff.mp hsrc
    exact insert_spares h rfl ((h.priced src (Rows.mem_of_lookup hl)).of_same rfl rfl)
  unfold duplicate
  exact hrow.bind fun c hc => (save_spares hc).mono fun _ ht => ht.1

/-! ### The bulk edits -/

theorem mem_rows {ids : List ProductId} {p : CatalogueProduct} (h : p ∈ s.rows ids) :
    p ∈ s.catalogue.products := by
  obtain ⟨id, -, hp⟩ := List.mem_filterMap.mp h
  obtain ⟨hl, -⟩ := Option.filter_eq_some_iff.mp hp
  exact Rows.mem_of_lookup hl

theorem load_spares {c : Catalogue} (ids : List ProductId) :
    Spares belowPrice (fun _ => True) (ProductBulk.load c ids) := by
  unfold ProductBulk.load
  split
  · simp [Spares, belowPrice]
  · trivial

/-- Whole taka are among the amounts of two places. -/
theorem taka_paisa (x : ℚ) : Paisa (toPlaces .halfUp 0 x) :=
  HasPlaces.mono (Nat.zero_le 2) toPlaces_hasPlaces

theorem paisa_ite {x y : Money} {b : Prop} [Decidable b] (hx : Paisa x) (hy : Paisa y) :
    Paisa (if b then x else y) := by
  split
  · exact hx
  · exact hy

theorem bulkAdjustedPrice_paisa (price percent : ℚ) (direction : Direction) :
    Paisa (bulkAdjustedPrice price percent direction) :=
  paisa_ite (HasPlaces.of_int 5) ((taka_paisa _).mul_int 5)

theorem normaliseCompareAt_above {price a : Money} {struck : Option Money}
    (h : normaliseCompareAt price struck = some a) : struck = some a ∧ price < a := by
  obtain ⟨hs, hlt⟩ := Option.filter_eq_some_iff.mp h
  exact ⟨hs, of_decide_eq_true hlt⟩

theorem compareAtForDiscount_above {price percent a : Money}
    (h : compareAtForDiscount price percent = some a) : Paisa a ∧ price < a := by
  unfold compareAtForDiscount at h
  split at h
  · dsimp only at h
    split at h
    · rename_i hlt
      obtain rfl := Option.some.inj h
      exact ⟨taka_paisa _, hlt⟩
    · cases h
  · cases h

theorem bulkPrice_spares (h : s.catalogue.AllPriced) (dto : BulkPriceDto) :
    Spares belowPrice (fun t => t.catalogue.AllPriced) (s.bulkPrice dto) := by
  unfold bulkPrice
  refine (load_spares _).bind fun _ _ => spares_foldlM _ s (fun p hp t ht => ?_) h
  unfold setPrice
  refine (save_spares (allPriced_map ht fun q hq => ?_)).mono fun _ hu => hu.1
  by_cases hid : q.id = p.id
  · rw [if_pos hid]
    refine ⟨rfl, bulkAdjustedPrice_paisa _ _ _, fun a ha => ?_⟩
    obtain ⟨hp', hlt⟩ := normaliseCompareAt_above ha
    exact ⟨((h.priced p (mem_rows hp)).compareAt a hp').1, hlt⟩
  · rw [if_neg hid]
    exact ⟨rfl, ht.priced q hq⟩

/-- What the id of a row says of its price. -/
def priceOf (p : CatalogueProduct) : ProductId × Money := (p.id, p.price)

theorem priceOf_column (h : c.AllPriced) :
    (c.products.map column).map priceOf = c.products.map priceOf := by
  rw [List.map_map]
  refine List.map_congr_left fun p hp => ?_
  show (p.id, (column p).price) = (p.id, p.price)
  rw [(h.priced p hp).column.1]

theorem bulkDiscount_spares (h : s.catalogue.AllPriced) (dto : BulkDiscountDto) :
    Spares belowPrice (fun t => t.catalogue.AllPriced) (s.bulkDiscount dto) := by
  have hnd : (s.catalogue.products.map (·.id)).Nodup := by
    rw [h.ids]
    exact List.nodup_range
  -- the loop writes no price, so a row still costs what it did when the rows were loaded
  have hround : ∀ p ∈ s.rows dto.ids, ∀ t : PriceDesk,
      (t.catalogue.AllPriced ∧
        t.catalogue.products.map priceOf = s.catalogue.products.map priceOf) →
      Spares belowPrice (fun u : PriceDesk => u.catalogue.AllPriced ∧
          u.catalogue.products.map priceOf = s.catalogue.products.map priceOf)
        (t.save (t.catalogue.modifyProduct p.id fun q =>
          { q with compareAtPrice := compareAtForDiscount p.price dto.percent,
                   version := q.version + 1 })) := by
    rintro p hp t ⟨ht, hsame⟩
    have hprice : ∀ q ∈ t.catalogue.products, q.id = p.id → q.price = p.price := by
      intro q hq hid
      have hmem : priceOf q ∈ s.catalogue.products.map priceOf :=
        hsame ▸ List.mem_map_of_mem hq
      obtain ⟨r, hr, hrq⟩ := List.mem_map.mp hmem
      obtain ⟨hrid, hrprice⟩ := Prod.mk.inj hrq
      have hrp : r = p := List.inj_on_of_nodup_map hnd hr (mem_rows hp) (hrid.trans hid)
      rw [← hrprice, hrp]
    have hall : Catalogue.AllPriced (t.catalogue.modifyProduct p.id fun q =>
        { q with compareAtPrice := compareAtForDiscount p.price dto.percent,
                 version := q.version + 1 }) := by
      refine allPriced_map ht fun q hq => ?_
      by_cases hid : q.id = p.id
      · rw [if_pos hid]
        refine ⟨rfl, (ht.priced q hq).price, fun a ha => ?_⟩
        obtain ⟨hplaces, habove⟩ := compareAtForDiscount_above ha
        exact ⟨hplaces, (hprice q hq hid).symm ▸ habove⟩
      · rw [if_neg hid]
        exact ⟨rfl, ht.priced q hq⟩
    refine (save_spares hall).mono fun u hu => ⟨hu.1, ?_⟩
    rw [hu.2, priceOf_column hall, ← hsame]
    exact Rows.map_modify fun _ => rfl
  unfold bulkDiscount
  refine (load_spares _).bind fun _ _ => ?_
  exact (spares_foldlM _ s hround ⟨h, rfl⟩).mono fun _ ht => ht.1

/-- A restock that stays below what is struck. -/
theorem restockLot_spares (h : s.catalogue.AllPriced) (id : ProductId) (dto : RestockLotDto)
    (hbelow : PriceCall.staysBelow s (.restockLot id dto now)) :
    Spares belowPrice (fun t => t.catalogue.AllPriced) (s.restockLot id dto now) := by
  have hnd : (s.catalogue.products.map (·.id)).Nodup := by
    rw [h.ids]
    exact List.nodup_range
  unfold restockLot
  split
  · simp [Spares, belowPrice]
  rename_i before hbefore
  obtain ⟨hl, -⟩ := Option.filter_eq_some_iff.mp hbefore
  have hpriced := h.priced before (Rows.mem_of_lookup hl)
  have hprice : Paisa (dto.salePrice.getD before.price) := by
    cases hsale : dto.salePrice with
    | none => exact hpriced.price
    | some v =>
      rw [Option.getD_some, ← (dto.saleOk v hsale).places]
      exact round2_paisa v
  have hsave : Spares belowPrice (fun t : PriceDesk => t.catalogue.AllPriced)
      (s.reprice id before.price (dto.salePrice.getD before.price)) := by
    unfold reprice
    split
    · exact h
    · refine (save_spares (allPriced_map h fun q hq => ?_)).mono fun _ ht => ht.1
      by_cases hid : q.id = id
      · have hq' := Rows.lookup_of_mem hnd hq
        rw [hid, hl] at hq'
        obtain rfl := Option.some.inj hq'
        rw [if_pos hid]
        exact ⟨rfl, hprice, fun a ha => ⟨(hpriced.compareAt a ha).1, hbelow _ hbefore a ha⟩⟩
      · rw [if_neg hid]
        exact ⟨rfl, h.priced q hq⟩
  refine hsave.bind fun t ht => ?_
  exact (Inventory.addBatch_spares _ _).bind fun store _ => stocked_priced ht store

/-! ### Every run -/

/-- A call keeps the rows, unless it is a restock that goes too high. -/
theorem call_spares (h : s.catalogue.AllPriced) (c : PriceCall) (hbelow : c.staysBelow s) :
    Spares belowPrice (fun t => t.catalogue.AllPriced) (s.call c) := by
  cases c with
  | create dto slug sku now => exact create_spares h dto slug sku
  | update id dto now => exact update_spares h id dto
  | duplicate id slug sku => exact duplicate_spares h id slug sku
  | bulkPrice dto => exact bulkPrice_spares h dto
  | bulkDiscount dto => exact bulkDiscount_spares h dto
  | restockLot id dto now => exact restockLot_spares h id dto hbelow

theorem after_priced (h : s.catalogue.AllPriced) (c : PriceCall) (hbelow : c.staysBelow s) :
    (s.after c).catalogue.AllPriced := by
  have hcall := call_spares h c hbelow
  unfold after
  cases hc : s.call c with
  | ok t => exact hcall.ok hc
  | error e => exact h

/-- One call after the other. -/
def step (s : PriceDesk) (c : PriceCall) : Option PriceDesk := some (s.after c)

end PriceDesk

/-- **Struck prices stay above prices, and the CHECK refuses no call**, in every run whose
restocks leave the product below what is struck. -/
theorem struckPrices_kept (s : PriceDesk) (cs : List PriceCall)
    (hs : s.catalogue.products = [])
    (hbelow : Machine.GuardedRun PriceDesk.step PriceCall.staysBelow s cs) :
    Machine.GuardedRun PriceDesk.step PriceCall.Keeps s cs := by
  have hnew : s.catalogue.AllPriced := by
    constructor
    · rw [hs]
      rfl
    · rw [hs]
      simp
  clear hs
  induction cs generalizing s with
  | nil => trivial
  | cons c rest ih =>
    have hafter := PriceDesk.after_priced hnew c hbelow.1
    refine ⟨⟨(PriceDesk.call_spares hnew c hbelow.1).ne, ?_⟩, ?_⟩
    · intro p hp a ha
      exact ((hafter.priced p hp).compareAt a ha).2
    · intro t ht
      obtain rfl := Option.some.inj ht
      exact ih _ (hbelow.2 _ rfl) hafter

/-! ### A book with a struck price -/

instance (s : PriceDesk) : ∀ c : PriceCall, Decidable (c.staysBelow s)
  | .restockLot id dto _ =>
      decidable_of_iff ((s.catalogue.product? id).all fun p =>
        p.compareAtPrice.all fun c => dto.salePrice.getD p.price < c)
        (by simp [PriceCall.staysBelow, Option.all_eq_true])
  | .create .. | .update .. | .duplicate .. | .bulkPrice .. | .bulkDiscount .. => isTrue trivial

/-- One category, and nothing in it yet. -/
def priceDesk : PriceDesk where
  catalogue :=
    { sections := [{ id := 0, code := "books" }],
      categories := [{ id := 0, sectionId := 0, slug := "novel", nameBn := "উপন্যাস" }] }

instance (v : Money) : Decidable (PriceOk v) :=
  decidable_of_iff (round2 v = v ∧ 0 ≤ v ∧ v ≤ 9999999999)
    ⟨fun h => ⟨h.1, h.2.1, h.2.2⟩, fun h => ⟨h.places, h.nonneg, h.max⟩⟩

/-- 350, struck 400. -/
def struckBook : PriceCall :=
  .create
    { categoryId := 0, title := "পথের পাঁচালী", price := 350, compareAtPrice := some 400,
      priceOk := by decide +kernel,
      compareAtOk := fun c hc => by
        obtain rfl := Option.some.inj hc
        decide +kernel,
      costOk := fun c hc => by cases hc }
    "pather-panchali" "BK-1" 0

/-- Twenty more copies, at a new price. -/
def restockedAt (price : Money) (hok : PriceOk price) (hmin : 1 / 100 ≤ price) : PriceCall :=
  .restockLot 0
    { qty := 20, qtyPos := by decide, unitCost := 260,
      costOk := by decide +kernel,
      salePrice := some price,
      saleOk := fun v hv => Option.some.inj hv ▸ hok,
      saleMin := fun v hv => Option.some.inj hv ▸ hmin } 1

/-- Restocked below what is struck. -/
theorem struckPrices_kept_below : Machine.GuardedRun PriceDesk.step PriceCall.Keeps priceDesk
    [struckBook, restockedAt 380 (by decide +kernel) (by norm_num)] :=
  struckPrices_kept priceDesk _ rfl (by decide +kernel)

/-- Restocked above what is struck, the CHECK refuses the new price; at what is struck, nothing
does, and the badge has nothing to show. -/
theorem restocked_too_high :
    (priceDesk.after struckBook).call (restockedAt 450 (by decide +kernel) (by norm_num)) = .error belowPrice ∧
    ¬ ((priceDesk.after struckBook).after (restockedAt 400 (by decide +kernel) (by norm_num))).Struck := by
  constructor
  · decide +kernel
  · intro hstruck
    have hsame : ((priceDesk.after struckBook).after
        (restockedAt 400 (by decide +kernel) (by norm_num))).catalogue.products.any (fun p =>
          p.compareAtPrice = some p.price) = true := by
      decide +kernel
    obtain ⟨p, hp, hc⟩ := List.any_eq_true.mp hsame
    exact lt_irrefl _ (hstruck p hp p.price (of_decide_eq_true hc))

end BookHouse
