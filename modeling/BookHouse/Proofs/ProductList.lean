/-
The list and the pages agree on what is visible and what it costs.

The foreign keys make the join give one row for a product (`rowsOf_eq`).  On that row every
part of the SQL is compared with its TypeScript: the conditions hold together exactly when the
Prisma filter does, and the lateral join takes the least price of the same live deals that
`effectivePrice` sorts.
-/
import BookHouse.Catalog.ProductList
import BookHouse.Lib.Sorting

namespace BookHouse

open Sql

/-! ### The price -/

section price

variable {p : PricedLike} {deals : List DealLike} {now : Instant}

/-- The live deals are among those a product query loads. -/
theorem filter_liveDealsWhere (price : Money) (deals : List DealLike) (now : Instant) :
    (deals.filter (liveDealsWhere now)).filter (·.isLive price now) =
      deals.filter (·.isLive price now) := by
  rw [List.filter_filter]
  refine List.filter_congr fun d _ => ?_
  unfold DealLike.isLive liveDealsWhere
  cases d.cancelledAt.isNone <;> cases decide (d.startsAt ≤ now) <;>
    cases decide (now < d.endsAt) <;> simp

/-- **Loading only the deals that may be live changes nothing.** -/
theorem effectivePrice_liveDeals (p : PricedLike) (deals : List DealLike) (now : Instant) :
    p.effectivePrice (deals.filter (liveDealsWhere now)) now = p.effectivePrice deals now := by
  unfold PricedLike.effectivePrice
  rw [filter_liveDealsWhere]

/-- What pricing charges is the price of the record. -/
theorem effectivePrice_price (p : PricedLike) (deals : List DealLike) (now : Instant) :
    effectivePrice p.price deals now = (p.effectivePrice deals now).price := by
  unfold effectivePrice PricedLike.effectivePrice
  cases ((deals.filter (·.isLive p.price now)).insertionSort fun a b =>
    a.dealPrice ≤ b.dealPrice).head? with
  | none => rfl
  | some live => rfl

/-- The deal that wins. -/
def cheapestLive (p : PricedLike) (deals : List DealLike) (now : Instant) : Option DealLike :=
  ((deals.filter (·.isLive p.price now)).insertionSort fun a b => a.dealPrice ≤ b.dealPrice).head?

theorem price_eq : (p.effectivePrice deals now).price =
    ((cheapestLive p deals now).map (·.dealPrice)).getD p.price := by
  unfold PricedLike.effectivePrice cheapestLive
  split
  · rename_i live h
    rw [h]
    rfl
  · rename_i h
    rw [h]
    rfl

theorem deal_eq :
    (p.effectivePrice deals now).deal = (cheapestLive p deals now).map (·.endsAt) := by
  unfold PricedLike.effectivePrice cheapestLive
  split
  · rename_i live h
    rw [h]
    rfl
  · rename_i h
    rw [h]
    rfl

/-- The deal that wins is live, so it is cheaper. -/
theorem cheapestLive_lt {live : DealLike} (h : cheapestLive p deals now = some live) :
    live.dealPrice < p.price := by
  have htotal : ∀ a b : DealLike, a.dealPrice ≤ b.dealPrice ∨ b.dealPrice ≤ a.dealPrice :=
    fun a b => le_total a.dealPrice b.dealPrice
  have hmem := (Sorting.head_insertionSort htotal (fun _ _ _ => le_trans) h).1
  have hlive := (List.mem_filter.mp hmem).2
  unfold DealLike.isLive at hlive
  simp only [Bool.and_eq_true, decide_eq_true_eq] at hlive
  exact hlive.2

theorem listPrice_eq : (p.effectivePrice deals now).listPrice = p.price := by
  unfold PricedLike.effectivePrice
  split <;> rfl

theorem effectivePrice_le (p : PricedLike) (deals : List DealLike) (now : Instant) :
    (p.effectivePrice deals now).price ≤ (p.effectivePrice deals now).listPrice := by
  rw [price_eq, listPrice_eq]
  cases h : cheapestLive p deals now with
  | none => exact le_refl _
  | some live => exact (cheapestLive_lt h).le

theorem compareAt_above {c : Money} (h : (p.effectivePrice deals now).compareAt = some c) :
    (p.effectivePrice deals now).price < c := by
  unfold PricedLike.effectivePrice at h ⊢
  split at h
  · rename_i live hlive
    obtain rfl := Option.some.inj h
    exact cheapestLive_lt hlive
  · exact of_decide_eq_true (Option.filter_eq_some_iff.mp h).2

end price

namespace ProductList

variable {t : ListTables} {p : CatalogueProduct} {now : Instant}

@[simp] theorem holds_eq {κ : Type} [DecidableEq κ] {a b : Option κ} :
    (eq a b).Holds ↔ ∃ k, a = some k ∧ b = some k := by
  unfold eq
  rw [holds_compare]
  constructor
  · rintro ⟨x, y, ha, hb, hxy⟩
    obtain rfl : x = y := of_decide_eq_true hxy
    exact ⟨x, ha, hb⟩
  · rintro ⟨k, ha, hb⟩
    exact ⟨k, k, ha, hb, decide_eq_true rfl⟩

/-! ### The deals of the lateral join -/

theorem holds_dealCond {d : ProductDeal} :
    (dealCond p now d).Holds ↔ d.productId = p.id ∧ d.isLive p.price now = true := by
  unfold dealCond DealLike.isLive
  simp [and_assoc, eq_comm (a := d.productId)]

/-- The join reads the prices of the product's live deals. -/
theorem prices_selected : (select (dealCond p now) t.deals).map (·.dealPrice) =
    ((t.dealsOf p).filter (·.isLive p.price now)).map (·.dealPrice) := by
  have hselect : select (dealCond p now) t.deals =
      (t.deals.filter (·.productId = p.id)).filter (·.isLive p.price now) := by
    rw [List.filter_filter]
    refine List.filter_congr fun d _ => ?_
    rw [Bool.eq_iff_iff]
    simp [holds_dealCond, and_comm]
  rw [hselect, ListTables.dealsOf, List.filter_map, List.map_map]
  rfl

theorem liveDeal_eq : liveDeal t p now =
    (cheapestLive (ListTables.priced p) (t.dealsOf p) now).map (·.dealPrice) := by
  rw [liveDeal, prices_selected, Sorting.head_insertionSort_map]
  rfl

/-! ### The one row of a product -/

/-- The foreign keys find each row that the join asks for, once. -/
theorem rowsOf_eq (hp : p ∈ t.products) : ∃ s c,
    Rows.lookup (·.id) p.sectionId t.sections = some s ∧
    Rows.lookup (·.id) p.categoryId t.categories = some c ∧
    rowsOf t now p = [{ p, s, c, ld := liveDeal t p now,
                        sc := p.subcategoryId.bind fun id => Rows.lookup (·.id) id t.categories }] := by
  obtain ⟨s, hs⟩ := Option.isSome_iff_exists.mp (Rows.lookup_isSome.mpr (t.section_fk p hp))
  obtain ⟨c, hc⟩ := Option.isSome_iff_exists.mp (Rows.lookup_isSome.mpr (t.category_fk p hp))
  refine ⟨s, c, hs, hc, ?_⟩
  unfold rowsOf eq
  rw [select_key t.section_ids, hs, Option.toList_some, List.flatMap_singleton,
    select_key t.category_ids, hc, Option.toList_some, List.flatMap_singleton,
    leftJoin_key t.category_ids (t.subcategory_fk p hp)]
  rfl

/-! ### Visibility -/

section row

variable {r : Row}

/-- The row of a product, as the joins make it. -/
structure RowOf (t : ListTables) (p : CatalogueProduct) (now : Instant) (r : Row) : Prop where
  product : r.p = p
  section_ : Rows.lookup (·.id) p.sectionId t.sections = some r.s
  category : Rows.lookup (·.id) p.categoryId t.categories = some r.c
  subcategory : r.sc = p.subcategoryId.bind fun id => Rows.lookup (·.id) id t.categories
  deal : r.ld = liveDeal t p now

/-- **The conditions of the list are those of the filter.** -/
theorem holds_public (h : RowOf t p now r) (hp : p ∈ t.products) :
    (Truth.all (publicConditions now r)).Holds ↔ t.publicProductWhere p now = true := by
  have hsub : (isNull (r.sc.map (·.id))).Holds ↔ p.subcategoryId = none := by
    rw [holds_isNull, h.subcategory]
    cases hc : p.subcategoryId with
    | none => simp
    | some c =>
        obtain ⟨row, hrow⟩ := Option.isSome_iff_exists.mp
          (Rows.lookup_isSome.mpr (t.subcategory_fk p hp c hc))
        simp [hrow]
  have hshown : (Truth.and (r.sc.map (·.isVisible)) (isNull (r.sc.bind (·.deletedAt)))).Holds ↔
      r.sc.any (fun c => c.isVisible && c.deletedAt.isNone) = true := by
    cases r.sc with
    | none => simp [Truth.Holds, Truth.and, isNull]
    | some c => simp
  have hpublished : (compare (fun a b => decide (a ≤ b)) p.publishedAt (some now)).Holds ↔
      p.publishedAt.any (· ≤ now) = true := by
    cases p.publishedAt <;> simp
  unfold publicConditions ListTables.publicProductWhere
  rw [h.section_, h.category, ← h.subcategory, h.product]
  simp only [Truth.holds_all_cons, Truth.holds_all_nil, Truth.holds_or, hsub, hshown, hpublished,
    holds_isNull, holds_eq, Truth.holds_some, Bool.and_eq_true, Bool.or_eq_true, Option.any_some,
    Option.isNone_iff_eq_none, decide_eq_true_eq, and_true]
  constructor
  · rintro ⟨hdel, ⟨k, hk, hk'⟩, hs, hc, hcdel, hsc, hpub⟩
    have hstatus : p.status = .active := Option.some.inj (hk.trans hk'.symm)
    exact ⟨⟨⟨⟨⟨hdel, hstatus⟩, hs⟩, hc, hcdel⟩, hsc⟩, hpub⟩
  · rintro ⟨⟨⟨⟨⟨hdel, hstatus⟩, hs⟩, hc, hcdel⟩, hsc⟩, hpub⟩
    exact ⟨hdel, ⟨.active, by rw [hstatus], rfl⟩, hs, hc, hcdel, hsc, hpub⟩

/-- The filter on deals adds its one condition. -/
theorem holds_onDeal (f : Filter) :
    (conditions { f with onDeal := true } now r).Holds ↔
      (conditions { f with onDeal := false } now r).Holds ∧ r.ld.isSome = true := by
  unfold conditions
  simp only [Truth.holds_all_append, if_true, Bool.false_eq_true, if_false, Truth.holds_all_cons,
    Truth.holds_all_nil, Truth.holds_some, and_true]
  tauto

end row

/-! ### What the list says of a product -/

/-- The SQL of the list and the TypeScript of the pages agree on a product and its row. -/
structure Agrees (t : ListTables) (p : CatalogueProduct) (now : Instant) (r : Row) : Prop where
  visible : (conditions {} now r).Holds ↔ t.publicProductWhere p now = true
  price : r.eff = ((ListTables.priced p).effectivePrice (t.dealsOf p) now).price
  loaded : r.eff = ((ListTables.priced p).effectivePrice
    ((t.dealsOf p).filter (liveDealsWhere now)) now).price
  charged : ∀ (q : Product) (l : Listing), q.price = p.price →
    l.deals = (t.dealsOf p).filter (liveDealsWhere now) →
    (toPricedProduct q l now).unitPrice = r.eff
  onDeal : ∀ f : Filter, (conditions { f with onDeal := true } now r).Holds ↔
    (conditions { f with onDeal := false } now r).Holds ∧
      ((ListTables.priced p).effectivePrice (t.dealsOf p) now).deal.isSome = true
  le_listPrice : r.eff ≤ p.price
  compareAt_above : ∀ c,
    ((ListTables.priced p).effectivePrice (t.dealsOf p) now).compareAt = some c → r.eff < c

theorem agrees_of_row {r : Row} (h : RowOf t p now r) (hp : p ∈ t.products) :
    Agrees t p now r := by
  have hprice : r.eff = ((ListTables.priced p).effectivePrice (t.dealsOf p) now).price := by
    rw [Row.eff, h.deal, h.product, price_eq, liveDeal_eq]
    rfl
  refine ⟨?_, hprice, ?_, ?_, ?_, ?_, ?_⟩
  · rw [← holds_public h hp]
    simp [conditions]
  · rw [effectivePrice_liveDeals, hprice]
  · intro q l hq hl
    show effectivePrice q.price l.deals now = r.eff
    have hrecord := effectivePrice_price (ListTables.priced p)
      ((t.dealsOf p).filter (liveDealsWhere now)) now
    rw [hq, hl, hprice, ← effectivePrice_liveDeals]
    exact hrecord
  · intro f
    rw [holds_onDeal, h.deal, liveDeal_eq, deal_eq, Option.isSome_map, Option.isSome_map]
  · rw [hprice]
    exact (effectivePrice_le _ _ _).trans_eq listPrice_eq
  · intro c hc
    rw [hprice]
    exact compareAt_above hc

/-- **The list has one row for each product, and it says what the pages say.** -/
theorem list_agrees (t : ListTables) (now : Instant) (p : CatalogueProduct) (hp : p ∈ t.products) :
    ∃ r, rowsOf t now p = [r] ∧ Agrees t p now r := by
  have hfound : ∃ s c, Rows.lookup (·.id) p.sectionId t.sections = some s ∧
      Rows.lookup (·.id) p.categoryId t.categories = some c ∧
      rowsOf t now p = [{ p, s, c, ld := liveDeal t p now,
                          sc := p.subcategoryId.bind fun id =>
                            Rows.lookup (·.id) id t.categories }] := rowsOf_eq hp
  obtain ⟨s, c, hs, hc, hrows⟩ := hfound
  exact ⟨_, hrows, agrees_of_row ⟨rfl, hs, hc, rfl, rfl⟩ hp⟩

/-- A book whose subcategory is hidden, and one with two live deals and one that is over. -/
def bookList : ListTables where
  sections := [{ id := 1, code := "book" }]
  categories := [{ id := 1, sectionId := 1, slug := "novel", nameBn := "উপন্যাস" },
    { id := 2, sectionId := 1, parentId := some 1, slug := "old", nameBn := "পুরনো",
      isVisible := false }]
  products := [
    { id := 1, sku := "B1", slug := "b1", sectionId := 1, categoryId := 1,
      subcategoryId := some 2, title := "B1", price := 100 },
    { id := 2, sku := "B2", slug := "b2", sectionId := 1, categoryId := 1, title := "B2",
      price := 200, compareAtPrice := some 250 }]
  deals := [
    { productId := 2, dealPrice := 180, startsAt := 0, endsAt := 100 },
    { productId := 2, dealPrice := 150, startsAt := 10, endsAt := 20 },
    { productId := 2, dealPrice := 90, startsAt := 0, endsAt := 10 }]
  section_ids := by decide
  category_ids := by decide
  section_fk := by decide
  category_fk := by decide
  subcategory_fk := by decide

theorem list_agrees_bookList : ∃ r, rowsOf bookList 10
    { id := 2, sku := "B2", slug := "b2", sectionId := 1, categoryId := 1, title := "B2",
      price := 200, compareAtPrice := some 250 } = [r] ∧ Agrees bookList
    { id := 2, sku := "B2", slug := "b2", sectionId := 1, categoryId := 1, title := "B2",
      price := 200, compareAtPrice := some 250 } 10 r :=
  list_agrees bookList 10 _ (by decide)

/-- Only the second is listed at the instant the first of its deals ends. -/
example : findIds bookList { onDeal := true } 10 = [2] := by decide +kernel

end ProductList

end BookHouse
