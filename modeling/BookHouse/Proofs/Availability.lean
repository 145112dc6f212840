/-
What is shown as available is what can be reserved.

A reservation merges its lines, so each product is updated once, on a row that no other
line of it has touched: it goes through exactly when every product takes the units it is
asked for in all (`reserve_iff`).  What a product takes is one condition on its row
(`Shelf.Takes`), and every way of showing stock is compared with that condition alone:
the count, the badge, the list's filter, the packs of a bundle and the shortfalls of a quote.
-/
import BookHouse.Catalog.Availability
import BookHouse.Orders.Pricing
import BookHouse.Proofs.Holds
import BookHouse.Proofs.Quote

namespace BookHouse

open Tally (Entry count)

/-- What the UPDATE of a reservation asks of a row, and the CHECKs of the row it leaves. -/
structure Shelf.Takes (r : Shelf) (q : ℤ) : Prop where
  live : r.deleted = false
  free : r.tracked = false ∨ r.backorder = true ∨ q ≤ r.onHand - r.reserved
  sound : Shelf.Sound { r with reserved := r.reserved + q }

/-- The reservation of these lines goes through. -/
def Accepts (s : Store) (ctx : StockContext) (lines : List StockLine) : Prop :=
  ∃ t, Inventory.reserve s lines ctx = .ok t

/-! ### What a reservation of several lines asks -/

section reserve

variable {s t : Store} {ctx : StockContext} {l : StockLine}

theorem reserveLine_iff (hq : 0 < l.qty) :
    (∃ t, Inventory.reserveLine ctx s l = .ok t) ↔
      ∃ r, s.shelf l.key = some r ∧ r.Takes l.qty := by
  constructor
  · rintro ⟨t, h⟩
    obtain ⟨-, r, hr, hlive, hfree, hsound, -⟩ :=
      Inventory.reserve_shelf (Inventory.lines_one_of hq h)
    exact ⟨r, hr, hlive, hfree, hsound⟩
  · rintro ⟨r, hr, h⟩
    have hreserve : ∃ t, Inventory.reserve s [⟨l.key, l.qty⟩] ctx = .ok t :=
      Inventory.reserve_of_shelf hq hr h.live h.free h.sound
    obtain ⟨t, ht⟩ := hreserve
    exact ⟨t, (Inventory.lines_one_ok ht).2⟩

/-- A line leaves the other products alone. -/
theorem reserveLine_shelf_ne {p : ProductId} (h : Inventory.reserveLine ctx s l = .ok t)
    (hne : p ≠ l.key) : t.shelf p = s.shelf p := by
  obtain ⟨updated, hu, h⟩ := Result.bind_ok.mp h
  cases updated with
  | none =>
      dsimp only at h
      split at h
      · cases h
      · cases h
  | some x =>
      obtain ⟨x, u⟩ := x
      obtain ⟨row, -, -, -, rfl⟩ := Inventory.updateProduct_some hu
      rw [Inventory.shelf_of_products (Inventory.products_log h)]
      exact congrArg (Option.map Product.shelf) (Rows.lookup_modify_ne (fun _ => rfl) hne)

/-- The loop over merged lines, by induction: no line meets a product twice. -/
theorem reserveLines_iff : ∀ (m : List StockLine) (s : Store), (m.map Entry.key).Nodup →
    (∀ l ∈ m, 0 < l.qty) →
    ((∃ t, m.foldlM (Inventory.reserveLine ctx) s = .ok t) ↔
      ∀ l ∈ m, ∃ r, s.shelf l.key = some r ∧ r.Takes l.qty) := by
  intro m
  induction m with
  | nil => intro s _ _; exact ⟨fun _ l hl => (by simp at hl), fun _ => ⟨s, rfl⟩⟩
  | cons a rest ih =>
      intro s hnd hpos
      rw [List.map_cons, List.nodup_cons] at hnd
      have hrest : ∀ l ∈ rest, 0 < l.qty := fun l hl => hpos l (List.mem_cons_of_mem a hl)
      have hkeep : ∀ u, Inventory.reserveLine ctx s a = .ok u →
          ∀ l ∈ rest, u.shelf l.key = s.shelf l.key := by
        intro u hu l hl
        refine reserveLine_shelf_ne hu fun hc => hnd.1 ?_
        exact hc ▸ List.mem_map_of_mem hl
      constructor
      · rintro ⟨t, h⟩ l hl
        obtain ⟨u, hu, hloop⟩ := Result.foldlM_cons_ok.mp h
        rcases List.mem_cons.mp hl with rfl | hl
        · exact (reserveLine_iff (hpos _ List.mem_cons_self)).mp ⟨u, hu⟩
        · rw [← hkeep u hu l hl]
          exact (ih u hnd.2 hrest).mp ⟨t, hloop⟩ l hl
      · intro h
        obtain ⟨u, hu⟩ :=
          (reserveLine_iff (hpos _ List.mem_cons_self)).mpr (h a List.mem_cons_self)
        have hlater : ∀ l ∈ rest, ∃ r, u.shelf l.key = some r ∧ r.Takes l.qty := by
          intro l hl
          rw [hkeep u hu l hl]
          exact h l (List.mem_cons_of_mem a hl)
        obtain ⟨t, ht⟩ := (ih u hnd.2 hrest).mpr hlater
        exact ⟨t, Result.foldlM_cons_ok.mpr ⟨u, hu, ht⟩⟩

/-- **A reservation goes through exactly when each product takes all its units.** -/
theorem reserve_iff {lines : List StockLine} (hpos : ∀ l ∈ lines, 0 < l.qty) :
    Accepts s ctx lines ↔
      ∀ l ∈ lines, ∃ r, s.shelf l.key = some r ∧ r.Takes (count l.key lines) := by
  obtain ⟨m, hm⟩ : ∃ m, Inventory.merge lines = .ok m := by
    unfold Inventory.merge
    rw [if_neg]
    · exact ⟨_, rfl⟩
    · simpa using hpos
  obtain ⟨-, hnd, -, hqty, hkeys⟩ := Inventory.merge_ok hm
  have hm_pos : ∀ l ∈ m, 0 < l.qty := by
    intro l hl
    rw [hqty l hl]
    exact Tally.count_pos_of_mem hpos ((hkeys l.key).mp (List.mem_map_of_mem hl))
  have hloop : Accepts s ctx lines ↔
      ∃ t, m.foldlM (Inventory.reserveLine ctx) s = .ok t := by
    constructor
    · rintro ⟨t, h⟩
      obtain ⟨m', hm', h⟩ := Result.bind_ok.mp h
      obtain rfl := Except.ok.inj (hm.symm.trans hm')
      exact ⟨t, h⟩
    · rintro ⟨t, h⟩
      exact ⟨t, Result.bind_ok.mpr ⟨m, hm, h⟩⟩
  rw [hloop, reserveLines_iff m s hnd hm_pos]
  constructor
  · intro h l hl
    obtain ⟨x, hx, hkey⟩ := List.mem_map.mp ((hkeys l.key).mpr (List.mem_map_of_mem hl))
    rw [← hkey, ← hqty x hx]
    exact h x hx
  · intro h x hx
    obtain ⟨l, hl, hkey⟩ := List.mem_map.mp ((hkeys x.key).mp (List.mem_map_of_mem hx))
    rw [hqty x hx, ← hkey]
    exact h l hl

end reserve

/-! ### What a product takes -/

/-- The rows of a store, as the keys and the CHECKs of the table leave them. -/
structure SoundRows (s : Store) : Prop where
  ids : (s.products.map Product.id).Nodup
  checks : ∀ p ∈ s.products, p.check = .ok ()

/-- A product that is there, and whose stock is counted or may go below zero. -/
structure OnSale (s : Store) (p : Product) : Prop where
  row : p ∈ s.products
  live : p.deletedAt = none
  counted : p.trackInventory = true ∨ p.allowBackorder = true

/-- No more than is available, where `none` is no limit. -/
def Within (q : ℤ) (available : Option ℤ) : Prop := ∀ a, available = some a → q ≤ a

@[simp] theorem within_none (q : ℤ) : Within q none := fun _ h => by cases h

@[simp] theorem within_some {q a : ℤ} : Within q (some a) ↔ q ≤ a := by
  constructor
  · intro h
    exact h a rfl
  · rintro h b hb
    rwa [← Option.some.inj hb]

section product

variable {s : Store} {ctx : StockContext} {p : Product} {q : ℤ}

theorem shelf_of_row (hs : SoundRows s) (hp : p ∈ s.products) : s.shelf p.id = some p.shelf := by
  rw [Store.shelf, Rows.lookup_of_mem hs.ids hp]
  rfl

/-- **The condition of the UPDATE and the CHECKs, in the words of the page.** -/
theorem takes_iff (hs : SoundRows s) (hp : OnSale s p) (hq : 0 < q) :
    p.shelf.Takes q ↔ Within q (StockFacts.availableUnits p) := by
  have hsound := (Product.check_iff p).mp (hs.checks p hp.row)
  have hlive : p.shelf.deleted = false := by simp [Product.shelf, hp.live]
  have hreserved : 0 ≤ p.stockReserved + q := add_nonneg hsound.reserved hq.le
  unfold StockFacts.availableUnits
  by_cases hb : p.allowBackorder = true
  · rw [if_pos (by simp [hb])]
    refine ⟨fun _ => within_none q, fun _ => ⟨hlive, .inr (.inl hb), hsound.onHand, hreserved, ?_⟩⟩
    intro hc
    exact absurd (hb.symm.trans hc) (by decide)
  · have ht : p.trackInventory = true := hp.counted.resolve_right hb
    rw [if_neg (by simp [hb, ht]), within_some]
    constructor
    · intro h
      rcases h.free with hf | hf | hf
      · exact absurd (ht.symm.trans hf) (by decide)
      · exact absurd hf hb
      · exact hf.trans (le_max_right _ _)
    · intro h
      have hle : q ≤ p.stockOnHand - p.stockReserved := by omega
      have hcover : p.stockReserved + q ≤ p.stockOnHand := by omega
      exact ⟨hlive, .inr (.inr hle), hsound.onHand, hreserved, fun _ => hcover⟩

theorem within_productStock (hq : 0 < q) :
    Within q (StockFacts.productStock p).available ↔ Within q (StockFacts.availableUnits p) := by
  unfold StockFacts.productStock
  cases StockFacts.availableUnits p with
  | none => rfl
  | some a =>
      by_cases ha : a ≤ 0
      · simp only [if_pos ha, within_some]
        omega
      · simp only [if_neg ha]

theorem accepts_product (hs : SoundRows s) (hp : OnSale s p) (hq : 0 < q) :
    Accepts s ctx [⟨p.id, q⟩] ↔ Within q (StockFacts.availableUnits p) := by
  rw [reserve_iff (by simpa using hq), ← takes_iff hs hp hq]
  simp [shelf_of_row hs hp.row]

/-- The badge and the filter ask for one unit. -/
theorem stockStatus_out (p : Product) (fallback : ℤ) :
    StockLike.stockStatus p fallback ≠ .out ↔ Within 1 (StockFacts.availableUnits p) := by
  unfold StockLike.stockStatus StockFacts.availableUnits StockLike.availableUnits
  split
  · simp
  · split
    · simp only [ne_eq, not_true_eq_false, within_some, false_iff]
      omega
    · split
      · simp only [ne_eq, reduceCtorEq, not_false_eq_true, within_some, true_iff]
        omega
      · simp only [ne_eq, reduceCtorEq, not_false_eq_true, within_some, true_iff]
        omega

theorem sellable_iff (p : Product) :
    ProductList.sellable p = true ↔ Within 1 (StockFacts.availableUnits p) := by
  unfold ProductList.sellable StockFacts.availableUnits ProductList.available
  by_cases h : (!p.trackInventory || p.allowBackorder) = true
  · simp [h]
  · rw [if_neg h, within_some]
    simp only [h, Bool.false_or, decide_eq_true_eq]
    omega

end product

/-! ### The packs of a bundle -/

namespace StockFacts

theorem within_fewer {n : ℤ} (a b : Option ℤ) :
    Within n (fewer a b) ↔ Within n a ∧ Within n b := by
  cases a <;> cases b <;> simp [fewer]

/-- The running minimum, by induction on the components. -/
theorem within_fold {n : ℤ} : ∀ (items : List Part) (packs : Option ℤ),
    Within n (items.foldl (fun packs it => fewer packs (packsOf it)) packs) ↔
      Within n packs ∧ ∀ it ∈ items, Within n (packsOf it) := by
  intro items
  induction items with
  | nil => intro packs; simp
  | cons it rest ih =>
      intro packs
      rw [List.foldl_cons, ih, within_fewer, and_assoc]
      simp

theorem within_bundleStock {n : ℤ} (hn : 0 < n) {items : List Part} (hne : items ≠ []) :
    Within n (bundleStock items).available ↔ ∀ it ∈ items, Within n (packsOf it) := by
  have hfold := within_fold (n := n) items none
  simp only [within_none, true_and] at hfold
  rw [← hfold]
  unfold bundleStock
  rw [if_neg hne]
  cases items.foldl (fun packs it => fewer packs (packsOf it)) none with
  | none => rfl
  | some packs =>
      by_cases hp : packs ≤ 0
      · simp only [if_pos hp, within_some]
        omega
      · simp only [if_neg hp]

/-- A number of packs is enough for their units. -/
theorem within_packsOf {n : ℤ} {it : Part} (hq : 0 < it.quantity) :
    Within n (packsOf it) ↔ Within (n * it.quantity) (availableUnits it.product) := by
  have hmax : max 1 it.quantity = it.quantity := max_eq_right hq
  unfold packsOf
  rw [hmax]
  cases availableUnits it.product with
  | none => simp
  | some a => simp [Int.le_ediv_iff_mul_le hq]

/-- The units of `n` packs. -/
def packUnits (n : ℤ) (items : List Part) : List StockLine :=
  items.map fun it => ⟨it.product.id, n * it.quantity⟩

end StockFacts

theorem accepts_bundle {s : Store} {ctx : StockContext} {items : List StockFacts.Part} {n : ℤ}
    (hs : SoundRows s) (hp : ∀ it ∈ items, OnSale s it.product) (hq : ∀ it ∈ items, 0 < it.quantity)
    (hdistinct : (items.map fun it => it.product.id).Nodup) (hne : items ≠ []) (hn : 0 < n) :
    Accepts s ctx (StockFacts.packUnits n items) ↔
      Within n (StockFacts.bundleStock items).available := by
  have hunits : ∀ it ∈ items, 0 < n * it.quantity := fun it hit => mul_pos hn (hq it hit)
  have hkeys : ((StockFacts.packUnits n items).map Entry.key).Nodup := by
    rw [StockFacts.packUnits, List.map_map]
    exact hdistinct
  rw [reserve_iff (by simpa [StockFacts.packUnits] using hunits),
    StockFacts.within_bundleStock hn hne]
  have hone : ∀ it ∈ items,
      ((∃ r, s.shelf it.product.id = some r ∧
        r.Takes (count it.product.id (StockFacts.packUnits n items))) ↔
          Within n (StockFacts.packsOf it)) := by
    intro it hit
    have hcount : count it.product.id (StockFacts.packUnits n items) = n * it.quantity :=
      Tally.count_of_mem hkeys (List.mem_map_of_mem hit)
    rw [hcount, shelf_of_row hs (hp it hit).row, StockFacts.within_packsOf (hq it hit),
      ← takes_iff hs (hp it hit) (hunits it hit)]
    simp
  constructor
  · intro h it hit
    exact (hone it hit).mp (h _ (List.mem_map_of_mem hit))
  · intro h l hl
    obtain ⟨it, hit, rfl⟩ := List.mem_map.mp hl
    exact (hone it hit).mpr (h it hit)

/-! ### The shortfalls of a quote -/

/-- What a line asks of which product. -/
def unitsOf : QuoteLineInput → List (Entry ProductId)
  | .product x q => [⟨x.id, q⟩]
  | .bundle b q => b.components.map fun c => ⟨c.product.id, c.quantity * q⟩

def pricedProducts : QuoteLineInput → List PricedProduct
  | .product x _ => [x]
  | .bundle b _ => b.components.map (·.product)

/-- Priced from a row of the store that is on sale. -/
def PricedFrom (s : Store) (x : PricedProduct) : Prop :=
  ∃ p l now, OnSale s p ∧ x = toPricedProduct p l now

/-- A line of the cart, with the products of the store. -/
structure LineFrom (s : Store) (l : QuoteLineInput) : Prop where
  products : ∀ x ∈ pricedProducts l, PricedFrom s x
  units : ∀ u ∈ unitsOf l, 0 < u.qty

theorem lineUnits_quoteLine (l : QuoteLineInput) (share : Money) (e : Bool) :
    lineUnits (quoteLine l share e) = unitsOf l := by
  cases l with
  | product x q => rfl
  | bundle b q =>
      simp only [quoteLine, quoteBundle, lineUnits, List.nil_append, quoteComponents_units]
      rfl

/-- The shares of the coupon do not change the units. -/
theorem units_of_lines (shares : ℕ → Money) (es : ℕ → Bool) : ∀ ls : List QuoteLineInput,
    (ls.mapIdx fun i l => quoteLine l (shares i) (es i)).flatMap lineUnits =
      ls.flatMap unitsOf := by
  intro ls
  induction ls generalizing shares es with
  | nil => rfl
  | cons l rest ih =>
      rw [List.mapIdx_cons, List.flatMap_cons, List.flatMap_cons, lineUnits_quoteLine,
        ih (fun i => shares (i + 1)) fun i => es (i + 1)]

theorem stockUnits_eq (input : QuoteInput) :
    (calculateQuote input).stockUnits = Tally.collect (input.lines.flatMap unitsOf) := by
  show Tally.collect ((calculateQuote input).lines.flatMap lineUnits) = _
  rw [calculateQuote_lines, units_of_lines]

theorem keys_unitsOf (l : QuoteLineInput) :
    (unitsOf l).map Entry.key = (pricedProducts l).map PricedProduct.id := by
  cases l with
  | product x q => rfl
  | bundle b q => simp [unitsOf, pricedProducts]

theorem shortfalls_nil_iff {q : Quote} {available : ProductId → Option ℤ} :
    stockShortfalls q available = [] ↔ ∀ u ∈ q.stockUnits, Within u.qty (available u.key) := by
  rw [stockShortfalls, List.filterMap_eq_nil_iff]
  have hone : ∀ u : Entry ProductId,
      (((available u.key).filter (· < u.qty)).map fun a =>
        ({ productId := u.key, requested := u.qty, available := max 0 a } : Shortfall)) = none ↔
        Within u.qty (available u.key) := by
    intro u
    cases available u.key with
    | none => simp
    | some a => simp [Option.filter_some]
  exact forall₂_congr fun u _ => hone u

section quote

variable {s : Store} {ctx : StockContext} {lines : List QuoteLineInput} {p : Product} {q : ℤ}

/-- What a priced product says is available: the difference of the two counts. -/
def freeUnits (p : Product) : Option ℤ :=
  if p.trackInventory && !p.allowBackorder then some (p.stockOnHand - p.stockReserved) else none

theorem within_freeUnits (hq : 0 < q) :
    Within q (freeUnits p) ↔ Within q (StockFacts.availableUnits p) := by
  unfold freeUnits StockFacts.availableUnits
  cases p.trackInventory <;> cases p.allowBackorder <;> simp
  omega

/-- The map of the quote has one value for a product, however many lines it is on. -/
theorem availability_eq (hs : SoundRows s) (hl : ∀ l ∈ lines, LineFrom s l) (hp : OnSale s p)
    (hmem : p.id ∈ (lines.flatMap unitsOf).map Entry.key) :
    PricingService.availability lines p.id = freeUnits p := by
  let stock : List (ProductId × Option ℤ) := lines.flatMap fun l =>
    match l with
    | .product p _ => [(p.id, p.available)]
    | .bundle b _ => b.components.map fun c => (c.product.id, c.product.available)
  have hstock : stock = lines.flatMap fun l =>
      (pricedProducts l).map fun x => (x.id, x.available) := by
    refine congrArg (lines.flatMap ·) (funext fun l => ?_)
    cases l with
    | product x q => rfl
    | bundle b q => simp [pricedProducts]
  have hvalue : ∀ e ∈ stock, e.1 = p.id → e.2 = freeUnits p := by
    intro e he hid
    rw [hstock] at he
    obtain ⟨l, hlm, he⟩ := List.mem_flatMap.mp he
    obtain ⟨x, hx, rfl⟩ := List.mem_map.mp he
    obtain ⟨p', li, now, hp', rfl⟩ := (hl l hlm).products x hx
    have hrow := Rows.lookup_of_mem hs.ids hp'.row
    have hid' : p'.id = p.id := hid
    rw [hid', Rows.lookup_of_mem hs.ids hp.row] at hrow
    rw [Option.some.inj hrow]
    rfl
  have hsome : (stock.reverse.find? (·.1 = p.id)).isSome := by
    rw [List.find?_isSome]
    obtain ⟨u, hu, hkey⟩ := List.mem_map.mp hmem
    obtain ⟨l, hlm, hu⟩ := List.mem_flatMap.mp hu
    have hkeys := List.mem_map_of_mem (f := Entry.key) hu
    rw [keys_unitsOf] at hkeys
    obtain ⟨x, hx, hxid⟩ := List.mem_map.mp hkeys
    refine ⟨(x.id, x.available), ?_, by simpa using hxid.trans hkey⟩
    rw [List.mem_reverse, hstock]
    exact List.mem_flatMap.mpr ⟨l, hlm, List.mem_map_of_mem hx⟩
  obtain ⟨e, he⟩ := Option.isSome_iff_exists.mp hsome
  have hid : e.1 = p.id := by simpa using List.find?_some he
  have hmem_e : e ∈ stock := List.mem_reverse.mp (List.mem_of_find?_eq_some he)
  show ((stock.reverse.find? (·.1 = p.id)).map Prod.snd).join = _
  rw [he, Option.map_some, Option.join_some, hvalue e hmem_e hid]

/-- The product of a unit of the quote. -/
theorem onSale_of_unit (hl : ∀ l ∈ lines, LineFrom s l) {id : ProductId}
    (hmem : id ∈ (lines.flatMap unitsOf).map Entry.key) : ∃ p, OnSale s p ∧ p.id = id := by
  obtain ⟨u, hu, hkey⟩ := List.mem_map.mp hmem
  obtain ⟨l, hlm, hu⟩ := List.mem_flatMap.mp hu
  have hkeys := List.mem_map_of_mem (f := Entry.key) hu
  rw [keys_unitsOf] at hkeys
  obtain ⟨x, hx, hxid⟩ := List.mem_map.mp hkeys
  obtain ⟨p, li, now, hp, rfl⟩ := (hl l hlm).products x hx
  exact ⟨p, hp, hxid.trans hkey⟩

theorem units_pos (hl : ∀ l ∈ lines, LineFrom s l) : ∀ u ∈ lines.flatMap unitsOf, 0 < u.qty := by
  intro u hu
  obtain ⟨l, hlm, hu⟩ := List.mem_flatMap.mp hu
  exact (hl l hlm).units u hu

/-- **A quote without a shortfall can be reserved, and only such a quote.** -/
theorem accepts_quote {input : QuoteInput} (hs : SoundRows s)
    (hl : ∀ l ∈ input.lines, LineFrom s l) :
    stockShortfalls (calculateQuote input) (PricingService.availability input.lines) = [] ↔
      Accepts s ctx (calculateQuote input).stockUnits := by
  have hpos := Tally.collect_pos (units_pos hl)
  have hnd := Tally.nodup_collect (input.lines.flatMap unitsOf)
  rw [shortfalls_nil_iff, stockUnits_eq, reserve_iff hpos]
  refine forall₂_congr fun u hu => ?_
  have hmem := Tally.mem_keys_collect.mp (List.mem_map_of_mem (f := Entry.key) hu)
  obtain ⟨p, hp, hid⟩ := onSale_of_unit hl hmem
  rw [Tally.count_of_mem hnd hu, ← hid, availability_eq hs hl hp (hid ▸ hmem),
    within_freeUnits (hpos u hu), shelf_of_row hs hp.row, ← takes_iff hs hp (hpos u hu)]
  simp

/-- What a shortfall names is what can be reserved of the product. -/
theorem shortfall_names {input : QuoteInput} (hs : SoundRows s)
    (hl : ∀ l ∈ input.lines, LineFrom s l) {x : Shortfall}
    (hx : x ∈ stockShortfalls (calculateQuote input) (PricingService.availability input.lines)) :
    ∃ p, OnSale s p ∧ p.id = x.productId ∧
      StockFacts.availableUnits p = some x.available ∧ x.available < x.requested := by
  obtain ⟨u, hu, hx⟩ := List.mem_filterMap.mp hx
  rw [stockUnits_eq] at hu
  have hmem := Tally.mem_keys_collect.mp (List.mem_map_of_mem (f := Entry.key) hu)
  obtain ⟨p, hp, hid⟩ := onSale_of_unit hl hmem
  rw [← hid, availability_eq hs hl hp (hid ▸ hmem)] at hx
  obtain ⟨a, ha, rfl⟩ := Option.map_eq_some_iff.mp hx
  obtain ⟨ha, hlt⟩ := Option.filter_eq_some_iff.mp ha
  have hqty := Tally.collect_pos (units_pos hl) u hu
  have hlt : a < u.qty := of_decide_eq_true hlt
  refine ⟨p, hp, rfl, ?_, max_lt hqty hlt⟩
  unfold freeUnits at ha
  unfold StockFacts.availableUnits
  cases ht : p.trackInventory <;> cases hb : p.allowBackorder <;> simp [ht, hb] at ha ⊢
  rw [ha]

end quote

/-! ### Everything that is shown -/

/-- What is shown of the stock is what a reservation takes. -/
structure ShowsReservable (s : Store) (ctx : StockContext) : Prop where
  product : ∀ p q, OnSale s p → 0 < q →
    (Accepts s ctx [⟨p.id, q⟩] ↔ Within q (StockFacts.productStock p).available)
  badge : ∀ p fallback, OnSale s p →
    (Accepts s ctx [⟨p.id, 1⟩] ↔ StockLike.stockStatus p fallback ≠ .out)
  listed : ∀ p, OnSale s p → (Accepts s ctx [⟨p.id, 1⟩] ↔ ProductList.sellable p = true)
  bundle : ∀ (items : List StockFacts.Part) n, items ≠ [] →
    (items.map fun it => it.product.id).Nodup → (∀ it ∈ items, OnSale s it.product) →
    (∀ it ∈ items, 0 < it.quantity) → 0 < n →
    (Accepts s ctx (StockFacts.packUnits n items) ↔
      Within n (StockFacts.bundleStock items).available)
  quote : ∀ input : QuoteInput, (∀ l ∈ input.lines, LineFrom s l) →
    (stockShortfalls (calculateQuote input) (PricingService.availability input.lines) = [] ↔
      Accepts s ctx (calculateQuote input).stockUnits)
  shortfall : ∀ input : QuoteInput, (∀ l ∈ input.lines, LineFrom s l) →
    ∀ x ∈ stockShortfalls (calculateQuote input) (PricingService.availability input.lines),
      x.available < x.requested ∧
        ∀ q, 0 < q → (Accepts s ctx [⟨x.productId, q⟩] ↔ q ≤ x.available)

/-- **Availability shown is availability reservable**, in all five places it is decided. -/
theorem shown_is_reservable (s : Store) (ctx : StockContext) (hs : SoundRows s) :
    ShowsReservable s ctx where
  product p q hp hq := by rw [accepts_product hs hp hq, within_productStock hq]
  badge p fallback hp := by rw [accepts_product hs hp Int.one_pos, stockStatus_out]
  listed p hp := by rw [accepts_product hs hp Int.one_pos, sellable_iff]
  bundle items n hne hdistinct hp hq hn := accepts_bundle hs hp hq hdistinct hne hn
  quote input hl := accepts_quote hs hl
  shortfall input hl x hx := by
    obtain ⟨p, hp, hid, havailable, hlt⟩ := shortfall_names hs hl hx
    refine ⟨hlt, fun q hq => ?_⟩
    rw [← hid, accepts_product hs hp hq, havailable, within_some]

section counted

/-- Two books on the shelf, one of them held once, and a third that is no longer sold. -/
def countedShelf : Store :=
  { products := [
      { id := 1, price := 200, stockOnHand := 5, stockReserved := 1 },
      { id := 2, price := 300, stockOnHand := 3 },
      { id := 3, price := 100, stockOnHand := 5, deletedAt := some 0 }] }

theorem countedShelf_stocked : SoundRows countedShelf := ⟨by decide, by decide⟩

theorem shown_is_reservable_counted : ShowsReservable countedShelf { now := 1 } :=
  shown_is_reservable countedShelf { now := 1 } ⟨by decide, by decide⟩

/--
The counts do not look at `deleted_at`, and the reservation does; and a bundle without
components shows no pack, while there is nothing in it that could be refused.
-/
theorem deleted_shown_not_reservable :
    ¬(∀ (s : Store) (ctx : StockContext), SoundRows s → ∀ p ∈ s.products,
      p.trackInventory = true → p.allowBackorder = false → ∀ q, 0 < q →
        (Accepts s ctx [⟨p.id, q⟩] ↔ Within q (StockFacts.productStock p).available)) ∧
    ¬(∀ (s : Store) (ctx : StockContext) n, 0 < n →
      (Accepts s ctx (StockFacts.packUnits n []) ↔
        Within n (StockFacts.bundleStock []).available)) := by
  constructor
  · intro h
    have hgone := h countedShelf { now := 1 } countedShelf_stocked
      { id := 3, price := 100, stockOnHand := 5, deletedAt := some 0 } (by decide) rfl rfl 1
      (by decide)
    have hshown : Within 1 (StockFacts.productStock
        { id := 3, price := 100, stockOnHand := 5, deletedAt := some 0 }).available := by
      show Within 1 (some 5)
      simp
    obtain ⟨r, hr, hlive, -⟩ := (reserve_iff (by simp)).mp (hgone.mpr hshown) ⟨3, 1⟩ (by simp)
    obtain rfl := Option.some.inj hr
    cases hlive
  · intro h
    have hnone : Within 1 (some 0) := (h {} { now := 1 } 1 (by decide)).mp ⟨{}, rfl⟩
    exact absurd (within_some.mp hnone) (by decide)

end counted

/-! ### The pricing service's quotes -/

namespace PricingService

variable {s : Store} {shop : Shop} {now : Instant} {lines : List (Tally.Entry LineKey)}

/-- Every entry of a loop's result is the result of one of its rounds. -/
theorem mem_mapM {α β : Type} {f : α → Except Failure β} : ∀ (l : List α) (r : List β),
    l.mapM f = .ok r → ∀ b ∈ r, ∃ a ∈ l, f a = .ok b := by
  intro l
  induction l with
  | nil =>
      intro r h b hb
      rw [List.mapM_nil] at h
      obtain rfl := Result.pure_ok.mp h
      simp at hb
  | cons a rest ih =>
      intro r h b hb
      rw [List.mapM_cons] at h
      obtain ⟨x, hx, h⟩ := Result.bind_ok.mp h
      obtain ⟨xs, hxs, h⟩ := Result.bind_ok.mp h
      obtain rfl := Result.pure_ok.mp h
      rcases List.mem_cons.mp hb with rfl | hb
      · exact ⟨a, List.mem_cons_self, hx⟩
      · obtain ⟨y, hy, hfy⟩ := ih xs hxs b hb
        exact ⟨y, List.mem_cons_of_mem a hy, hfy⟩

theorem mergeLines_pos {refs : List LineRef} (hpos : ∀ r ∈ refs, 0 < r.quantity)
    (h : mergeLines refs = .ok lines) : ∀ e ∈ lines, 0 < e.qty := by
  obtain ⟨entries, hentries, h⟩ := Result.bind_ok.mp h
  have hentry : ∀ e ∈ entries, 0 < e.qty := by
    intro e he
    obtain ⟨r, hr, hre⟩ := mem_mapM refs entries hentries e he
    obtain ⟨k, -, rfl⟩ := Result.map_ok.mp hre
    exact hpos r hr
  dsimp only at h
  split at h
  · cases h
  · obtain rfl := Except.ok.inj h
    exact Tally.collect_pos hentry

/-- The product that was found is the one asked for. -/
theorem findProduct_some {id : ProductId} {p : Product} {l : Listing}
    (h : findProduct s shop id = some (p, l)) : p ∈ s.products ∧ p.id = id := by
  obtain ⟨row, hrow, h⟩ := Option.bind_eq_some_iff.mp h
  obtain ⟨l', -, h⟩ := Option.map_eq_some_iff.mp h
  obtain ⟨rfl, -⟩ := Prod.mk.inj h
  exact ⟨Rows.mem_of_lookup hrow, Rows.key_of_lookup hrow⟩

/-- A line that was loaded is of products on sale. -/
theorem lineFrom_of_load (hcounted : ∀ p ∈ s.products,
      p.trackInventory = true ∨ p.allowBackorder = true)
    (hitems : ∀ b ∈ shop.bundles, ∀ i ∈ b.items, 0 < i.quantity) {e : Tally.Entry LineKey}
    (hq : 0 < e.qty) {l : QuoteLineInput} (h : loadLine s shop now e = .ok l) : LineFrom s l := by
  unfold loadLine at h
  cases hk : e.key.kind with
  | product =>
      rw [hk] at h
      unfold loadProduct at h
      dsimp only at h
      split at h
      · cases h
      rename_i p li hfound
      split at h
      · rename_i hsellable
        obtain rfl := Except.ok.inj h
        obtain ⟨hrow, -⟩ := findProduct_some hfound
        have hlive : p.deletedAt = none := by
          have := (Bool.and_eq_true_iff.mp hsellable).2
          simpa using this
        refine ⟨fun x hx => ?_, fun u hu => ?_⟩
        · obtain rfl := List.mem_singleton.mp hx
          exact ⟨p, li, now, ⟨hrow, hlive, hcounted p hrow⟩, rfl⟩
        · obtain rfl := List.mem_singleton.mp hu
          exact hq
      · cases h
  | bundle =>
      rw [hk] at h
      unfold loadBundle at h
      dsimp only at h
      split at h
      · cases h
      rename_i b hfound
      split at h
      · cases h
      split at h
      · cases h
      obtain rfl := Except.ok.inj h
      have hcomponent : ∀ c ∈ (b.items.filterMap fun i =>
          ((findProduct s shop i.productId).filter (·.1.deletedAt.isNone)).map fun r =>
            ({ product := toPricedProduct r.1 r.2 now, quantity := i.quantity } :
              BundleComponent)), PricedFrom s c.product ∧ 0 < c.quantity := by
        intro c hc
        obtain ⟨i, hi, hc⟩ := List.mem_filterMap.mp hc
        obtain ⟨⟨p, li⟩, hr, rfl⟩ := Option.map_eq_some_iff.mp hc
        obtain ⟨hfind, hlive⟩ := Option.filter_eq_some_iff.mp hr
        obtain ⟨hrow, -⟩ := findProduct_some hfind
        have hlive : p.deletedAt = none := by simpa using hlive
        exact ⟨⟨p, li, now, ⟨hrow, hlive, hcounted p hrow⟩, rfl⟩,
          hitems b (List.mem_of_find?_eq_some hfound) i hi⟩
      refine ⟨fun x hx => ?_, fun u hu => ?_⟩
      · obtain ⟨c, hc, rfl⟩ := List.mem_map.mp hx
        exact (hcomponent c hc).1
      · obtain ⟨c, hc, rfl⟩ := List.mem_map.mp hu
        exact mul_pos (hcomponent c hc).2 hq

/-- **The shortfalls of the pricing service decide the reservation of its quote.** -/
theorem accepts_priced {ctx : StockContext} {req : QuoteRequest} {priced : PricedLines}
    (hs : SoundRows s)
    (hcounted : ∀ p ∈ s.products, p.trackInventory = true ∨ p.allowBackorder = true)
    (hitems : ∀ b ∈ shop.bundles, ∀ i ∈ b.items, 0 < i.quantity)
    (hpos : ∀ r ∈ req.lines, 0 < r.quantity) (h : PricingService.quote s shop req = .ok priced) :
    priced.shortfalls = [] ↔ Accepts s ctx priced.quote.stockUnits := by
  obtain ⟨lines, hm, h⟩ := Result.bind_ok.mp h
  obtain ⟨district, -, h⟩ := Result.bind_ok.mp h
  have hfrom : ∀ l ∈ (loadLines s shop req.now lines).1, LineFrom s l := by
    intro l hl
    obtain ⟨e, he, hload⟩ := List.mem_filterMap.mp hl
    exact lineFrom_of_load hcounted hitems (mergeLines_pos hpos hm e he)
      (Result.toOption_some.mp hload)
  have hsame : ∀ (b : Bool) (q : Quote) available,
      stockShortfalls (noteMissing b q) available = stockShortfalls q available := by
    intro b q available
    cases b <;> rfl
  have hunits : ∀ (b : Bool) (q : Quote), (noteMissing b q).stockUnits = q.stockUnits := by
    intro b q
    cases b <;> rfl
  split at h
  · cases h
  · obtain rfl := Except.ok.inj h
    dsimp only
    rw [hsame, hunits]
    exact accepts_quote hs hfrom

end PricingService

end BookHouse
