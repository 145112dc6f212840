/-
What the inventory operations do to the stock figures.

Every operation is summed up as two signs: it moves the on-hand count by `a` and the
reserved count by `b` times the units of its lines, and the ledger by the same
(`Moves a b`).  A line is one conditional update and one movement, so it moves its own
product and nothing else; the loop over merged lines then adds up, because each
product is there once.  Batches, costs and coupons are written in between, but none of
them is a stock figure (`SameStock`).
-/
import BookHouse.Lib.Result
import BookHouse.Orders.Transition

namespace BookHouse

open Tally (Entry count)

/-! ### The stock figures of a store -/

namespace Store

variable (s : Store) (p : ProductId)

def onHand : ℤ := ((Rows.lookup Product.id p s.products).map (·.stockOnHand)).getD 0

def reserved : ℤ := ((Rows.lookup Product.id p s.products).map (·.stockReserved)).getD 0

def ledgerOnHand : ℤ :=
  (s.movements.map fun m => if m.productId = p then m.qtyOnHandDelta else 0).sum

def ledgerReserved : ℤ :=
  (s.movements.map fun m => if m.productId = p then m.qtyReservedDelta else 0).sum

def knows : Prop := p ∈ s.products.map Product.id

end Store

/-- What of an order the stock depends on. -/
structure StockView where
  id : OrderId
  status : OrderStatus
  stockReserved : Bool
  shipped : Bool
  lines : List StockLine

def Order.stockView (o : Order) : StockView :=
  { id := o.id, status := o.status, stockReserved := o.stockReserved,
    shipped := o.shippedAt.isSome, lines := stockLinesOf o.items }

/-- Nothing the stock figures are read from differs. -/
structure SameStock (s t : Store) : Prop where
  onHand : ∀ p, t.onHand p = s.onHand p
  reserved : ∀ p, t.reserved p = s.reserved p
  products : t.products.map Product.id = s.products.map Product.id
  movements : t.movements = s.movements
  orders : t.orders.map Order.stockView = s.orders.map Order.stockView

namespace SameStock

variable {s t u : Store}

theorem refl (s : Store) : SameStock s s := ⟨fun _ => rfl, fun _ => rfl, rfl, rfl, rfl⟩

theorem trans (h : SameStock s t) (h' : SameStock t u) : SameStock s u :=
  ⟨fun p => (h'.onHand p).trans (h.onHand p), fun p => (h'.reserved p).trans (h.reserved p),
    h'.products.trans h.products, h'.movements.trans h.movements, h'.orders.trans h.orders⟩

/-- Writing tables the stock figures are not read from. -/
theorem of_tables (hp : t.products = s.products) (hm : t.movements = s.movements)
    (ho : t.orders = s.orders) : SameStock s t := by
  refine ⟨fun p => ?_, fun p => ?_, by rw [hp], hm, by rw [ho]⟩
  · rw [Store.onHand, hp, Store.onHand]
  · rw [Store.reserved, hp, Store.reserved]

/-- Writing columns of products that are not stock counts. -/
theorem of_modify_product {id : ProductId} {f : Product → Product}
    (hf : ∀ p, (f p).id = p.id ∧ (f p).stockOnHand = p.stockOnHand ∧
      (f p).stockReserved = p.stockReserved) (s : Store) :
    SameStock s { s with products := Rows.modify Product.id id f s.products } := by
  refine ⟨fun p => ?_, fun p => ?_, Rows.map_modify fun r => (hf r).1, rfl, rfl⟩
  · have hmap : (Rows.modify Product.id id f s.products).map (fun r => (r.id, r.stockOnHand)) =
        s.products.map fun r => (r.id, r.stockOnHand) :=
      Rows.map_modify fun r => by rw [(hf r).1, (hf r).2.1]
    rw [Store.onHand, Store.onHand, Rows.lookup_map_congr hmap]
  · have hmap : (Rows.modify Product.id id f s.products).map (fun r => (r.id, r.stockReserved)) =
        s.products.map fun r => (r.id, r.stockReserved) :=
      Rows.map_modify fun r => by rw [(hf r).1, (hf r).2.2]
    rw [Store.reserved, Store.reserved, Rows.lookup_map_congr hmap]

/-- Writing columns of orders the stock does not depend on. -/
theorem of_modify_order {id : OrderId} {f : Order → Order}
    (hf : ∀ o, (f o).stockView = o.stockView) (s : Store) :
    SameStock s { s with orders := Rows.modify Order.id id f s.orders } :=
  ⟨fun _ => rfl, fun _ => rfl, rfl, rfl, Rows.map_modify hf⟩

end SameStock

/-! ### Batches and costs are not stock figures -/

namespace Inventory

theorem sameStock_refreshCost (s : Store) (p : ProductId) : SameStock s (refreshCost s p) := by
  unfold refreshCost
  split
  · exact SameStock.refl s
  · refine SameStock.of_modify_product ?_ s
    exact fun _ => ⟨rfl, rfl, rfl⟩

theorem sameStock_createLot {s t : Store} {p : ProductId} {source : LotSource} {qty : ℤ}
    {cost price : Option Money} {purchase : Option PurchaseId} {at_ : Option Instant}
    {now : Instant} (h : createLot s p source qty cost price purchase at_ now = .ok t) :
    SameStock s t := by
  unfold createLot at h
  split at h
  · cases h
  split at h
  · cases h
  obtain rfl := Except.ok.inj h
  exact SameStock.of_tables rfl rfl rfl

theorem sameStock_takeFrom (o : Option OrderId) (p : ProductId) (now : Instant) :
    ∀ (lots : List StockLot) (need : ℤ) (s : Store) (used : List Used),
      SameStock s (takeFrom o p now lots need s used).1 := by
  intro lots
  induction lots with
  | nil => intro need s used; exact SameStock.refl s
  | cons lot rest ih =>
      intro need s used
      rw [takeFrom]
      split
      · exact SameStock.refl s
      · refine SameStock.trans ?_ (ih _ _ _)
        exact SameStock.of_tables rfl rfl rfl

theorem sameStock_consume (s : Store) (p : ProductId) (qty : ℤ) (o : Option OrderId)
    (now : Instant) : SameStock s (consume s p qty o now).1 := by
  have htake := sameStock_takeFrom o p now (openLots s p) qty s []
  exact htake.trans (sameStock_refreshCost _ p)

theorem sameStock_giveBack :
    ∀ (uses : List StockLotConsumption) (left : ℤ) (s : Store),
      SameStock s (giveBack uses left s).1 := by
  intro uses
  induction uses with
  | nil => intro left s; exact SameStock.refl s
  | cons u rest ih =>
      intro left s
      rw [giveBack]
      split
      · exact SameStock.refl s
      · dsimp only
        split
        · exact ih left s
        · refine SameStock.trans ?_ (ih _ _)
          exact SameStock.of_tables rfl rfl rfl

theorem sameStock_returnToLots (s : Store) (p : ProductId) (qty : ℤ) (o : Option OrderId) :
    SameStock s (returnToLots s p qty o).1 := by
  cases o with
  | none => exact SameStock.refl s
  | some o => exact sameStock_giveBack _ _ _

theorem sameStock_unconsume {s t : Store} {p : ProductId} {qty : ℤ} {ctx : StockContext}
    (h : unconsume s p qty ctx = .ok t) : SameStock s t := by
  obtain ⟨u, hu, rfl⟩ := Result.map_ok.mp h
  refine SameStock.trans (sameStock_returnToLots s p qty ctx.orderId) ?_
  refine SameStock.trans ?_ (sameStock_refreshCost u p)
  split at hu
  · exact sameStock_createLot hu
  · obtain rfl := Except.ok.inj hu
    exact SameStock.refl _

theorem stockLinesOf_stampCost (p : ProductId) (avg : Money) (items : List OrderItem) :
    stockLinesOf (items.map (OrderItem.stampCost p avg)) = stockLinesOf items := by
  unfold stockLinesOf
  rw [List.flatMap_map]
  refine List.flatMap_congr fun i _ => ?_
  simp [OrderItem.stampCost, Function.comp_def]

theorem sameStock_stampOrderCost (s : Store) (o : OrderId) (p : ProductId) (used : List Used) :
    SameStock s (stampOrderCost s o p used) := by
  unfold stampOrderCost
  split
  · exact SameStock.refl s
  · refine SameStock.of_modify_order (fun x => ?_) s
    simp [Order.stockView, stockLinesOf_stampCost]

end Inventory

/-! ### One line moves one product -/

/-- The stock figures move by `a` and `b` times the units of the lines, the ledger too. -/
structure Moves (a b : ℤ) (s : Store) (lines : List StockLine) (t : Store) : Prop where
  onHand : ∀ p, t.onHand p = s.onHand p + a * count p lines
  reserved : ∀ p, t.reserved p = s.reserved p + b * count p lines
  ledgerOnHand : ∀ p, t.ledgerOnHand p = s.ledgerOnHand p + a * count p lines
  ledgerReserved : ∀ p, t.ledgerReserved p = s.ledgerReserved p + b * count p lines
  products : t.products.map Product.id = s.products.map Product.id
  orders : t.orders.map Order.stockView = s.orders.map Order.stockView

namespace Moves

variable {a b : ℤ} {s t u : Store} {lines lines' : List StockLine}

theorem of_same (h : SameStock s t) : Moves a b s [] t := by
  refine ⟨fun p => ?_, fun p => ?_, fun p => ?_, fun p => ?_, h.products, h.orders⟩
  · simp [h.onHand]
  · simp [h.reserved]
  · simp [Store.ledgerOnHand, h.movements]
  · simp [Store.ledgerReserved, h.movements]

theorem append (h : Moves a b s lines u) (h' : Moves a b u lines' t) :
    Moves a b s (lines ++ lines') t := by
  refine ⟨fun p => ?_, fun p => ?_, fun p => ?_, fun p => ?_, h'.products.trans h.products,
    h'.orders.trans h.orders⟩
  · rw [h'.onHand, h.onHand, Tally.count_append]
    ring
  · rw [h'.reserved, h.reserved, Tally.count_append]
    ring
  · rw [h'.ledgerOnHand, h.ledgerOnHand, Tally.count_append]
    ring
  · rw [h'.ledgerReserved, h.ledgerReserved, Tally.count_append]
    ring

theorem then_same (h : Moves a b s lines u) (h' : SameStock u t) : Moves a b s lines t := by
  simpa using h.append (of_same h')

theorem of_count (h : Moves a b s lines t) (hc : ∀ p, count p lines = count p lines') :
    Moves a b s lines' t := by
  refine ⟨fun p => ?_, fun p => ?_, fun p => ?_, fun p => ?_, h.products, h.orders⟩
  · rw [h.onHand, hc]
  · rw [h.reserved, hc]
  · rw [h.ledgerOnHand, hc]
  · rw [h.ledgerReserved, hc]

theorem knows_iff (h : Moves a b s lines t) (p : ProductId) : t.knows p ↔ s.knows p := by
  rw [Store.knows, h.products, Store.knows]

end Moves

namespace Inventory

variable {s t u : Store} {l : StockLine} {ctx : StockContext} {cond : Product → Bool}
  {f : Product → Product} {p' : Product} {id : ProductId} {clamp : ℤ → ℤ}

/-- The row a conditional update hit, and the store it left. -/
theorem updateProduct_some (h : updateProduct s id cond f = .ok (some (p', t))) :
    ∃ p, Rows.lookup Product.id id s.products = some p ∧ cond p ∧ p' = f p ∧
      t = { s with products := Rows.modify Product.id id f s.products } := by
  unfold updateProduct at h
  cases hl : (Rows.lookup Product.id id s.products).filter cond with
  | none => simp [hl] at h
  | some p =>
      rw [hl] at h
      obtain ⟨-, -, hret⟩ := Result.bind_ok.mp h
      obtain ⟨hp, hcond⟩ := Option.filter_eq_some_iff.mp hl
      obtain ⟨rfl, rfl⟩ := Prod.mk.inj (Option.some.inj (Except.ok.inj hret))
      exact ⟨p, hp, hcond, rfl, rfl⟩

/-- An update that hit no row: there is none, or the condition failed. -/
theorem updateProduct_none (h : updateProduct s id cond f = .ok none) :
    ∀ p, Rows.lookup Product.id id s.products = some p → cond p = false := by
  intro p hp
  unfold updateProduct at h
  rw [hp] at h
  by_cases hc : cond p
  · simp only [Option.filter_some, hc, if_true] at h
    obtain ⟨-, -, hret⟩ := Result.bind_ok.mp h
    exact absurd (Except.ok.inj hret) (by simp)
  · simpa using hc

theorem log_ok {type : StockMovementType} {dOn dRes : ℤ} {cost : Option Money}
    (h : log s p' type dOn dRes ctx cost = .ok t) :
    ∃ m : StockMovement, m.productId = p'.id ∧ m.qtyOnHandDelta = dOn ∧
      m.qtyReservedDelta = dRes ∧ t = { s with movements := s.movements ++ [m] } := by
  unfold log at h
  split at h
  · cases h
  split at h
  · cases h
  exact ⟨_, rfl, rfl, rfl, (Except.ok.inj h).symm⟩

/-- A count of the updated product, and of every other one. -/
theorem column_modify {g : Product → ℤ} {d : ℤ} {p : Product}
    (hp : Rows.lookup Product.id l.key s.products = some p) (hid : ∀ r, (f r).id = r.id)
    (hg : g (f p) = g p + d * l.qty) (q : ProductId) :
    ((Rows.lookup Product.id q (Rows.modify Product.id l.key f s.products)).map g).getD 0 =
      ((Rows.lookup Product.id q s.products).map g).getD 0 + d * count q [l] := by
  by_cases hq : q = l.key
  · subst hq
    rw [Rows.lookup_modify_self hid, hp]
    simp [hg]
  · have hne : ¬l.key = q := fun hc => hq hc.symm
    rw [Rows.lookup_modify_ne hid hq]
    simp [hne]

/-- **An update of one product with its movement moves that product.** -/
theorem line_moves {a b : ℤ} {type : StockMovementType} {cost : Option Money}
    (hu : updateProduct s l.key cond f = .ok (some (p', u)))
    (hlog : log u p' type (a * l.qty) (b * l.qty) ctx cost = .ok t)
    (hid : ∀ r, (f r).id = r.id)
    (hf : ∀ p, Rows.lookup Product.id l.key s.products = some p →
      (f p).stockOnHand = p.stockOnHand + a * l.qty ∧
        (f p).stockReserved = p.stockReserved + b * l.qty) :
    Moves a b s [l] t := by
  obtain ⟨p, hp, -, rfl, rfl⟩ := updateProduct_some hu
  obtain ⟨m, hm, hon, hres, rfl⟩ := log_ok hlog
  have hkey : (f p).id = l.key := (hid p).trans (Rows.key_of_lookup hp)
  rw [hkey] at hm
  refine ⟨column_modify hp hid (hf p hp).1, column_modify hp hid (hf p hp).2, fun q => ?_,
    fun q => ?_, Rows.map_modify hid, rfl⟩
  · simp [Store.ledgerOnHand, hm, hon]
  · simp [Store.ledgerReserved, hm, hres]

theorem reserveLine_moves (h : reserveLine ctx s l = .ok t) : Moves 0 1 s [l] t := by
  obtain ⟨updated, hu, h⟩ := Result.bind_ok.mp h
  cases updated with
  | none =>
      dsimp only at h
      split at h
      · cases h
      · cases h
  | some r =>
      obtain ⟨p', u⟩ := r
      refine line_moves (a := 0) (b := 1) hu (by simpa using h) (fun _ => rfl) fun p _ => ?_
      simp

theorem reserveLine_knows (h : reserveLine ctx s l = .ok t) : s.knows l.key := by
  obtain ⟨updated, hu, h⟩ := Result.bind_ok.mp h
  cases updated with
  | none =>
      dsimp only at h
      split at h
      · cases h
      · cases h
  | some r =>
      obtain ⟨p, hp, -⟩ := updateProduct_some hu
      exact Rows.lookup_isSome.mp (by rw [hp]; rfl)

/-- A clamp that leaves non-negative counts alone. -/
def Clamps (clamp : ℤ → ℤ) : Prop := ∀ x, 0 ≤ x → clamp x = x

theorem clamps_clampZero : Clamps clampZero := fun _ hx => max_eq_left hx

theorem clamps_id : Clamps fun x => x := fun _ _ => rfl

/-- A hold of the line's units is there to be given back. -/
def Held (s : Store) (l : StockLine) : Prop := s.knows l.key ∧ l.qty ≤ s.reserved l.key

private theorem held_lookup (h : Held s l) :
    ∃ p, Rows.lookup Product.id l.key s.products = some p ∧ l.qty ≤ p.stockReserved := by
  obtain ⟨p, hp⟩ := Option.isSome_iff_exists.mp (Rows.lookup_isSome.mpr h.1)
  have hres := h.2
  rw [Store.reserved, hp] at hres
  exact ⟨p, hp, hres⟩

theorem releaseLine_moves (hc : Clamps clamp) (hh : Held s l)
    (h : releaseLine clamp ctx s l = .ok t) : Moves 0 (-1) s [l] t := by
  obtain ⟨p, hp, hle⟩ := held_lookup hh
  obtain ⟨updated, hu, h⟩ := Result.bind_ok.mp h
  cases updated with
  | none => exact absurd (updateProduct_none hu p hp) (by simp)
  | some r =>
      obtain ⟨p', u⟩ := r
      refine line_moves (a := 0) (b := -1) hu (by simpa using h) (fun _ => rfl) fun q hq => ?_
      obtain rfl := Option.some.inj (hp.symm.trans hq)
      refine ⟨by simp, ?_⟩
      show clamp (p.stockReserved - l.qty) = _
      rw [hc _ (by omega)]
      ring

theorem fulfillLine_moves {r r' : Store × List LowStockHit} (hc : Clamps clamp)
    (hh : Held r.1 l) (h : fulfillLine clamp ctx r l = .ok r') :
    Moves (-1) (-1) r.1 [l] r'.1 := by
  obtain ⟨p, hp, hle⟩ := held_lookup hh
  obtain ⟨updated, hu, h⟩ := Result.bind_ok.mp h
  cases updated with
  | none => cases h
  | some x =>
      obtain ⟨p', u⟩ := x
      obtain ⟨v, hlog, h⟩ := Result.bind_ok.mp h
      have hline : Moves (-1) (-1) r.1 [l] v := by
        refine line_moves (a := -1) (b := -1) hu (by simpa using hlog) (fun _ => rfl)
          fun q hq => ?_
        obtain rfl := Option.some.inj (hp.symm.trans hq)
        refine ⟨by simp; ring, ?_⟩
        show clamp (p.stockReserved - l.qty) = _
        rw [hc _ (by omega)]
        ring
      obtain rfl := Except.ok.inj h
      refine (hline.then_same (sameStock_consume v l.key l.qty ctx.orderId ctx.now)).then_same ?_
      dsimp only
      split
      · exact SameStock.refl _
      · exact sameStock_stampOrderCost _ _ _ _

theorem restockLine_moves (hk : s.knows l.key) (h : restockLine ctx s l = .ok t) :
    Moves 1 0 s [l] t := by
  obtain ⟨p, hp⟩ := Option.isSome_iff_exists.mp (Rows.lookup_isSome.mpr hk)
  obtain ⟨updated, hu, h⟩ := Result.bind_ok.mp h
  cases updated with
  | none => exact absurd (updateProduct_none hu p hp) (by simp)
  | some r =>
      obtain ⟨p', u⟩ := r
      obtain ⟨v, hlog, h⟩ := Result.bind_ok.mp h
      refine Moves.then_same ?_ (sameStock_unconsume h)
      refine line_moves (a := 1) (b := 0) hu (by simpa using hlog) (fun _ => rfl) fun q _ => ?_
      simp

/-! ### The loop over merged lines -/

/-- Merged lines are one per product and carry the same units. -/
theorem merge_ok {lines m : List StockLine} (h : merge lines = .ok m) :
    (∀ l ∈ lines, 0 < l.qty) ∧ (m.map Entry.key).Nodup ∧
      (∀ p, count p m = count p lines) ∧
      (∀ l ∈ m, l.qty = count l.key lines) ∧
      ∀ p, p ∈ m.map Entry.key ↔ p ∈ lines.map Entry.key := by
  unfold merge at h
  split at h
  · cases h
  rename_i hpos
  have hperm : m.Perm (Tally.collect lines) := by
    rw [← Except.ok.inj h]
    exact List.perm_insertionSort _ _
  refine ⟨fun l hl => ?_, ?_, fun p => ?_, fun l hl => ?_, fun p => ?_⟩
  · by_contra hc
    exact hpos (List.any_eq_true.mpr ⟨l, hl, by simpa using hc⟩)
  · exact (hperm.map _).nodup_iff.mpr (Tally.nodup_collect lines)
  · rw [Tally.count_perm hperm, Tally.count_collect]
  · exact Tally.qty_of_mem_collect (hperm.mem_iff.mp hl)
  · rw [(hperm.map _).mem_iff, Tally.mem_keys_collect]

/--
A loop whose rounds move one line each moves all of them.  A round may ask `P` of its
line, and a round on another product leaves that alone: the keys are distinct, so what
holds of every line at the start holds of each line when its turn comes.
-/
theorem foldlM_moves {σ : Type} {π : σ → Store} {g : σ → StockLine → Except Failure σ}
    {a b : ℤ} {P : Store → StockLine → Prop}
    (hround : ∀ x l y, P (π x) l → g x l = .ok y → Moves a b (π x) [l] (π y))
    (hkeep : ∀ s l l' t, l'.key ≠ l.key → P s l → Moves a b s [l'] t → P t l) :
    ∀ (m : List StockLine) (x y : σ), (m.map Entry.key).Nodup → (∀ l ∈ m, P (π x) l) →
      m.foldlM g x = .ok y → Moves a b (π x) m (π y) := by
  intro m
  induction m with
  | nil =>
      intro x y _ _ h
      obtain rfl := Result.foldlM_nil_ok.mp h
      exact Moves.of_same (SameStock.refl _)
  | cons l rest ih =>
      intro x y hnd hok h
      rw [List.map_cons, List.nodup_cons] at hnd
      obtain ⟨z, hz, hrest⟩ := Result.foldlM_cons_ok.mp h
      have hl := hround x l z (hok l (by simp)) hz
      have hok' : ∀ l' ∈ rest, P (π z) l' := by
        intro l' hl'
        have hne : l.key ≠ l'.key := fun hc => hnd.1 (hc ▸ List.mem_map_of_mem hl')
        exact hkeep _ l' l _ hne (hok l' (by simp [hl'])) hl
      exact hl.append (ih z y hnd.2 hok' hrest)

theorem held_keep {a b : ℤ} {l' : StockLine} (hne : l'.key ≠ l.key) (h : Held s l)
    (hm : Moves a b s [l'] t) : Held t l := by
  refine ⟨(hm.knows_iff _).mpr h.1, ?_⟩
  have hz : count l.key [l'] = 0 := by simp [hne]
  rw [hm.reserved, hz, mul_zero, add_zero]
  exact h.2

variable {lines : List StockLine}

/-- **Reserving raises the reserved counts by the lines' units, all of them known.** -/
theorem reserve_moves (h : reserve s lines ctx = .ok t) :
    Moves 0 1 s lines t ∧ ∀ l ∈ lines, 0 < l.qty ∧ s.knows l.key := by
  obtain ⟨m, hm, h⟩ := Result.bind_ok.mp h
  obtain ⟨hpos, hnd, hcount, -, hkeys⟩ := merge_ok hm
  have hmoves : Moves 0 1 s m t :=
    foldlM_moves (π := fun s => s) (P := fun _ _ => True) (fun _ _ _ _ hr => reserveLine_moves hr)
      (fun _ _ _ _ _ _ _ => trivial) m s t hnd (fun _ _ => trivial) h
  have hknows : ∀ (m : List StockLine) (s t : Store), m.foldlM (reserveLine ctx) s = .ok t →
      ∀ l ∈ m, s.knows l.key := by
    intro m
    induction m with
    | nil => intro s t _ l hl; simp at hl
    | cons a rest ih =>
        intro s t h l hl
        obtain ⟨u, hu, hrest⟩ := Result.foldlM_cons_ok.mp h
        rcases List.mem_cons.mp hl with rfl | hr
        · exact reserveLine_knows hu
        · exact ((reserveLine_moves hu).knows_iff _).mp (ih u t hrest l hr)
  refine ⟨hmoves.of_count hcount, fun l hl => ⟨hpos l hl, ?_⟩⟩
  obtain ⟨x, hx, hkey⟩ := List.mem_map.mp ((hkeys l.key).mpr (List.mem_map_of_mem hl))
  exact hkey ▸ hknows m s t h x hx

/-- The lines' units are held: each product is known and enough of it is reserved. -/
def AllHeld (s : Store) (lines : List StockLine) : Prop :=
  ∀ l ∈ lines, s.knows l.key ∧ count l.key lines ≤ s.reserved l.key

private theorem allHeld_merged {m : List StockLine} (hh : AllHeld s lines)
    (hm : merge lines = .ok m) : ∀ l ∈ m, Held s l := by
  obtain ⟨-, -, -, hqty, hkeys⟩ := merge_ok hm
  intro l hl
  obtain ⟨x, hx, hkey⟩ := List.mem_map.mp ((hkeys l.key).mp (List.mem_map_of_mem hl))
  have hx' := hh x hx
  rw [hkey] at hx'
  exact ⟨hx'.1, (hqty l hl).trans_le hx'.2⟩

/-- **Releasing lowers the reserved counts by the lines' units.** -/
theorem release_moves (hc : Clamps clamp) (hh : AllHeld s lines)
    (h : release clamp s lines ctx = .ok t) : Moves 0 (-1) s lines t := by
  obtain ⟨m, hm, h⟩ := Result.bind_ok.mp h
  have hmoves : Moves 0 (-1) s m t :=
    foldlM_moves (π := fun s => s) (P := Held) (fun _ _ _ hok hr => releaseLine_moves hc hok hr)
      (fun _ _ _ _ hne hok hr => held_keep hne hok hr) m s t (merge_ok hm).2.1
      (allHeld_merged hh hm) h
  exact hmoves.of_count (merge_ok hm).2.2.1

/-- **Fulfilling lowers both counts by the lines' units.** -/
theorem fulfill_moves {low : List LowStockHit} (hc : Clamps clamp) (hh : AllHeld s lines)
    (h : fulfill clamp s lines ctx = .ok (t, low)) : Moves (-1) (-1) s lines t := by
  obtain ⟨m, hm, h⟩ := Result.bind_ok.mp h
  have hmoves : Moves (-1) (-1) s m t :=
    foldlM_moves (π := Prod.fst) (P := Held) (fun _ _ _ hok hr => fulfillLine_moves hc hok hr)
      (fun _ _ _ _ hne hok hr => held_keep hne hok hr) m (s, []) (t, low) (merge_ok hm).2.1
      (allHeld_merged hh hm) h
  exact hmoves.of_count (merge_ok hm).2.2.1

/-- **Restocking raises the on-hand counts by the lines' units.** -/
theorem restock_moves (hk : ∀ l ∈ lines, s.knows l.key) (h : restock s lines ctx = .ok t) :
    Moves 1 0 s lines t := by
  obtain ⟨m, hm, h⟩ := Result.bind_ok.mp h
  have hknown : ∀ l ∈ m, s.knows l.key := by
    intro l hl
    obtain ⟨x, hx, hkey⟩ :=
      List.mem_map.mp (((merge_ok hm).2.2.2.2 l.key).mp (List.mem_map_of_mem hl))
    exact hkey ▸ hk x hx
  have hmoves : Moves 1 0 s m t :=
    foldlM_moves (π := fun s => s) (P := fun s l => s.knows l.key)
      (fun _ _ _ hok hr => restockLine_moves hok hr)
      (fun _ _ _ _ _ hok hr => (hr.knows_iff _).mpr hok) m s t (merge_ok hm).2.1 hknown h
  exact hmoves.of_count (merge_ok hm).2.2.1

/-! ### The clamps never bind on held units -/

private theorem updateProduct_congr {f f' : Product → Product}
    (h : ∀ p, Rows.lookup Product.id id s.products = some p → f p = f' p)
    (hnd : (s.products.map Product.id).Nodup) :
    updateProduct s id cond f = updateProduct s id cond f' := by
  unfold updateProduct
  cases hl : (Rows.lookup Product.id id s.products).filter cond with
  | none => rfl
  | some p =>
      have hp := (Option.filter_eq_some_iff.mp hl).1
      have hmod : Rows.modify Product.id id f s.products =
          Rows.modify Product.id id f' s.products := by
        refine List.map_congr_left fun r hr => ?_
        by_cases hk : r.id = id
        · have hr' := Rows.lookup_of_mem hnd hr
          rw [hk] at hr'
          rw [if_pos hk, if_pos hk, h r hr']
        · rw [if_neg hk, if_neg hk]
      dsimp only
      rw [h p hp, hmod]

private theorem clamp_held (hc : Clamps clamp) (hh : Held s l) {p : Product}
    (hp : Rows.lookup Product.id l.key s.products = some p) :
    clamp (p.stockReserved - l.qty) = p.stockReserved - l.qty := by
  obtain ⟨q, hq, hle⟩ := held_lookup hh
  obtain rfl := Option.some.inj (hp.symm.trans hq)
  exact hc _ (by omega)

theorem releaseLine_clamp (hc : Clamps clamp) (hnd : (s.products.map Product.id).Nodup)
    (hh : Held s l) : releaseLine clamp ctx s l = releaseLine (fun x => x) ctx s l := by
  unfold releaseLine
  rw [updateProduct_congr (fun p hp => by rw [clamp_held hc hh hp]) hnd]

theorem fulfillLine_clamp {r : Store × List LowStockHit} (hc : Clamps clamp)
    (hnd : (r.1.products.map Product.id).Nodup) (hh : Held r.1 l) :
    fulfillLine clamp ctx r l = fulfillLine (fun x => x) ctx r l := by
  unfold fulfillLine
  rw [updateProduct_congr (fun p hp => by rw [clamp_held hc hh hp]) hnd]

/-- What the loop needs of the lines that are still to come. -/
private def HeldRest (s : Store) (m : List StockLine) : Prop :=
  (s.products.map Product.id).Nodup ∧ (m.map Entry.key).Nodup ∧ ∀ l ∈ m, Held s l

private theorem heldRest_step {a b : ℤ} {rest : List StockLine}
    (h : HeldRest s (l :: rest)) (hm : Moves a b s [l] t) : HeldRest t rest := by
  obtain ⟨hnd, hkeys, hheld⟩ := h
  rw [List.map_cons, List.nodup_cons] at hkeys
  refine ⟨by rw [hm.products]; exact hnd, hkeys.2, fun l' hl' => ?_⟩
  have hne : l.key ≠ l'.key := fun hc => hkeys.1 (hc ▸ List.mem_map_of_mem hl')
  exact held_keep hne (hheld l' (by simp [hl'])) hm

/-- **Releasing held units never needs the clamp.** -/
theorem release_clamp (hc : Clamps clamp) (hnd : (s.products.map Product.id).Nodup)
    (hh : AllHeld s lines) : release clamp s lines ctx = release (fun x => x) s lines ctx := by
  unfold release
  cases hm : merge lines with
  | error e => rfl
  | ok m =>
      refine Result.foldlM_congr (I := HeldRest) (fun s l rest h => ?_)
        (fun s l rest t h hr => ?_) m s ⟨hnd, (merge_ok hm).2.1, allHeld_merged hh hm⟩
      · exact releaseLine_clamp hc h.1 (h.2.2 l (by simp))
      · exact heldRest_step h (releaseLine_moves hc (h.2.2 l (by simp)) hr)

/-- **Fulfilling held units never needs the clamp.** -/
theorem fulfill_clamp (hc : Clamps clamp) (hnd : (s.products.map Product.id).Nodup)
    (hh : AllHeld s lines) : fulfill clamp s lines ctx = fulfill (fun x => x) s lines ctx := by
  unfold fulfill
  cases hm : merge lines with
  | error e => rfl
  | ok m =>
      refine Result.foldlM_congr (I := fun r m => HeldRest r.1 m) (fun r l rest h => ?_)
        (fun r l rest t h hr => ?_) m (s, []) ⟨hnd, (merge_ok hm).2.1, allHeld_merged hh hm⟩
      · exact fulfillLine_clamp hc h.1 (h.2.2 l (by simp))
      · exact heldRest_step h (fulfillLine_moves hc (h.2.2 l (by simp)) hr)

/-! ### Receipts and corrections -/

variable {productId : ProductId}

/-- **A receipt raises the on-hand count of its product by its quantity.** -/
theorem addBatch_moves {qty : ℤ} {batch : Batch}
    (h : addBatch s productId qty batch ctx = .ok t) : Moves 1 0 s [⟨productId, qty⟩] t := by
  unfold addBatch at h
  split at h
  · cases h
  cases hl : Rows.lookup Product.id productId s.products with
  | none => simp [hl] at h
  | some cur =>
      simp only [hl] at h
      obtain ⟨updated, hu, h⟩ := Result.bind_ok.mp h
      cases updated with
      | none => cases h
      | some r =>
          obtain ⟨p', u⟩ := r
          obtain ⟨v, hlog, h⟩ := Result.bind_ok.mp h
          obtain ⟨w, hlot, hret⟩ := Result.bind_ok.mp h
          obtain rfl := Except.ok.inj hret
          refine Moves.then_same (Moves.then_same ?_ (sameStock_createLot hlot))
            (sameStock_refreshCost w productId)
          refine line_moves (l := ⟨productId, qty⟩) (a := 1) (b := 0) hu (by simpa using hlog)
            (fun _ => rfl) fun q _ => ?_
          simp

/-- **A correction moves the on-hand count of its product to the figure counted.** -/
theorem setOnHand_moves {onHand : ℤ} {type : Option StockMovementType}
    (h : setOnHand s productId onHand ctx type = .ok t) :
    Moves 1 0 s [⟨productId, onHand - s.onHand productId⟩] t := by
  unfold setOnHand at h
  split at h
  · cases h
  cases hl : Rows.lookup Product.id productId s.products with
  | none => simp [hl] at h
  | some cur =>
      have hcur : s.onHand productId = cur.stockOnHand := by
        rw [Store.onHand, hl]
        rfl
      simp only [hl] at h
      rw [hcur]
      split at h
      · rename_i hz
        obtain rfl := Except.ok.inj h
        refine (Moves.of_same (SameStock.refl s)).of_count fun p => ?_
        simp [hz]
      split at h
      · cases h
      obtain ⟨updated, hu, h⟩ := Result.bind_ok.mp h
      cases updated with
      | none => cases h
      | some r =>
          obtain ⟨p', u⟩ := r
          obtain ⟨v, hlog, h⟩ := Result.bind_ok.mp h
          obtain ⟨w, hlot, rfl⟩ := Result.map_ok.mp h
          refine Moves.then_same ?_ (sameStock_refreshCost w productId)
          have hline : Moves 1 0 s [⟨productId, onHand - cur.stockOnHand⟩] v := by
            refine line_moves (l := ⟨productId, onHand - cur.stockOnHand⟩) (a := 1) (b := 0) hu
              (by simpa using hlog) (fun _ => rfl) fun q hq => ?_
            obtain rfl := Option.some.inj (hl.symm.trans hq)
            simp
          refine hline.then_same ?_
          split at hlot
          · exact sameStock_createLot hlot
          · obtain rfl := Except.ok.inj hlot
            exact sameStock_consume _ _ _ _ _

end Inventory

end BookHouse
