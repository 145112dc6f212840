/-
Stock conservation over whole order lifecycles.

An order says through two flags where its units are: `stockReserved` (held on the
shelf) and `shippedAt` (gone).  The invariant ties the product counters to the sums
over those flags, and has to carry one more thing, that the flags exclude each other
on every order (`StockView.Consistent`): a void picks its stock effect by `shippedAt`
alone, and would give back units that were never held otherwise.

Each service call is one order row changing its view while its lines move by two
signs, so one lemma (`StockInv.order_step`) serves the transitions and the reopen.
-/
import BookHouse.Orders.StockMachine
import BookHouse.Proofs.Inventory
import BookHouse.Proofs.Status

namespace BookHouse

open Tally (Entry count)
open Machine

namespace Store

/-- The units of `p` in the orders that hold their stock. -/
def heldUnits (s : Store) (p : ProductId) : ℤ :=
  ((s.orders.filter (·.stockReserved)).map fun o => count p (stockLinesOf o.items)).sum

/-- The units of `p` in the orders that were shipped and neither cancelled nor returned. -/
def outUnits (s : Store) (p : ProductId) : ℤ :=
  ((s.orders.filter fun o => o.shippedAt.isSome && !o.status.isTerminal).map
    fun o => count p (stockLinesOf o.items)).sum

end Store

/-! ### Where the units of one order are -/

namespace StockView

def held (p : ProductId) (v : StockView) : ℤ := if v.stockReserved then count p v.lines else 0

def out (p : ProductId) (v : StockView) : ℤ :=
  if v.shipped && !v.status.isTerminal then count p v.lines else 0

/-- An open order holds its units or has shipped them; a closed one does not hold any. -/
structure Consistent (v : StockView) : Prop where
  closed : v.status.isTerminal = true → v.stockReserved = false
  opened : v.status.isTerminal = false → v.stockReserved = !v.shipped

end StockView

theorem sum_filter_map {α : Type*} (c : α → Bool) (f : α → ℤ) (l : List α) :
    ((l.filter c).map f).sum = (l.map fun a => if c a then f a else 0).sum := by
  induction l with
  | nil => rfl
  | cons a rest ih => by_cases h : c a <;> simp [h, ih]

/-- The orders of a store as the stock sees them. -/
def Store.views (s : Store) : List StockView := s.orders.map Order.stockView

theorem Store.heldUnits_eq (s : Store) (p : ProductId) :
    s.heldUnits p = (s.views.map (StockView.held p)).sum := by
  rw [Store.heldUnits, sum_filter_map, Store.views, List.map_map]
  rfl

theorem Store.outUnits_eq (s : Store) (p : ProductId) :
    s.outUnits p = (s.views.map (StockView.out p)).sum := by
  rw [Store.outUnits, sum_filter_map, Store.views, List.map_map]
  rfl

/-! ### The invariant -/

/-- `base p` units of `p` came into the shop; the counters and the ledger know where they are. -/
structure StockInv (base : ProductId → ℤ) (s : Store) : Prop where
  reserved : ∀ p, s.reserved p = (s.views.map (StockView.held p)).sum
  onHand : ∀ p, s.onHand p = base p - (s.views.map (StockView.out p)).sum
  ledgerOnHand : ∀ p, s.ledgerOnHand p = s.onHand p
  ledgerReserved : ∀ p, s.ledgerReserved p = s.reserved p
  productIds : (s.products.map Product.id).Nodup
  ids : (s.views.map StockView.id).Nodup
  fresh : ∀ v ∈ s.views, v.id < s.orders.length
  flags : ∀ v ∈ s.views, v.Consistent
  units : ∀ v ∈ s.views, ∀ l ∈ v.lines, 0 < l.qty ∧ s.knows l.key

namespace StockInv

variable {base : ProductId → ℤ} {s t : Store}

theorem mem_views {o : Order} (ho : o ∈ s.orders) : o.stockView ∈ s.views :=
  List.mem_map_of_mem ho

theorem orderIds (h : StockInv base s) : (s.orders.map Order.id).Nodup := by
  have hids := h.ids
  rwa [Store.views, List.map_map] at hids

/-- Units of one order that are held do not exceed what is reserved. -/
theorem count_le_reserved (h : StockInv base s) {o : Order} (ho : o ∈ s.orders)
    (hr : o.stockReserved) (p : ProductId) : count p (stockLinesOf o.items) ≤ s.reserved p := by
  have hheld : StockView.held p o.stockView = count p (stockLinesOf o.items) := by
    simp [StockView.held, Order.stockView, hr]
  rw [h.reserved, ← hheld]
  refine List.single_le_sum (fun x hx => ?_) _ (List.mem_map_of_mem (mem_views ho))
  obtain ⟨v, hv, rfl⟩ := List.mem_map.mp hx
  unfold StockView.held
  split
  · exact Tally.count_nonneg (fun l hl => (h.units v hv l hl).1.le) p
  · exact le_refl 0

/--
**One call moves the lines of its order.**  What is left to show of a call is what it
did to the list of views: the counters and the ledger follow the lines.
-/
theorem of_moves {a b : ℤ} {lines : List StockLine} {base' : ProductId → ℤ}
    (h : StockInv base s) {s₁ : Store} (hm : Moves a b s₁ lines t)
    (hproducts : s₁.products = s.products) (hmovements : s₁.movements = s.movements)
    (hheld : ∀ p, (s₁.views.map (StockView.held p)).sum =
      (s.views.map (StockView.held p)).sum + b * count p lines)
    (hout : ∀ p, (s₁.views.map (StockView.out p)).sum =
      (s.views.map (StockView.out p)).sum - a * count p lines + (base' p - base p))
    (hids : (s₁.views.map StockView.id).Nodup)
    (hviews : ∀ v ∈ s₁.views, (v.id < s₁.orders.length ∧ v.Consistent ∧
      ∀ l ∈ v.lines, 0 < l.qty ∧ s.knows l.key)) : StockInv base' t := by
  have hv : t.views = s₁.views := hm.orders
  have hlen' : t.orders.length = s₁.orders.length := by simpa using congrArg List.length hm.orders
  have hon : s₁.onHand = s.onHand := by
    funext p
    rw [Store.onHand, hproducts, Store.onHand]
  have hres : s₁.reserved = s.reserved := by
    funext p
    rw [Store.reserved, hproducts, Store.reserved]
  have hlon : s₁.ledgerOnHand = s.ledgerOnHand := by
    funext p
    rw [Store.ledgerOnHand, hmovements, Store.ledgerOnHand]
  have hlres : s₁.ledgerReserved = s.ledgerReserved := by
    funext p
    rw [Store.ledgerReserved, hmovements, Store.ledgerReserved]
  refine ⟨fun p => ?_, fun p => ?_, fun p => ?_, fun p => ?_, ?_, hv ▸ hids, fun v hmem => ?_,
    fun v hmem => ?_, fun v hmem l hl => ?_⟩
  · rw [hm.reserved, hres, h.reserved, hv, hheld]
  · rw [hm.onHand, hon, h.onHand, hv, hout]
    ring
  · rw [hm.ledgerOnHand, hm.onHand, hlon, hon, h.ledgerOnHand]
  · rw [hm.ledgerReserved, hm.reserved, hlres, hres, h.ledgerReserved]
  · rw [hm.products, hproducts]
    exact h.productIds
  · rw [hlen']
    exact (hviews v (hv ▸ hmem)).1
  · exact (hviews v (hv ▸ hmem)).2.1
  · obtain ⟨hpos, hk⟩ := (hviews v (hv ▸ hmem)).2.2 l hl
    refine ⟨hpos, (hm.knows_iff _).mpr ?_⟩
    rw [Store.knows, hproducts]
    exact hk

theorem views_of_inv (h : StockInv base s) : ∀ v ∈ s.views, (v.id < s.orders.length ∧
    v.Consistent ∧ ∀ l ∈ v.lines, 0 < l.qty ∧ s.knows l.key) := fun v hv =>
  ⟨h.fresh v hv, h.flags v hv, h.units v hv⟩

/-- The invariant speaks of nothing but the stock figures. -/
theorem of_same (h : StockInv base s) (hs : SameStock s t) : StockInv base t := by
  refine h.of_moves (a := 0) (b := 0) (Moves.of_same hs) rfl rfl (fun p => by simp)
    (fun p => by simp) h.ids h.views_of_inv

/-- Units that come in, or are counted away, change what the shop should have. -/
theorem receive_step {p : ProductId} {n : ℤ} (h : StockInv base s)
    (hm : Moves 1 0 s [⟨p, n⟩] t) :
    StockInv (fun q => base q + if p = q then n else 0) t := by
  refine h.of_moves hm rfl rfl (fun q => by simp) (fun q => by simp) h.ids h.views_of_inv

/-- **One order changes its view while its lines move.** -/
theorem order_step {a b : ℤ} {order : Order} {f : Order → Order} (h : StockInv base s)
    (hl : Rows.lookup Order.id order.id s.orders = some order)
    (hid : ∀ o, (f o).id = o.id) (hitems : ∀ o, (f o).items = o.items)
    (hflags : (f order).stockView.Consistent)
    (hheld : ∀ p, (f order).stockView.held p =
      order.stockView.held p + b * count p (stockLinesOf order.items))
    (hout : ∀ p, (f order).stockView.out p =
      order.stockView.out p - a * count p (stockLinesOf order.items))
    (hm : Moves a b { s with orders := Rows.modify Order.id order.id f s.orders }
      (stockLinesOf order.items) t) :
    StockInv base t := by
  have hsum : ∀ g : StockView → ℤ,
      (((Rows.modify Order.id order.id f s.orders).map Order.stockView).map g).sum =
        (s.views.map g).sum - g order.stockView + g (f order).stockView := by
    intro g
    rw [Store.views, List.map_map, List.map_map]
    exact Rows.sum_modify h.orderIds hl fun o => g o.stockView
  refine h.of_moves hm rfl rfl (fun p => ?_) (fun p => ?_) ?_ fun v hv => ?_
  · rw [Store.views, hsum, hheld]
    ring
  · rw [Store.views, hsum, hout]
    ring
  · have hkeys : (Rows.modify Order.id order.id f s.orders).map Order.id =
        s.orders.map Order.id := Rows.map_modify hid
    rw [Store.views, List.map_map]
    exact (congrArg List.Nodup hkeys).mpr h.orderIds
  · obtain ⟨x, hx, rfl⟩ := List.mem_map.mp hv
    obtain ⟨o, ho, rfl⟩ := List.mem_map.mp hx
    have hview := h.views_of_inv o.stockView (mem_views ho)
    have hlen : (Rows.modify Order.id order.id f s.orders).length = s.orders.length := by
      simp [Rows.modify]
    split
    · rename_i hoid
      have hlook := Rows.lookup_of_mem h.orderIds ho
      rw [hoid, hl] at hlook
      obtain rfl := Option.some.inj hlook
      refine ⟨?_, hflags, ?_⟩
      · rw [hlen]
        exact (hid order).trans_lt hview.1
      · simpa [Order.stockView, hitems] using hview.2.2
    · exact ⟨hlen ▸ hview.1, hview.2⟩

/-- **A new order holds its units.** -/
theorem place_step {o : Order} (h : StockInv base s) (hid : o.id = s.orders.length)
    (hstatus : o.status = .pending) (hres : o.stockReserved = true) (hship : o.shippedAt = none)
    (hunits : ∀ l ∈ stockLinesOf o.items, 0 < l.qty ∧ s.knows l.key)
    (hm : Moves 0 1 { s with orders := s.orders ++ [o] } (stockLinesOf o.items) t) :
    StockInv base t := by
  have hviews : ({ s with orders := s.orders ++ [o] } : Store).views = s.views ++ [o.stockView] := by
    simp [Store.views]
  refine h.of_moves hm rfl rfl (fun p => ?_) (fun p => ?_) ?_ fun v hv => ?_
  · rw [hviews]
    simp [StockView.held, Order.stockView, hres]
  · rw [hviews]
    simp [StockView.out, Order.stockView, hship]
  · rw [hviews, List.map_append, List.nodup_append]
    refine ⟨h.ids, by simp, fun a ha b hb hab => ?_⟩
    obtain ⟨v, hv, rfl⟩ := List.mem_map.mp ha
    have hlt := h.fresh v hv
    rw [hab, List.mem_singleton.mp hb] at hlt
    exact absurd hlt (by simp [Order.stockView, hid])
  · have hlen : (s.orders ++ [o]).length = s.orders.length + 1 := by simp
    rw [hviews] at hv
    rcases List.mem_append.mp hv with hold | hnew
    · obtain ⟨hlt, hrest⟩ := h.views_of_inv v hold
      exact ⟨hlen ▸ Nat.lt_succ_of_lt hlt, hrest⟩
    · rw [List.mem_singleton.mp hnew]
      refine ⟨?_, ⟨fun hc => ?_, fun _ => ?_⟩, hunits⟩
      · rw [hlen]
        simp [Order.stockView, hid]
      · exact absurd hc (by simp [Order.stockView, hstatus, OrderStatus.isTerminal])
      · simp [Order.stockView, hres, hship]

end StockInv

/-! ### What each plan does to the flags and the shelf -/

namespace StockEffect

def onHandSign : StockEffect → ℤ
  | none => 0
  | fulfil => -1
  | release => 0
  | restock => 1

def reservedSign : StockEffect → ℤ
  | none => 0
  | fulfil => -1
  | release => -1
  | restock => 0

end StockEffect

/-- The flags of an order after a plan, and what its share of the two sums moved by. -/
structure FlagsMoved (order order' : Order) (effect : StockEffect) : Prop where
  consistent : order'.stockView.Consistent
  held : ∀ p, order'.stockView.held p =
    order.stockView.held p + effect.reservedSign * count p (stockLinesOf order.items)
  out : ∀ p, order'.stockView.out p =
    order.stockView.out p - effect.onHandSign * count p (stockLinesOf order.items)
  /-- units leave the hold only where they are held -/
  holds : effect.reservedSign < 0 → order.stockReserved = true

section transition

variable {order : Order} {req : TransitionRequest} {plan : TransitionPlan} {note : Option String}
  {now : Instant}

private theorem flags_of_consistent (h : order.stockView.Consistent)
    (hopen : order.status.isTerminal = false) :
    order.stockReserved = !order.shippedAt.isSome := h.opened hopen

private theorem regress_flags (h : order.stockView.Consistent)
    (hopen : order.status.isTerminal = false)
    (ht : order.status.regressTarget = some req.toStatus) :
    FlagsMoved order
      (order.transitioned { fromStatus := order.status, toStatus := req.toStatus } note now)
      .none := by
  have hto : req.toStatus.isTerminal = false := by
    cases hs : order.status <;> rw [hs] at ht <;>
      simp only [OrderStatus.regressTarget, reduceCtorEq, Option.some.injEq] at ht
    rw [← ht]
    rfl
  have hview : (order.transitioned
      { fromStatus := order.status, toStatus := req.toStatus } note now).stockView =
      { order.stockView with status := req.toStatus } := by
    simp [Order.stockView, Order.transitioned]
  refine ⟨⟨fun hc => ?_, fun _ => ?_⟩, fun p => ?_, fun p => ?_, fun hc => ?_⟩
  · rw [hview] at hc
    exact absurd hc (by simp [hto])
  · rw [hview]
    exact flags_of_consistent h hopen
  · rw [hview]
    simp [StockView.held, StockEffect.reservedSign]
  · rw [hview]
    simp [StockView.out, Order.stockView, hto, hopen, StockEffect.onHandSign]
  · exact absurd hc (by decide)

private theorem void_flags (h : order.stockView.Consistent)
    (hopen : order.status.isTerminal = false) (ht : req.toStatus.isTerminal) :
    FlagsMoved order (order.transitioned (voidPlan order req) note now)
      (voidPlan order req).stock := by
  have hflags := flags_of_consistent h hopen
  have hclosed : (order.transitioned (voidPlan order req) note now).stockView =
      { id := order.id, status := req.toStatus, stockReserved := false,
        shipped := order.shippedAt.isSome, lines := stockLinesOf order.items } := by
    simp [Order.stockView, Order.transitioned, voidPlan]
  refine ⟨⟨fun _ => ?_, fun hc => ?_⟩, fun p => ?_, fun p => ?_, fun hc => ?_⟩
  · rw [hclosed]
  · rw [hclosed] at hc
    exact absurd hc (by simp [ht])
  · rw [hclosed]
    by_cases hsh : order.shippedAt.isSome
    · simp [StockView.held, Order.stockView, voidPlan, hflags, hsh, StockEffect.reservedSign]
    · simp [StockView.held, Order.stockView, voidPlan, hflags, hsh, StockEffect.reservedSign]
  · rw [hclosed]
    by_cases hsh : order.shippedAt.isSome
    · simp [StockView.out, Order.stockView, voidPlan, hsh, hopen, ht, StockEffect.onHandSign]
    · simp [StockView.out, Order.stockView, voidPlan, hflags, hsh, StockEffect.onHandSign]
  · by_cases hsh : order.shippedAt.isSome
    · simp [voidPlan, hsh, StockEffect.reservedSign] at hc
    · simpa [hsh] using hflags

private theorem advance_flags (h : order.stockView.Consistent)
    (hopen : order.status.isTerminal = false) (hto : req.toStatus.isTerminal = false) :
    FlagsMoved order (order.transitioned (planAdvance order req) note now)
      (planAdvance order req).stock := by
  have hflags := flags_of_consistent h hopen
  by_cases hships : req.toStatus.isShippedStage && order.shippedAt.isNone
  · have hnone : order.shippedAt = none := by
      have := (Bool.and_eq_true_iff.mp hships).2
      simpa using this
    have hres : order.stockReserved = true := by simpa [hnone] using hflags
    have hview : (order.transitioned (planAdvance order req) note now).stockView =
        { id := order.id, status := req.toStatus, stockReserved := false, shipped := true,
          lines := stockLinesOf order.items } := by
      simp [Order.stockView, Order.transitioned, planAdvance, hships]
    have hstock : (planAdvance order req).stock = .fulfil := by simp [planAdvance, hships]
    rw [hstock]
    refine ⟨⟨fun hc => ?_, fun _ => ?_⟩, fun p => ?_, fun p => ?_, fun _ => hres⟩
    · rw [hview]
    · rw [hview]
      rfl
    · rw [hview]
      simp [StockView.held, Order.stockView, hres, StockEffect.reservedSign]
    · rw [hview]
      simp [StockView.out, Order.stockView, hnone, hto, StockEffect.onHandSign]
  · have hview : (order.transitioned (planAdvance order req) note now).stockView =
        { order.stockView with status := req.toStatus } := by
      simp [Order.stockView, Order.transitioned, planAdvance, hships]
    have hstock : (planAdvance order req).stock = .none := by simp [planAdvance, hships]
    rw [hstock]
    refine ⟨⟨fun hc => ?_, fun _ => ?_⟩, fun p => ?_, fun p => ?_, fun hc => ?_⟩
    · rw [hview] at hc
      exact absurd hc (by simp [hto])
    · rw [hview]
      exact hflags
    · rw [hview]
      simp [StockView.held, StockEffect.reservedSign]
    · rw [hview]
      simp [StockView.out, Order.stockView, hto, hopen, StockEffect.onHandSign]
    · exact absurd hc (by decide)

/-- **Each granted transition moves the flags and the shelf together.** -/
theorem transition_flags (h : order.stockView.Consistent)
    (hp : planTransition order req = .ok plan) :
    FlagsMoved order (order.transitioned plan note now) plan.stock := by
  obtain ⟨hopen, -, hcase⟩ := planTransition_cases hp
  cases hcase with
  | regress mode actor target eq => rw [eq]; exact regress_flags h hopen target
  | void terminal eq granted => rw [eq]; exact void_flags h hopen terminal
  | advance flow forward actor paid eq => rw [eq]; exact advance_flags h hopen flow

end transition

/-! ### One committed call -/

section step

variable {base : ProductId → ℤ} {s t : Store} {clamp : ℤ → ℤ} {ref : OrderId}
  {actor : TransitionActor} {now : Instant}

theorem applyStock_moves {effect : StockEffect} {lines : List StockLine} {ctx : StockContext}
    {low : List LowStockHit} (hc : Inventory.Clamps clamp)
    (hk : ∀ l ∈ lines, s.knows l.key)
    (hh : effect.reservedSign < 0 → Inventory.AllHeld s lines)
    (h : applyStock clamp s effect lines ctx = .ok (t, low)) :
    Moves effect.onHandSign effect.reservedSign s lines t := by
  unfold applyStock at h
  split at h
  · rename_i hnil
    obtain ⟨rfl, rfl⟩ := Prod.mk.inj (Except.ok.inj h)
    rw [hnil]
    exact Moves.of_same (SameStock.refl s)
  · cases effect with
    | none =>
        obtain ⟨rfl, rfl⟩ := Prod.mk.inj (Except.ok.inj h)
        have hz : Moves 0 0 s [] s := Moves.of_same (SameStock.refl s)
        exact ⟨fun p => by simp [StockEffect.onHandSign], fun p => by
          simp [StockEffect.reservedSign], fun p => by simp [StockEffect.onHandSign], fun p => by
          simp [StockEffect.reservedSign], hz.products, hz.orders⟩
    | fulfil => exact Inventory.fulfill_moves hc (hh (by decide)) h
    | release =>
        obtain ⟨u, hu, heq⟩ := Result.map_ok.mp h
        obtain ⟨rfl, rfl⟩ := Prod.mk.inj heq
        exact Inventory.release_moves hc (hh (by decide)) hu
    | restock =>
        obtain ⟨u, hu, heq⟩ := Result.map_ok.mp h
        obtain ⟨rfl, rfl⟩ := Prod.mk.inj heq
        exact Inventory.restock_moves hk hu

theorem applyStock_clamp {effect : StockEffect} {lines : List StockLine} {ctx : StockContext}
    (hc : Inventory.Clamps clamp) (hnd : (s.products.map Product.id).Nodup)
    (hh : effect.reservedSign < 0 → Inventory.AllHeld s lines) :
    applyStock clamp s effect lines ctx = applyStock (fun x => x) s effect lines ctx := by
  unfold applyStock
  split
  · rfl
  · cases effect with
    | none => rfl
    | fulfil => exact Inventory.fulfill_clamp hc hnd (hh (by decide))
    | release =>
        dsimp only
        rw [Inventory.release_clamp hc hnd (hh (by decide))]
    | restock => rfl

theorem sameStock_revoke (s : Store) (id : OrderId) : SameStock s (Coupons.revoke s id now) := by
  unfold Coupons.revoke
  split
  · exact SameStock.refl s
  · exact SameStock.of_tables rfl rfl rfl

theorem sameStock_restore (s : Store) (id : OrderId) : SameStock s (Coupons.restore s id) := by
  unfold Coupons.restore
  split
  · exact SameStock.refl s
  · exact SameStock.of_tables rfl rfl rfl

theorem sameStock_bookTransition (s : Store) (order : Order) (plan : TransitionPlan) :
    SameStock s (bookTransition s order plan now) := by
  have hrevoke : SameStock s
      (if plan.revokeCoupon then Coupons.revoke s order.id now else s) := by
    split
    · exact sameStock_revoke s order.id
    · exact SameStock.refl s
  exact hrevoke.trans (SameStock.of_tables rfl rfl rfl)

theorem sameStock_bookReopen (s : Store) (order : Order) : SameStock s (bookReopen s order) :=
  (sameStock_restore s order.id).trans (SameStock.of_tables rfl rfl rfl)

private theorem knows_of_inv (h : StockInv base s) {order : Order}
    (hl : Rows.lookup Order.id ref s.orders = some order) (orders : List Order) :
    ∀ l ∈ stockLinesOf order.items, ({ s with orders } : Store).knows l.key := fun l hlm =>
  (h.units _ (StockInv.mem_views (Rows.mem_of_lookup hl)) l hlm).2

/-- An order whose units are held has them all reserved, whatever the order row says next. -/
private theorem allHeld_of_inv (h : StockInv base s) {order : Order}
    (hl : Rows.lookup Order.id ref s.orders = some order) (hr : order.stockReserved = true)
    (orders : List Order) :
    Inventory.AllHeld { s with orders } (stockLinesOf order.items) := fun l hlm =>
  ⟨(h.units _ (StockInv.mem_views (Rows.mem_of_lookup hl)) l hlm).2,
    h.count_le_reserved (Rows.mem_of_lookup hl) hr l.key⟩

theorem applyTransition_inv {cmd : TransitionCommand} {r : Applied} (hc : Inventory.Clamps clamp)
    (h : StockInv base s) (hcall : applyTransition clamp s ref cmd actor now = .ok (t, r)) :
    StockInv base t := by
  obtain ⟨order, plan, s₁, s₂, low, hl, hplan, hupd, hstock, rfl, -⟩ := applyTransition_ok hcall
  obtain ⟨o, ho, -, -, rfl⟩ := updateOrder_ok hupd
  have hid : order.id = ref := Rows.key_of_lookup hl
  have hflags : FlagsMoved order (order.transitioned plan cmd.note now) plan.stock :=
    transition_flags (h.flags _ (StockInv.mem_views (Rows.mem_of_lookup hl))) hplan
  have hmoves := applyStock_moves hc (knows_of_inv h hl _)
    (fun hneg => allHeld_of_inv h hl (hflags.holds hneg) _) hstock
  refine StockInv.of_same ?_ (sameStock_bookTransition s₂ order plan)
  exact h.order_step (f := fun o => o.transitioned plan cmd.note now) (hid ▸ hl) (fun _ => rfl)
    (fun _ => rfl) hflags.consistent hflags.held hflags.out hmoves

theorem applyTransition_clamp {cmd : TransitionCommand} (hc : Inventory.Clamps clamp)
    (h : StockInv base s) :
    applyTransition clamp s ref cmd actor now =
      applyTransition (fun x => x) s ref cmd actor now := by
  unfold applyTransition
  cases hl : Rows.lookup Order.id ref s.orders with
  | none => rfl
  | some order =>
      dsimp only
      split
      · rfl
      cases hplan : planTransition order (cmd.request actor now) with
      | error e => rfl
      | ok plan =>
          dsimp only
          cases hupd : updateOrder s order.id order.version
              (fun o => o.transitioned plan cmd.note now) with
          | error e => rfl
          | ok s₁ =>
              obtain ⟨o, ho, -, -, hs₁⟩ := updateOrder_ok hupd
              have hflags : FlagsMoved order (order.transitioned plan cmd.note now) plan.stock :=
                transition_flags (h.flags _ (StockInv.mem_views (Rows.mem_of_lookup hl))) hplan
              have hnd : (s₁.products.map Product.id).Nodup := by
                rw [hs₁]
                exact h.productIds
              have hheld : plan.stock.reservedSign < 0 →
                  Inventory.AllHeld s₁ (stockLinesOf order.items) := by
                intro hneg
                rw [hs₁]
                exact allHeld_of_inv h hl (hflags.holds hneg) _
              show (applyStock clamp s₁ _ _ _ >>= _) = (applyStock (fun x => x) s₁ _ _ _ >>= _)
              rw [applyStock_clamp hc hnd hheld]

theorem reopen_inv {cmd : ReopenCommand} {e : OrderStatusChangedEvent} (h : StockInv base s)
    (hcall : reopen s ref cmd actor now = .ok (t, e)) : StockInv base t := by
  obtain ⟨order, plan, s₁, s₂, hl, hplan, hupd, hhold, rfl⟩ := reopen_ok hcall
  obtain ⟨o, ho, -, -, rfl⟩ := updateOrder_ok hupd
  obtain ⟨-, hterm, -, -⟩ := planReopen_ok hplan
  have hid : order.id = ref := Rows.key_of_lookup hl
  have hclosed : order.stockReserved = false :=
    (h.flags _ (StockInv.mem_views (Rows.mem_of_lookup hl))).closed hterm
  have hmoves : Moves 0 1
      { s with orders := Rows.modify Order.id order.id
                (fun o => o.reopened plan.toStatus now) s.orders }
      (stockLinesOf order.items) s₂ := by
    unfold holdStock at hhold
    split at hhold
    · rename_i hnil
      rw [hnil]
      obtain rfl := Except.ok.inj hhold
      exact Moves.of_same (SameStock.refl _)
    · exact (Inventory.reserve_moves hhold).1
  have hopen : plan.toStatus.status.isTerminal = false := by cases plan.toStatus <;> rfl
  refine StockInv.of_same ?_ (sameStock_bookReopen s₂ order)
  refine h.order_step (f := fun o => o.reopened plan.toStatus now) (hid ▸ hl) (fun _ => rfl)
    (fun _ => rfl) ⟨fun hc => ?_, fun _ => rfl⟩ (fun p => ?_) (fun p => ?_) hmoves
  · exact absurd hc (by simp [Order.stockView, Order.reopened, hopen])
  · simp [StockView.held, Order.stockView, Order.reopened, hclosed]
  · simp [StockView.out, Order.stockView, Order.reopened, hterm]

/-! ### Placement -/

theorem sameStock_upsertCustomer (s : Store) (req : PlaceOrder) (phone : String) :
    SameStock s (upsertCustomer s req phone).1 := by
  unfold upsertCustomer
  dsimp only
  split
  · exact SameStock.of_tables rfl rfl rfl
  · split
    · exact SameStock.of_tables rfl rfl rfl
    · exact SameStock.of_tables rfl rfl rfl

theorem sameStock_redeemCoupon {priced : PricedQuote} {id : OrderId} {customer : CustomerId}
    (h : redeemCoupon s priced id customer = .ok t) : SameStock s t := by
  unfold redeemCoupon at h
  split at h
  · unfold Coupons.redeem at h
    split at h
    · cases h
    · obtain rfl := Except.ok.inj h
      exact SameStock.of_tables rfl rfl rfl
  · obtain rfl := Except.ok.inj h
    exact SameStock.refl s

/-- The order's lines are the priced lines. -/
theorem stockLinesOf_toItem (ls : List QuotedLine) :
    stockLinesOf (ls.map QuotedLine.toItem) = ls.flatMap lineUnits := by
  rw [stockLinesOf, List.flatMap_map]
  refine List.flatMap_congr fun l _ => ?_
  obtain ⟨kind, productId⟩ := l
  cases kind <;> cases productId <;> simp [QuotedLine.toItem, lineUnits, Function.comp_def]

theorem priceOrder_stockUnits (s : Store) (req : PlaceOrder) (customer : CustomerId) :
    (priceOrder s req customer now).quote.stockUnits =
      Tally.collect ((priceOrder s req customer now).quote.lines.flatMap lineUnits) := by
  unfold priceOrder
  dsimp only
  split <;> rfl

/-- The lines of an order that passed its CHECKs are positive. -/
theorem stockLines_pos {items : List OrderItem} (h : ∀ i ∈ items, i.check = .ok ()) :
    ∀ l ∈ stockLinesOf items, 0 < l.qty := by
  intro l hl
  obtain ⟨i, hi, hl⟩ := List.mem_flatMap.mp hl
  have hcheck := h i hi
  unfold OrderItem.check at hcheck
  split at hcheck
  · cases hcheck
  split at hcheck
  · cases hcheck
  rename_i hqty
  split at hcheck
  · cases hcheck
  split at hcheck
  · cases hcheck
  rename_i hcomp
  rcases List.mem_append.mp hl with hp | hc
  · split at hp
    · rw [List.mem_singleton.mp hp]
      exact not_le.mp hqty
    · simp at hp
  · obtain ⟨c, hmem, rfl⟩ := List.mem_map.mp hc
    by_contra hneg
    exact hcomp (List.any_eq_true.mpr ⟨c, hmem, by simpa using hneg⟩)

theorem placeInTx_inv {req : PlaceOrder} {o : Order} (h : StockInv base s)
    (hcall : placeInTx s req now = .ok (t, o)) : StockInv base t := by
  obtain ⟨phone, -, -, ho, hwrite⟩ := placeInTx_ok hcall
  obtain ⟨s₁, s₂, s₃, hins, hreserve, hredeem, rfl⟩ := writeOrder_ok hwrite
  obtain ⟨-, hitems, rfl⟩ := insertOrder_ok hins
  have hs₀ : StockInv base { (upsertCustomer s req phone).1 with
      counters := (nextNumber (upsertCustomer s req phone).1.counters .order).2 } :=
    (h.of_same (sameStock_upsertCustomer s req phone)).of_same (SameStock.of_tables rfl rfl rfl)
  obtain ⟨hmoves, hknown⟩ := Inventory.reserve_moves hreserve
  rw [priceOrder_stockUnits, ← stockLinesOf_toItem] at hmoves hknown
  have hlines : o.items = (priceOrder (upsertCustomer s req phone).1 req
      (upsertCustomer s req phone).2.id now).quote.lines.map QuotedLine.toItem := by
    rw [ho]
    rfl
  rw [← hlines] at hmoves hknown
  have hpos := stockLines_pos (Result.forM_ok _ hitems)
  have hs₂ : StockInv base s₂ := by
    refine hs₀.place_step (o := o) ?_ ?_ ?_ ?_ (fun l hl => ⟨hpos l hl, ?_⟩)
      (hmoves.of_count fun p => Tally.count_collect p _)
    · rw [ho]
      rfl
    · rw [ho]
      rfl
    · rw [ho]
      rfl
    · rw [ho]
      rfl
    · obtain ⟨x, hx, hkey⟩ :=
        List.mem_map.mp (Tally.mem_keys_collect.mpr (List.mem_map_of_mem hl))
      rw [← hkey]
      exact (hknown x hx).2
  exact (hs₂.of_same (sameStock_redeemCoupon hredeem)).of_same (SameStock.of_tables rfl rfl rfl)

/-! ### Receipts, and every call -/

/-- **Every committed call keeps the invariant**, and says what came in. -/
theorem stockStep_inv {a : StockAction} (h : StockInv base s)
    (hstep : stockStep clampZero s a = some t) :
    StockInv (fun p => base p + a.received s p) t := by
  have hclamp := Inventory.clamps_clampZero
  have hcall := Result.toOption_some.mp hstep
  have hnothing : (fun p => base p + 0) = base := by simp
  cases a with
  | place req now =>
      obtain ⟨⟨t', o⟩, hr, rfl⟩ := Result.map_ok.mp hcall
      exact hnothing.symm ▸ placeInTx_inv h hr
  | apply ref cmd actor now =>
      obtain ⟨⟨t', r⟩, hr, rfl⟩ := Result.map_ok.mp hcall
      exact hnothing.symm ▸ applyTransition_inv hclamp h hr
  | regress ref note version actor now =>
      obtain ⟨⟨t', r⟩, hr, rfl⟩ := Result.map_ok.mp hcall
      obtain ⟨cmd, hr'⟩ := regress_ok hr
      exact hnothing.symm ▸ applyTransition_inv hclamp h hr'
  | reopen ref cmd actor now =>
      obtain ⟨⟨t', e⟩, hr, rfl⟩ := Result.map_ok.mp hcall
      exact hnothing.symm ▸ reopen_inv h hr
  | receive p qty cost ctx => exact h.receive_step (Inventory.addBatch_moves hcall)
  | addBatch p qty batch ctx => exact h.receive_step (Inventory.addBatch_moves hcall)
  | setOnHand p onHand ctx type =>
      have hset := h.receive_step (Inventory.setOnHand_moves hcall)
      have hbase : (fun q => base q + if p = q then onHand - s.onHand p else 0) =
          fun q => base q + (StockAction.setOnHand p onHand ctx type).received s q := by
        funext q
        by_cases hpq : p = q
        · subst hpq
          rfl
        · simp [StockAction.received, hpq]
      exact hbase ▸ hset

/-- **The clamps change nothing**: without them every call does the same. -/
theorem stockStep_clamp (h : StockInv base s) (a : StockAction) :
    stockStep clampZero s a = stockStep (fun x => x) s a := by
  have hclamp := Inventory.clamps_clampZero
  unfold stockStep
  cases a with
  | apply ref cmd actor now =>
      simp only [StockAction.call]
      rw [applyTransition_clamp hclamp h]
  | regress ref note version actor now =>
      simp only [StockAction.call, BookHouse.regress]
      split
      · rfl
      · split
        · rfl
        · rw [applyTransition_clamp hclamp h]
  | _ => rfl

end step

/-! ### Whole runs -/

/-- A shop before its first order: nothing is held, and the ledger has every unit. -/
structure Opening (s : Store) : Prop where
  orders : s.orders = []
  reserved : ∀ p, s.reserved p = 0
  ledgerOnHand : ∀ p, s.ledgerOnHand p = s.onHand p
  ledgerReserved : ∀ p, s.ledgerReserved p = 0
  productIds : (s.products.map Product.id).Nodup

theorem Opening.inv {s : Store} (h : Opening s) : StockInv s.onHand s := by
  have hviews : s.views = [] := by rw [Store.views, h.orders, List.map_nil]
  refine ⟨fun p => ?_, fun p => ?_, h.ledgerOnHand, fun p => ?_, h.productIds, ?_, ?_, ?_, ?_⟩
  · rw [h.reserved, hviews]
    rfl
  · rw [hviews]
    simp
  · rw [h.ledgerReserved, h.reserved]
  · rw [hviews]
    exact List.nodup_nil
  all_goals
    intro v hv
    rw [hviews] at hv
    exact absurd hv (by simp)

theorem stockRun_inv :
    ∀ (as : List StockAction) (base : ProductId → ℤ) (s t : Store), StockInv base s →
      runFrom (stockStep clampZero) s as = some t →
      StockInv (fun p => base p + receivedAlong p s as) t := by
  intro as
  induction as with
  | nil =>
      intro base s t h hrun
      obtain rfl := Option.some.inj hrun
      simpa [receivedAlong] using h
  | cons a rest ih =>
      intro base s t h hrun
      obtain ⟨s', hstep, hrest⟩ := runFrom_cons hrun
      have hrun' := ih _ s' t (stockStep_inv h hstep) hrest
      have hbase : (fun p => base p + a.received s p + receivedAlong p s' rest) =
          fun p => base p + receivedAlong p s (a :: rest) := by
        funext p
        rw [receivedAlong, hstep, add_assoc]
      exact hbase ▸ hrun'

/-- What a shop that opened as `s₀` owes its stock figures after a run. -/
structure StockConserved (s₀ : Store) (as : List StockAction) (t : Store) : Prop where
  reserved : ∀ p, t.reserved p = t.heldUnits p
  onHand : ∀ p, t.onHand p = s₀.onHand p + receivedAlong p s₀ as - t.outUnits p
  ledgerOnHand : ∀ p, t.ledgerOnHand p = t.onHand p
  ledgerReserved : ∀ p, t.ledgerReserved p = t.reserved p
  /-- the `GREATEST(…, 0)` of the next release or fulfilment will not change a value -/
  clamps : ∀ a, stockStep clampZero t a = stockStep (fun x => x) t a

/-- **Stock is conserved over every run of the shop.** -/
theorem stock_conservation (s₀ t : Store) (as : List StockAction) (h : Opening s₀)
    (hrun : runFrom (stockStep clampZero) s₀ as = some t) : StockConserved s₀ as t := by
  have hinv := stockRun_inv as _ s₀ t h.inv hrun
  refine ⟨fun p => ?_, fun p => ?_, hinv.ledgerOnHand, hinv.ledgerReserved, stockStep_clamp hinv⟩
  · rw [hinv.reserved, Store.heldUnits_eq]
  · rw [hinv.onHand, Store.outUnits_eq]

/-! ### A run of a small shop -/

/-- Two books, three copies of the first on the shelf. -/
def smallShop : Store :=
  { products := [{ id := 1, title := "ক", price := 200, stockOnHand := 3 },
                 { id := 2, title := "খ", price := 150 }],
    movements := [{ productId := 1, type := .opening, qtyOnHandDelta := 3, balanceAfter := 3 }] }

/-- A cart of one book for the small shop. -/
def oneBook (method : PaymentMethod) : PlaceOrder :=
  { phone := some "+8801700000000",
    lines := [.product { id := 1, unitPrice := 200, listPrice := 200 } 1],
    zone := { id := 1, code := "inside_dhaka", nameBn := "ঢাকার ভিতর", fee := 60, courierCost := 50 },
    paymentMethod := method }

/-- A delivery, two orders (one with a bundle), a parcel, a cancellation and a reopen. -/
def smallShopDays : List StockAction :=
  let ka : PricedProduct := { id := 1, unitPrice := 200, listPrice := 200 }
  let kha : PricedProduct := { id := 2, unitPrice := 150, listPrice := 150 }
  let pack : PricedBundle := { id := 7, unitPrice := 500, components := [⟨ka, 1⟩, ⟨kha, 2⟩] }
  let dhaka : ZoneInfo :=
    { id := 1, code := "inside_dhaka", nameBn := "ঢাকার ভিতর", fee := 60, courierCost := 50 }
  let order (lines : List QuoteLineInput) : PlaceOrder :=
    { phone := some "+8801700000000", lines, zone := dhaka, paymentMethod := .cod }
  [.receive 2 4 90 { now := 1 }, .place (order [.product ka 1, .bundle pack 1]) 2,
   .place (order [.product ka 1]) 3, .apply 0 { toStatus := .handedToCourier } .staff 4,
   .apply 1 { toStatus := .cancelled } .customer 5, .reopen 1 { reason := "ভুল" } .staff 6]

theorem smallShop_opening : Opening smallShop := by
  refine ⟨rfl, fun p => ?_, fun p => ?_, fun p => ?_, by decide⟩
  · by_cases h1 : 1 = p <;> by_cases h2 : 2 = p <;>
      simp [Store.reserved, smallShop, Rows.lookup, h1, h2]
  · by_cases h1 : 1 = p
    · subst h1
      decide
    · by_cases h2 : 2 = p <;>
        simp [Store.ledgerOnHand, Store.onHand, smallShop, Rows.lookup, h1, h2]
  · simp [Store.ledgerReserved, smallShop]

/-- Stock is conserved over the days of the small shop. -/
theorem stock_conservation_smallShop :
    ∃ t, runFrom (stockStep clampZero) smallShop smallShopDays = some t ∧
      StockConserved smallShop smallShopDays t := by
  have hruns : (runFrom (stockStep clampZero) smallShop smallShopDays).isSome = true := by
    decide +kernel
  obtain ⟨t, ht⟩ := Option.isSome_iff_exists.mp hruns
  exact ⟨t, ht, stock_conservation smallShop t smallShopDays smallShop_opening ht⟩

end BookHouse
