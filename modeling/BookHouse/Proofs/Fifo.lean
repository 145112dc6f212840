/-
The batches account for the shelf over whole runs.

An order that is out has exactly its units out of the batches, and every other order has
nothing out: so a return gives back precisely what its batches are missing, never opens a
batch of its own, and never meets the clamp.  The order's side of this is the stock invariant
of `Proofs.Stock`; here it is tied to what the batches say (`BatchInv`).
-/
import BookHouse.Proofs.Batches
import BookHouse.Proofs.Stock

namespace BookHouse

open Tally (count)
open Machine

/-- The batches make up the shelf, and an order has out of them what it shipped. -/
structure BatchInv (s : Store) : Prop where
  shelved : Shelved s
  out : ∀ v ∈ s.views, ∀ p, s.outstanding v.id p = v.out p
  unknown : ∀ i, s.orders.length ≤ i → ∀ p, s.outstanding i p = 0

/-- The tables of batches and takings are the same. -/
def SameLots (s t : Store) : Prop := t.lots = s.lots ∧ t.consumptions = s.consumptions

namespace SameLots

variable {s t u : Store}

theorem refl (s : Store) : SameLots s s := ⟨rfl, rfl⟩

theorem trans (h : SameLots s t) (h' : SameLots t u) : SameLots s u :=
  ⟨h'.1.trans h.1, h'.2.trans h.2⟩

theorem lotLeft (h : SameLots s t) : t.lotLeft = s.lotLeft := by
  funext p
  rw [Store.lotLeft, h.1, Store.lotLeft]

theorem outstanding (h : SameLots s t) : t.outstanding = s.outstanding := by
  funext i p
  rw [Store.outstanding, h.2, Store.outstanding]

theorem batched (h : SameLots s t) (hs : Batched s) : Batched t :=
  (BatchMove.of_tables (p := 0) (o := none) hs h.1 h.2).batched

end SameLots

namespace BatchInv

variable {s t s₁ : Store} {a b : ℤ} {o : Option OrderId} {lines : List StockLine}

/-- **One call moves its lines between the shelf, the batches and its order.** -/
theorem of_lots (hm : Moves a b s₁ lines t) (hl : LotLines a o s₁ lines t) (h : BatchInv s)
    (hlots : SameLots s s₁) (hproducts : s₁.products = s.products)
    (hviews : ∀ v ∈ s₁.views, ∀ p,
      v.out p = s.outstanding v.id p - if o = some v.id then a * count p lines else 0)
    (hunknown : ∀ i, s₁.orders.length ≤ i → (∀ p, s.outstanding i p = 0) ∧ o ≠ some i) :
    BatchInv t := by
  have hv : t.views = s₁.views := hm.orders
  have hlength : t.orders.length = s₁.orders.length := by
    simpa using congrArg List.length hm.orders
  have hshelf : Shelved s₁ := by
    refine ⟨hlots.batched h.shelved.batched, fun p => ?_⟩
    rw [hlots.lotLeft, h.shelved.shelf, Store.onHand, Store.onHand, hproducts]
  refine ⟨hshelf.after hm hl, fun v hmem p => ?_, fun i hi p => ?_⟩
  · rw [hl.out, hlots.outstanding, hviews v (hv ▸ hmem)]
  · obtain ⟨hzero, hne⟩ := hunknown i (hlength ▸ hi)
    rw [hl.out, hlots.outstanding, hzero, if_neg hne, sub_zero]

/-- The invariant speaks of the stock figures and the batches only. -/
theorem of_same (h : BatchInv s) (hs : SameStock s t) (hlots : SameLots s t) : BatchInv t := by
  have hv : t.views = s.views := hs.orders
  have hlength : t.orders.length = s.orders.length := by
    simpa using congrArg List.length hs.orders
  refine ⟨⟨hlots.batched h.shelved.batched, fun p => ?_⟩, fun v hmem p => ?_, fun i hi p => ?_⟩
  · rw [hlots.lotLeft, hs.onHand, h.shelved.shelf]
  · rw [hlots.outstanding]
    exact h.out v (hv ▸ hmem) p
  · rw [hlots.outstanding]
    exact h.unknown i (hlength ▸ hi) p

/-- Units that come in, or are counted away, are no order's. -/
theorem receive_step (h : BatchInv s) (hm : Moves a b s lines t)
    (hl : LotLines a none s lines t) : BatchInv t := by
  refine of_lots hm hl h (SameLots.refl s) rfl (fun v hv p => ?_) fun i hi => ⟨h.unknown i hi, ?_⟩
  · rw [h.out v hv, if_neg (by simp), sub_zero]
  · simp

/-- **One order changes its view while its lines leave or enter the batches.** -/
theorem order_step {base : ProductId → ℤ} {order : Order} {f : Order → Order} (h : BatchInv s)
    (hs : StockInv base s) (hl : Rows.lookup Order.id order.id s.orders = some order)
    (hid : ∀ o, (f o).id = o.id)
    (hout : ∀ p, (f order).stockView.out p =
      order.stockView.out p - a * count p (stockLinesOf order.items))
    (hm : Moves a b { s with orders := Rows.modify Order.id order.id f s.orders }
      (stockLinesOf order.items) t)
    (hlots : LotLines a (some order.id)
      { s with orders := Rows.modify Order.id order.id f s.orders } (stockLinesOf order.items) t) :
    BatchInv t := by
  have hlength : (Rows.modify Order.id order.id f s.orders).length = s.orders.length := by
    simp [Rows.modify]
  have hplace := hs.fresh _ (StockInv.mem_views (Rows.mem_of_lookup hl))
  refine of_lots hm hlots h ⟨rfl, rfl⟩ rfl (fun v hv p => ?_) fun i hi => ?_
  · obtain ⟨x, hx, rfl⟩ := List.mem_map.mp hv
    rcases Rows.mem_modify hs.orderIds hl hx with rfl | ⟨hold, hne⟩
    · have hkey : (f order).stockView.id = order.stockView.id := hid order
      rw [hout, hkey, h.out _ (StockInv.mem_views (Rows.mem_of_lookup hl))]
      exact congrArg (order.stockView.out p - ·) (if_pos rfl).symm
    · have hne' : ¬some order.id = some x.stockView.id := fun e => hne (Option.some.inj e).symm
      rw [if_neg hne', sub_zero, h.out _ (StockInv.mem_views hold)]
  · have hi' : s.orders.length ≤ i := hlength ▸ hi
    refine ⟨h.unknown i hi', fun e => ?_⟩
    have hlt : order.id < s.orders.length := hplace
    rw [Option.some.inj e] at hlt
    exact absurd hlt (Nat.not_lt.mpr hi')

/-- A new order has nothing out. -/
theorem place_step {order : Order} (h : BatchInv s) (hid : order.id = s.orders.length)
    (hship : order.shippedAt = none)
    (hm : Moves 0 b { s with orders := s.orders ++ [order] } lines t)
    (hlots : LotLines 0 none { s with orders := s.orders ++ [order] } lines t) : BatchInv t := by
  have hviews : ({ s with orders := s.orders ++ [order] } : Store).views =
      s.views ++ [order.stockView] := by
    simp [Store.views]
  refine of_lots hm hlots h ⟨rfl, rfl⟩ rfl (fun v hv p => ?_) fun i hi => ⟨h.unknown i ?_, by simp⟩
  · rw [hviews] at hv
    rw [if_neg (by simp), sub_zero]
    rcases List.mem_append.mp hv with hold | hnew
    · exact (h.out v hold p).symm
    · rw [List.mem_singleton.mp hnew]
      have hkey : order.stockView.id = s.orders.length := hid
      rw [hkey, h.unknown _ (le_refl _)]
      simp [StockView.out, Order.stockView, hship]
  · have hlength : (s.orders ++ [order]).length = s.orders.length + 1 := by simp
    have hi' : s.orders.length + 1 ≤ i := hlength ▸ hi
    exact Nat.le_of_succ_le hi'

end BatchInv

/-! ### What else the services write -/

section tables

variable {s t : Store} {now : Instant}

theorem sameLots_bookTransition (s : Store) (order : Order) (plan : TransitionPlan) :
    SameLots s (bookTransition s order plan now) := by
  unfold bookTransition Coupons.revoke
  dsimp only
  split
  · split
    · exact ⟨rfl, rfl⟩
    · exact ⟨rfl, rfl⟩
  · exact ⟨rfl, rfl⟩

theorem sameLots_bookReopen (s : Store) (order : Order) : SameLots s (bookReopen s order) := by
  unfold bookReopen Coupons.restore
  dsimp only
  split
  · exact ⟨rfl, rfl⟩
  · exact ⟨rfl, rfl⟩

theorem sameLots_upsertCustomer (s : Store) (req : PlaceOrder) (phone : String) :
    SameLots s (upsertCustomer s req phone).1 := by
  unfold upsertCustomer
  dsimp only
  split
  · exact ⟨rfl, rfl⟩
  · split
    · exact ⟨rfl, rfl⟩
    · exact ⟨rfl, rfl⟩

theorem sameLots_redeemCoupon {priced : PricedQuote} {id : OrderId} {customer : CustomerId}
    (h : redeemCoupon s priced id customer = .ok t) : SameLots s t := by
  unfold redeemCoupon at h
  split at h
  · unfold Coupons.redeem at h
    split at h
    · cases h
    obtain rfl := Except.ok.inj h
    exact ⟨rfl, rfl⟩
  · obtain rfl := Except.ok.inj h
    exact ⟨rfl, rfl⟩

end tables

/-! ### One committed call -/

/-- The store after an `UPDATE` of one order. -/
abbrev Store.withOrder (s : Store) (id : OrderId) (f : Order → Order) : Store :=
  { s with orders := Rows.modify Order.id id f s.orders }

section step

variable {base : ProductId → ℤ} {s t : Store} {clamp : ℤ → ℤ} {ref : OrderId}
  {actor : TransitionActor} {now : Instant}

/-- Copies come back only of an open order that has shipped. -/
theorem restock_shipped {order : Order} {req : TransitionRequest} {plan : TransitionPlan}
    (hp : planTransition order req = .ok plan) (hr : plan.stock = .restock) :
    order.shippedAt.isSome = true ∧ order.status.isTerminal = false := by
  obtain ⟨hopen, -, hcase⟩ := planTransition_cases hp
  refine ⟨?_, hopen⟩
  cases hcase with
  | regress mode actor target eq =>
      rw [eq] at hr
      cases hr
  | void terminal eq granted =>
      by_contra hne
      rw [eq] at hr
      simp only [voidPlan, hne] at hr
      by_cases h : order.stockReserved = true
      · simp [h] at hr
      · simp [h] at hr
  | advance flow forward actor paid eq =>
      rw [eq] at hr
      simp only [planAdvance] at hr
      split at hr
      · cases hr
      · cases hr

theorem applyStock_lots {effect : StockEffect} {lines : List StockLine} {ctx : StockContext}
    {i : OrderId} {low : List LowStockHit} (hc : Inventory.Clamps clamp) (hs : Shelved s)
    (ho : ctx.orderId = some i) (hk : ∀ l ∈ lines, s.knows l.key)
    (hh : effect.reservedSign < 0 → Inventory.AllHeld s lines)
    (hout : effect = .restock → ∀ p, s.outstanding i p = count p lines)
    (h : applyStock clamp s effect lines ctx = .ok (t, low)) :
    LotLines effect.onHandSign (some i) s lines t := by
  unfold applyStock at h
  split at h
  · rename_i hnil
    obtain ⟨rfl, rfl⟩ := Prod.mk.inj (Except.ok.inj h)
    rw [hnil]
    exact .nil hs.batched
  · cases effect with
    | none =>
        obtain ⟨rfl, rfl⟩ := Prod.mk.inj (Except.ok.inj h)
        exact .of_tables hs.batched rfl rfl
    | fulfil => exact ho ▸ Inventory.fulfill_lots hc hs (hh (by decide)) h
    | release =>
        obtain ⟨u, hu, heq⟩ := Result.map_ok.mp h
        obtain ⟨rfl, rfl⟩ := Prod.mk.inj heq
        exact Inventory.release_lots hs.batched hu
    | restock =>
        obtain ⟨u, hu, heq⟩ := Result.map_ok.mp h
        obtain ⟨rfl, rfl⟩ := Prod.mk.inj heq
        exact ho ▸ Inventory.restock_lots hs ho hk (hout rfl) hu

theorem applyTransition_batches {cmd : TransitionCommand} {r : Applied}
    (hc : Inventory.Clamps clamp) (h : StockInv base s) (hb : BatchInv s)
    (hcall : applyTransition clamp s ref cmd actor now = .ok (t, r)) : BatchInv t := by
  obtain ⟨order, plan, s₁, s₂, low, hl, hplan, hupd, hstock, rfl, -⟩ := applyTransition_ok hcall
  obtain ⟨o, ho, -, -, rfl⟩ := updateOrder_ok hupd
  have hid : order.id = ref := Rows.key_of_lookup hl
  have hview := StockInv.mem_views (Rows.mem_of_lookup hl)
  have hflags : FlagsMoved order (order.transitioned plan cmd.note now) plan.stock :=
    transition_flags (h.flags _ hview) hplan
  have hknown : ∀ l ∈ stockLinesOf order.items, s.knows l.key := fun l hlm =>
    (h.units _ hview l hlm).2
  have hheld : plan.stock.reservedSign < 0 → Inventory.AllHeld s (stockLinesOf order.items) :=
    fun hneg l hlm =>
      ⟨hknown l hlm, h.count_le_reserved (Rows.mem_of_lookup hl) (hflags.holds hneg) l.key⟩
  have hback : plan.stock = .restock →
      ∀ p, s.outstanding order.id p = count p (stockLinesOf order.items) := by
    intro hr p
    obtain ⟨hshipped, hopen⟩ := restock_shipped hplan hr
    have hout := hb.out _ hview p
    have hunits : order.stockView.out p = count p (stockLinesOf order.items) := by
      simp [StockView.out, Order.stockView, hshipped, hopen]
    exact hout.trans hunits
  let s₁ : Store := s.withOrder order.id fun o => o.transitioned plan cmd.note now
  have hsame : SameLots s s₁ := ⟨rfl, rfl⟩
  have hshelf : Shelved s₁ := ⟨hsame.batched hb.shelved.batched, hb.shelved.shelf⟩
  have hknown₁ : ∀ l ∈ stockLinesOf order.items, s₁.knows l.key := hknown
  have hheld₁ : plan.stock.reservedSign < 0 → Inventory.AllHeld s₁ (stockLinesOf order.items) :=
    hheld
  have hmoves := applyStock_moves hc hknown₁ hheld₁ hstock
  have hlots := applyStock_lots (i := order.id) hc hshelf rfl hknown₁ hheld₁ hback hstock
  refine BatchInv.of_same ?_ (sameStock_bookTransition s₂ order plan)
    (sameLots_bookTransition s₂ order plan)
  exact hb.order_step (f := fun o => o.transitioned plan cmd.note now) h (hid ▸ hl)
    (fun _ => rfl) hflags.out hmoves hlots

theorem reopen_batches {cmd : ReopenCommand} {e : OrderStatusChangedEvent} (h : StockInv base s)
    (hb : BatchInv s) (hcall : reopen s ref cmd actor now = .ok (t, e)) : BatchInv t := by
  obtain ⟨order, plan, s₁, s₂, hl, hplan, hupd, hhold, rfl⟩ := reopen_ok hcall
  obtain ⟨o, ho, -, -, rfl⟩ := updateOrder_ok hupd
  obtain ⟨-, hterm, -, -⟩ := planReopen_ok hplan
  have hid : order.id = ref := Rows.key_of_lookup hl
  let s₁ : Store := s.withOrder order.id fun o => o.reopened plan.toStatus now
  have hsame : SameLots s s₁ := ⟨rfl, rfl⟩
  have hbatched : Batched s₁ := hsame.batched hb.shelved.batched
  have hboth : Moves 0 1 s₁ (stockLinesOf order.items) s₂ ∧
      LotLines 0 (some order.id) s₁ (stockLinesOf order.items) s₂ := by
    unfold holdStock at hhold
    split at hhold
    · rename_i hnil
      rw [hnil]
      obtain rfl := Except.ok.inj hhold
      exact ⟨Moves.of_same (SameStock.refl _), .nil hbatched⟩
    · exact ⟨(Inventory.reserve_moves hhold).1, Inventory.reserve_lots hbatched hhold⟩
  refine BatchInv.of_same ?_ (sameStock_bookReopen s₂ order) (sameLots_bookReopen s₂ order)
  refine hb.order_step (f := fun o => o.reopened plan.toStatus now) h (hid ▸ hl) (fun _ => rfl)
    (fun p => ?_) hboth.1 hboth.2
  simp [StockView.out, Order.stockView, Order.reopened, hterm]

theorem placeInTx_batches {req : PlaceOrder} {o : Order} (hb : BatchInv s)
    (hcall : placeInTx s req now = .ok (t, o)) : BatchInv t := by
  obtain ⟨phone, -, -, ho, hwrite⟩ := placeInTx_ok hcall
  obtain ⟨s₁, s₂, s₃, hins, hreserve, hredeem, rfl⟩ := writeOrder_ok hwrite
  obtain ⟨-, -, rfl⟩ := insertOrder_ok hins
  have hb₀ : BatchInv { (upsertCustomer s req phone).1 with
      counters := (nextNumber (upsertCustomer s req phone).1.counters .order).2 } :=
    (hb.of_same (sameStock_upsertCustomer s req phone)
      (sameLots_upsertCustomer s req phone)).of_same (SameStock.of_tables rfl rfl rfl) ⟨rfl, rfl⟩
  have hbatched := hb₀.shelved.batched
  have hmoves := (Inventory.reserve_moves hreserve).1
  have hb₂ : BatchInv s₂ := by
    refine hb₀.place_step ?_ ?_ hmoves (Inventory.reserve_lots ?_ hreserve)
    · rw [ho]
      rfl
    · rw [ho]
      rfl
    · refine SameLots.batched ?_ hbatched
      exact ⟨rfl, rfl⟩
  exact (hb₂.of_same (sameStock_redeemCoupon hredeem) (sameLots_redeemCoupon hredeem)).of_same
    (SameStock.of_tables rfl rfl rfl) ⟨rfl, rfl⟩

/-- **Every committed call keeps the batches in step with the shelf and the orders.** -/
theorem stockStep_batches {a : StockAction} (h : StockInv base s) (hb : BatchInv s)
    (hstep : stockStep clampZero s a = some t) : BatchInv t := by
  have hclamp := Inventory.clamps_clampZero
  have hcall := Result.toOption_some.mp hstep
  cases a with
  | place req now =>
      obtain ⟨⟨t', o⟩, hr, rfl⟩ := Result.map_ok.mp hcall
      exact placeInTx_batches hb hr
  | apply ref cmd actor now =>
      obtain ⟨⟨t', r⟩, hr, rfl⟩ := Result.map_ok.mp hcall
      exact applyTransition_batches hclamp h hb hr
  | regress ref note version actor now =>
      obtain ⟨⟨t', r⟩, hr, rfl⟩ := Result.map_ok.mp hcall
      obtain ⟨cmd, hr'⟩ := regress_ok hr
      exact applyTransition_batches hclamp h hb hr'
  | reopen ref cmd actor now =>
      obtain ⟨⟨t', e⟩, hr, rfl⟩ := Result.map_ok.mp hcall
      exact reopen_batches h hb hr
  | receive p qty cost ctx =>
      exact hb.receive_step (Inventory.addBatch_moves hcall)
        (Inventory.addBatch_lots hb.shelved.batched hcall)
  | addBatch p qty batch ctx =>
      exact hb.receive_step (Inventory.addBatch_moves hcall)
        (Inventory.addBatch_lots hb.shelved.batched hcall)
  | setOnHand p onHand ctx type =>
      exact hb.receive_step (Inventory.setOnHand_moves hcall)
        (Inventory.setOnHand_lots hb.shelved hcall)

end step

/-! ### Whole runs -/

/-- The opening stock of a shop is in batches that nobody has taken from. -/
structure OpeningLots (s : Store) : Prop where
  ids : s.lots.map StockLot.id = List.range s.lots.length
  full : ∀ l ∈ s.lots, 0 ≤ l.qtyLeft ∧ l.qtyLeft = l.qtyIn
  untouched : s.consumptions = []
  shelf : ∀ p, s.lotLeft p = s.onHand p

theorem OpeningLots.inv {s : Store} (h : OpeningLots s) (ho : Opening s) : BatchInv s := by
  have hout : ∀ i p, s.outstanding i p = 0 := by
    intro i p
    rw [Store.outstanding, h.untouched]
    rfl
  have hno : ∀ c, c ∉ s.consumptions := by
    intro c hc
    rw [h.untouched] at hc
    cases hc
  refine ⟨⟨⟨h.ids, ?_, fun l hl => (h.full l hl).1, fun l hl => ?_, fun c hc => absurd hc (hno c),
    fun c hc => absurd hc (hno c)⟩, h.shelf⟩, fun v hv => ?_, fun i _ p => hout i p⟩
  · rw [h.untouched]
    rfl
  · have hused : s.lotUsed l.id = 0 := by
      rw [Store.lotUsed, h.untouched]
      rfl
    rw [hused, add_zero]
    exact (h.full l hl).2.le
  · rw [Store.views, ho.orders] at hv
    cases hv

/-- What the batches, the takings and the orders owe each other. -/
structure BatchesAccount (s : Store) : Prop where
  shelf : ∀ p ∈ s.products, s.lotLeft p.id = p.stockOnHand
  lots : ∀ l ∈ s.lots, 0 ≤ l.qtyLeft ∧ l.qtyLeft + s.lotUsed l.id ≤ l.qtyIn
  /-- whatever a taking gives back, `LEAST(…, qty_in)` does not change it -/
  clamp : ∀ c ∈ s.consumptions, ∀ l ∈ s.lots, l.id = c.lotId → ∀ back ≤ c.qty - c.returned,
    min (l.qtyLeft + back) l.qtyIn = l.qtyLeft + back
  takings : ∀ c ∈ s.consumptions, 0 ≤ c.returned ∧ c.returned ≤ c.qty
  orders : ∀ o ∈ s.orders, o.shippedAt.isSome → o.status.isTerminal = false →
    ∀ p, s.outstanding o.id p = count p (stockLinesOf o.items)

theorem BatchInv.account {base : ProductId → ℤ} {s : Store} (h : StockInv base s)
    (hb : BatchInv s) : BatchesAccount s := by
  refine ⟨fun p hp => ?_, fun l hl => ⟨hb.shelved.batched.left l hl, hb.shelved.batched.room l hl⟩,
    fun c hc l hl hid back hback => hb.shelved.batched.clamp_eq hc hl hid hback,
    hb.shelved.batched.used, fun o ho hshipped hopen p => ?_⟩
  · rw [hb.shelved.shelf, Store.onHand, Rows.lookup_of_mem h.productIds hp]
    rfl
  · have hout := hb.out _ (StockInv.mem_views ho) p
    have hunits : o.stockView.out p = count p (stockLinesOf o.items) := by
      simp [StockView.out, Order.stockView, hshipped, hopen]
    exact hout.trans hunits

/-- **The batches account for the shelf in every state of every run.** -/
theorem batches_account (s₀ t : Store) (as : List StockAction) (hopen : Opening s₀)
    (hlots : OpeningLots s₀) (hrun : runFrom (stockStep clampZero) s₀ as = some t) :
    BatchesAccount t := by
  have hstep : ∀ s a s', (∃ base, StockInv base s ∧ BatchInv s) →
      stockStep clampZero s a = some s' → ∃ base, StockInv base s' ∧ BatchInv s' := by
    rintro s a s' ⟨base, h, hb⟩ hs
    exact ⟨_, stockStep_inv h hs, stockStep_batches h hb hs⟩
  obtain ⟨base, h, hb⟩ :=
    runFrom_invariant hstep as s₀ t ⟨_, hopen.inv, hlots.inv hopen⟩ hrun
  exact hb.account h

/-- The small shop with its opening stock in one batch. -/
def batchedShop : Store :=
  { smallShop with
    lots := [{ id := 0, productId := 1, source := .opening, qtyIn := 3, qtyLeft := 3,
               receivedAt := 0, createdAt := 0 }] }

theorem batchedShop_opening : Opening batchedShop :=
  ⟨rfl, smallShop_opening.reserved, smallShop_opening.ledgerOnHand,
    smallShop_opening.ledgerReserved, smallShop_opening.productIds⟩

theorem batchedShop_lots : OpeningLots batchedShop := by
  refine ⟨rfl, by decide, rfl, fun p => ?_⟩
  by_cases h1 : 1 = p
  · subst h1
    decide
  · by_cases h2 : 2 = p <;>
      simp [Store.lotLeft, Store.onHand, batchedShop, smallShop, Rows.lookup, h1, h2]

/-- The batches account for the shelf over the days of the small shop. -/
theorem batches_account_smallShop :
    ∃ t, runFrom (stockStep clampZero) batchedShop smallShopDays = some t ∧ BatchesAccount t := by
  have hruns : (runFrom (stockStep clampZero) batchedShop smallShopDays).isSome = true := by
    decide +kernel
  obtain ⟨t, ht⟩ := Option.isSome_iff_exists.mp hruns
  exact ⟨t, ht, batches_account batchedShop t smallShopDays batchedShop_opening batchedShop_lots ht⟩

end BookHouse
