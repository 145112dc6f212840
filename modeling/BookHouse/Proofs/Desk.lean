/-
What the order services do away from the shelf.

A store without its stock is a desk: the orders without their lines, the customers, the
coupons and what was redeemed of them.  Stock operations write the shelf and the costs of
the lines, so the desk stays as it is; what a committed call does to the desk is said once
(`stockStep_desk`), and the invariants of orders, counters and coupons follow from that.
-/
import BookHouse.Proofs.Stock

namespace BookHouse

/-- An order without its lines. -/
def Order.head (o : Order) : Order := { o with items := [] }

/-- A store without its stock and its numbers. -/
def Store.desk (s : Store) : Store :=
  { orders := s.orders.map Order.head, customers := s.customers, coupons := s.coupons,
    redemptions := s.redemptions }

namespace Order

@[simp] theorem head_id (o : Order) : o.head.id = o.id := rfl

@[simp] theorem head_status (o : Order) : o.head.status = o.status := rfl

theorem head_check (o : Order) : o.head.check = o.check := rfl

theorem head_transitioned (o : Order) (plan : TransitionPlan) (note : Option String)
    (now : Instant) : (o.transitioned plan note now).head = o.head.transitioned plan note now := rfl

theorem head_reopened (o : Order) (target : ReopenTarget) (now : Instant) :
    (o.reopened target now).head = o.head.reopened target now := rfl

end Order

theorem planTransition_head (o : Order) (req : TransitionRequest) :
    planTransition o.head req = planTransition o req := rfl

theorem planReopen_head (o : Order) (req : ReopenRequest) :
    planReopen o.head req = planReopen o req := rfl

section rows

variable {s t : Store}

theorem desk_orders_lookup (s : Store) (id : OrderId) :
    Rows.lookup Order.id id s.desk.orders = (Rows.lookup Order.id id s.orders).map Order.head := by
  show Rows.lookup Order.id id (s.orders.map Order.head) = _
  induction s.orders with
  | nil => rfl
  | cons o rest ih =>
      rw [List.map_cons, Rows.lookup_cons, Rows.lookup_cons, ih]
      by_cases h : o.id = id
      · simp [h]
      · simp [h]

/-- A change of the columns that are not lines is the same change of the desk. -/
theorem desk_modify_order {id : OrderId} {f : Order → Order} (hf : ∀ o, (f o).head = f o.head) :
    ({ s with orders := Rows.modify Order.id id f s.orders } : Store).desk =
      { s.desk with orders := Rows.modify Order.id id f s.desk.orders } := by
  have hmap : (Rows.modify Order.id id f s.orders).map Order.head =
      Rows.modify Order.id id f (s.orders.map Order.head) := by
    rw [Rows.modify, Rows.modify, List.map_map, List.map_map]
    refine List.map_congr_left fun o _ => ?_
    by_cases h : o.id = id
    · simp [h, hf]
    · simp [h]
  simp only [Store.desk, hmap]

/-- A change of the lines leaves the desk as it was. -/
theorem desk_modify_lines {id : OrderId} {f : Order → Order} (hf : ∀ o, (f o).head = o.head) :
    ({ s with orders := Rows.modify Order.id id f s.orders } : Store).desk = s.desk := by
  have hmap : (Rows.modify Order.id id f s.orders).map Order.head = s.orders.map Order.head :=
    Rows.map_modify hf
  simp only [Store.desk, hmap]

end rows

/-! ### Stock operations stay away from the desk -/

namespace Inventory

variable {s t : Store} {l : StockLine} {ctx : StockContext} {clamp : ℤ → ℤ}

theorem desk_updateProduct {id : ProductId} {cond : Product → Bool} {f : Product → Product}
    {p : Product} (h : updateProduct s id cond f = .ok (some (p, t))) : t.desk = s.desk := by
  obtain ⟨q, -, -, -, rfl⟩ := updateProduct_some h
  rfl

theorem desk_log {p : Product} {type : StockMovementType} {dOn dRes : ℤ} {cost : Option Money}
    (h : log s p type dOn dRes ctx cost = .ok t) : t.desk = s.desk := by
  obtain ⟨m, -, -, -, rfl⟩ := log_ok h
  rfl

theorem desk_refreshCost (s : Store) (p : ProductId) : (refreshCost s p).desk = s.desk := by
  unfold refreshCost
  split
  · rfl
  · rfl

theorem desk_createLot {p : ProductId} {source : LotSource} {qty : ℤ} {cost price : Option Money}
    {purchase : Option PurchaseId} {at_ : Option Instant} {now : Instant}
    (h : createLot s p source qty cost price purchase at_ now = .ok t) : t.desk = s.desk := by
  unfold createLot at h
  split at h
  · cases h
  split at h
  · cases h
  obtain rfl := Except.ok.inj h
  rfl

theorem desk_takeFrom (o : Option OrderId) (p : ProductId) (now : Instant) :
    ∀ (lots : List StockLot) (need : ℤ) (s : Store) (used : List Used),
      (takeFrom o p now lots need s used).1.desk = s.desk := by
  intro lots
  induction lots with
  | nil => intro need s used; rfl
  | cons lot rest ih =>
      intro need s used
      rw [takeFrom]
      split
      · rfl
      · rw [ih]
        rfl

theorem desk_consume (s : Store) (p : ProductId) (qty : ℤ) (o : Option OrderId) (now : Instant) :
    (consume s p qty o now).1.desk = s.desk := by
  have htake := desk_takeFrom o p now (openLots s p) qty s []
  exact (desk_refreshCost _ p).trans htake

theorem desk_giveBack :
    ∀ (uses : List StockLotConsumption) (left : ℤ) (s : Store),
      (giveBack uses left s).1.desk = s.desk := by
  intro uses
  induction uses with
  | nil => intro left s; rfl
  | cons u rest ih =>
      intro left s
      rw [giveBack]
      split
      · rfl
      · dsimp only
        split
        · exact ih left s
        · rw [ih]
          rfl

theorem desk_returnToLots (s : Store) (p : ProductId) (qty : ℤ) (o : Option OrderId) :
    (returnToLots s p qty o).1.desk = s.desk := by
  cases o with
  | none => rfl
  | some o => exact desk_giveBack _ _ _

theorem desk_unconsume {p : ProductId} {qty : ℤ} (h : unconsume s p qty ctx = .ok t) :
    t.desk = s.desk := by
  obtain ⟨u, hu, rfl⟩ := Result.map_ok.mp h
  rw [desk_refreshCost, ← desk_returnToLots s p qty ctx.orderId]
  split at hu
  · exact desk_createLot hu
  · obtain rfl := Except.ok.inj hu
    rfl

theorem desk_stampOrderCost (s : Store) (o : OrderId) (p : ProductId) (used : List Used) :
    (stampOrderCost s o p used).desk = s.desk := by
  unfold stampOrderCost
  split
  · rfl
  · exact desk_modify_lines fun _ => rfl

theorem desk_reserveLine (h : reserveLine ctx s l = .ok t) : t.desk = s.desk := by
  obtain ⟨updated, hu, h⟩ := Result.bind_ok.mp h
  cases updated with
  | none =>
      dsimp only at h
      split at h
      · cases h
      · cases h
  | some r => exact (desk_log h).trans (desk_updateProduct hu)

theorem desk_releaseLine (h : releaseLine clamp ctx s l = .ok t) : t.desk = s.desk := by
  obtain ⟨updated, hu, h⟩ := Result.bind_ok.mp h
  cases updated with
  | none =>
      obtain rfl := Except.ok.inj h
      rfl
  | some r => exact (desk_log h).trans (desk_updateProduct hu)

theorem desk_fulfillLine {r r' : Store × List LowStockHit}
    (h : fulfillLine clamp ctx r l = .ok r') : r'.1.desk = r.1.desk := by
  obtain ⟨updated, hu, h⟩ := Result.bind_ok.mp h
  cases updated with
  | none => cases h
  | some x =>
      obtain ⟨v, hlog, h⟩ := Result.bind_ok.mp h
      obtain rfl := Except.ok.inj h
      have hused : (consume v l.key l.qty ctx.orderId ctx.now).1.desk = r.1.desk :=
        (desk_consume v l.key l.qty ctx.orderId ctx.now).trans
          ((desk_log hlog).trans (desk_updateProduct hu))
      dsimp only
      split
      · exact hused
      · exact (desk_stampOrderCost _ _ _ _).trans hused

theorem desk_restockLine (h : restockLine ctx s l = .ok t) : t.desk = s.desk := by
  obtain ⟨updated, hu, h⟩ := Result.bind_ok.mp h
  cases updated with
  | none =>
      obtain rfl := Except.ok.inj h
      rfl
  | some r =>
      obtain ⟨v, hlog, h⟩ := Result.bind_ok.mp h
      exact (desk_unconsume h).trans ((desk_log hlog).trans (desk_updateProduct hu))

/-- A loop over lines keeps the desk when each round does. -/
theorem desk_lines {σ : Type} {π : σ → Store} {g : σ → StockLine → Except Failure σ}
    (hround : ∀ x l y, g x l = .ok y → (π y).desk = (π x).desk) (m : List StockLine) (x y : σ)
    (h : m.foldlM g x = .ok y) : (π y).desk = (π x).desk :=
  Result.foldlM_rel (R := fun a b => (π b).desk = (π a).desk) (fun _ => rfl)
    (fun _ _ _ hab hbc => hbc.trans hab) hround m x y h

variable {lines : List StockLine}

theorem desk_reserve (h : reserve s lines ctx = .ok t) : t.desk = s.desk := by
  obtain ⟨m, -, h⟩ := Result.bind_ok.mp h
  exact desk_lines (π := fun s => s) (fun _ _ _ hr => desk_reserveLine hr) m s t h

theorem desk_release (h : release clamp s lines ctx = .ok t) : t.desk = s.desk := by
  obtain ⟨m, -, h⟩ := Result.bind_ok.mp h
  exact desk_lines (π := fun s => s) (fun _ _ _ hr => desk_releaseLine hr) m s t h

theorem desk_fulfill {low : List LowStockHit} (h : fulfill clamp s lines ctx = .ok (t, low)) :
    t.desk = s.desk := by
  obtain ⟨m, -, h⟩ := Result.bind_ok.mp h
  exact desk_lines (π := Prod.fst) (fun _ _ _ hr => desk_fulfillLine hr) m (s, []) (t, low) h

theorem desk_restock (h : restock s lines ctx = .ok t) : t.desk = s.desk := by
  obtain ⟨m, -, h⟩ := Result.bind_ok.mp h
  exact desk_lines (π := fun s => s) (fun _ _ _ hr => desk_restockLine hr) m s t h

theorem desk_addBatch {p : ProductId} {qty : ℤ} {batch : Batch}
    (h : addBatch s p qty batch ctx = .ok t) : t.desk = s.desk := by
  unfold addBatch at h
  split at h
  · cases h
  split at h
  · cases h
  obtain ⟨updated, hu, h⟩ := Result.bind_ok.mp h
  cases updated with
  | none => cases h
  | some r =>
      obtain ⟨v, hlog, h⟩ := Result.bind_ok.mp h
      obtain ⟨w, hlot, hret⟩ := Result.bind_ok.mp h
      obtain rfl := Except.ok.inj hret
      rw [desk_refreshCost, desk_createLot hlot, desk_log hlog]
      exact desk_updateProduct hu

theorem desk_setOnHand {p : ProductId} {onHand : ℤ} {type : Option StockMovementType}
    (h : setOnHand s p onHand ctx type = .ok t) : t.desk = s.desk := by
  unfold setOnHand at h
  split at h
  · cases h
  split at h
  · cases h
  dsimp only at h
  split at h
  · obtain rfl := Except.ok.inj h
    rfl
  split at h
  · cases h
  obtain ⟨updated, hu, h⟩ := Result.bind_ok.mp h
  cases updated with
  | none => cases h
  | some r =>
      obtain ⟨v, hlog, h⟩ := Result.bind_ok.mp h
      obtain ⟨w, hlot, rfl⟩ := Result.map_ok.mp h
      rw [desk_refreshCost]
      have hv : v.desk = s.desk := (desk_log hlog).trans (desk_updateProduct hu)
      split at hlot
      · exact (desk_createLot hlot).trans hv
      · obtain rfl := Except.ok.inj hlot
        exact (desk_consume _ _ _ _ _).trans hv

end Inventory

theorem desk_applyStock {clamp : ℤ → ℤ} {s t : Store} {effect : StockEffect}
    {lines : List StockLine} {ctx : StockContext} {low : List LowStockHit}
    (h : applyStock clamp s effect lines ctx = .ok (t, low)) : t.desk = s.desk := by
  unfold applyStock at h
  split at h
  · obtain ⟨rfl, rfl⟩ := Prod.mk.inj (Except.ok.inj h)
    rfl
  cases effect with
  | none =>
      obtain ⟨rfl, rfl⟩ := Prod.mk.inj (Except.ok.inj h)
      rfl
  | fulfil => exact Inventory.desk_fulfill h
  | release =>
      obtain ⟨u, hu, heq⟩ := Result.map_ok.mp h
      obtain ⟨rfl, rfl⟩ := Prod.mk.inj heq
      exact Inventory.desk_release hu
  | restock =>
      obtain ⟨u, hu, heq⟩ := Result.map_ok.mp h
      obtain ⟨rfl, rfl⟩ := Prod.mk.inj heq
      exact Inventory.desk_restock hu

/-! ### Coupon and CRM bookkeeping is the desk's -/

theorem desk_revoke (s : Store) (id : OrderId) (now : Instant) :
    (Coupons.revoke s id now).desk = Coupons.revoke s.desk id now := by
  have hlook : Rows.lookup CouponRedemption.orderId id s.desk.redemptions =
      Rows.lookup CouponRedemption.orderId id s.redemptions := rfl
  unfold Coupons.revoke
  rw [hlook]
  cases (Rows.lookup CouponRedemption.orderId id s.redemptions).filter (·.revokedAt.isNone) with
  | none => rfl
  | some r => rfl

theorem desk_restore (s : Store) (id : OrderId) :
    (Coupons.restore s id).desk = Coupons.restore s.desk id := by
  have hlook : Rows.lookup CouponRedemption.orderId id s.desk.redemptions =
      Rows.lookup CouponRedemption.orderId id s.redemptions := rfl
  unfold Coupons.restore
  rw [hlook]
  cases (Rows.lookup CouponRedemption.orderId id s.redemptions).filter (·.revokedAt.isSome) with
  | none => rfl
  | some r => rfl

theorem desk_bookTransition (s : Store) (order : Order) (plan : TransitionPlan) (now : Instant) :
    (bookTransition s order plan now).desk = bookTransition s.desk order.head plan now := by
  unfold bookTransition
  by_cases hr : plan.revokeCoupon
  · simp only [hr, if_true, Order.head_id, ← desk_revoke]
    rfl
  · simp only [hr]
    rfl

theorem desk_bookReopen (s : Store) (order : Order) :
    (bookReopen s order).desk = bookReopen s.desk order.head := by
  unfold bookReopen
  simp only [Order.head_id, ← desk_restore]
  rfl

theorem desk_redeemCoupon {s t : Store} {priced : PricedQuote} {id : OrderId}
    {customer : CustomerId} (h : redeemCoupon s priced id customer = .ok t) :
    redeemCoupon s.desk priced id customer = .ok t.desk := by
  unfold redeemCoupon at h ⊢
  split at h
  · unfold Coupons.redeem at h ⊢
    split at h
    · cases h
    rename_i hfree
    obtain rfl := Except.ok.inj h
    exact if_neg hfree
  · obtain rfl := Except.ok.inj h
    rfl

theorem desk_upsertCustomer (s : Store) (req : PlaceOrder) (phone : String) :
    (upsertCustomer s req phone).1.desk = (upsertCustomer s.desk req phone).1 ∧
      (upsertCustomer s req phone).2 = (upsertCustomer s.desk req phone).2 := by
  have hcustomers : s.desk.customers = s.customers := rfl
  unfold upsertCustomer
  simp only [hcustomers]
  split
  · exact ⟨rfl, rfl⟩
  · split
    · exact ⟨rfl, rfl⟩
    · exact ⟨rfl, rfl⟩

theorem desk_usage (s : Store) (coupon : CouponId) (customer : Option CustomerId) :
    Coupons.usage s.desk coupon customer = Coupons.usage s coupon customer := by
  unfold Coupons.usage
  cases customer with
  | none => rfl
  | some c =>
      have horders : s.desk.orders = s.orders.map Order.head := rfl
      simp only [horders, List.countP_map]
      rfl

theorem desk_priceOrder (s : Store) (req : PlaceOrder) (customer : CustomerId) (now : Instant) :
    priceOrder s.desk req customer now = priceOrder s req customer now := by
  have hfind : Coupons.findRule s.desk = Coupons.findRule s := rfl
  simp only [priceOrder, hfind, desk_usage]

/-! ### What a committed call does to the desk -/

/-- The priced cart of a placement, after its customer was found or made. -/
def pricedAt (s : Store) (req : PlaceOrder) (phone : String) (now : Instant) : PricedQuote :=
  priceOrder (upsertCustomer s req phone).1 req (upsertCustomer s req phone).2.id now

theorem desk_pricedAt (s : Store) (req : PlaceOrder) (phone : String) (now : Instant) :
    pricedAt s.desk req phone now = pricedAt s req phone now := by
  obtain ⟨hstore, hcustomer⟩ := desk_upsertCustomer s req phone
  rw [pricedAt, ← hstore, ← hcustomer, desk_priceOrder, pricedAt]

/-- The customer's side of a placement. -/
def bookPlacement (s : Store) (o : Order) (now : Instant) : Store :=
  let counters := Customer.afterPlacement o.grandTotal now
  { s with customers := Rows.modify Customer.id o.customerId counters s.customers }

/-- The row of a transition, and its bookkeeping. -/
def deskTransition (s : Store) (order : Order) (plan : TransitionPlan) (note : Option String)
    (now : Instant) : Store :=
  let orders := Rows.modify Order.id order.id (fun o => o.transitioned plan note now) s.orders
  bookTransition { s with orders } order plan now

/-- The row of a reopen, and its bookkeeping. -/
def deskReopen (s : Store) (order : Order) (target : ReopenTarget) (now : Instant) : Store :=
  let orders := Rows.modify Order.id order.id (fun o => o.reopened target now) s.orders
  bookReopen { s with orders } order

/-- One committed call, as the desk sees it. -/
inductive DeskStep (s : Store) : StockAction → Store → Prop
  /-- a receipt or a correction of the shelf -/
  | shelf {a : StockAction} (quiet : a.actor = none) : DeskStep s a s
  | placed {req : PlaceOrder} {now : Instant} {phone : String} {o : Order} {u : Store}
      (granted : placementRefusal req (pricedAt s req phone now).quote = none)
      (row : ∃ orderNo, o = (newOrder s.orders.length orderNo (upsertCustomer s req phone).2.id
        phone req (pricedAt s req phone now).quote now).head)
      (sound : o.check = .ok ())
      (redeemed : redeemCoupon
          { (upsertCustomer s req phone).1 with
            orders := s.orders ++ [o] }
          (pricedAt s req phone now) o.id o.customerId = .ok u) :
      DeskStep s (.place req now) (bookPlacement u o now)
  | transitioned {a : StockAction} {ref : OrderId} {cmd : TransitionCommand}
      {actor : TransitionActor} {now : Instant} {order : Order} {plan : TransitionPlan}
      (by_ : a.actor = some actor) (plain : a.reopens = false)
      (found : Rows.lookup Order.id ref s.orders = some order)
      (granted : planTransition order (cmd.request actor now) = .ok plan)
      (sound : (order.transitioned plan cmd.note now).check = .ok ()) :
      DeskStep s a (deskTransition s order plan cmd.note now)
  | reopened {ref : OrderId} {cmd : ReopenCommand} {actor : TransitionActor} {now : Instant}
      {order : Order} {plan : ReopenPlan}
      (found : Rows.lookup Order.id ref s.orders = some order)
      (granted : planReopen order { toStatus := cmd.toStatus, reason := cmd.reason, actor } =
        .ok plan)
      (sound : (order.reopened plan.toStatus now).check = .ok ()) :
      DeskStep s (.reopen ref cmd actor now) (deskReopen s order plan.toStatus now)

section step

variable {s t : Store} {clamp : ℤ → ℤ} {ref : OrderId} {actor : TransitionActor} {now : Instant}

theorem applyTransition_desk {a : StockAction} {cmd : TransitionCommand} {r : Applied}
    (ha : a.actor = some actor) (hplain : a.reopens = false)
    (h : applyTransition clamp s ref cmd actor now = .ok (t, r)) : DeskStep s.desk a t.desk := by
  obtain ⟨order, plan, s₁, s₂, low, hl, hplan, hupd, hstock, rfl, -⟩ := applyTransition_ok h
  obtain ⟨o, ho, -, hcheck, rfl⟩ := updateOrder_ok hupd
  have hid : order.id = ref := Rows.key_of_lookup hl
  obtain rfl : order = o := Option.some.inj (hl.symm.trans (hid ▸ ho))
  have hdesk : (bookTransition s₂ order plan now).desk =
      deskTransition s.desk order.head plan cmd.note now := by
    rw [desk_bookTransition, desk_applyStock hstock,
      desk_modify_order (f := fun o => o.transitioned plan cmd.note now) fun _ => rfl]
    rfl
  have hfound : Rows.lookup Order.id ref s.desk.orders = some order.head := by
    rw [desk_orders_lookup, hl]
    rfl
  rw [hdesk]
  exact .transitioned ha hplain hfound hplan hcheck

theorem reopen_desk {cmd : ReopenCommand} {e : OrderStatusChangedEvent}
    (h : reopen s ref cmd actor now = .ok (t, e)) :
    DeskStep s.desk (.reopen ref cmd actor now) t.desk := by
  obtain ⟨order, plan, s₁, s₂, hl, hplan, hupd, hhold, rfl⟩ := reopen_ok h
  obtain ⟨o, ho, -, hcheck, rfl⟩ := updateOrder_ok hupd
  have hid : order.id = ref := Rows.key_of_lookup hl
  obtain rfl : order = o := Option.some.inj (hl.symm.trans (hid ▸ ho))
  have hheld : s₂.desk = ({ s with
      orders := Rows.modify Order.id order.id (fun o => o.reopened plan.toStatus now) s.orders } :
        Store).desk := by
    unfold holdStock at hhold
    split at hhold
    · obtain rfl := Except.ok.inj hhold
      rfl
    · exact Inventory.desk_reserve hhold
  have hdesk : (bookReopen s₂ order).desk = deskReopen s.desk order.head plan.toStatus now := by
    rw [desk_bookReopen, hheld,
      desk_modify_order (f := fun o => o.reopened plan.toStatus now) fun _ => rfl]
    rfl
  rw [hdesk]
  refine .reopened ?_ hplan hcheck
  rw [desk_orders_lookup, hl]
  rfl

theorem placeInTx_desk {req : PlaceOrder} {o : Order} (h : placeInTx s req now = .ok (t, o)) :
    DeskStep s.desk (.place req now) t.desk := by
  obtain ⟨phone, -, hrefusal, ho, hwrite⟩ := placeInTx_ok h
  obtain ⟨s₁, s₂, s₃, hins, hreserve, hredeem, rfl⟩ := writeOrder_ok hwrite
  obtain ⟨hcheck, -, rfl⟩ := insertOrder_ok hins
  obtain ⟨hstore, hcustomer⟩ := desk_upsertCustomer s req phone
  have hpriced : pricedAt s.desk req phone now = priceOrder (upsertCustomer s req phone).1 req
      (upsertCustomer s req phone).2.id now := desk_pricedAt s req phone now
  have horders : (upsertCustomer s req phone).1.orders = s.orders := by
    unfold upsertCustomer
    dsimp only
    split
    · rfl
    · split
      · rfl
      · rfl
  have hbase : s₂.desk = { (upsertCustomer s.desk req phone).1 with
      orders := s.desk.orders ++ [o.head] } := by
    rw [Inventory.desk_reserve hreserve, ← hstore]
    simp [Store.desk, horders]
  have hredeemed := desk_redeemCoupon hredeem
  rw [hbase, ← hpriced] at hredeemed
  rw [← hpriced] at hrefusal ho ⊢
  have htotal : o.grandTotal = (pricedAt s.desk req phone now).quote.grandTotal := by
    rw [ho]
    rfl
  have hlength : s.desk.orders.length = s.orders.length := by simp [Store.desk]
  rw [← htotal]
  have hrow : ∃ orderNo, o.head = (newOrder s.desk.orders.length orderNo
      (upsertCustomer s.desk req phone).2.id phone req (pricedAt s.desk req phone now).quote
      now).head := by
    rw [ho, horders, hlength, hcustomer]
    exact ⟨_, rfl⟩
  exact .placed (o := o.head) (u := s₃.desk) hrefusal hrow hcheck hredeemed

/-- **Every committed call is one of four things to the desk.** -/
theorem stockStep_desk {a : StockAction} (h : stockStep clamp s a = some t) :
    DeskStep s.desk a t.desk := by
  have hcall := Result.toOption_some.mp h
  cases a with
  | place req now =>
      obtain ⟨⟨t', o⟩, hr, rfl⟩ := Result.map_ok.mp hcall
      exact placeInTx_desk hr
  | apply ref cmd actor now =>
      obtain ⟨⟨t', r⟩, hr, rfl⟩ := Result.map_ok.mp hcall
      exact applyTransition_desk rfl rfl hr
  | regress ref note version actor now =>
      obtain ⟨⟨t', r⟩, hr, rfl⟩ := Result.map_ok.mp hcall
      obtain ⟨cmd, hr'⟩ := regress_ok hr
      exact applyTransition_desk rfl rfl hr'
  | reopen ref cmd actor now =>
      obtain ⟨⟨t', e⟩, hr, rfl⟩ := Result.map_ok.mp hcall
      exact reopen_desk hr
  | receive p qty cost ctx =>
      rw [Inventory.desk_addBatch hcall]
      exact .shelf rfl
  | addBatch p qty batch ctx =>
      rw [Inventory.desk_addBatch hcall]
      exact .shelf rfl
  | setOnHand p onHand ctx type =>
      rw [Inventory.desk_setOnHand hcall]
      exact .shelf rfl

end step

/-! ### The orders after a call -/

/-- A row moved by the state machine. -/
inductive RowStep (a : StockAction) (o : Order) : Order → Prop
  | transition {cmd : TransitionCommand} {actor : TransitionActor} {now : Instant}
      {plan : TransitionPlan} (by_ : a.actor = some actor)
      (granted : planTransition o (cmd.request actor now) = .ok plan) :
      RowStep a o (o.transitioned plan cmd.note now)
  | reopen {cmd : ReopenCommand} {actor : TransitionActor} {now : Instant} {plan : ReopenPlan}
      (by_ : a.actor = some actor)
      (granted : planReopen o { toStatus := cmd.toStatus, reason := cmd.reason, actor } = .ok plan) :
      RowStep a o (o.reopened plan.toStatus now)

/-- A row as placement writes it. -/
structure Order.Fresh (o : Order) : Prop where
  status : o.status = .pending
  unpaid : o.paymentStatus = .unpaid
  noMoney : o.amountPaid = 0 ∧ o.amountRefunded = 0
  reserved : o.stockReserved = true
  dates : o.confirmedAt = none ∧ o.shippedAt = none ∧ o.deliveredAt = none ∧
    o.cancelledAt = none ∧ o.cancelledFrom = none

theorem fresh_newOrder (id : OrderId) (no : String) (customer : CustomerId) (phone : String)
    (req : PlaceOrder) (q : Quote) (now : Instant) :
    (newOrder id no customer phone req q now).Fresh :=
  ⟨rfl, rfl, ⟨rfl, rfl⟩, rfl, rfl, rfl, rfl, rfl, rfl⟩

theorem Order.Fresh.head {o : Order} (h : o.Fresh) : o.head.Fresh :=
  ⟨h.status, h.unpaid, h.noMoney, h.reserved, h.dates⟩

/-- The orders are numbered by their places. -/
def Store.Numbered (s : Store) : Prop := s.orders.map Order.id = List.range s.orders.length

theorem Store.Numbered.nodup {s : Store} (h : s.Numbered) : (s.orders.map Order.id).Nodup := by
  rw [h]
  exact List.nodup_range

theorem orders_upsertCustomer (s : Store) (req : PlaceOrder) (phone : String) :
    (upsertCustomer s req phone).1.orders = s.orders := by
  unfold upsertCustomer
  dsimp only
  split
  · rfl
  · split
    · rfl
    · rfl

theorem orders_redeemCoupon {s t : Store} {priced : PricedQuote} {id : OrderId}
    {customer : CustomerId} (h : redeemCoupon s priced id customer = .ok t) :
    t.orders = s.orders := by
  unfold redeemCoupon at h
  split at h
  · unfold Coupons.redeem at h
    split at h
    · cases h
    obtain rfl := Except.ok.inj h
    rfl
  · obtain rfl := Except.ok.inj h
    rfl

theorem orders_deskTransition (s : Store) (order : Order) (plan : TransitionPlan)
    (note : Option String) (now : Instant) :
    (deskTransition s order plan note now).orders =
      Rows.modify Order.id order.id (fun o => o.transitioned plan note now) s.orders := by
  unfold deskTransition bookTransition
  dsimp only
  split
  · unfold Coupons.revoke
    split
    · rfl
    · rfl
  · rfl

theorem orders_deskReopen (s : Store) (order : Order) (target : ReopenTarget) (now : Instant) :
    (deskReopen s order target now).orders =
      Rows.modify Order.id order.id (fun o => o.reopened target now) s.orders := by
  unfold deskReopen bookReopen Coupons.restore
  dsimp only
  split
  · rfl
  · rfl

section orders

variable {s t : Store} {a : StockAction}

/-- What a call does to the list of orders. -/
theorem DeskStep.orders (h : DeskStep s a t) :
    t.orders = s.orders ∨
      (∃ o, t.orders = s.orders ++ [o] ∧ o.id = s.orders.length ∧ o.Fresh) ∨
      ∃ order f, Rows.lookup Order.id order.id s.orders = some order ∧
        t.orders = Rows.modify Order.id order.id f s.orders ∧ (∀ o, (f o).id = o.id) ∧
        RowStep a order (f order) := by
  cases h with
  | shelf quiet => exact .inl rfl
  | placed granted row sound redeemed =>
      obtain ⟨orderNo, rfl⟩ := row
      exact .inr (.inl ⟨_, orders_redeemCoupon redeemed, rfl, (fresh_newOrder ..).head⟩)
  | transitioned by_ plain found granted sound =>
      have hid := Rows.key_of_lookup found
      refine .inr (.inr ⟨_, _, hid ▸ found, orders_deskTransition _ _ _ _ _, fun _ => rfl, ?_⟩)
      exact .transition by_ granted
  | reopened found granted sound =>
      have hid := Rows.key_of_lookup found
      refine .inr (.inr ⟨_, _, hid ▸ found, orders_deskReopen _ _ _ _, fun _ => rfl, ?_⟩)
      exact .reopen rfl granted

theorem DeskStep.numbered (h : DeskStep s a t) (hs : s.Numbered) : t.Numbered := by
  unfold Store.Numbered at hs ⊢
  rcases h.orders with heq | ⟨o, heq, hid, -⟩ | ⟨order, f, -, heq, hf, -⟩
  · rw [heq, hs]
  · rw [heq, List.map_append, hs, List.length_append, List.length_singleton, List.range_succ,
      List.map_singleton, hid]
  · have hkeys : (Rows.modify Order.id order.id f s.orders).map Order.id = s.orders.map Order.id :=
      Rows.map_modify hf
    rw [heq, hkeys, hs]
    simp [Rows.modify]

/-- **An order after a call was there before, is new, or was moved by the state machine.** -/
theorem DeskStep.order_cases (h : DeskStep s a t) (hs : s.Numbered) :
    ∀ o' ∈ t.orders, o' ∈ s.orders ∨ (o'.id = s.orders.length ∧ o'.Fresh) ∨
      ∃ o ∈ s.orders, o'.id = o.id ∧ RowStep a o o' := by
  intro o' ho'
  rcases h.orders with heq | ⟨o, heq, hid, hfresh⟩ | ⟨order, f, hl, heq, hf, hstep⟩
  · exact .inl (heq ▸ ho')
  · rw [heq] at ho'
    rcases List.mem_append.mp ho' with hold | hnew
    · exact .inl hold
    · rw [List.mem_singleton.mp hnew]
      exact .inr (.inl ⟨hid, hfresh⟩)
  · rw [heq] at ho'
    obtain ⟨x, hx, rfl⟩ := List.mem_map.mp ho'
    by_cases hk : x.id = order.id
    · have hlook := Rows.lookup_of_mem hs.nodup hx
      rw [hk, hl] at hlook
      obtain rfl := Option.some.inj hlook
      rw [if_pos rfl]
      exact .inr (.inr ⟨order, hx, hf order, hstep⟩)
    · rw [if_neg hk]
      exact .inl hx

end orders

end BookHouse
