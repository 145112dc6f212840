/-
What the order services do not look at: the customers' rows, once the customer is found.

Stock operations, coupons and order rows are computed from the other tables, so a call on a
store with other customers is the same call, and its result has those other customers.
Each function is passed once; the services follow by composition.
-/
import BookHouse.Proofs.Desk

namespace BookHouse

/-- A store with other customers. -/
def Store.withCustomers (s : Store) (cs : List Customer) : Store := { s with customers := cs }

section frame

variable (s : Store) (cs : List Customer)

@[simp] theorem products_withCustomers : (s.withCustomers cs).products = s.products := rfl

@[simp] theorem orders_withCustomers : (s.withCustomers cs).orders = s.orders := rfl

@[simp] theorem redemptions_withCustomers : (s.withCustomers cs).redemptions = s.redemptions := rfl

theorem averageCost_withCustomers (p : ProductId) :
    Inventory.averageCost (s.withCustomers cs) p = Inventory.averageCost s p := rfl

namespace Inventory

variable (ctx : StockContext) (clamp : ℤ → ℤ) (l : StockLine)

theorem updateProduct_withCustomers (id : ProductId) (cond : Product → Bool)
    (f : Product → Product) :
    updateProduct (s.withCustomers cs) id cond f =
      (updateProduct s id cond f).map (Option.map fun x => (x.1, x.2.withCustomers cs)) := by
  unfold updateProduct
  rw [products_withCustomers]
  cases (Rows.lookup Product.id id s.products).filter cond with
  | none => rfl
  | some p =>
      dsimp only
      cases (f p).check with
      | error e => rfl
      | ok u => rfl

theorem log_withCustomers (p : Product) (type : StockMovementType) (dOn dRes : ℤ)
    (cost : Option Money) : log (s.withCustomers cs) p type dOn dRes ctx cost =
      (log s p type dOn dRes ctx cost).map (·.withCustomers cs) := by
  unfold log
  split
  · rfl
  · split
    · rfl
    · rfl

theorem createLot_withCustomers (p : ProductId) (source : LotSource) (qty : ℤ)
    (cost price : Option Money) (purchase : Option PurchaseId) (at_ : Option Instant)
    (now : Instant) :
    createLot (s.withCustomers cs) p source qty cost price purchase at_ now =
      (createLot s p source qty cost price purchase at_ now).map (·.withCustomers cs) := by
  unfold createLot
  split
  · rfl
  · split
    · rfl
    · rfl

theorem refreshCost_withCustomers (p : ProductId) :
    refreshCost (s.withCustomers cs) p = (refreshCost s p).withCustomers cs := by
  unfold refreshCost
  rw [averageCost_withCustomers]
  cases averageCost s p with
  | none => rfl
  | some avg => rfl

theorem takeFrom_withCustomers (o : Option OrderId) (p : ProductId) (now : Instant) :
    ∀ (lots : List StockLot) (need : ℤ) (s : Store) (used : List Used),
      takeFrom o p now lots need (s.withCustomers cs) used =
        ((takeFrom o p now lots need s used).1.withCustomers cs,
          (takeFrom o p now lots need s used).2) := by
  intro lots
  induction lots with
  | nil => intro need s used; rfl
  | cons lot rest ih =>
      intro need s used
      rw [takeFrom, takeFrom]
      split
      · rfl
      · dsimp only
        rw [← ih]
        rfl

theorem consume_withCustomers (p : ProductId) (qty : ℤ) (o : Option OrderId) (now : Instant) :
    consume (s.withCustomers cs) p qty o now =
      ((consume s p qty o now).1.withCustomers cs, (consume s p qty o now).2) := by
  have hopen : openLots (s.withCustomers cs) p = openLots s p := rfl
  unfold consume
  rw [hopen, takeFrom_withCustomers]
  exact Prod.ext (refreshCost_withCustomers _ cs p) rfl

theorem giveBack_withCustomers :
    ∀ (uses : List StockLotConsumption) (left : ℤ) (s : Store),
      giveBack uses left (s.withCustomers cs) =
        ((giveBack uses left s).1.withCustomers cs, (giveBack uses left s).2) := by
  intro uses
  induction uses with
  | nil => intro left s; rfl
  | cons u rest ih =>
      intro left s
      rw [giveBack, giveBack]
      split
      · rfl
      · dsimp only
        split
        · exact ih left s
        · rw [← ih]
          rfl

theorem returnToLots_withCustomers (p : ProductId) (qty : ℤ) (o : Option OrderId) :
    returnToLots (s.withCustomers cs) p qty o =
      ((returnToLots s p qty o).1.withCustomers cs, (returnToLots s p qty o).2) := by
  cases o with
  | none => rfl
  | some o => exact giveBack_withCustomers cs _ _ _

theorem unconsume_withCustomers (p : ProductId) (qty : ℤ) :
    unconsume (s.withCustomers cs) p qty ctx =
      (unconsume s p qty ctx).map (·.withCustomers cs) := by
  unfold unconsume
  rw [returnToLots_withCustomers]
  dsimp only
  split
  · have hcost : costPriceOf ((returnToLots s p qty ctx.orderId).1.withCustomers cs) p =
        costPriceOf (returnToLots s p qty ctx.orderId).1 p := rfl
    have hprice : priceOf ((returnToLots s p qty ctx.orderId).1.withCustomers cs) p =
        priceOf (returnToLots s p qty ctx.orderId).1 p := rfl
    rw [hcost, hprice, createLot_withCustomers]
    cases createLot (returnToLots s p qty ctx.orderId).1 p .return _ _ _ _ _ _ with
    | error e => rfl
    | ok t => exact congrArg Except.ok (refreshCost_withCustomers t cs p)
  · exact congrArg Except.ok (refreshCost_withCustomers _ cs p)

theorem stampOrderCost_withCustomers (o : OrderId) (p : ProductId) (used : List Used) :
    stampOrderCost (s.withCustomers cs) o p used = (stampOrderCost s o p used).withCustomers cs := by
  unfold stampOrderCost
  split
  · rfl
  · rfl

theorem reserveLine_withCustomers :
    reserveLine ctx (s.withCustomers cs) l = (reserveLine ctx s l).map (·.withCustomers cs) := by
  unfold reserveLine
  rw [updateProduct_withCustomers]
  cases updateProduct s l.key _ _ with
  | error e => rfl
  | ok r =>
      cases r with
      | some x => exact log_withCustomers x.2 cs ctx x.1 _ _ _ _
      | none =>
          dsimp only [bind, Except.bind, Except.map, Option.map_none]
          rw [products_withCustomers]
          cases Rows.lookup Product.id l.key s.products with
          | none => rfl
          | some p => rfl

theorem releaseLine_withCustomers : releaseLine clamp ctx (s.withCustomers cs) l =
    (releaseLine clamp ctx s l).map (·.withCustomers cs) := by
  unfold releaseLine
  rw [updateProduct_withCustomers]
  cases updateProduct s l.key _ _ with
  | error e => rfl
  | ok r =>
      cases r with
      | none => rfl
      | some x => exact log_withCustomers x.2 cs ctx x.1 _ _ _ _

theorem fulfillLine_withCustomers (low : List LowStockHit) :
    fulfillLine clamp ctx (s.withCustomers cs, low) l =
      (fulfillLine clamp ctx (s, low) l).map fun r => (r.1.withCustomers cs, r.2) := by
  unfold fulfillLine
  dsimp only
  rw [updateProduct_withCustomers]
  cases updateProduct s l.key _ _ with
  | error e => rfl
  | ok r =>
      cases r with
      | none => rfl
      | some x =>
          show (log (x.2.withCustomers cs) x.1 _ _ _ ctx _ >>= _) =
            Except.map _ (log x.2 x.1 _ _ _ ctx _ >>= _)
          rw [log_withCustomers]
          cases log x.2 x.1 .orderFulfill (-l.qty) (-l.qty) ctx with
          | error e => rfl
          | ok t =>
              show Except.ok _ = Except.ok _
              dsimp only
              rw [consume_withCustomers]
              dsimp only
              split
              · rfl
              · rw [stampOrderCost_withCustomers]

theorem restockLine_withCustomers :
    restockLine ctx (s.withCustomers cs) l = (restockLine ctx s l).map (·.withCustomers cs) := by
  unfold restockLine
  rw [updateProduct_withCustomers]
  cases updateProduct s l.key _ _ with
  | error e => rfl
  | ok r =>
      cases r with
      | none => rfl
      | some x =>
          show (log (x.2.withCustomers cs) x.1 _ _ _ ctx _ >>= _) =
            Except.map _ (log x.2 x.1 _ _ _ ctx _ >>= _)
          rw [log_withCustomers]
          cases log x.2 x.1 .returnRestock l.qty 0 ctx with
          | error e => rfl
          | ok t => exact unconsume_withCustomers t cs ctx _ _

variable (lines : List StockLine)

theorem reserve_withCustomers : reserve (s.withCustomers cs) lines ctx =
    (reserve s lines ctx).map (·.withCustomers cs) := by
  unfold reserve
  cases merge lines with
  | error e => rfl
  | ok m =>
      exact Result.foldlM_comm (φ := (·.withCustomers cs))
        (fun s l => reserveLine_withCustomers s cs ctx l) m s

theorem release_withCustomers : release clamp (s.withCustomers cs) lines ctx =
    (release clamp s lines ctx).map (·.withCustomers cs) := by
  unfold release
  cases merge lines with
  | error e => rfl
  | ok m =>
      exact Result.foldlM_comm (φ := (·.withCustomers cs))
        (fun s l => releaseLine_withCustomers s cs ctx clamp l) m s

theorem fulfill_withCustomers : fulfill clamp (s.withCustomers cs) lines ctx =
    (fulfill clamp s lines ctx).map fun r => (r.1.withCustomers cs, r.2) := by
  unfold fulfill
  cases merge lines with
  | error e => rfl
  | ok m =>
      exact Result.foldlM_comm (φ := fun r : Store × List LowStockHit => (r.1.withCustomers cs, r.2))
        (fun r l => fulfillLine_withCustomers r.1 cs ctx clamp l r.2) m (s, [])

theorem restock_withCustomers : restock (s.withCustomers cs) lines ctx =
    (restock s lines ctx).map (·.withCustomers cs) := by
  unfold restock
  cases merge lines with
  | error e => rfl
  | ok m =>
      exact Result.foldlM_comm (φ := (·.withCustomers cs))
        (fun s l => restockLine_withCustomers s cs ctx l) m s

theorem addBatch_withCustomers (p : ProductId) (qty : ℤ) (batch : Batch) :
    addBatch (s.withCustomers cs) p qty batch ctx =
      (addBatch s p qty batch ctx).map (·.withCustomers cs) := by
  unfold addBatch
  have hproducts : (s.withCustomers cs).products = s.products := rfl
  split
  · rfl
  rw [hproducts]
  cases Rows.lookup Product.id p s.products with
  | none => rfl
  | some cur =>
      dsimp only
      rw [updateProduct_withCustomers]
      cases updateProduct s p _ _ with
      | error e => rfl
      | ok r =>
          cases r with
          | none => rfl
          | some x =>
              show (log (x.2.withCustomers cs) x.1 _ _ _ ctx _ >>= _) =
                Except.map _ (log x.2 x.1 _ _ _ ctx _ >>= _)
              rw [log_withCustomers]
              cases log x.2 x.1 .purchaseReceipt qty 0 ctx _ with
              | error e => rfl
              | ok t =>
                  show (createLot (t.withCustomers cs) p _ _ _ _ _ _ _ >>= _) =
                    Except.map _ (createLot t p _ _ _ _ _ _ _ >>= _)
                  rw [createLot_withCustomers]
                  cases createLot t p batch.source qty _ _ _ _ _ with
                  | error e => rfl
                  | ok u => exact congrArg Except.ok (refreshCost_withCustomers u cs p)

theorem setOnHand_withCustomers (p : ProductId) (onHand : ℤ) (type : Option StockMovementType) :
    setOnHand (s.withCustomers cs) p onHand ctx type =
      (setOnHand s p onHand ctx type).map (·.withCustomers cs) := by
  unfold setOnHand
  have hproducts : (s.withCustomers cs).products = s.products := rfl
  split
  · rfl
  rw [hproducts]
  cases Rows.lookup Product.id p s.products with
  | none => rfl
  | some cur =>
      dsimp only
      split
      · rfl
      split
      · rfl
      rw [updateProduct_withCustomers]
      cases updateProduct s p _ _ with
      | error e => rfl
      | ok r =>
          cases r with
          | none => rfl
          | some x =>
              show (log (x.2.withCustomers cs) x.1 _ _ _ ctx _ >>= _) =
                Except.map _ (log x.2 x.1 _ _ _ ctx _ >>= _)
              rw [log_withCustomers]
              cases log x.2 x.1 _ (onHand - cur.stockOnHand) 0 ctx with
              | error e => rfl
              | ok t =>
                  have hcost : costPriceOf (t.withCustomers cs) p = costPriceOf t p := rfl
                  have hprice : priceOf (t.withCustomers cs) p = priceOf t p := rfl
                  show Except.map _ (if _ then createLot (t.withCustomers cs) p _ _ _ _ _ _ _
                      else .ok (consume (t.withCustomers cs) p _ _ _).1) =
                    Except.map _ (Except.map _ (if _ then _ else _))
                  rw [hcost, hprice, createLot_withCustomers, consume_withCustomers]
                  split
                  · cases createLot t p _ _ _ _ _ _ _ with
                    | error e => rfl
                    | ok u => exact congrArg Except.ok (refreshCost_withCustomers u cs p)
                  · exact congrArg Except.ok (refreshCost_withCustomers _ cs p)

end Inventory

/-! ### The order services -/

variable (clamp : ℤ → ℤ)

theorem updateOrder_withCustomers (id : OrderId) (version : ℤ) (f : Order → Order) :
    updateOrder (s.withCustomers cs) id version f =
      (updateOrder s id version f).map (·.withCustomers cs) := by
  unfold updateOrder
  rw [orders_withCustomers]
  cases (Rows.lookup Order.id id s.orders).filter (·.version = version) with
  | none => rfl
  | some o =>
      dsimp only
      cases (f o).check with
      | error e => rfl
      | ok u => rfl

theorem applyStock_withCustomers (effect : StockEffect) (lines : List StockLine)
    (ctx : StockContext) : applyStock clamp (s.withCustomers cs) effect lines ctx =
      (applyStock clamp s effect lines ctx).map fun r => (r.1.withCustomers cs, r.2) := by
  unfold applyStock
  split
  · rfl
  cases effect with
  | none => rfl
  | fulfil => exact Inventory.fulfill_withCustomers s cs ctx clamp lines
  | release =>
      dsimp only
      rw [Inventory.release_withCustomers]
      cases Inventory.release clamp s lines ctx with
      | error e => rfl
      | ok t => rfl
  | restock =>
      dsimp only
      rw [Inventory.restock_withCustomers]
      cases Inventory.restock s lines ctx with
      | error e => rfl
      | ok t => rfl

theorem holdStock_withCustomers (lines : List StockLine) (ctx : StockContext) :
    holdStock (s.withCustomers cs) lines ctx =
      (holdStock s lines ctx).map (·.withCustomers cs) := by
  unfold holdStock
  split
  · rfl
  · exact Inventory.reserve_withCustomers s cs ctx lines

theorem revoke_withCustomers (id : OrderId) (now : Instant) :
    Coupons.revoke (s.withCustomers cs) id now = (Coupons.revoke s id now).withCustomers cs := by
  unfold Coupons.revoke
  rw [redemptions_withCustomers]
  cases (Rows.lookup CouponRedemption.orderId id s.redemptions).filter (·.revokedAt.isNone) with
  | none => rfl
  | some r => rfl

theorem restore_withCustomers (id : OrderId) :
    Coupons.restore (s.withCustomers cs) id = (Coupons.restore s id).withCustomers cs := by
  unfold Coupons.restore
  rw [redemptions_withCustomers]
  cases (Rows.lookup CouponRedemption.orderId id s.redemptions).filter (·.revokedAt.isSome) with
  | none => rfl
  | some r => rfl

theorem redeemCoupon_withCustomers (priced : PricedQuote) (id : OrderId) (customer : CustomerId) :
    redeemCoupon (s.withCustomers cs) priced id customer =
      (redeemCoupon s priced id customer).map (·.withCustomers cs) := by
  unfold redeemCoupon
  split
  · unfold Coupons.redeem
    show (if (s.redemptions.any _) = true then _ else _) = _
    split
    · rfl
    · rfl
  · rfl

theorem insertOrder_withCustomers (o : Order) : insertOrder (s.withCustomers cs) o =
    (insertOrder s o).map (·.withCustomers cs) := by
  unfold insertOrder
  show (if (s.orders.any _) = true then _ else _) = _
  split
  · rfl
  · cases o.check with
    | error e => rfl
    | ok u =>
        show (o.items.forM OrderItem.check >>= _) = Except.map _ (o.items.forM OrderItem.check >>= _)
        cases o.items.forM OrderItem.check with
        | error e => rfl
        | ok v => rfl

end frame

/-! ### The dates of the customers -/

/-- A customer without the dates of their first and last orders. -/
def Customer.undated (c : Customer) : Customer :=
  { c with firstOrderAt := none, lastOrderAt := none }

/-- A store without those dates. -/
def Store.undated (s : Store) : Store := s.withCustomers (s.customers.map Customer.undated)

theorem Customer.undated_undated (c : Customer) : c.undated.undated = c.undated := rfl

theorem Store.undated_undated (s : Store) : s.undated.undated = s.undated := by
  show s.withCustomers ((s.customers.map Customer.undated).map Customer.undated) = _
  rw [List.map_map]
  rfl

section undated

variable {s t : Store}

/-- A change of a customer's numbers, with or without the dates. -/
theorem map_undated_modify {k : CustomerId} {f : Customer → Customer}
    (hf : ∀ c, (f c.undated).undated = (f c).undated) (cs : List Customer) :
    (Rows.modify Customer.id k f (cs.map Customer.undated)).map Customer.undated =
      (Rows.modify Customer.id k f cs).map Customer.undated := by
  rw [Rows.modify, Rows.modify, List.map_map, List.map_map, List.map_map]
  refine List.map_congr_left fun c _ => ?_
  show (if c.id = k then f c.undated else c.undated).undated = (if c.id = k then f c else c).undated
  split
  · exact hf c
  · rfl

theorem lookup_undated {κ : Type} [DecidableEq κ] {key : Customer → κ}
    (hkey : ∀ c, key c.undated = key c) (k : κ) (cs : List Customer) :
    Rows.lookup key k (cs.map Customer.undated) = (Rows.lookup key k cs).map Customer.undated := by
  induction cs with
  | nil => rfl
  | cons c rest ih =>
      rw [List.map_cons, Rows.lookup_cons, Rows.lookup_cons, hkey]
      by_cases h : key c = k
      · rw [if_pos h, if_pos h]
        rfl
      · rw [if_neg h, if_neg h, ih]

theorem customers_revoke (s : Store) (id : OrderId) (now : Instant) :
    (Coupons.revoke s id now).customers = s.customers := by
  unfold Coupons.revoke
  split
  · rfl
  · rfl

theorem customers_restore (s : Store) (id : OrderId) :
    (Coupons.restore s id).customers = s.customers := by
  unfold Coupons.restore
  split
  · rfl
  · rfl

theorem customers_of_desk (h : t.desk = s.desk) : t.customers = s.customers := by
  have hsame := congrArg Store.customers h
  exact hsame

theorem customers_redeemCoupon {priced : PricedQuote} {id : OrderId} {customer : CustomerId}
    (h : redeemCoupon s priced id customer = .ok t) : t.customers = s.customers := by
  unfold redeemCoupon at h
  split at h
  · unfold Coupons.redeem at h
    split at h
    · cases h
    obtain rfl := Except.ok.inj h
    rfl
  · obtain rfl := Except.ok.inj h
    rfl

/-- A change of a customer's numbers, in a store with or without the dates. -/
theorem undated_modify {k : CustomerId} {f : Customer → Customer}
    (hf : ∀ c, (f c.undated).undated = (f c).undated) {u v : Store} (h : u = v.undated) :
    (u.withCustomers (Rows.modify Customer.id k f u.customers)).undated =
      (v.withCustomers (Rows.modify Customer.id k f v.customers)).undated := by
  obtain rfl := h
  exact congrArg v.withCustomers (map_undated_modify hf v.customers)

theorem bookTransition_undated (s : Store) (order : Order) (plan : TransitionPlan)
    (now : Instant) : (bookTransition s.undated order plan now).undated =
      (bookTransition s order plan now).undated := by
  refine undated_modify (f := Customer.afterTransition plan order.grandTotal) (fun _ => rfl) ?_
  split
  · rw [Store.undated, revoke_withCustomers, Store.undated, customers_revoke]
  · rfl

theorem bookReopen_undated (s : Store) (order : Order) :
    (bookReopen s.undated order).undated = (bookReopen s order).undated := by
  refine undated_modify (f := Customer.afterReopen order.grandTotal) (fun _ => rfl) ?_
  rw [Store.undated, restore_withCustomers, Store.undated, customers_restore]

/-- Two calls with the same result, up to the dates of the customers. -/
def SameResult {ε : Type} (x y : Except ε Store) : Prop :=
  x.map Store.undated = y.map Store.undated

variable {clamp : ℤ → ℤ} {ref : OrderId} {actor : TransitionActor} {now : Instant}

theorem applyTransition_undated (cmd : TransitionCommand) :
    SameResult ((applyTransition clamp s.undated ref cmd actor now).map Prod.fst)
      ((applyTransition clamp s ref cmd actor now).map Prod.fst) := by
  have horders : s.undated.orders = s.orders := rfl
  unfold applyTransition
  rw [horders]
  cases Rows.lookup Order.id ref s.orders with
  | none => rfl
  | some order =>
      dsimp only
      split
      · rfl
      cases planTransition order (cmd.request actor now) with
      | error r => rfl
      | ok plan =>
          dsimp only
          rw [Store.undated, updateOrder_withCustomers]
          cases hupd : updateOrder s order.id order.version _ with
          | error e => rfl
          | ok s₁ =>
              obtain ⟨o, -, -, -, rfl⟩ := updateOrder_ok hupd
              show SameResult ((applyStock clamp (Store.withCustomers _ _) _ _ _ >>= _).map Prod.fst)
                ((applyStock clamp _ _ _ _ >>= _).map Prod.fst)
              rw [applyStock_withCustomers]
              cases hstock : applyStock clamp _ _ _ _ with
              | error e => rfl
              | ok r =>
                  have hsame := customers_of_desk (desk_applyStock
                    (show applyStock _ _ _ _ _ = .ok (r.1, r.2) from hstock))
                  have hcustomers : r.1.customers = s.customers := hsame
                  show Except.ok _ = Except.ok _
                  dsimp only
                  rw [← hcustomers]
                  exact congrArg Except.ok (bookTransition_undated r.1 order plan now)

theorem regress_undated (note : Option String) (version : Option ℤ) :
    SameResult ((regress clamp s.undated ref note version actor now).map Prod.fst)
      ((regress clamp s ref note version actor now).map Prod.fst) := by
  have horders : s.undated.orders = s.orders := rfl
  unfold regress
  rw [horders]
  cases Rows.lookup Order.id ref s.orders with
  | none => rfl
  | some order =>
      dsimp only
      split
      · rfl
      · exact applyTransition_undated _

theorem reopen_undated (cmd : ReopenCommand) :
    SameResult ((reopen s.undated ref cmd actor now).map Prod.fst)
      ((reopen s ref cmd actor now).map Prod.fst) := by
  have horders : s.undated.orders = s.orders := rfl
  unfold reopen
  rw [horders]
  cases Rows.lookup Order.id ref s.orders with
  | none => rfl
  | some order =>
      dsimp only
      split
      · rfl
      cases planReopen order _ with
      | error r => rfl
      | ok plan =>
          dsimp only
          rw [Store.undated, updateOrder_withCustomers]
          cases hupd : updateOrder s order.id order.version _ with
          | error e => rfl
          | ok s₁ =>
              obtain ⟨o, -, -, -, rfl⟩ := updateOrder_ok hupd
              show SameResult ((holdStock (Store.withCustomers _ _) _ _ >>= _).map Prod.fst)
                ((holdStock _ _ _ >>= _).map Prod.fst)
              rw [holdStock_withCustomers]
              cases hhold : holdStock _ _ _ with
              | error e => rfl
              | ok t =>
                  have hcustomers : t.customers = s.customers := by
                    unfold holdStock at hhold
                    split at hhold
                    · obtain rfl := Except.ok.inj hhold
                      rfl
                    · have hsame := customers_of_desk (Inventory.desk_reserve hhold)
                      exact hsame
                  show Except.ok _ = Except.ok _
                  dsimp only
                  rw [← hcustomers]
                  exact congrArg Except.ok (bookReopen_undated t order)

/-- The customer of a placement is the same, with or without the dates. -/
theorem upsertCustomer_undated (req : PlaceOrder) (phone : String) :
    upsertCustomer s.undated req phone =
      ((upsertCustomer s req phone).1.undated, (upsertCustomer s req phone).2.undated) := by
  have hcustomers : s.undated.customers = s.customers.map Customer.undated := rfl
  have hany : ∀ u : Option ℕ, (s.customers.map Customer.undated).any (·.userId == u) =
      s.customers.any (·.userId == u) := by
    intro u
    rw [List.any_map]
    rfl
  have hmodify : ∀ (k : CustomerId) (f : Customer → Customer),
      (∀ c, f c.undated = (f c).undated) →
      Rows.modify Customer.id k f (s.customers.map Customer.undated) =
        (Rows.modify Customer.id k f s.customers).map Customer.undated := by
    intro k f hf
    rw [Rows.modify, Rows.modify, List.map_map, List.map_map]
    refine List.map_congr_left fun c _ => ?_
    show (if c.id = k then f c.undated else c.undated) = (if c.id = k then f c else c).undated
    split
    · exact hf c
    · rfl
  have hmine : ∀ id : Option CustomerId,
      (id.bind fun id => (Rows.lookup Customer.id id (s.customers.map Customer.undated)).filter
        (·.deletedAt.isNone)) =
      (id.bind fun id => (Rows.lookup Customer.id id s.customers).filter
        (·.deletedAt.isNone)).map Customer.undated := by
    intro id
    cases id with
    | none => rfl
    | some id =>
        show (Rows.lookup Customer.id id (s.customers.map Customer.undated)).filter _ =
          ((Rows.lookup Customer.id id s.customers).filter _).map _
        rw [@lookup_undated _ _ Customer.id (fun _ => rfl), Option.filter_map]
        rfl
  unfold upsertCustomer
  dsimp only
  rw [hcustomers, hany, hmine]
  cases ((if req.staff.isSome = true then none else req.user).bind (·.customerId)).bind _ with
  | some c => exact Prod.ext (congrArg s.withCustomers (hmodify c.id _ fun _ => rfl)) rfl
  | none =>
      rw [@lookup_undated _ _ Customer.phone fun _ => rfl]
      cases Rows.lookup Customer.phone phone s.customers with
      | some c => exact Prod.ext (congrArg s.withCustomers (hmodify c.id _ fun _ => rfl)) rfl
      | none =>
          simp only [Option.map_none, List.length_map]
          refine Prod.ext (congrArg s.withCustomers ?_) rfl
          rw [List.map_append]
          rfl

theorem SameResult.map_fst {β : Type} {x y : Except Failure Store} (h : SameResult x y) (b : β) :
    SameResult ((x.map fun s => (s, b)).map Prod.fst) ((y.map fun s => (s, b)).map Prod.fst) := by
  cases x with
  | error e =>
      cases y with
      | error e' => exact congrArg (Except.map id) h
      | ok v => cases h
  | ok u =>
      cases y with
      | error e => cases h
      | ok v => exact h

theorem writeOrder_undated (order : Order) (priced : PricedQuote) :
    SameResult (writeOrder s.undated order priced now) (writeOrder s order priced now) := by
  unfold writeOrder
  rw [Store.undated, insertOrder_withCustomers]
  cases hins : insertOrder s order with
  | error e => rfl
  | ok s₁ =>
      obtain ⟨-, -, rfl⟩ := insertOrder_ok hins
      show SameResult (Inventory.reserve (Store.withCustomers _ _) _ _ >>= _)
        (Inventory.reserve _ _ _ >>= _)
      rw [Inventory.reserve_withCustomers]
      cases hres : Inventory.reserve _ _ _ with
      | error e => rfl
      | ok s₂ =>
          show SameResult (redeemCoupon (Store.withCustomers _ _) _ _ _ >>= _)
            (redeemCoupon _ _ _ _ >>= _)
          rw [redeemCoupon_withCustomers]
          cases hred : redeemCoupon s₂ priced order.id order.customerId with
          | error e => rfl
          | ok s₃ =>
              have hsame := customers_of_desk (Inventory.desk_reserve hres)
              have hcustomers : s₃.customers = s.customers :=
                (customers_redeemCoupon hred).trans hsame
              show Except.ok _ = Except.ok _
              dsimp only
              rw [← hcustomers]
              exact congrArg Except.ok (undated_modify
                (f := Customer.afterPlacement priced.quote.grandTotal now) (fun _ => rfl) rfl)

theorem placeInTx_undated (req : PlaceOrder) :
    SameResult ((placeInTx s.undated req now).map Prod.fst)
      ((placeInTx s req now).map Prod.fst) := by
  unfold placeInTx
  cases req.phone with
  | none => rfl
  | some phone =>
      dsimp only
      rw [upsertCustomer_undated]
      generalize upsertCustomer s req phone = r
      obtain ⟨u, c⟩ := r
      have hblocked : c.undated.isBlocked = c.isBlocked := rfl
      have hid : c.undated.id = c.id := rfl
      have hprice : priceOrder u.undated req c.id now = priceOrder u req c.id now := rfl
      have horders : u.undated.orders = u.orders := rfl
      have hcounters : u.undated.counters = u.counters := rfl
      dsimp only
      rw [hblocked, hid, hprice, horders, hcounters]
      split
      · rfl
      split
      · rfl
      generalize newOrder _ _ _ _ _ _ _ = order
      generalize priceOrder u req c.id now = priced
      generalize (nextNumber u.counters .order).2 = counters
      exact (writeOrder_undated (s := { u with counters }) order priced).map_fst order

/-- **A call does not depend on the dates of the customers**, and writes nothing else by them. -/
theorem stockStep_undated (clamp : ℤ → ℤ) (s : Store) (a : StockAction) :
    (stockStep clamp s.undated a).map Store.undated = (stockStep clamp s a).map Store.undated := by
  have hsame : SameResult (a.call clamp s.undated) (a.call clamp s) := by
    have hshelf : ∀ x : Except Failure Store, (∀ t, x = .ok t → t.desk = s.desk) →
        SameResult (x.map (·.withCustomers (s.customers.map Customer.undated))) x := by
      intro x hx
      cases x with
      | error e => rfl
      | ok t =>
          have hcustomers : t.customers = s.customers := customers_of_desk (hx t rfl)
          rw [← hcustomers]
          exact congrArg Except.ok (Store.undated_undated t)
    cases a with
    | place req now => exact placeInTx_undated req
    | apply ref cmd actor now => exact applyTransition_undated cmd
    | regress ref note version actor now => exact regress_undated note version
    | reopen ref cmd actor now => exact reopen_undated cmd
    | receive p qty cost ctx =>
        show SameResult (Inventory.addBatch (Store.withCustomers _ _) _ _ _ _) _
        rw [Inventory.addBatch_withCustomers]
        exact hshelf _ fun t ht => Inventory.desk_addBatch ht
    | addBatch p qty batch ctx =>
        show SameResult (Inventory.addBatch (Store.withCustomers _ _) _ _ _ _) _
        rw [Inventory.addBatch_withCustomers]
        exact hshelf _ fun t ht => Inventory.desk_addBatch ht
    | setOnHand p onHand ctx type =>
        show SameResult (Inventory.setOnHand (Store.withCustomers _ _) _ _ _ _) _
        rw [Inventory.setOnHand_withCustomers]
        exact hshelf _ fun t ht => Inventory.desk_setOnHand ht
  unfold stockStep
  generalize a.call clamp s.undated = x at hsame ⊢
  generalize a.call clamp s = y at hsame ⊢
  cases x with
  | error e =>
      cases y with
      | error e' => rfl
      | ok v => cases hsame
  | ok u =>
      cases y with
      | error e => cases hsame
      | ok v => exact congrArg some (Except.ok.inj hsame)

end undated

end BookHouse
