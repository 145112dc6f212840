/-
An order's courier cost follows its shipments, and one shipment at most is on its way.

Both calls of the shipping module rewrite the shipments of one order and then sum up what
they cost.  The sum is taken over the shipments that were not cancelled, and when there is
none the order keeps the cost it had: cancelling the last one leaves a stale bill.  That is
the only way the two come apart.  `CostFollows` says that they agree for every order that
was ever shipped, and a run keeps it exactly when each of its updates leaves a shipment to
count or an order that cost nothing.

The index `shipments_one_active` refuses nothing, whatever is called: an assignment cancels
the active shipment before it adds one, and no update brings a closed shipment back.
-/
import BookHouse.Proofs.CodSettlement

namespace BookHouse

open ShipmentsService CourierDesk

/-- What the shipments of an order cost, the cancelled ones left out. -/
def shipmentsCost (rows : List Shipment) (i : OrderId) : Money :=
  ((rows.filter fun r => r.orderId = i && r.status ≠ .cancelled).map fun r =>
    r.deliveryCharge + r.returnCharge).sum

/-- No two shipments of one order are both on their way. -/
def OneActive (rows : List Shipment) : Prop :=
  rows.Pairwise fun r s =>
    ¬ (r.orderId = s.orderId ∧ r.status.isClosed = false ∧ s.status.isClosed = false)

/-- Every order that has a shipment costs what its shipments do. -/
def CostFollows (s : CourierDesk) : Prop :=
  ∀ i o, Rows.lookup Order.id i s.orders = some o → (∃ r ∈ s.books.shipments, r.orderId = i) →
    o.courierCost = shipmentsCost s.books.shipments i

/-- No call is refused because the order has a shipment on its way. -/
structure NeverRefused (s : CourierDesk) : Prop where
  assign : ∀ dto now,
    ShipmentsService.assign s.tables dto now ≠ .error (.unique "shipments_one_active")
  update : ∀ id dto now,
    ShipmentsService.update s.tables id dto now ≠ .error (.unique "shipments_one_active")

/-- An update leaves the order a shipment that is not cancelled, or its order cost nothing. -/
def CodAction.keepsCounted (s : CourierDesk) : CodAction → Prop
  | .update id dto _ =>
      ∀ cur, Rows.lookup Shipment.id id s.books.shipments = some cur →
        dto.status.getD cur.status ≠ .cancelled ∨
        (∃ r ∈ s.books.shipments,
          r.orderId = cur.orderId ∧ r.id ≠ id ∧ r.status ≠ .cancelled) ∨
        ∀ o, Rows.lookup Order.id cur.orderId s.orders = some o → o.courierCost = 0
  | _ => True

/-! ### One shipment on its way -/

section active

variable {rows : List Shipment}

/-- Shipments that keep their order, and stay closed once they are. -/
theorem OneActive.map {g : Shipment → Shipment} (h : OneActive rows)
    (hg : ∀ r ∈ rows, (g r).orderId = r.orderId ∧
      (r.status.isClosed = true → (g r).status.isClosed = true)) : OneActive (rows.map g) := by
  refine List.pairwise_map.mpr (List.Pairwise.imp_of_mem ?_ h)
  rintro r s hr hs hrs ⟨ho, hopen, hopen'⟩
  obtain ⟨hro, hrc⟩ := hg r hr
  obtain ⟨hso, hsc⟩ := hg s hs
  rw [hro, hso] at ho
  refine hrs ⟨ho, ?_, ?_⟩
  · by_contra hc
    rw [hrc (Bool.not_eq_false _ ▸ hc)] at hopen
    cases hopen
  · by_contra hc
    rw [hsc (Bool.not_eq_false _ ▸ hc)] at hopen'
    cases hopen'

theorem OneActive.append {new : Shipment} (h : OneActive rows)
    (hclosed : ∀ r ∈ rows, r.orderId = new.orderId → r.status.isClosed = true) :
    OneActive (rows ++ [new]) := by
  refine List.pairwise_append.mpr ⟨h, List.pairwise_singleton _ _, ?_⟩
  intro r hr s hs hopen
  obtain rfl := List.mem_singleton.mp hs
  rw [hclosed r hr hopen.1] at hopen
  exact absurd hopen.2.1 (by simp)

/-- The only one of its order. -/
theorem OneActive.only (h : OneActive rows) {r s : Shipment} (hr : r ∈ rows) (hs : s ∈ rows)
    (ho : r.orderId = s.orderId) (hopen : s.status.isClosed = false) (hne : r ≠ s) :
    r.status.isClosed = true := by
  have hsymm : Std.Symm fun r s : Shipment =>
      ¬ (r.orderId = s.orderId ∧ r.status.isClosed = false ∧ s.status.isClosed = false) :=
    ⟨fun _ _ hrs hc => hrs ⟨hc.1.symm, hc.2.2, hc.2.1⟩⟩
  by_contra hc
  exact List.Pairwise.forall h hr hs hne ⟨ho, (Bool.not_eq_true _).mp hc, hopen⟩

theorem checkIndexes_ne (h : OneActive rows) :
    checkIndexes rows ≠ .error (.unique "shipments_one_active") := by
  unfold checkIndexes
  split
  · intro hc
    simp at hc
  split
  · rename_i hpair
    exact absurd h hpair
  · intro hc
    cases hc

end active

namespace ShipmentsService

variable {t : ShippingTables} {now : Instant}

theorem write_ne {i : OrderId} {rows : List Shipment} (h : OneActive rows) :
    write t i rows ≠ .error (.unique "shipments_one_active") := by
  intro hw
  unfold write at hw
  cases hc : checkIndexes rows with
  | ok u => rw [hc] at hw; cases hw
  | error e =>
    rw [hc] at hw
    cases hw
    exact checkIndexes_ne h hc

theorem active_some {i : OrderId} {s : Shipment} (h : active t i = some s) :
    s ∈ t.shipments ∧ s.orderId = i ∧ s.status.isClosed = false := by
  have hp := List.find?_some h
  simp only [Bool.and_eq_true, decide_eq_true_eq, Bool.not_eq_true'] at hp
  exact ⟨List.mem_of_find?_eq_some h, hp.1, hp.2⟩

theorem active_none {i : OrderId} (h : active t i = none) :
    ∀ r ∈ t.shipments, r.orderId = i → r.status.isClosed = true := by
  intro r hr ho
  have hp := List.find?_eq_none.mp h r hr
  simpa [ho] using hp

/-- The status an update asks for, else the one before. -/
theorem updated_status (now : Instant) (dto : UpdateShipmentDto) (r : Shipment) :
    (updated dto now r).status = dto.status.getD r.status := by
  have hstamped : ∀ status (r : Shipment), (stamped status now r).status = r.status := by
    intro status r
    cases status <;> rfl
  have hcod : ∀ codStatus (r : Shipment), (codStamped codStatus now r).status = r.status := by
    intro codStatus r
    cases codStatus <;> rfl
  unfold updated
  cases dto.status <;> cases dto.codStatus <;> simp [hstamped, hcod]

/-- An update never opens a closed shipment. -/
theorem updated_closed {dto : UpdateShipmentDto} {r : Shipment}
    (hguard : ¬ (r.status.isClosed && dto.status.any (· ≠ r.status)) = true)
    (hclosed : r.status.isClosed = true) : (updated dto now r).status.isClosed = true := by
  rw [updated_status]
  cases hstatus : dto.status with
  | none => exact hclosed
  | some status =>
    have hsame : status = r.status := by
      by_contra hne
      exact hguard (by simp [hclosed, hstatus, hne])
    rw [Option.getD_some, hsame]
    exact hclosed

/-- The rows an update writes. -/
theorem oneActive_updated {id : ℕ} {dto : UpdateShipmentDto} {cur : Shipment}
    (hnd : (t.shipments.map (·.id)).Nodup) (h : OneActive t.shipments)
    (hl : Rows.lookup Shipment.id id t.shipments = some cur)
    (hguard : ¬ (cur.status.isClosed && dto.status.any (· ≠ cur.status)) = true) :
    OneActive (Rows.modify Shipment.id id (updated dto now) t.shipments) := by
  refine h.map fun r hr => ?_
  by_cases hid : r.id = id
  · have hcur := Rows.lookup_of_mem hnd hr
    rw [hid, hl] at hcur
    obtain rfl := Option.some.inj hcur
    rw [if_pos hid]
    exact ⟨(updated_cod now dto cur).2.1, updated_closed hguard⟩
  · rw [if_neg hid]
    exact ⟨rfl, fun hclosed => hclosed⟩

/-- The rows an assignment writes. -/
theorem oneActive_assigned {order : Order} {courier : Courier} {dto : AssignShipmentDto}
    (hnd : (t.shipments.map (·.id)).Nodup) (h : OneActive t.shipments) :
    OneActive (assignedRows t order courier dto now) := by
  unfold assignedRows
  dsimp only
  split
  · rename_i hnone
    exact h.append fun r hr ho => active_none hnone r hr ho
  rename_i s hsome
  obtain ⟨hmem, ho, hopen⟩ := active_some hsome
  have hthe : ∀ r ∈ t.shipments, r.id = s.id → r = s := fun r hr hid =>
    List.inj_on_of_nodup_map hnd hr hmem hid
  split
  · refine h.map fun r hr => ?_
    by_cases hid : r.id = s.id
    · rw [if_pos hid, hthe r hr hid, hopen]
      exact ⟨rfl, by simp⟩
    · rw [if_neg hid]
      exact ⟨rfl, id⟩
  · refine OneActive.append (h.map fun r hr => ?_) ?_
    · by_cases hid : r.id = s.id
      · rw [if_pos hid]
        exact ⟨rfl, fun _ => rfl⟩
      · rw [if_neg hid]
        exact ⟨rfl, id⟩
    · intro x hx hxo
      obtain ⟨r, hr, rfl⟩ := List.mem_map.mp hx
      by_cases hid : r.id = s.id
      · rw [if_pos hid]
        rfl
      · rw [if_neg hid] at hxo ⊢
        exact h.only hr hmem (hxo.trans ho.symm) hopen fun hrs => hid (congrArg _ hrs)

end ShipmentsService

/-- Shipments that are numbered in order, each with its order, at most one on its way. -/
structure ShipRows (s : CourierDesk) : Prop where
  ids : s.books.shipments.map (·.id) = List.range s.books.shipments.length
  orders : ∀ r ∈ s.books.shipments, ∃ o, Rows.lookup Order.id r.orderId s.orders = some o
  oneActive : OneActive s.books.shipments

namespace ShipRows

variable {s s' : CourierDesk} {now : Instant}

theorem nodup (h : ShipRows s) : (s.books.shipments.map (·.id)).Nodup := by
  rw [h.ids]
  exact List.nodup_range

/-- **The index refuses no call.** -/
theorem neverRefused (h : ShipRows s) : NeverRefused s := by
  constructor
  · intro dto now hrefused
    unfold ShipmentsService.assign at hrefused
    split at hrefused
    · cases hrefused
    split at hrefused
    · cases hrefused
    split at hrefused
    · cases hrefused
    split at hrefused
    · cases hrefused
    split at hrefused
    · cases hrefused
    exact write_ne (oneActive_assigned h.nodup h.oneActive) hrefused
  · intro id dto now hrefused
    unfold ShipmentsService.update at hrefused
    split at hrefused
    · cases hrefused
    rename_i cur hl
    split at hrefused
    · cases hrefused
    rename_i hguard
    split at hrefused
    · cases hrefused
    exact write_ne (oneActive_updated h.nodup h.oneActive hl hguard) hrefused

end ShipRows

/-! ### What the shipments of an order cost -/

section cost

variable {rows : List Shipment} {i : OrderId}

/-- The cost of an order does not see what happens to the others. -/
theorem shipmentsCost_map {g : Shipment → Shipment}
    (hg : ∀ r ∈ rows, (g r).orderId = r.orderId ∧ (r.orderId = i →
      (g r).status = r.status ∧ (g r).deliveryCharge = r.deliveryCharge ∧
        (g r).returnCharge = r.returnCharge)) :
    shipmentsCost (rows.map g) i = shipmentsCost rows i := by
  unfold shipmentsCost
  induction rows with
  | nil => rfl
  | cons r rest ih =>
    have hrest := ih fun x hx => hg x (List.mem_cons_of_mem _ hx)
    obtain ⟨ho, hsame⟩ := hg r List.mem_cons_self
    rw [List.map_cons, List.filter_cons, List.filter_cons, ho]
    by_cases hi : r.orderId = i
    · obtain ⟨hstatus, hdelivery, hback⟩ := hsame hi
      rw [hstatus]
      split
      · rw [List.map_cons, List.map_cons, List.sum_cons, List.sum_cons, hrest, hdelivery, hback]
      · exact hrest
    · simp only [hi, decide_false, Bool.false_and, Bool.false_eq_true, if_false]
      exact hrest

theorem shipmentsCost_append {new : Shipment} (h : new.orderId ≠ i) :
    shipmentsCost (rows ++ [new]) i = shipmentsCost rows i := by
  simp [shipmentsCost, h]

theorem courierBill_some {bill : Money} (h : courierBill rows i = some bill) :
    bill = shipmentsCost rows i := by
  unfold courierBill at h
  dsimp only at h
  split at h
  · cases h
  obtain rfl := Option.some.inj h
  rw [shipmentsCost]
  induction rows.filter fun r => r.orderId = i && r.status ≠ .cancelled with
  | nil => rfl
  | cons r rest ih =>
    rw [List.flatMap_cons, List.sum_append, ih, List.map_cons, List.sum_cons]
    simp

/-- Without a shipment to count there is no bill. -/
theorem courierBill_none (h : courierBill rows i = none) :
    (∀ r ∈ rows, r.orderId = i → r.status = .cancelled) ∧ shipmentsCost rows i = 0 := by
  unfold courierBill at h
  dsimp only at h
  split at h
  · rename_i hnil
    constructor
    · intro r hr ho
      have hp := List.filter_eq_nil_iff.mp hnil r hr
      simpa [ho] using hp
    · rw [shipmentsCost, hnil, List.map_nil, List.sum_nil]
  · cases h

theorem courierBill_counted {bill : Money} (h : courierBill rows i = some bill) :
    ∃ r ∈ rows, r.orderId = i ∧ r.status ≠ .cancelled := by
  by_contra hnone
  have hnil : rows.filter (fun r => r.orderId = i && r.status ≠ .cancelled) = [] := by
    refine List.filter_eq_nil_iff.mpr fun r hr hp => hnone ⟨r, hr, ?_⟩
    simpa using hp
  simp only [courierBill, hnil, if_true] at h
  cases h

end cost

/-! ### The calls -/

section calls

variable {s s' : CourierDesk} {now : Instant} {i : OrderId} {rows : List Shipment}

/-- The rows written for one order leave the shipments of the others. -/
structure OthersKept (before : List Shipment) (i : OrderId) (rows : List Shipment) : Prop where
  cost : ∀ j, j ≠ i → shipmentsCost rows j = shipmentsCost before j
  orders : ∀ r ∈ rows, r.orderId = i ∨ ∃ q ∈ before, q.orderId = r.orderId

/-- A row that replaces one of its own key is not found under another. -/
theorem lookup_row_ne {orders : List Order} {row : Order} {j : OrderId} (hid : row.id = i)
    (hne : j ≠ i) : Rows.lookup Order.id j (Rows.modify Order.id i (fun _ => row) orders) =
      Rows.lookup Order.id j orders := by
  induction orders with
  | nil => rfl
  | cons a rest ih =>
    rw [Rows.modify_cons, Rows.lookup_cons, Rows.lookup_cons, ih]
    by_cases ha : a.id = i
    · have hj : ¬ i = j := fun hc => hne hc.symm
      rw [if_pos ha, hid, ha, if_neg hj, if_neg hj]
    · rw [if_neg ha]

theorem lookup_billed {orders : List Order} {o : Order} (bill : Money)
    (ho : Rows.lookup Order.id i orders = some o) :
    Rows.lookup Order.id i
      (Rows.modify Order.id i (fun o => { o with courierCost := bill }) orders) =
        some { o with courierCost := bill } := by
  have hkey : ∀ r : Order, Order.id { r with courierCost := bill } = Order.id r := fun _ => rfl
  rw [Rows.lookup_modify_self hkey, ho]
  rfl

/-- After a write the order costs what its shipments do, if there is one to count; else it
keeps its cost, which is then to be nothing. -/
theorem CostFollows.billed {o : Order} (h : CostFollows s) (hb : Billed s i rows s')
    (ho : Rows.lookup Order.id i s.orders = some o) (hrow : ∃ r ∈ rows, r.orderId = i)
    (hothers : OthersKept s.books.shipments i rows) :
    CostFollows s' ↔
      (∃ r ∈ rows, r.orderId = i ∧ r.status ≠ .cancelled) ∨ o.courierCost = 0 := by
  have hkept : ∀ j x, j ≠ i → Rows.lookup Order.id j s'.orders = some x →
      (∃ r ∈ s'.books.shipments, r.orderId = j) →
      x.courierCost = shipmentsCost s'.books.shipments j := by
    rintro j x hj hx ⟨r, hr, hrj⟩
    rw [hb.shipments] at hr ⊢
    have hsame : Rows.lookup Order.id j s'.orders = Rows.lookup Order.id j s.orders := by
      rw [hb.orders]
      split
      · rfl
      · exact Rows.lookup_modify_ne (fun _ => rfl) hj
    rw [hothers.cost j hj]
    refine h j x (hsame ▸ hx) ?_
    rcases hothers.orders r hr with hri | ⟨q, hq, hqr⟩
    · exact absurd (hrj.symm.trans hri) hj
    · exact ⟨q, hq, hqr.trans hrj⟩
  cases hbill : courierBill rows i with
  | none =>
    obtain ⟨hcancelled, hzero⟩ := courierBill_none hbill
    have horders : s'.orders = s.orders := by rw [hb.orders, hbill]
    constructor
    · intro hfollows
      refine Or.inr ?_
      rw [hfollows i o (horders ▸ ho) (hb.shipments ▸ hrow), hb.shipments]
      exact hzero
    · rintro (⟨r, hr, hri, hopen⟩ | hfree)
      · exact absurd (hcancelled r hr hri) hopen
      · intro j x hx hship
        by_cases hj : j = i
        · subst hj
          rw [horders, ho] at hx
          obtain rfl := Option.some.inj hx
          rw [hfree, hb.shipments, hzero]
        · exact hkept j x hj hx hship
  | some bill =>
    have hfound : Rows.lookup Order.id i s'.orders = some { o with courierCost := bill } := by
      rw [hb.orders, hbill]
      exact lookup_billed bill ho
    refine ⟨fun _ => Or.inl (courierBill_counted hbill), fun _ j x hx hship => ?_⟩
    by_cases hj : j = i
    · subst hj
      rw [hfound] at hx
      obtain rfl := Option.some.inj hx
      rw [hb.shipments, ← courierBill_some hbill]
    · exact hkept j x hj hx hship

/-- The rows of an assignment: the order's own change, and none of the others'. -/
theorem othersKept_assigned {t : ShippingTables} (order : Order) (courier : Courier)
    (dto : AssignShipmentDto) (now : Instant) (hnd : (t.shipments.map (·.id)).Nodup) :
    OthersKept t.shipments order.id (assignedRows t order courier dto now) ∧
      ∃ r ∈ assignedRows t order courier dto now,
        r.orderId = order.id ∧ r.status ≠ .cancelled := by
  have hmodify : ∀ (x : Shipment) (f : Shipment → Shipment), x ∈ t.shipments →
      x.orderId = order.id → (∀ r, (f r).orderId = r.orderId) →
      OthersKept t.shipments order.id (Rows.modify Shipment.id x.id f t.shipments) := by
    intro x f hx ho hf
    constructor
    · intro j hj
      refine shipmentsCost_map fun r hr => ?_
      by_cases hid : r.id = x.id
      · have hrx : r = x := List.inj_on_of_nodup_map hnd hr hx hid
        rw [if_pos hid]
        exact ⟨hf r, fun hrj => absurd (hrj.symm.trans (hrx ▸ ho)) hj⟩
      · rw [if_neg hid]
        exact ⟨rfl, fun _ => ⟨rfl, rfl, rfl⟩⟩
    · intro y hy
      obtain ⟨r, hr, rfl⟩ := List.mem_map.mp hy
      refine Or.inr ⟨r, hr, ?_⟩
      by_cases hid : r.id = x.id
      · rw [if_pos hid, hf]
      · rw [if_neg hid]
  have happend : ∀ {rows : List Shipment} (new : Shipment), new.orderId = order.id →
      OthersKept t.shipments order.id rows →
      OthersKept t.shipments order.id (rows ++ [new]) := by
    intro rows new hnew h
    constructor
    · intro j hj
      rw [shipmentsCost_append fun hc => hj (hc.symm.trans hnew)]
      exact h.cost j hj
    · intro r hr
      rcases List.mem_append.mp hr with hr | hr
      · exact h.orders r hr
      · exact Or.inl (List.mem_singleton.mp hr ▸ hnew)
  have hnewOpen : ∀ zone, (newShipment t.shipments.length order courier zone dto now).status ≠
      .cancelled := by
    intro zone
    unfold newShipment
    dsimp only
    split
    · simp
    · simp
  unfold assignedRows
  dsimp only
  split
  · refine ⟨happend _ rfl ⟨fun _ _ => rfl, fun r hr => Or.inr ⟨r, hr, rfl⟩⟩, ?_⟩
    exact ⟨_, List.mem_append_right _ (List.mem_singleton_self _), rfl, hnewOpen _⟩
  rename_i x hactive
  obtain ⟨hx, ho, hopen⟩ := active_some hactive
  split
  · refine ⟨hmodify x _ hx ho fun _ => rfl, reassigned dto now x, ?_, ho, ?_⟩
    · exact List.mem_map.mpr ⟨x, hx, if_pos rfl⟩
    · unfold reassigned
      dsimp only
      split
      · simp
      · intro hc
        rw [hc] at hopen
        cases hopen
  · refine ⟨happend _ rfl (hmodify x cancelled hx ho fun _ => rfl), ?_⟩
    exact ⟨_, List.mem_append_right _ (List.mem_singleton_self _), rfl, hnewOpen _⟩

theorem othersKept_updated (dto : UpdateShipmentDto) (now : Instant) {id : ℕ}
    {cur : Shipment} (hnd : (rows.map (·.id)).Nodup) (hl : Rows.lookup Shipment.id id rows = some cur) :
    OthersKept rows cur.orderId (Rows.modify Shipment.id id (updated dto now) rows) := by
  constructor
  · intro j hj
    refine shipmentsCost_map fun r hr => ?_
    by_cases hid : r.id = id
    · have hcur := Rows.lookup_of_mem hnd hr
      rw [hid, hl] at hcur
      obtain rfl := Option.some.inj hcur
      rw [if_pos hid]
      exact ⟨(updated_cod now dto cur).2.1, fun hrj => absurd hrj.symm hj⟩
    · rw [if_neg hid]
      exact ⟨rfl, fun _ => ⟨rfl, rfl, rfl⟩⟩
  · intro y hy
    obtain ⟨r, hr, rfl⟩ := List.mem_map.mp hy
    refine Or.inr ⟨r, hr, ?_⟩
    by_cases hid : r.id = id
    · rw [if_pos hid, (updated_cod now dto r).2.1]
    · rw [if_neg hid]

/-- After an update the order has a shipment to count exactly when the updated one stays or
there is another. -/
theorem counted_updated {dto : UpdateShipmentDto} {id : ℕ} {cur : Shipment}
    (hnd : (rows.map (·.id)).Nodup) (hl : Rows.lookup Shipment.id id rows = some cur) :
    (∃ r ∈ Rows.modify Shipment.id id (updated dto now) rows,
        r.orderId = cur.orderId ∧ r.status ≠ .cancelled) ↔
      dto.status.getD cur.status ≠ .cancelled ∨
        ∃ r ∈ rows, r.orderId = cur.orderId ∧ r.id ≠ id ∧ r.status ≠ .cancelled := by
  have hmem := Rows.mem_of_lookup hl
  have hcur := Rows.key_of_lookup hl
  constructor
  · rintro ⟨y, hy, ho, hopen⟩
    rcases Rows.mem_modify hnd hl hy with rfl | ⟨hold, hid⟩
    · rw [updated_status] at hopen
      exact Or.inl hopen
    · exact Or.inr ⟨y, hold, ho, hid, hopen⟩
  · rintro (hopen | ⟨r, hr, ho, hid, hopen⟩)
    · refine ⟨updated dto now cur, List.mem_map.mpr ⟨cur, hmem, if_pos hcur⟩, ?_, ?_⟩
      · exact (updated_cod now dto cur).2.1
      · rw [updated_status]
        exact hopen
    · exact ⟨r, List.mem_map.mpr ⟨r, hr, if_neg hid⟩, ho, hopen⟩

end calls

/-! ### Every run -/

section runs

variable {s s' : CourierDesk} {now : Instant}

/-- What orders and shipments say does not depend on the books. -/
theorem CourierDesk.SameRows.follows (h : SameRows s s') (hrows : ShipRows s) :
    ShipRows s' ∧ (CostFollows s → CostFollows s') := by
  refine ⟨⟨?_, ?_, ?_⟩, ?_⟩
  · rw [h.shipments]
    exact hrows.ids
  · rw [h.shipments, h.orders]
    exact hrows.orders
  · rw [h.shipments]
    exact hrows.oneActive
  · intro hf i o ho hship
    rw [h.orders] at ho
    rw [h.shipments] at hship ⊢
    exact hf i o ho hship

theorem ShipRows.placed {req : ZonedOrder} {o : Order} (h : ShipRows s)
    (hp : CourierDesk.Placed s req o s') : ShipRows s' ∧ (CostFollows s → CostFollows s') := by
  refine ⟨⟨?_, ?_, ?_⟩, ?_⟩
  · rw [hp.books]
    exact h.ids
  · rw [hp.books, hp.orders]
    intro r hr
    obtain ⟨x, hx⟩ := h.orders r hr
    exact ⟨x, Rows.lookup_append_of_some hx⟩
  · rw [hp.books]
    exact h.oneActive
  · rintro hf i x hx ⟨r, hr, rfl⟩
    rw [hp.books] at hr ⊢
    obtain ⟨y, hy⟩ := h.orders r hr
    rw [hp.orders, Rows.lookup_append_of_some hy] at hx
    obtain rfl := Option.some.inj hx
    exact hf r.orderId y hy ⟨r, hr, rfl⟩

theorem ShipRows.changed {i : OrderId} {c : OrderChange} {hint : SyncHint} {o row : Order}
    (h : ShipRows s) (hc : Changed s i c hint o row s') :
    ShipRows s' ∧ (CostFollows s → CostFollows s') := by
  have hbilled := OrderChange.row_billed hc.moved
  have hid : row.id = i := (Order.billed_id hbilled).trans (Rows.key_of_lookup hc.found)
  have hcost : row.courierCost = o.courierCost := by
    have hsame : row.billed.courierCost = o.billed.courierCost := congrArg _ hbilled
    exact hsame
  have hrow := lookup_modify_row hc.found (Order.billed_id hbilled)
  rw [← hc.orders] at hrow
  have hother : ∀ j, j ≠ i →
      Rows.lookup Order.id j s'.orders = Rows.lookup Order.id j s.orders := by
    intro j hj
    rw [hc.orders]
    exact lookup_row_ne hid hj
  refine ⟨⟨?_, ?_, ?_⟩, ?_⟩
  · rw [hc.shipments]
    exact h.ids
  · rw [hc.shipments]
    intro r hr
    by_cases hri : r.orderId = i
    · exact ⟨row, hri ▸ hrow⟩
    · rw [hother _ hri]
      exact h.orders r hr
  · rw [hc.shipments]
    exact h.oneActive
  · intro hf j x hx hship
    rw [hc.shipments] at hship ⊢
    by_cases hj : j = i
    · subst hj
      rw [hrow] at hx
      obtain rfl := Option.some.inj hx
      rw [hcost]
      exact hf j o hc.found hship
    · rw [hother j hj] at hx
      exact hf j x hx hship

/-- The orders of the shipments are still there after a write. -/
theorem ShipRows.written {i : OrderId} {rows : List Shipment} (h : ShipRows s)
    (hb : Billed s i rows s') (hids : rows.map (·.id) = List.range rows.length)
    (hactive : OneActive rows) {o : Order} (ho : Rows.lookup Order.id i s.orders = some o)
    (hothers : OthersKept s.books.shipments i rows) : ShipRows s' := by
  have hlookup : ∀ j x, Rows.lookup Order.id j s.orders = some x →
      ∃ y, Rows.lookup Order.id j s'.orders = some y := by
    intro j x hx
    rw [hb.orders]
    split
    · exact ⟨x, hx⟩
    · by_cases hj : j = i
      · subst hj
        exact ⟨_, lookup_billed _ hx⟩
      · refine ⟨x, ?_⟩
        rw [← hx]
        exact Rows.lookup_modify_ne (fun _ => rfl) hj
  refine ⟨?_, ?_, ?_⟩
  · rw [hb.shipments]
    exact hids
  · rw [hb.shipments]
    intro r hr
    rcases hothers.orders r hr with hri | ⟨q, hq, hqr⟩
    · exact hlookup _ o (hri ▸ ho)
    · obtain ⟨x, hx⟩ := h.orders q hq
      exact hlookup _ x (hqr ▸ hx)
  · rw [hb.shipments]
    exact hactive

/-- A new shipment is numbered next. -/
theorem assignedRows_ids {t : ShippingTables} {order : Order} {courier : Courier}
    {dto : AssignShipmentDto} (h : t.shipments.map (·.id) = List.range t.shipments.length) :
    (assignedRows t order courier dto now).map (·.id) =
      List.range (assignedRows t order courier dto now).length := by
  have hmodify : ∀ (id : ℕ) (f : Shipment → Shipment), (∀ r, (f r).id = r.id) →
      (Rows.modify Shipment.id id f t.shipments).map (·.id) =
        List.range t.shipments.length := by
    intro id f hf
    rw [← h]
    exact Rows.map_modify hf
  unfold assignedRows
  dsimp only
  split
  · rw [List.map_append, h, List.length_append, List.length_singleton, List.range_succ]
    rfl
  split
  · rw [Rows.length_modify]
    exact hmodify _ _ fun _ => rfl
  · rw [List.map_append, hmodify _ cancelled fun _ => rfl, List.length_append, List.length_singleton,
      Rows.length_modify, List.range_succ]
    rfl

theorem ShipRows.assigned {dto : AssignShipmentDto} (h : ShipRows s)
    (ha : s.assign dto now = some s') : ShipRows s' ∧ (CostFollows s → CostFollows s') := by
  obtain ⟨order, courier, hl, -, -, -, hb⟩ := assign_ok ha
  rw [← Rows.key_of_lookup hl] at hl
  obtain ⟨hothers, hcounted⟩ := othersKept_assigned (t := s.tables) order courier
    dto now h.nodup
  refine ⟨h.written hb (assignedRows_ids h.ids) (oneActive_assigned h.nodup h.oneActive) hl
    hothers, fun hf => ?_⟩
  obtain ⟨r, hr, hri, -⟩ := id hcounted
  exact (hf.billed hb hl ⟨r, hr, hri⟩ hothers).mpr (Or.inl hcounted)

theorem ShipRows.updated {id : ℕ} {dto : UpdateShipmentDto} (h : ShipRows s)
    (hu : s.update id dto now = some s') : ShipRows s' ∧
      (CostFollows s → (CostFollows s' ↔ CodAction.keepsCounted s (.update id dto now))) := by
  obtain ⟨cur, hl, hb⟩ := CourierDesk.update_ok hu
  have hactive : OneActive
      (Rows.modify Shipment.id id (ShipmentsService.updated dto now) s.books.shipments) := by
    obtain ⟨t, hcall, -⟩ := Option.map_eq_some_iff.mp hu
    have hok := Result.toOption_some.mp hcall
    unfold ShipmentsService.update at hok
    rw [show Rows.lookup Shipment.id id s.tables.shipments = some cur from hl] at hok
    dsimp only at hok
    split at hok
    · cases hok
    rename_i hguard
    exact oneActive_updated (t := s.tables) h.nodup h.oneActive hl hguard
  obtain ⟨o, ho⟩ := h.orders cur (Rows.mem_of_lookup hl)
  have hothers := othersKept_updated dto now h.nodup hl
  have hids : (Rows.modify Shipment.id id (ShipmentsService.updated dto now)
      s.books.shipments).map (·.id) = List.range s.books.shipments.length := by
    rw [← h.ids]
    exact Rows.map_modify fun r => (updated_cod now dto r).1
  refine ⟨h.written hb (hids.trans (by rw [Rows.length_modify])) hactive ho hothers, fun hf => ?_⟩
  have hrow : ∃ r ∈ Rows.modify Shipment.id id (ShipmentsService.updated dto now)
      s.books.shipments, r.orderId = cur.orderId :=
    ⟨ShipmentsService.updated dto now cur,
      List.mem_map.mpr ⟨cur, Rows.mem_of_lookup hl, if_pos (Rows.key_of_lookup hl)⟩,
      (updated_cod now dto cur).2.1⟩
  rw [hf.billed hb ho hrow hothers, counted_updated h.nodup hl, or_assoc]
  constructor
  · intro hcond x hx
    obtain rfl := Option.some.inj (hl.symm.trans hx)
    refine hcond.imp_right (Or.imp_right fun hfree y hy => ?_)
    obtain rfl := Option.some.inj (ho.symm.trans hy)
    exact hfree
  · intro hcond
    exact (hcond cur hl).imp_right (Or.imp_right fun hfree => hfree o ho)

/-- A settlement only writes what became of the COD. -/
theorem CashbookService.codRemittance_marks {b b' : Books} {dto : CodRemittanceDto} {group : ℕ}
    (h : CashbookService.codRemittance b dto group now = .ok b') :
    ∃ g : Shipment → Shipment, b'.shipments = b.shipments.map g ∧
      ∀ r, (g r).id = r.id ∧ (g r).orderId = r.orderId ∧ (g r).status = r.status ∧
        (g r).deliveryCharge = r.deliveryCharge ∧ (g r).returnCharge = r.returnCharge := by
  obtain ⟨⟨c₁, dest⟩, -, h⟩ := Result.bind_ok.mp h
  by_cases hnil : dto.shipmentIds = []
  · simp only [if_pos hnil] at h
    obtain ⟨cash, -, h⟩ := Result.bind_ok.mp h
    obtain rfl := Except.ok.inj h
    exact ⟨fun r => r, (List.map_id _).symm, fun _ => ⟨rfl, rfl, rfl, rfl, rfl⟩⟩
  simp only [if_neg hnil] at h
  split at h
  · cases h
  split at h
  · cases h
  split at h
  · cases h
  obtain ⟨c₂, -, h⟩ := Result.bind_ok.mp h
  obtain ⟨⟨c₃, cash⟩, -, h⟩ := Result.bind_ok.mp h
  obtain ⟨c₄, -, h⟩ := Result.bind_ok.mp h
  obtain ⟨c₅, -, h⟩ := Result.bind_ok.mp h
  obtain rfl := Except.ok.inj h
  refine ⟨_, rfl, fun r => ?_⟩
  by_cases hr : r.id ∈ dto.shipmentIds
  · rw [if_pos hr]
    exact ⟨rfl, rfl, rfl, rfl, rfl⟩
  · rw [if_neg hr]
    exact ⟨rfl, rfl, rfl, rfl, rfl⟩

/-- A settlement marks shipments, and leaves what they cost. -/
theorem ShipRows.settled {dto : CodRemittanceDto} {group : ℕ} (h : ShipRows s)
    (hc : s.codRemittance dto group now = some s') :
    ShipRows s' ∧ (CostFollows s → CostFollows s') := by
  obtain ⟨hcall, horders, -⟩ := codRemittance_ok hc
  obtain ⟨g, hrows, hg⟩ := CashbookService.codRemittance_marks hcall
  change s'.books.shipments = s.books.shipments.map g at hrows
  refine ⟨⟨?_, ?_, ?_⟩, ?_⟩
  · rw [hrows, List.length_map, ← h.ids, List.map_map]
    exact List.map_congr_left fun r _ => (hg r).1
  · rw [hrows, horders]
    intro x hx
    obtain ⟨r, hr, rfl⟩ := List.mem_map.mp hx
    rw [(hg r).2.1]
    exact h.orders r hr
  · rw [hrows]
    refine h.oneActive.map fun r _ => ⟨(hg r).2.1, fun hclosed => ?_⟩
    rw [(hg r).2.2.1]
    exact hclosed
  · rintro hf i o ho ⟨x, hx, rfl⟩
    rw [hrows] at hx ⊢
    obtain ⟨r, hr, rfl⟩ := List.mem_map.mp hx
    rw [horders] at ho
    rw [shipmentsCost_map fun r _ => ⟨(hg r).2.1, fun _ => (hg r).2.2⟩, hf _ o ho ⟨r, hr, ((hg r).2.1).symm⟩]

theorem codStep_follows {a : CodAction} (h : ShipRows s)
    (hstep : codStep s a = some s') :
    ShipRows s' ∧ (CostFollows s → (CostFollows s' ↔ a.keepsCounted s)) := by
  have hfree : ShipRows s' ∧ (CostFollows s → CostFollows s') →
      ShipRows s' ∧ (CostFollows s → (CostFollows s' ↔ True)) :=
    fun hkept => ⟨hkept.1, fun hf => iff_of_true (hkept.2 hf) trivial⟩
  cases a with
  | place req now =>
    obtain ⟨o, hp⟩ := place_ok hstep
    exact hfree (h.placed hp)
  | change orderId c =>
    obtain ⟨⟨s₁, hint⟩, hc, rfl⟩ := Option.map_eq_some_iff.mp hstep
    obtain ⟨o, row, hchanged⟩ := change_ok hc
    exact hfree (h.changed hchanged)
  | assign dto now => exact hfree (h.assigned hstep)
  | update id dto now => exact h.updated hstep
  | sync orderId hint now => exact hfree ((sync_ok hstep).1.follows h)
  | courierPayment dto now =>
    obtain ⟨order, e, -, -, -, -, -, hsame, -⟩ := courierPayment_ok hstep
    exact hfree (hsame.follows h)
  | reverse id reason group now =>
    obtain ⟨-, hsame, -⟩ := CourierDesk.reverse_ok hstep
    exact hfree (hsame.follows h)
  | codRemittance dto group now => exact hfree (h.settled hstep)
  | post e =>
    simp only [codStep] at hstep
    split at hstep
    · obtain ⟨cash, -, rfl⟩ := Option.map_eq_some_iff.mp hstep
      have hsame : SameRows s (s.withBooks { s.books with cash }) := ⟨rfl, rfl, rfl⟩
      exact hfree (hsame.follows h)
    · cases hstep
  | settings couriers zones =>
    obtain rfl := Option.some.inj hstep
    have hsame : SameRows s { s with couriers, zones } := ⟨rfl, rfl, rfl⟩
    exact hfree (hsame.follows h)

end runs

/-- **The courier cost follows the shipments exactly in the runs whose updates leave
something to count**; one shipment of an order at most is on its way in every run, and the
index refuses no call. -/
theorem courierCost_follows (s t : CourierDesk) (as : List CodAction)
    (hs : s.books.shipments = []) (hrun : Machine.runFrom codStep s as = some t) :
    (Machine.Along codStep CostFollows s as ↔
      Machine.GuardedRun codStep CodAction.keepsCounted s as) ∧
    Machine.Along codStep (fun u => OneActive u.books.shipments ∧ NeverRefused u) s as := by
  have hrows : ShipRows s := by
    refine ⟨?_, ?_, ?_⟩
    · rw [hs]
      rfl
    · rw [hs]
      simp
    · rw [hs]
      exact List.Pairwise.nil
  have hfollows : CostFollows s := by
    rintro i o - ⟨r, hr, -⟩
    rw [hs] at hr
    exact absurd hr List.not_mem_nil
  constructor
  · exact Machine.along_iff_guarded
      (fun _ _ _ hi hf hstep => ⟨(codStep_follows hi hstep).1, (codStep_follows hi hstep).2 hf⟩)
      as s t hrows hfollows hrun
  · refine Machine.Along.mono (P := ShipRows) (fun _ hi => ⟨hi.oneActive, hi.neverRefused⟩) as s ?_
    exact Machine.along_of_guarded (fun _ _ _ hi _ hstep => (codStep_follows hi hstep).1) as s
      hrows (Machine.guardedRun_of_forall (fun _ _ => trivial) as s)

/-- An order whose courier was changed: the first shipment is cancelled, the second counted. -/
theorem courierCost_follows_courierChanged : ∃ t,
    Machine.runFrom codStep codDesk courierChanged = some t ∧
    (Machine.Along codStep CostFollows codDesk courierChanged ↔
      Machine.GuardedRun codStep CodAction.keepsCounted codDesk courierChanged) ∧
    Machine.Along codStep (fun u => OneActive u.books.shipments ∧ NeverRefused u) codDesk
      courierChanged := by
  have hran : (Machine.runFrom codStep codDesk courierChanged).isSome = true := by
    decide +kernel
  obtain ⟨t, ht⟩ := Option.isSome_iff_exists.mp hran
  exact ⟨t, ht, courierCost_follows codDesk t courierChanged rfl ht⟩

/-- The only shipment of an order is cancelled: nothing is left to count, and the order
still costs what the courier would have taken. -/
theorem last_shipment_cancelled : ∃ t o,
    Machine.runFrom codStep codDesk
      [.place codOrder 0, .assign { orderId := 0, courier := .code "pathao" } 2,
       .update 0 { status := some .cancelled } 3] = some t ∧
    Rows.lookup Order.id 0 t.orders = some o ∧ o.courierCost = 50 ∧
    shipmentsCost t.books.shipments 0 = 0 ∧ ¬ CostFollows t := by
  have hran : (Machine.runFrom codStep codDesk
      [.place codOrder 0, .assign { orderId := 0, courier := .code "pathao" } 2,
       .update 0 { status := some .cancelled } 3]).any (fun t =>
        (Rows.lookup Order.id 0 t.orders).any fun o =>
          o.courierCost = 50 && shipmentsCost t.books.shipments 0 = 0 &&
            t.books.shipments.any (·.orderId = 0)) = true := by
    decide +kernel
  obtain ⟨t, ht, hany⟩ := (Option.any_eq_true _ _).mp hran
  obtain ⟨o, ho, hvalues⟩ := (Option.any_eq_true _ _).mp hany
  simp only [Bool.and_eq_true, decide_eq_true_eq, List.any_eq_true] at hvalues
  obtain ⟨⟨hcost, hsum⟩, hshipped⟩ := hvalues
  refine ⟨t, o, ht, ho, hcost, hsum, fun hfollows => ?_⟩
  have heq := hfollows 0 o ho hshipped
  rw [hcost, hsum] at heq
  exact absurd heq (by norm_num)

end BookHouse
