/-
The settlement of collected COD moves what was booked, once for each order.

COD is booked once for an order and settled shipment by shipment.  What a shipment collects
is the order's total or nothing, since an unpaid order has nothing paid, and so is every
amount of COD that was ever booked for it.  A settlement that names shipments of different
orders, none of which has a shipment settled before, therefore moves out no more than came
in; and the orders it settles have a remitted shipment from then on, as long as nobody sets
it back.
-/
import BookHouse.Proofs.CourierDesk

namespace BookHouse

open DocumentIssuer CourierDesk

/-! ### What a settlement is to move -/

/-- COD money coming in, when it was booked. -/
def CashTransaction.isCodIn (e : CashTransaction) : Bool :=
  e.kind = .codRemittance && e.direction = .in_ && e.reversesId.isNone

/-- The COD ever booked by these entries. -/
def codBooked (entries : List CashTransaction) : Money :=
  ((entries.filter (·.isCodIn)).map (·.amount)).sum

/-- The COD ever booked for an order. -/
def codBookedFor (entries : List CashTransaction) (i : OrderId) : Money :=
  codBooked (entries.filter (·.orderId = some i))

namespace CourierDesk

/-- What the named shipments collect. -/
def due (s : CourierDesk) (dto : CodRemittanceDto) : Money := ((s.named dto).map (·.codAmount)).sum

/-- The orders of the named shipments. -/
def settledBy (s : CourierDesk) (dto : CodRemittanceDto) : List OrderId :=
  ((s.named dto).map (·.orderId)).dedup

/-- The entries that a call wrote. -/
def written (s s' : CourierDesk) : List CashTransaction :=
  s'.books.cash.entries.drop s.books.cash.entries.length

end CourierDesk

/-- A settlement moves no money that was not collected. -/
structure SettlesCod (s : CourierDesk) (dto : CodRemittanceDto) (s' : CourierDesk) : Prop where
  /-- what it moves out was booked for the orders it settles -/
  covered : s.due dto ≤ ((s.settledBy dto).map (codBookedFor s'.books.cash.entries)).sum
  conserves : ((s.written s').map (·.signed)).sum =
    codBooked (s.written s') - (s.due dto - round2 dto.amount)
  once : s'.settled.Nodup

/-- A settlement names shipments of different orders, none with a shipment that is remitted;
and no remitted shipment is set back. -/
def CodAction.settlesApart (s : CourierDesk) : CodAction → Prop
  | .codRemittance dto _ _ =>
      ((s.named dto).map (·.orderId)).Nodup ∧
        ∀ r ∈ s.named dto, ∀ q ∈ s.books.shipments, q.orderId = r.orderId → q.codStatus ≠ .remitted
  | .update id dto _ =>
      ∀ r ∈ s.books.shipments, r.id = id → r.codStatus = .remitted →
        dto.codStatus.getD .remitted = .remitted
  | _ => True

/-! ### One settlement -/

section sums

variable {entries rows : List CashTransaction} {i : OrderId}

theorem codBooked_append : codBooked (entries ++ rows) = codBooked entries + codBooked rows := by
  simp [codBooked]

theorem codBooked_none (h : ∀ e ∈ rows, e.kind ≠ .codRemittance) : codBooked rows = 0 := by
  have hnil : rows.filter (·.isCodIn) = [] := by
    rw [List.filter_eq_nil_iff]
    intro e he
    simp [CashTransaction.isCodIn, h e he]
  rw [codBooked, hnil, List.map_nil, List.sum_nil]

/-- Collected COD adds what it brings in. -/
theorem signed_codBooked (h : ∀ e ∈ rows, e.isCodIn) : (rows.map (·.signed)).sum = codBooked rows := by
  rw [codBooked, List.filter_eq_self.mpr h]
  congr 1
  refine List.map_congr_left fun e he => ?_
  have hin := h e he
  simp only [CashTransaction.isCodIn, Bool.and_eq_true, decide_eq_true_eq] at hin
  rw [CashTransaction.signed, hin.1.2]

/-- One entry is part of what was booked. -/
theorem le_codBookedFor {e : CashTransaction} (hpos : ∀ x ∈ entries, 0 < x.amount) (he : e ∈ entries)
    (hcod : e.isCodIn) (ho : e.orderId = some i) : e.amount ≤ codBookedFor entries i := by
  have hmem : e ∈ (entries.filter (·.orderId = some i)).filter (·.isCodIn) := by
    simp [he, hcod, ho]
  refine List.single_le_sum ?_ _ (List.mem_map_of_mem hmem)
  intro a ha
  obtain ⟨x, hx, rfl⟩ := List.mem_map.mp ha
  exact (hpos x (List.mem_of_mem_filter (List.mem_of_mem_filter hx))).le

end sums

namespace CashbookService

variable {c c' : Cashbook} {now : Instant}

/-- What the bookings of a settlement wrote: COD of the shipments, for each order some. -/
structure Booked (l : List Shipment) (c c' : Cashbook) (rows : List CashTransaction) : Prop where
  entries : c'.entries = c.entries ++ rows
  codIn : ∀ e ∈ rows, e.isCodIn = true
  amounts : ∀ e ∈ rows, ∃ s ∈ l, e.orderId = some s.orderId ∧ e.amount = round2 s.codAmount
  covers : ∀ s ∈ l, ∃ e ∈ c'.entries, e.isCodIn = true ∧ e.orderId = some s.orderId

theorem bookCod_ok {orderNo : OrderId → String} {s : Shipment}
    (h : bookCod orderNo now c s = .ok c') : ∃ rows, Booked [s] c c' rows := by
  unfold bookCod at h
  split at h
  · rename_i hhas
    obtain rfl := Except.ok.inj h
    obtain ⟨e, he⟩ : ∃ e, e ∈ CashLedger.live c (codMatch s.orderId) := by
      refine List.exists_mem_of_ne_nil _ fun hnil => ?_
      simp [CashLedger.has, hnil] at hhas
    obtain ⟨hmem, hholds, hlive⟩ := CashLedger.mem_live.mp he
    have hfields := CashLedger.holds_iff.mp hholds
    simp only [codMatch, Option.some.injEq, forall_eq'] at hfields
    refine ⟨[], (List.append_nil _).symm, by simp, by simp, ?_⟩
    intro x hx
    rw [List.mem_singleton.mp hx]
    refine ⟨e, hmem, ?_, hfields.1.resolve_left (by simp)⟩
    simp only [CashLedger.isLive, Bool.and_eq_true] at hlive
    simp [CashTransaction.isCodIn, hfields.2.1, hfields.2.2.1, hlive.1]
  · obtain ⟨-, acc, hent⟩ := CashLedger.post_ok h
    refine ⟨_, hent, ?_, ?_, ?_⟩
    · intro e he
      rw [List.mem_singleton.mp he]
      rfl
    · intro e he
      rw [List.mem_singleton.mp he]
      exact ⟨s, List.mem_singleton_self s, rfl, rfl⟩
    · intro x hx
      rw [List.mem_singleton.mp hx]
      exact ⟨_, hent ▸ List.mem_append_right _ (List.mem_singleton_self _), rfl, rfl⟩

theorem bookAll_ok {orderNo : OrderId → String} : ∀ (l : List Shipment) {c c' : Cashbook},
    l.foldlM (bookCod orderNo now) c = .ok c' → ∃ rows, Booked l c c' rows := by
  intro l
  induction l with
  | nil =>
      intro c c' h
      obtain rfl := Result.foldlM_nil_ok.mp h
      exact ⟨[], (List.append_nil _).symm, by simp, by simp, by simp⟩
  | cons s rest ih =>
      intro c c' h
      obtain ⟨c₁, hbook, hrest⟩ := Result.foldlM_cons_ok.mp h
      obtain ⟨r₁, h₁⟩ := bookCod_ok hbook
      obtain ⟨r₂, h₂⟩ := ih hrest
      refine ⟨r₁ ++ r₂, by rw [h₂.entries, h₁.entries, List.append_assoc], ?_, ?_, ?_⟩
      · intro e he
        exact (List.mem_append.mp he).elim (h₁.codIn e) (h₂.codIn e)
      · intro e he
        rcases List.mem_append.mp he with he | he
        · obtain ⟨x, hx, hrow⟩ := h₁.amounts e he
          exact ⟨x, List.mem_singleton.mp hx ▸ List.mem_cons_self, hrow⟩
        · obtain ⟨x, hx, hrow⟩ := h₂.amounts e he
          exact ⟨x, List.mem_cons_of_mem _ hx, hrow⟩
      · intro x hx
        rcases List.mem_cons.mp hx with rfl | hx
        · obtain ⟨e, he, hcod⟩ := h₁.covers x (List.mem_singleton_self x)
          exact ⟨e, h₂.entries ▸ List.mem_append_left _ he, hcod⟩
        · exact h₂.covers x hx

/-- The received money stays in the shop. -/
theorem moveReceived_ok {cash dest : CashAccount} {received : Money} {memo : String} {group : ℕ}
    (h : moveReceived c cash dest received memo group now = .ok c') :
    ∃ rows, c'.entries = c.entries ++ rows ∧ (∀ e ∈ rows, e.kind = .transfer) ∧
      (rows.map (·.signed)).sum = 0 := by
  unfold moveReceived at h
  split at h
  · obtain rfl := Except.ok.inj h
    exact ⟨[], (List.append_nil _).symm, by simp, rfl⟩
  · obtain ⟨c₁, hout, hin⟩ := Result.bind_ok.mp h
    obtain ⟨-, acc₁, h₁⟩ := CashLedger.post_ok hout
    obtain ⟨-, acc₂, h₂⟩ := CashLedger.post_ok hin
    refine ⟨_, by rw [h₂, h₁, List.append_assoc], ?_, ?_⟩
    · intro e he
      rcases List.mem_append.mp he with he | he
      · rw [List.mem_singleton.mp he]
        rfl
      · rw [List.mem_singleton.mp he]
        rfl
    · simp [CashTransaction.signed, PostEntry.row]

/-- What the courier keeps goes out. -/
theorem bookDeducted_ok {cash : CashAccount} {deducted : Money} {memo : String}
    (hnn : 0 ≤ deducted) (hplaces : Paisa deducted)
    (h : bookDeducted c cash deducted memo now = .ok c') :
    ∃ rows, c'.entries = c.entries ++ rows ∧ (∀ e ∈ rows, e.kind = .courierPayment) ∧
      (rows.map (·.signed)).sum = -deducted := by
  unfold bookDeducted at h
  split at h
  · obtain ⟨-, acc, hent⟩ := CashLedger.post_ok h
    refine ⟨_, hent, ?_, ?_⟩
    · intro e he
      rw [List.mem_singleton.mp he]
      rfl
    · simp [CashTransaction.signed, PostEntry.row, round2_of_paisa hplaces]
  · rename_i hpos
    obtain rfl := Except.ok.inj h
    have hzero : deducted = 0 := le_antisymm (not_lt.mp hpos) hnn
    exact ⟨[], (List.append_nil _).symm, by simp, by simp [hzero]⟩

/-- Everything a settlement with shipments did. -/
structure SettledCod (b : Books) (dto : CodRemittanceDto) (named : List Shipment) (b' : Books)
    (booked rest : List CashTransaction) : Prop where
  remittable : ∀ s ∈ named, s.codStatus ≠ .remitted ∧ 0 < s.codAmount
  entries : b'.cash.entries = b.cash.entries ++ (booked ++ rest)
  codIn : ∀ e ∈ booked, e.isCodIn = true
  amounts : ∀ e ∈ booked, ∃ s ∈ named, e.orderId = some s.orderId ∧ e.amount = round2 s.codAmount
  covers : ∀ s ∈ named, ∃ e ∈ b'.cash.entries, e.isCodIn = true ∧ e.orderId = some s.orderId
  other : ∀ e ∈ rest, e.kind ≠ .codRemittance
  moved : (rest.map (·.signed)).sum = -((named.map (·.codAmount)).sum - round2 dto.amount)
  shipments : ∃ at_, b'.shipments = b.shipments.map fun s =>
    if s.id ∈ dto.shipmentIds then Shipment.remitted dto.occurredAt at_ s else s

theorem codRemittance_ok {b b' : Books} {dto : CodRemittanceDto} {group : ℕ}
    (hplaces : ∀ s ∈ b.shipments, Paisa s.codAmount) (hne : dto.shipmentIds ≠ [])
    (h : codRemittance b dto group now = .ok b') :
    ∃ booked rest,
      SettledCod b dto (b.shipments.filter (·.id ∈ dto.shipmentIds)) b' booked rest := by
  obtain ⟨⟨c₁, dest⟩, hacc, h⟩ := Result.bind_ok.mp h
  have hsame := CashLedger.account_entries hacc
  simp only [if_neg hne] at h
  split at h
  · cases h
  split at h
  · cases h
  rename_i hremittable
  split at h
  · cases h
  rename_i hdue
  obtain ⟨c₂, hbook, h⟩ := Result.bind_ok.mp h
  obtain ⟨⟨c₃, cash⟩, hcash, h⟩ := Result.bind_ok.mp h
  obtain ⟨c₄, hmove, h⟩ := Result.bind_ok.mp h
  obtain ⟨c₅, hded, h⟩ := Result.bind_ok.mp h
  obtain rfl := Except.ok.inj h
  obtain ⟨booked, hbooked⟩ := bookAll_ok _ hbook
  obtain ⟨r₁, h₁, hk₁, hs₁⟩ := moveReceived_ok hmove
  obtain ⟨r₂, h₂, hk₂, hs₂⟩ := bookDeducted_ok (sub_nonneg.mpr (not_lt.mp hdue))
    (Rounding.HasPlaces.sub (Rounding.HasPlaces.sum fun m hm => by
      obtain ⟨s, hs, rfl⟩ := List.mem_map.mp hm
      exact hplaces s (List.mem_of_mem_filter hs)) (round2_paisa _)) hded
  have hentries : c₅.entries = b.cash.entries ++ (booked ++ (r₁ ++ r₂)) := by
    rw [h₂, h₁, CashLedger.account_entries hcash, hbooked.entries, hsame]
    simp only [List.append_assoc]
  refine ⟨booked, r₁ ++ r₂, ?_, hentries, hbooked.codIn, hbooked.amounts, ?_, ?_, ?_, now, rfl⟩
  · intro s hs
    have hok := List.find?_eq_none.mp hremittable s hs
    simp only [notRemittable, Bool.or_eq_true, decide_eq_true_eq, not_or, not_le] at hok
    exact ⟨hok.1.1, hok.2⟩
  · intro s hs
    obtain ⟨e, he, hcod⟩ := hbooked.covers s hs
    refine ⟨e, ?_, hcod⟩
    show e ∈ c₅.entries
    rw [h₂, h₁, CashLedger.account_entries hcash]
    exact List.mem_append_left _ (List.mem_append_left _ he)
  · intro e he
    rcases List.mem_append.mp he with he | he
    · simp [hk₁ e he]
    · simp [hk₂ e he]
  · rw [List.map_append, List.sum_append, hs₁, hs₂, zero_add]

end CashbookService

/-! ### What shipments collect -/

/-- What each order is to pay. -/
def charges (orders : List Order) : List (OrderId × Money) :=
  orders.map fun o => (o.id, round2 o.grandTotal)

structure CodInv (s : CourierDesk) : Prop where
  ids : s.orders.map (·.id) = List.range s.orders.length
  unpaid : ∀ o ∈ s.orders, o.paymentStatus = .unpaid → o.amountPaid = 0
  shipments : ∀ r ∈ s.books.shipments, r.codAmount = 0 ∨ (r.orderId, r.codAmount) ∈ charges s.orders
  positive : ∀ e ∈ s.books.cash.entries, 0 < e.amount
  booked : ∀ e ∈ s.books.cash.entries, e.isCodIn →
    ∀ i, e.orderId = some i → (i, e.amount) ∈ charges s.orders
  /-- the orders settled have a shipment that is remitted -/
  remitted : ∀ i ∈ s.settled, ∃ r ∈ s.books.shipments, r.orderId = i ∧ r.codStatus = .remitted
  once : s.settled.Nodup

section charges

variable {orders : List Order} {i : OrderId} {a b : Money}

theorem charges_unique (hnd : (orders.map (·.id)).Nodup) (ha : (i, a) ∈ charges orders)
    (hb : (i, b) ∈ charges orders) : a = b := by
  obtain ⟨o, ho, hoa⟩ := List.mem_map.mp ha
  obtain ⟨o', ho', hob⟩ := List.mem_map.mp hb
  obtain ⟨hid, rfl⟩ := Prod.mk.inj hoa
  obtain ⟨hid', rfl⟩ := Prod.mk.inj hob
  have hsame : o = o' := List.inj_on_of_nodup_map hnd ho ho' (hid.trans hid'.symm)
  rw [hsame]

theorem charges_paisa (h : (i, a) ∈ charges orders) : Paisa a := by
  obtain ⟨o, -, ho⟩ := List.mem_map.mp h
  rw [← (Prod.mk.inj ho).2]
  exact round2_paisa _

/-- An update of the order with an id that leaves its total leaves all charges. -/
theorem charges_modify {f : Order → Order}
    (h : ∀ o ∈ orders, o.id = i → (f o).id = o.id ∧ (f o).grandTotal = o.grandTotal) :
    charges (Rows.modify Order.id i f orders) = charges orders := by
  refine Rows.map_modify_of_mem fun o ho hid => ?_
  obtain ⟨hkey, htotal⟩ := h o ho hid
  rw [hkey, htotal]

end charges

namespace CodInv

variable {s s' : CourierDesk} {now : Instant}

theorem nodup (h : CodInv s) : (s.orders.map (·.id)).Nodup := by
  rw [h.ids]
  exact List.nodup_range

theorem paisa (h : CodInv s) : ∀ r ∈ s.books.shipments, Paisa r.codAmount := by
  intro r hr
  rcases h.shipments r hr with hzero | hmem
  · rw [hzero]
    exact Rounding.HasPlaces.zero
  · exact charges_paisa hmem

/-- A call on the books, with entries as they should be. -/
theorem posted (h : CodInv s) (hp : SameRows s s')
    (hpositive : ∀ e ∈ s'.books.cash.entries, 0 < e.amount)
    (hbooked : ∀ e ∈ s'.books.cash.entries, e.isCodIn →
      ∀ i, e.orderId = some i → (i, e.amount) ∈ charges s.orders) : CodInv s' := by
  refine ⟨?_, ?_, ?_, hpositive, ?_, ?_, ?_⟩
  · rw [hp.orders]
    exact h.ids
  · rw [hp.orders]
    exact h.unpaid
  · rw [hp.orders, hp.shipments]
    exact h.shipments
  · rw [hp.orders]
    exact hbooked
  · rw [hp.settled, hp.shipments]
    exact h.remitted
  · rw [hp.settled]
    exact h.once

/-- One more entry, that is no COD coming in, or is what its order is to pay. -/
theorem post (h : CodInv s) {e : PostEntry} {c : Cashbook} (hp : SameRows s s')
    (hc : c.entries = s.books.cash.entries) (hpost : CashLedger.post c e = .ok s'.books.cash)
    (he : e.kind = .codRemittance → e.reversesId = none → ∀ i, e.orderId = some i →
      (i, round2 e.amount) ∈ charges s.orders) : CodInv s' := by
  obtain ⟨hpos, acc, hent⟩ := CashLedger.post_ok hpost
  rw [hc] at hent
  refine h.posted hp ?_ ?_
  · intro x hx
    rw [hent, List.mem_append, List.mem_singleton] at hx
    rcases hx with hx | rfl
    · exact h.positive x hx
    · exact hpos
  · intro x hx hcod i hi
    rw [hent, List.mem_append, List.mem_singleton] at hx
    rcases hx with hx | rfl
    · exact h.booked x hx hcod i hi
    · simp only [CashTransaction.isCodIn, Bool.and_eq_true, decide_eq_true_eq,
        Option.isNone_iff_eq_none] at hcod
      exact he hcod.1.1 hcod.2 i hi

theorem placed {req : ZonedOrder} {o : Order} (h : CodInv s) (hp : CourierDesk.Placed s req o s') :
    CodInv s' := by
  have hold : ∀ x ∈ charges s.orders, x ∈ charges s'.orders := by
    intro x hx
    rw [hp.orders, charges, List.map_append]
    exact List.mem_append_left _ hx
  refine ⟨?_, ?_, ?_, ?_, ?_, ?_, ?_⟩
  · rw [hp.orders, List.map_append, h.ids, List.map_singleton, hp.id, List.length_append,
      List.length_singleton, List.range_succ]
  · intro x hx
    rw [hp.orders, List.mem_append, List.mem_singleton] at hx
    rcases hx with hx | rfl
    · exact h.unpaid x hx
    · exact fun _ => hp.unpaid
  · intro r hr
    rw [hp.books] at hr
    exact (h.shipments r hr).imp_right (hold _)
  · rw [hp.books]
    exact h.positive
  · intro e he hcod i hi
    rw [hp.books] at he
    exact hold _ (h.booked e he hcod i hi)
  · rw [hp.settled, hp.books]
    exact h.remitted
  · rw [hp.settled]
    exact h.once

theorem changed {orderId : OrderId} {c : OrderChange} {hint : SyncHint} {o row : Order}
    (h : CodInv s) (hc : Changed s orderId c hint o row s') : CodInv s' := by
  have hbilled := OrderChange.row_billed hc.moved
  have hthe : ∀ x ∈ s.orders, x.id = orderId → x = o := by
    intro x hx hid
    exact List.inj_on_of_nodup_map h.nodup hx (Rows.mem_of_lookup hc.found)
      (hid.trans (Rows.key_of_lookup hc.found).symm)
  have hcharges : charges s'.orders = charges s.orders := by
    rw [hc.orders]
    refine charges_modify fun x hx hid => ?_
    rw [hthe x hx hid]
    exact ⟨Order.billed_id hbilled, Order.billed_total hbilled⟩
  refine ⟨?_, ?_, ?_, ?_, ?_, ?_, ?_⟩
  · rw [hc.orders, Rows.length_modify, ← h.ids]
    refine Rows.map_modify_of_mem fun x hx hid => ?_
    rw [hthe x hx hid]
    exact Order.billed_id hbilled
  · rw [hc.orders]
    refine Rows.forall_modify h.unpaid fun _ _ hunpaid => ?_
    obtain ⟨hbefore, hsame⟩ := OrderChange.row_unpaid hc.moved hunpaid
    rw [hsame]
    exact h.unpaid o (Rows.mem_of_lookup hc.found) hbefore
  · rw [hc.shipments, hcharges]
    exact h.shipments
  · rw [hc.cash]
    exact h.positive
  · rw [hc.cash, hcharges]
    exact h.booked
  · rw [hc.settled, hc.shipments]
    exact h.remitted
  · rw [hc.settled]
    exact h.once

/-- The shipments of an order are written. -/
theorem billed {i : OrderId} {rows : List Shipment} (h : CodInv s) (hb : Billed s i rows s')
    (hrows : ∀ r ∈ rows, r.codAmount = 0 ∨ (r.orderId, r.codAmount) ∈ charges s.orders)
    (hkeeps : ∀ r ∈ s.books.shipments, r.codStatus = .remitted →
      ∃ r' ∈ rows, r'.orderId = r.orderId ∧ r'.codStatus = .remitted) : CodInv s' := by
  have hsame : s'.orders.map (·.id) = s.orders.map (·.id) ∧ s'.orders.length = s.orders.length ∧
      charges s'.orders = charges s.orders ∧
      ∀ o ∈ s'.orders, o.paymentStatus = .unpaid → o.amountPaid = 0 := by
    rw [hb.orders]
    split
    · exact ⟨rfl, rfl, rfl, h.unpaid⟩
    · exact ⟨Rows.map_modify fun _ => rfl, Rows.length_modify, charges_modify fun _ _ _ => ⟨rfl, rfl⟩,
        Rows.forall_modify h.unpaid fun _ ho => ho⟩
  obtain ⟨hids, hlength, hcharges, hunpaid⟩ := hsame
  refine ⟨?_, hunpaid, ?_, ?_, ?_, ?_, ?_⟩
  · rw [hids, hlength]
    exact h.ids
  · rw [hb.shipments, hcharges]
    exact hrows
  · rw [hb.cash]
    exact h.positive
  · rw [hb.cash, hcharges]
    exact h.booked
  · rw [hb.settled, hb.shipments]
    intro j hj
    obtain ⟨r, hr, rfl, hremitted⟩ := h.remitted j hj
    exact hkeeps r hr hremitted
  · rw [hb.settled]
    exact h.once

theorem assigned {dto : AssignShipmentDto} (h : CodInv s) (ha : s.assign dto now = some s') :
    CodInv s' := by
  obtain ⟨order, courier, hl, -, -, -, hb⟩ := assign_ok ha
  refine h.billed hb ?_ ?_
  · intro r hr
    rcases ShipmentsService.mem_assignedRows hr with ⟨x, hx, rfl | rfl | rfl⟩ | rfl
    · exact h.shipments _ hx
    · exact h.shipments x hx
    · exact h.shipments x hx
    · by_cases hdue : 0 < ShipmentsService.codDue order
      · have hunpaid : order.paymentStatus = .unpaid := by
          by_contra hpaid
          rw [ShipmentsService.codDue, if_neg hpaid] at hdue
          exact lt_irrefl _ hdue
        right
        have hcod : ShipmentsService.codDue order = round2 order.grandTotal := by
          rw [ShipmentsService.codDue, if_pos hunpaid, h.unpaid order (Rows.mem_of_lookup hl) hunpaid,
            sub_zero]
        have hmem : (order.id, round2 order.grandTotal) ∈ charges s.orders :=
          List.mem_map_of_mem (Rows.mem_of_lookup hl)
        rw [hcod] at hdue
        simp only [ShipmentsService.newShipment, hcod, if_pos hdue]
        exact hmem
      · left
        simp only [ShipmentsService.newShipment, if_neg hdue]
  · intro r hr hremitted
    obtain ⟨r', hr', ho, hstatus⟩ := ShipmentsService.assignedRows_keeps (t := s.tables) hr
    exact ⟨r', hr', ho, hstatus.trans hremitted⟩

theorem updated {id : ℕ} {dto : UpdateShipmentDto} (h : CodInv s)
    (hok : CodAction.settlesApart s (.update id dto now)) (hu : s.update id dto now = some s') :
    CodInv s' := by
  obtain ⟨cur, -, hb⟩ := update_ok hu
  refine h.billed hb ?_ ?_
  · refine Rows.forall_modify h.shipments fun r hr => ?_
    obtain ⟨-, ho, hcod, -⟩ := ShipmentsService.updated_cod now dto r
    rw [ho, hcod]
    exact hr
  · intro r hr hremitted
    refine ⟨if r.id = id then ShipmentsService.updated dto now r else r, List.mem_map_of_mem hr, ?_⟩
    by_cases hid : r.id = id
    · obtain ⟨-, ho, -, hstatus⟩ := ShipmentsService.updated_cod now dto r
      rw [if_pos hid, ho, hstatus, hremitted]
      exact ⟨rfl, hok r hr hid hremitted⟩
    · rw [if_neg hid]
      exact ⟨rfl, hremitted⟩

theorem synced {orderId : OrderId} {hint : SyncHint} (h : CodInv s)
    (hs : s.sync orderId hint now = some s') : CodInv s' := by
  obtain ⟨hsame, r, hsync⟩ := sync_ok hs
  have hcash : s'.books.cash = s.books.cash ∨ ∃ order ∈ s.orders,
      CashLedger.post s.books.cash (codEntry order now) = .ok s'.books.cash := by
    rcases syncIn_ok hsync with ⟨-, hb⟩ | ⟨order, ds, hl, hd⟩
    · exact .inl (by rw [hb]; rfl)
    cases hcod : (planOf s.shop.current order hint).codCashIn with
    | false => exact .inl (hd.noCash hcod)
    | true => exact .inr ⟨order, Rows.mem_of_lookup hl, hd.cashIn hcod⟩
  rcases hcash with hcash | ⟨order, ho, hpost⟩
  · refine h.posted hsame ?_ ?_
    · rw [hcash]
      exact h.positive
    · rw [hcash]
      exact h.booked
  · refine h.post hsame rfl hpost fun _ _ i hi => ?_
    obtain rfl : order.id = i := Option.some.inj hi
    exact List.mem_map_of_mem (f := fun o : Order => (o.id, round2 o.grandTotal)) ho

theorem reversed {id : EntryId} {reason : String} {group : ℕ} (h : CodInv s)
    (hr : s.reverse id reason group now = some s') : CodInv s' := by
  obtain ⟨hrev, hsame, -⟩ := CourierDesk.reverse_ok hr
  have hkept : (∀ e ∈ s'.books.cash.entries, 0 < e.amount) ∧
      ∀ e ∈ s'.books.cash.entries, e.isCodIn → ∀ i, e.orderId = some i →
        (i, e.amount) ∈ charges s.orders := by
    refine CashbookService.reverse_keeps (I := fun c => (∀ e ∈ c.entries, 0 < e.amount) ∧
      ∀ e ∈ c.entries, e.isCodIn → ∀ i, e.orderId = some i → (i, e.amount) ∈ charges s.orders)
      (fun d d' e leg _ _ _ he hpost hd => ?_) hrev ⟨h.positive, h.booked⟩
    obtain ⟨hpos, acc, hent⟩ := CashLedger.post_ok hpost
    constructor
    · intro x hx
      rw [hent, List.mem_append, List.mem_singleton] at hx
      rcases hx with hx | rfl
      · exact hd.1 x hx
      · exact hpos
    · intro x hx hcod i hi
      rw [hent, List.mem_append, List.mem_singleton] at hx
      rcases hx with hx | rfl
      · exact hd.2 x hx hcod i hi
      · simp [CashTransaction.isCodIn, PostEntry.row, he] at hcod
  exact h.posted hsame hkept.1 hkept.2

end CodInv

namespace CourierDesk

variable {s s' : CourierDesk} {dto : CodRemittanceDto} {group : ℕ} {now : Instant}

theorem codRemittance_ok (h : s.codRemittance dto group now = some s') :
    CashbookService.codRemittance s.shop.current dto group now = .ok s'.books ∧
      s'.orders = s.orders ∧ s'.settled = s.settled ++ (s.named dto).map (·.orderId) := by
  obtain ⟨b, hcall, rfl⟩ := Option.map_eq_some_iff.mp h
  exact ⟨Result.toOption_some.mp hcall, rfl, rfl⟩

/-- Without shipments it is one more entry, of no order. -/
theorem codRemittance_plain (hnil : dto.shipmentIds = [])
    (h : s.codRemittance dto group now = some s') : ∃ c e, c.entries = s.books.cash.entries ∧
      CashLedger.post c e = .ok s'.books.cash ∧ e.orderId = none ∧ SameRows s s' := by
  obtain ⟨hcall, horders, hsettled⟩ := codRemittance_ok h
  have hnamed : s.named dto = [] := by simp [named, hnil]
  obtain ⟨⟨c, dest⟩, hacc, hcall⟩ := Result.bind_ok.mp hcall
  simp only [if_pos hnil] at hcall
  obtain ⟨cash, hpost, hcall⟩ := Result.bind_ok.mp hcall
  have hbooks : s'.books = { s.shop.current with cash } := (Except.ok.inj hcall).symm
  have hcash : s'.books.cash = cash := by rw [hbooks]
  rw [← hcash] at hpost
  refine ⟨c, _, CashLedger.account_entries hacc, hpost, rfl, horders, ?_, ?_⟩
  · rw [hbooks]
    rfl
  · rw [hsettled, hnamed, List.map_nil, List.append_nil]

end CourierDesk

/-! ### One settlement of a run -/

section settlement

variable {s s' : CourierDesk} {dto : CodRemittanceDto} {group : ℕ} {now : Instant}
  {booked rest : List CashTransaction}

/-- The shipments named are settled, and the others stay as they are. -/
theorem remitted_rows (dto : CodRemittanceDto) (at_ : Instant) (r : Shipment) :
    (if r.id ∈ dto.shipmentIds then CashbookService.Shipment.remitted dto.occurredAt at_ r
      else r).orderId = r.orderId ∧
    (if r.id ∈ dto.shipmentIds then CashbookService.Shipment.remitted dto.occurredAt at_ r
      else r).codAmount = r.codAmount ∧
    (r.codStatus = .remitted ∨ r.id ∈ dto.shipmentIds →
      (if r.id ∈ dto.shipmentIds then CashbookService.Shipment.remitted dto.occurredAt at_ r
        else r).codStatus = .remitted) := by
  by_cases hr : r.id ∈ dto.shipmentIds
  · rw [if_pos hr]
    exact ⟨rfl, rfl, fun _ => rfl⟩
  · rw [if_neg hr]
    exact ⟨rfl, rfl, fun h => h.resolve_right hr⟩

/-- **A settlement of shipments of different unsettled orders keeps the invariant.** -/
theorem CodInv.settled (h : CodInv s)
    (hset : CashbookService.SettledCod s.shop.current dto (s.named dto) s'.books booked rest)
    (hok : CodAction.settlesApart s (.codRemittance dto group now))
    (hcall : s.codRemittance dto group now = some s') : CodInv s' := by
  obtain ⟨hbooks, horders, hsettled⟩ := CourierDesk.codRemittance_ok hcall
  obtain ⟨hapart, hfresh⟩ := hok
  obtain ⟨at_, hshipments⟩ := hset.shipments
  change s'.books.shipments = s.books.shipments.map _ at hshipments
  refine ⟨by rw [horders]; exact h.ids, by rw [horders]; exact h.unpaid, ?_, ?_, ?_, ?_, ?_⟩
  · intro r hr
    rw [hshipments] at hr
    obtain ⟨x, hx, rfl⟩ := List.mem_map.mp hr
    obtain ⟨ho, hcod, -⟩ := remitted_rows dto at_ x
    rw [ho, hcod, horders]
    exact h.shipments x hx
  · refine (CashbookService.codRemittance_keeps (I := fun c => ∀ e ∈ c.entries, 0 < e.amount)
      (fun _ _ he hc => he ▸ hc) (fun _ _ _ _ _ hpost hc x hx => ?_) hbooks h.positive).1
    obtain ⟨hpos, acc, hent⟩ := CashLedger.post_ok hpost
    rw [hent, List.mem_append, List.mem_singleton] at hx
    rcases hx with hx | rfl
    · exact hc x hx
    · exact hpos
  · intro e he hcod i hi
    rw [horders]
    rw [hset.entries, List.mem_append, List.mem_append] at he
    rcases he with hold | hnew | hrest
    · exact h.booked e hold hcod i hi
    · obtain ⟨r, hr, ho, hamount⟩ := hset.amounts e hnew
      obtain rfl : r.orderId = i := Option.some.inj (ho.symm.trans hi)
      have hmem := List.mem_of_mem_filter hr
      rw [hamount, round2_of_paisa (h.paisa r hmem)]
      exact (h.shipments r hmem).resolve_left (hset.remittable r hr).2.ne'
    · simp [CashTransaction.isCodIn, hset.other e hrest] at hcod
  · intro i hi
    rw [hshipments]
    have hof : ∃ r ∈ s.books.shipments, r.orderId = i ∧
        (r.codStatus = .remitted ∨ r.id ∈ dto.shipmentIds) := by
      rw [hsettled, List.mem_append] at hi
      rcases hi with hi | hi
      · obtain ⟨r, hr, ho, hstatus⟩ := h.remitted i hi
        exact ⟨r, hr, ho, .inl hstatus⟩
      · obtain ⟨r, hr, ho⟩ := List.mem_map.mp hi
        obtain ⟨hmem, hid⟩ := List.mem_filter.mp hr
        exact ⟨r, hmem, ho, .inr (of_decide_eq_true hid)⟩
    obtain ⟨r, hr, ho, hdone⟩ := hof
    obtain ⟨hsame, -, hstatus⟩ := remitted_rows dto at_ r
    exact ⟨_, List.mem_map_of_mem hr, hsame.trans ho, hstatus hdone⟩
  · rw [hsettled]
    refine List.nodup_append.mpr ⟨h.once, hapart, fun i hi j hj hij => ?_⟩
    obtain ⟨q, hq, ho, hstatus⟩ := h.remitted i hi
    obtain ⟨r, hr, rfl⟩ := List.mem_map.mp hj
    exact hfresh r hr q hq (ho.trans hij) hstatus

theorem CodInv.settles (h : CodInv s) (h' : CodInv s')
    (hset : CashbookService.SettledCod s.shop.current dto (s.named dto) s'.books booked rest)
    (hok : CodAction.settlesApart s (.codRemittance dto group now))
    (hcall : s.codRemittance dto group now = some s') : SettlesCod s dto s' := by
  obtain ⟨-, horders, -⟩ := CourierDesk.codRemittance_ok hcall
  refine ⟨?_, ?_, h'.once⟩
  · rw [settledBy, hok.1.dedup, List.map_map, due]
    refine List.sum_le_sum fun r hr => ?_
    obtain ⟨e, he, hcod, ho⟩ := hset.covers r hr
    have hcharge : (r.orderId, r.codAmount) ∈ charges s'.orders := by
      rw [horders]
      exact (h.shipments r (List.mem_of_mem_filter hr)).resolve_left (hset.remittable r hr).2.ne'
    have hamount : e.amount = r.codAmount :=
      charges_unique h'.nodup (h'.booked e he hcod _ ho) hcharge
    rw [← hamount]
    exact le_codBookedFor h'.positive he hcod ho
  · have hwritten : s.written s' = booked ++ rest := by
      rw [written, hset.entries]
      exact List.drop_left
    rw [hwritten, List.map_append, List.sum_append, signed_codBooked hset.codIn, hset.moved,
      codBooked_append, codBooked_none hset.other, add_zero]
    exact (sub_eq_add_neg _ _).symm

end settlement

/-! ### Every run -/

/-- A desk that nothing was sold, shipped or settled at yet. -/
structure CourierDesk.Unused (s : CourierDesk) : Prop where
  shop : s.shop.New
  shipments : s.books.shipments = []
  settled : s.settled = []

section runs

variable {s s' : CourierDesk}

theorem CourierDesk.Unused.codInv (h : s.Unused) : CodInv s := by
  have horders : s.orders = [] := h.shop.orders
  have hentries : s.books.cash.entries = [] := h.shop.books.entries
  refine ⟨by simp [horders], by simp [horders], by simp [h.shipments], by simp [hentries],
    by simp [hentries], by simp [h.settled], by simp [h.settled]⟩

theorem codStep_inv {a : CodAction} (h : CodInv s) (hok : a.settlesApart s)
    (hstep : codStep s a = some s') : CodInv s' := by
  cases a with
  | place req now =>
      obtain ⟨o, hp⟩ := place_ok hstep
      exact h.placed hp
  | change orderId c =>
      obtain ⟨⟨s₁, hint⟩, hc, rfl⟩ := Option.map_eq_some_iff.mp hstep
      obtain ⟨o, row, hchanged⟩ := change_ok hc
      exact h.changed hchanged
  | assign dto now => exact h.assigned hstep
  | update id dto now => exact h.updated hok hstep
  | sync orderId hint now => exact h.synced hstep
  | courierPayment dto now =>
      obtain ⟨order, e, -, -, -, he, hpost, hsame, -⟩ := courierPayment_ok hstep
      exact h.post hsame rfl hpost fun hk => by rw [he.kind] at hk; cases hk
  | reverse id reason group now => exact h.reversed hstep
  | codRemittance dto group now =>
      by_cases hnil : dto.shipmentIds = []
      · obtain ⟨c, e, hc, hpost, ho, hsame⟩ := codRemittance_plain hnil hstep
        exact h.post hsame hc hpost fun _ _ i hi => by rw [ho] at hi; cases hi
      · obtain ⟨hbooks, -, -⟩ := CourierDesk.codRemittance_ok hstep
        obtain ⟨booked, rest, hset⟩ := CashbookService.codRemittance_ok (b := s.shop.current) h.paisa hnil hbooks
        exact h.settled hset hok hstep
  | post e =>
      simp only [codStep] at hstep
      split at hstep
      · rename_i hflow
        obtain ⟨cash, hpost, rfl⟩ := Option.map_eq_some_iff.mp hstep
        simp only [BooksAction.otherFlow, Bool.and_eq_true, decide_eq_true_eq] at hflow
        exact h.post ⟨rfl, rfl, rfl⟩ rfl (Result.toOption_some.mp hpost) fun hk => absurd hk hflow.1
      · cases hstep
  | settings couriers zones =>
      obtain rfl := Option.some.inj hstep
      exact h.posted ⟨rfl, rfl, rfl⟩ h.positive h.booked

end runs

/-- **A settlement moves no money that was not collected**, in every run in which each
settlement names shipments of different orders that have none remitted. -/
theorem settlement_covered (s t u : CourierDesk) (as : List CodAction) (dto : CodRemittanceDto)
    (group : ℕ) (now : Instant) (hs : s.Unused) (hrun : Machine.runFrom codStep s as = some t)
    (hguard : Machine.GuardedRun codStep CodAction.settlesApart s as)
    (hok : CodAction.settlesApart t (.codRemittance dto group now)) (hne : dto.shipmentIds ≠ [])
    (hcall : codStep t (.codRemittance dto group now) = some u) : SettlesCod t dto u := by
  have ht : CodInv t := Machine.guarded_invariant
    (fun _ _ _ hi ha hstep => codStep_inv hi ha hstep) as s t hs.codInv hguard hrun
  obtain ⟨hbooks, -, -⟩ := CourierDesk.codRemittance_ok hcall
  obtain ⟨booked, rest, hset⟩ := CashbookService.codRemittance_ok (b := t.shop.current) ht.paisa hne hbooks
  exact ht.settles (ht.settled hset hok hcall) hset hok hcall

/-! ### An order whose courier was changed -/

instance (s : CourierDesk) : ∀ a : CodAction, Decidable (a.settlesApart s) := by
  intro a
  unfold CodAction.settlesApart
  split
  · infer_instance
  · infer_instance
  · infer_instance

/-- A desk with two couriers, one zone, a till and a bank account. -/
def codDesk : CourierDesk where
  shop :=
    { store := { products := [{ id := 1, title := "পথের পাঁচালী", price := 500, stockOnHand := 3 }] },
      books := { cash := { accounts := [{ id := 0, code := "cash", name := "ক্যাশ" },
                                        { id := 1, code := "bank", name := "ব্যাংক" }] } } }
  couriers := [{ id := 0, code := "pathao", name := "Pathao" },
               { id := 1, code := "steadfast", name := "Steadfast" }]
  zones := [{ id := 1, code := "dhaka", nameBn := "ঢাকা", fee := 60, courierCost := 50,
              nonneg := by decide +kernel, places := by decide +kernel }]

/-- A book of 500 and its delivery, to be paid at the door. -/
def codOrder : ZonedOrder where
  phone := some "+8801700000000"
  lines := [.product { id := 1, unitPrice := 500, listPrice := 500, unitCost := some 300 } 1]
  zone := { id := 1, code := "dhaka", nameBn := "ঢাকা", fee := 60, courierCost := 50 }
  paymentMethod := .cod
  prices := by decide +kernel
  zoneCost := by decide +kernel

/-- The order goes out with a courier, and before it does, with another one. -/
def courierChanged : List CodAction :=
  [.place codOrder 0, .change 0 (.transition { toStatus := .confirmed } .staff 1),
   .assign { orderId := 0, courier := .code "pathao" } 2,
   .assign { orderId := 0, courier := .code "steadfast" } 3]

/-- The courier hands over what it collected less its charge. -/
def handedOver (shipmentIds : List ℕ) (amount : Money) : CodRemittanceDto :=
  { accountId := 1, amount, shipmentIds, occurredAt := 9 }

theorem codDesk_unused : codDesk.Unused := ⟨⟨rfl, rfl, rfl⟩, rfl, rfl⟩

/-- The shipment that is on its way is settled alone. -/
theorem settlement_covered_courierChanged : ∃ t u,
    Machine.runFrom codStep codDesk courierChanged = some t ∧
    codStep t (.codRemittance (handedOver [1] 500) 0 9) = some u ∧ t.due (handedOver [1] 500) = 560 ∧
    SettlesCod t (handedOver [1] 500) u := by
  have hruns : (Machine.runFrom codStep codDesk courierChanged).any (fun t =>
      decide (CodAction.settlesApart t (.codRemittance (handedOver [1] 500) 0 9)) &&
        t.due (handedOver [1] 500) = 560 &&
          (codStep t (.codRemittance (handedOver [1] 500) 0 9)).isSome) = true := by
    decide +kernel
  have hguard : Machine.GuardedRun codStep CodAction.settlesApart codDesk courierChanged := by
    decide +kernel
  obtain ⟨t, ht, hok⟩ := (Option.any_eq_true _ _).mp hruns
  simp only [Bool.and_eq_true, decide_eq_true_eq] at hok
  obtain ⟨⟨hapart, hdue⟩, hsome⟩ := hok
  obtain ⟨u, hu⟩ := Option.isSome_iff_exists.mp hsome
  exact ⟨t, u, ht, hu, hdue, settlement_covered codDesk t u courierChanged (handedOver [1] 500) 0 9
    codDesk_unused ht hguard hapart (by decide) hu⟩

/-- Settled with the shipment it replaced, the order's COD of 560 is moved out twice; settled
one after the other, it is settled twice. -/
theorem replaced_shipment_settled : codDesk.Unused ∧
    (∃ t u, Machine.runFrom codStep codDesk courierChanged = some t ∧
      codStep t (.codRemittance (handedOver [0, 1] 1120) 0 9) = some u ∧
      t.due (handedOver [0, 1] 1120) = 1120 ∧ codBookedFor u.books.cash.entries 0 = 560 ∧
      ¬ SettlesCod t (handedOver [0, 1] 1120) u) ∧
    ∃ t u, Machine.runFrom codStep codDesk
        (courierChanged ++ [.codRemittance (handedOver [0] 560) 0 9]) = some t ∧
      codStep t (.codRemittance (handedOver [1] 560) 1 10) = some u ∧
      ¬ SettlesCod t (handedOver [1] 560) u := by
  have htogether : (Machine.runFrom codStep codDesk courierChanged).any (fun t =>
      (codStep t (.codRemittance (handedOver [0, 1] 1120) 0 9)).any fun u =>
        t.due (handedOver [0, 1] 1120) = 1120 && codBookedFor u.books.cash.entries 0 = 560 &&
          decide (¬ t.due (handedOver [0, 1] 1120) ≤ ((t.settledBy (handedOver [0, 1] 1120)).map
            (codBookedFor u.books.cash.entries)).sum)) = true := by
    decide +kernel
  have hapart : (Machine.runFrom codStep codDesk
      (courierChanged ++ [.codRemittance (handedOver [0] 560) 0 9])).any (fun t =>
        (codStep t (.codRemittance (handedOver [1] 560) 1 10)).any fun u =>
          decide (¬ u.settled.Nodup)) = true := by
    decide +kernel
  refine ⟨codDesk_unused, ?_, ?_⟩
  · obtain ⟨t, ht, hany⟩ := (Option.any_eq_true _ _).mp htogether
    obtain ⟨u, hu, hvalues⟩ := (Option.any_eq_true _ _).mp hany
    simp only [Bool.and_eq_true, decide_eq_true_eq] at hvalues
    exact ⟨t, u, ht, hu, hvalues.1.1, hvalues.1.2, fun h => hvalues.2 h.covered⟩
  · obtain ⟨t, ht, hany⟩ := (Option.any_eq_true _ _).mp hapart
    obtain ⟨u, hu, htwice⟩ := (Option.any_eq_true _ _).mp hany
    exact ⟨t, u, ht, hu, fun h => of_decide_eq_true htwice h.once⟩

end BookHouse
