/-
The two ways of keeping a customer's CRM numbers.

What the increments leave is a sum over the customer's orders: an order counts as live while
it is open and its total is spent until it is voided.  What the recompute writes is another
sum: an order counts and is spent from its confirmation on, a delivered one included.  The
two differ by the customer's pending and delivered orders, and by nothing else.
-/
import BookHouse.Customers.Aggregates
import BookHouse.Proofs.Frame
import BookHouse.Proofs.Quote

namespace BookHouse

open Machine
open Rounding

/-- The four CRM numbers: orders, live orders, cancelled orders, money spent. -/
abbrev CrmNumbers := ℤ × ℤ × ℤ × Money

def Customer.numbers (c : Customer) : CrmNumbers :=
  (c.ordersCount, c.liveOrders, c.cancelledOrders, c.totalSpent)

def CustomerAggregates.numbers (agg : CustomerAggregates) : CrmNumbers :=
  (agg.ordersCount, agg.liveOrders, agg.cancelledOrders, agg.totalSpent)

/-- What the increments have a customer's order count for. -/
def Order.counted (o : Order) : CrmNumbers :=
  (1, if o.status.isOpen then 1 else 0, if o.status.isTerminal then 1 else 0,
    if o.status.isTerminal then 0 else o.grandTotal)

/-- What a recompute has it count for. -/
def Order.aggregated (o : Order) : CrmNumbers :=
  (1, if o.status.isLiveStatus then 1 else 0, if o.status.isTerminal then 1 else 0,
    if o.status.isLiveStatus then o.grandTotal else 0)

namespace Store

/-- A sum over a customer's orders. -/
def sumOf {M : Type} [AddCommGroup M] (s : Store) (k : CustomerId) (g : Order → M) : M :=
  (s.orders.map fun o => if o.customerId = k then g o else 0).sum

/-- The orders of a customer in a status. -/
def inStatus (s : Store) (k : CustomerId) (status : OrderStatus) : List Order :=
  s.orders.filter fun o => o.customerId = k && o.status = status

end Store

/-- As many pending orders as delivered ones, and nothing to pay for the pending ones. -/
def Balanced (s : Store) (k : CustomerId) : Prop :=
  (s.inStatus k .pending).length = (s.inStatus k .delivered).length ∧
    ((s.inStatus k .pending).map (·.grandTotal)).sum = 0

instance (s : Store) (k : CustomerId) : Decidable (Balanced s k) :=
  inferInstanceAs (Decidable (_ ∧ _))

/-- A recompute comes when its customer is balanced. -/
def RecomputesBalanced (s : Store) : CrmAction → Prop
  | .call _ => True
  | .recompute k => Balanced s k

instance (s : Store) : ∀ a, Decidable (RecomputesBalanced s a)
  | .call _ => isTrue trivial
  | .recompute k => inferInstanceAs (Decidable (Balanced s k))

/-! ### The sums -/

section sums

variable {M : Type} [AddCommGroup M] {s t : Store} {k : CustomerId} {o : Order} {g h : Order → M}

theorem sumOf_append (ho : t.orders = s.orders ++ [o]) :
    t.sumOf k g = s.sumOf k g + if o.customerId = k then g o else 0 := by
  simp [Store.sumOf, ho]

theorem sumOf_modify {f : Order → Order} (hs : s.Numbered)
    (hl : Rows.lookup Order.id o.id s.orders = some o) (hf : (f o).customerId = o.customerId)
    (ho : t.orders = Rows.modify Order.id o.id f s.orders) :
    t.sumOf k g = s.sumOf k g + if o.customerId = k then g (f o) - g o else 0 := by
  unfold Store.sumOf
  rw [ho, Rows.sum_modify hs.nodup hl, hf]
  by_cases hk : o.customerId = k
  · simp only [hk, if_true]
    abel
  · simp [hk]

theorem sumOf_sub : s.sumOf k (fun o => g o - h o) = s.sumOf k g - s.sumOf k h := by
  unfold Store.sumOf
  induction s.orders with
  | nil => simp
  | cons o rest ih =>
      simp only [List.map_cons, List.sum_cons, ih]
      by_cases hk : o.customerId = k
      · simp only [hk, if_true]
        abel
      · simp [hk]

theorem sumOf_map {N : Type} [AddCommGroup N] (φ : M →+ N) :
    φ (s.sumOf k g) = s.sumOf k fun o => φ (g o) := by
  unfold Store.sumOf
  rw [map_list_sum, List.map_map]
  refine congrArg List.sum (List.map_congr_left fun o _ => ?_)
  show φ (if o.customerId = k then g o else 0) = _
  rw [apply_ite φ, map_zero]

theorem sumOf_mk (s : Store) (k : CustomerId) (a b c : Order → ℤ) (d : Order → Money) :
    s.sumOf k (fun o => (a o, b o, c o, d o)) =
      (s.sumOf k a, s.sumOf k b, s.sumOf k c, s.sumOf k d) := by
  unfold Store.sumOf
  induction s.orders with
  | nil => rfl
  | cons o rest ih =>
      simp only [List.map_cons, List.sum_cons, ih]
      by_cases hk : o.customerId = k
      · simp [hk]
      · simp [hk]

theorem sumOf_inStatus (s : Store) (k : CustomerId) (status : OrderStatus) (g : Order → M) :
    ((s.inStatus k status).map g).sum = s.sumOf k fun o => if o.status = status then g o else 0 := by
  unfold Store.sumOf Store.inStatus
  induction s.orders with
  | nil => rfl
  | cons o rest ih =>
      rw [List.filter_cons, List.map_cons, List.sum_cons, ← ih]
      by_cases hk : o.customerId = k
      · by_cases hst : o.status = status
        · simp [hk, hst]
        · simp [hk, hst]
      · simp [hk]

theorem one_le_sumOf {s : Store} {k : CustomerId} {o : Order} {g : Order → ℤ}
    (hg : ∀ x, 0 ≤ g x) (ho : o ∈ s.orders) (hk : o.customerId = k) (h1 : g o = 1) :
    1 ≤ s.sumOf k g := by
  have hmem : g o ∈ s.orders.map fun o => if o.customerId = k then g o else 0 :=
    List.mem_map.mpr ⟨o, ho, if_pos hk⟩
  rw [← h1]
  refine List.single_le_sum (fun x hx => ?_) _ hmem
  obtain ⟨y, -, rfl⟩ := List.mem_map.mp hx
  split
  · exact hg y
  · exact le_refl 0

end sums

/-! ### What a call adds to the numbers of its customer -/

/-- What a transition adds: nothing, one live order less, or one order that went bad. -/
def TransitionPlan.numbers (plan : TransitionPlan) (grandTotal : Money) : CrmNumbers :=
  (0, if plan.closes then -1 else 0, if plan.voids then 1 else 0,
    if plan.voids then -grandTotal else 0)

theorem numbers_afterPlacement (grandTotal : Money) (now : Instant) (c : Customer) :
    (c.afterPlacement grandTotal now).numbers = c.numbers + (1, 1, 0, grandTotal) := by
  simp [Customer.numbers, Customer.afterPlacement]

theorem numbers_afterTransition {plan : TransitionPlan} {grandTotal : Money} {c : Customer}
    (hlive : plan.closes = true → 1 ≤ c.liveOrders) :
    (c.afterTransition plan grandTotal).numbers = c.numbers + plan.numbers grandTotal := by
  have hclamp : (if plan.closes then max (c.liveOrders - 1) 0 else c.liveOrders) =
      c.liveOrders + if plan.closes then -1 else 0 := by
    split
    · have hone := hlive ‹_›
      omega
    · omega
  refine Prod.ext (add_zero c.ordersCount).symm (Prod.ext hclamp (Prod.ext ?_ ?_))
  · show (if plan.voids then c.cancelledOrders + 1 else c.cancelledOrders) =
      c.cancelledOrders + if plan.voids then 1 else 0
    split
    · rfl
    · omega
  · show (if plan.voids then c.totalSpent - grandTotal else c.totalSpent) =
      c.totalSpent + if plan.voids then -grandTotal else 0
    split
    · ring
    · ring

theorem numbers_afterReopen {grandTotal : Money} {c : Customer} (hbad : 1 ≤ c.cancelledOrders) :
    (c.afterReopen grandTotal).numbers = c.numbers + (0, 1, -1, grandTotal) := by
  have hclamp : max (c.cancelledOrders - 1) 0 = c.cancelledOrders + -1 := by omega
  exact Prod.ext (add_zero c.ordersCount).symm (Prod.ext rfl (Prod.ext hclamp rfl))

section deltas

variable {o : Order} {req : TransitionRequest} {plan : TransitionPlan}

/-- A forward move starts in an open status, and leaves the open ones by a delivery. -/
theorem isOpen_of_forward {status target : OrderStatus} (hopen : status.isTerminal = false)
    (hne : status ≠ target) (hflow : target.isTerminal = false)
    (hfwd : status.rank ≤ target.rank) :
    status.isOpen = true ∧ target.isOpen = decide (target ≠ .delivered) := by
  constructor
  · cases status <;> cases target <;>
      first | rfl | exact absurd rfl hne | exact absurd hopen (by decide) |
        exact absurd hflow (by decide) | exact absurd hfwd (by decide)
  · cases target <;> first | rfl | exact absurd hflow (by decide)

/-- A transition changes what its order counts for by what its plan says. -/
theorem counted_transitioned (hp : planTransition o req = .ok plan) (note : Option String)
    (now : Instant) :
    (o.transitioned plan note now).counted - o.counted = plan.numbers o.grandTotal := by
  obtain ⟨hopen, hne, hcase⟩ := planTransition_cases hp
  have hcounted : (o.transitioned plan note now).counted - o.counted =
      (0, (if plan.toStatus.isOpen then 1 else 0) - (if o.status.isOpen then 1 else 0),
        if plan.toStatus.isTerminal then 1 else 0,
        if plan.toStatus.isTerminal then -o.grandTotal else 0) := by
    have hterm : (o.transitioned plan note now).status = plan.toStatus := rfl
    have htotal : (o.transitioned plan note now).grandTotal = o.grandTotal := rfl
    simp only [Order.counted, hterm, htotal, hopen, Prod.mk_sub_mk]
    by_cases h : plan.toStatus.isTerminal = true
    · simp [h]
    · simp [h]
  rw [hcounted]
  cases hcase with
  | regress mode actor target eq =>
      have hstatus : o.status = .processing ∧ req.toStatus = .confirmed := by
        unfold OrderStatus.regressTarget at target
        split at target
        · exact ⟨‹_›, (Option.some.inj target).symm⟩
        · cases target
      rw [eq]
      simp only [TransitionPlan.numbers, hstatus.1, hstatus.2]
      rfl
  | void terminal eq granted =>
      have hshut : req.toStatus.isOpen = false := by
        cases hto : req.toStatus <;> first | rfl | (rw [hto] at terminal; cases terminal)
      rw [eq]
      simp only [TransitionPlan.numbers, voidPlan, terminal, hshut]
      by_cases h : o.status.isOpen = true
      · simp [h]
      · simp [h]
  | advance flow forward actor paid eq =>
      obtain ⟨hstart, hend⟩ := isOpen_of_forward hopen hne flow forward
      rw [eq]
      simp only [TransitionPlan.numbers, planAdvance, flow, hstart, hend]
      by_cases h : req.toStatus = .delivered
      · simp [h]
      · simp [h]

theorem closes_isOpen (hp : planTransition o req = .ok plan) (hcloses : plan.closes = true) :
    o.status.isOpen = true := by
  obtain ⟨hopen, hne, hcase⟩ := planTransition_cases hp
  cases hcase with
  | regress mode actor target eq =>
      rw [eq] at hcloses
      cases hcloses
  | void terminal eq granted =>
      rw [eq] at hcloses
      exact hcloses
  | advance flow forward actor paid eq => exact (isOpen_of_forward hopen hne flow forward).1

theorem counted_reopened (hclosed : o.status.isTerminal = true) (target : ReopenTarget)
    (now : Instant) : (o.reopened target now).counted - o.counted = (0, 1, -1, o.grandTotal) := by
  have hshut : o.status.isOpen = false := by
    cases hs : o.status <;> first | rfl | (rw [hs] at hclosed; cases hclosed)
  have hstatus : target.status.isOpen = true ∧ target.status.isTerminal = false := by
    cases target with
    | pending => exact ⟨rfl, rfl⟩
    | confirmed => exact ⟨rfl, rfl⟩
  have hrow : (o.reopened target now).status = target.status := rfl
  have htotal : (o.reopened target now).grandTotal = o.grandTotal := rfl
  simp [Order.counted, hrow, htotal, hclosed, hshut, hstatus.1, hstatus.2]

end deltas

/-! ### The invariant -/

/-- Customers are numbered by their places and their numbers are what their orders count for. -/
structure CounterInv (s : Store) : Prop where
  numbered : s.Numbered
  customerIds : s.customers.map Customer.id = List.range s.customers.length
  placed : ∀ o ∈ s.orders, o.customerId < s.customers.length
  paisa : ∀ o ∈ s.orders, Paisa o.grandTotal
  counted : ∀ c ∈ s.customers, c.numbers = s.sumOf c.id Order.counted

section invariant

variable {s t : Store}

/-- A customer's numbers move with what their orders count for. -/
theorem CounterInv.move (hs : CounterInv s) {k : CustomerId} {f : Customer → Customer}
    {δ : CrmNumbers} (hnum : ∀ c ∈ s.customers, c.id = k → (f c).numbers = c.numbers + δ)
    (hf : ∀ c, (f c).id = c.id) (hcs : t.customers = Rows.modify Customer.id k f s.customers)
    (hsum : ∀ j, t.sumOf j Order.counted =
      s.sumOf j Order.counted + if k = j then δ else 0)
    (hnumbered : t.Numbered) (hplaced : ∀ o ∈ t.orders, o.customerId < s.customers.length)
    (hpaisa : ∀ o ∈ t.orders, Paisa o.grandTotal) : CounterInv t := by
  have hlength : t.customers.length = s.customers.length := by
    rw [hcs, Rows.modify, List.length_map]
  refine ⟨hnumbered, ?_, fun o ho => hlength ▸ hplaced o ho, hpaisa, fun c' hc' => ?_⟩
  · rw [hlength, hcs, Rows.map_modify hf, hs.customerIds]
  · rw [hcs] at hc'
    obtain ⟨c, hc, rfl⟩ := List.mem_map.mp hc'
    by_cases hk : c.id = k
    · rw [if_pos hk, hf, hsum, if_pos hk.symm, hnum c hc hk, hs.counted c hc]
    · rw [if_neg hk, hsum, if_neg fun h => hk h.symm, hs.counted c hc, add_zero]

/-- Finding or making the customer of a placement counts nothing. -/
theorem CounterInv.upsertCustomer (hs : CounterInv s) (req : PlaceOrder) (phone : String) :
    CounterInv (upsertCustomer s req phone).1 ∧
      (upsertCustomer s req phone).2.id < (upsertCustomer s req phone).1.customers.length := by
  have hlt : ∀ c ∈ s.customers, c.id < s.customers.length := fun c hc =>
    List.mem_range.mp (hs.customerIds ▸ List.mem_map_of_mem hc)
  -- a row that is there already is given other words
  have hupdate : ∀ c ∈ s.customers, ∀ f : Customer → Customer, (∀ c, (f c).id = c.id) →
      (∀ c, (f c).numbers = c.numbers) →
      CounterInv { s with customers := Rows.modify Customer.id c.id f s.customers } ∧
        (f c).id < (Rows.modify Customer.id c.id f s.customers).length := by
    intro c hc f hid hnum
    refine ⟨hs.move (k := c.id) (f := f) (δ := 0) (fun x _ _ => ?_) hid rfl (fun j => ?_)
      hs.numbered hs.placed hs.paisa, ?_⟩
    · rw [hnum, add_zero]
    · rw [ite_self, add_zero]
      rfl
    · rw [hid, Rows.modify, List.length_map]
      exact hlt c hc
  unfold BookHouse.upsertCustomer
  dsimp only
  split
  · rename_i c hmine
    obtain ⟨id, -, hid⟩ := Option.bind_eq_some_iff.mp hmine
    have hc := Rows.mem_of_lookup (Option.filter_eq_some_iff.mp hid).1
    exact hupdate c hc _ (fun _ => rfl) fun _ => rfl
  · split
    · rename_i c hphone
      exact hupdate c (Rows.mem_of_lookup hphone) _ (fun _ => rfl) fun _ => rfl
    · refine ⟨⟨hs.numbered, ?_, fun o ho => ?_, hs.paisa, fun c hc => ?_⟩, ?_⟩
      · simp [hs.customerIds, List.range_succ]
      · have hold := hs.placed o ho
        rw [List.length_append]
        exact Nat.lt_of_lt_of_le hold (Nat.le_add_right _ _)
      · rcases List.mem_append.mp hc with hold | hnew
        · exact hs.counted c hold
        · rw [List.mem_singleton.mp hnew]
          -- nobody has ordered under a number that was not given yet
          refine (List.sum_eq_zero fun x hx => ?_).symm
          obtain ⟨o, ho, rfl⟩ := List.mem_map.mp hx
          have hplaced := hs.placed o ho
          exact if_neg (Nat.ne_of_lt hplaced)
      · simp

/-- The orders of a customer stay theirs, and cost what they cost. -/
theorem orders_modify_facts {order : Order} {f : Order → Order}
    (ho : t.orders = Rows.modify Order.id order.id f s.orders) (hs : CounterInv s)
    (hc : ∀ o, (f o).customerId = o.customerId) (hg : ∀ o, (f o).grandTotal = o.grandTotal) :
    (∀ o ∈ t.orders, o.customerId < s.customers.length) ∧ ∀ o ∈ t.orders, Paisa o.grandTotal := by
  rw [ho]
  exact ⟨Rows.forall_modify hs.placed fun o h => (hc o).symm ▸ h,
    Rows.forall_modify hs.paisa fun o h => (hg o).symm ▸ h⟩

theorem pricedAt_paisa (s : Store) (req : PlaceOrder) (phone : String) (now : Instant) :
    Paisa (pricedAt s req phone now).quote.grandTotal := by
  unfold pricedAt priceOrder
  dsimp only
  split
  · exact calculateQuote_paisa _
  · exact calculateQuote_paisa _

theorem customers_deskTransition (s : Store) (order : Order) (plan : TransitionPlan)
    (note : Option String) (now : Instant) :
    (deskTransition s order plan note now).customers = Rows.modify Customer.id order.customerId
      (Customer.afterTransition plan order.grandTotal) s.customers := by
  unfold deskTransition bookTransition
  dsimp only
  split
  · rw [customers_revoke]
  · rfl

theorem customers_deskReopen (s : Store) (order : Order) (target : ReopenTarget) (now : Instant) :
    (deskReopen s order target now).customers = Rows.modify Customer.id order.customerId
      (Customer.afterReopen order.grandTotal) s.customers := by
  unfold deskReopen bookReopen
  dsimp only
  rw [customers_restore]

/-- A live order is among those its customer's row counts. -/
theorem CounterInv.one_le_live (hs : CounterInv s) {o : Order} {c : Customer} (ho : o ∈ s.orders)
    (hc : c ∈ s.customers) (hk : c.id = o.customerId) (hopen : o.status.isOpen = true) :
    1 ≤ c.liveOrders := by
  let live : CrmNumbers →+ ℤ := (AddMonoidHom.fst _ _).comp (AddMonoidHom.snd _ _)
  have hcount : c.liveOrders = s.sumOf c.id fun o => live o.counted := by
    rw [← sumOf_map live, ← hs.counted c hc]
    rfl
  rw [hcount]
  refine one_le_sumOf (fun x => ?_) ho hk.symm (if_pos hopen)
  show 0 ≤ if x.status.isOpen then (1 : ℤ) else 0
  split
  · decide
  · decide

theorem CounterInv.one_le_cancelled (hs : CounterInv s) {o : Order} {c : Customer}
    (ho : o ∈ s.orders) (hc : c ∈ s.customers) (hk : c.id = o.customerId)
    (hclosed : o.status.isTerminal = true) : 1 ≤ c.cancelledOrders := by
  let bad : CrmNumbers →+ ℤ :=
    (AddMonoidHom.fst _ _).comp ((AddMonoidHom.snd _ _).comp (AddMonoidHom.snd _ _))
  have hcount : c.cancelledOrders = s.sumOf c.id fun o => bad o.counted := by
    rw [← sumOf_map bad, ← hs.counted c hc]
    rfl
  rw [hcount]
  refine one_le_sumOf (fun x => ?_) ho hk.symm (if_pos hclosed)
  show 0 ≤ if x.status.isTerminal then (1 : ℤ) else 0
  split
  · decide
  · decide

theorem DeskStep.counterInv {a : StockAction} (hs : CounterInv s) (h : DeskStep s a t) :
    CounterInv t := by
  have hnumbered := h.numbered hs.numbered
  cases h with
  | shelf quiet => exact hs
  | placed granted row sound redeemed =>
      rename_i req now phone o u
      obtain ⟨hs', hlt⟩ := hs.upsertCustomer req phone
      have horders : u.orders = s.orders ++ [o] := orders_redeemCoupon redeemed
      have hcustomers := customers_redeemCoupon redeemed
      have hsame := orders_upsertCustomer s req phone
      obtain ⟨orderNo, rfl⟩ := row
      refine hs'.move (k := (upsertCustomer s req phone).2.id) (δ := (1, 1, 0, _))
        (fun c _ _ => numbers_afterPlacement _ now c) (fun _ => rfl)
        (congrArg (Rows.modify Customer.id _ _) hcustomers) (fun j => ?_) hnumbered ?_ ?_
      · rw [sumOf_append (s := (upsertCustomer s req phone).1) (hsame ▸ horders)]
        rfl
      · intro x hx
        rcases List.mem_append.mp (horders ▸ hx : x ∈ s.orders ++ [_]) with hold | hnew
        · exact hs'.placed x (hsame ▸ hold)
        · rw [List.mem_singleton.mp hnew]
          exact hlt
      · intro x hx
        rcases List.mem_append.mp (horders ▸ hx : x ∈ s.orders ++ [_]) with hold | hnew
        · exact hs.paisa x hold
        · rw [List.mem_singleton.mp hnew]
          exact pricedAt_paisa s req phone now
  | transitioned by_ plain found granted sound =>
      rename_i ref cmd actor now order plan
      obtain rfl := Rows.key_of_lookup found
      have horders := orders_deskTransition s order plan cmd.note now
      obtain ⟨hplaced, hpaisa⟩ := orders_modify_facts horders hs (fun _ => rfl) fun _ => rfl
      refine hs.move (k := order.customerId) (δ := plan.numbers order.grandTotal)
        (f := Customer.afterTransition plan order.grandTotal) (fun c hc hk => ?_) (fun _ => rfl) ?_
        (fun j => ?_) hnumbered hplaced hpaisa
      · refine numbers_afterTransition fun hcloses => ?_
        exact hs.one_le_live (Rows.mem_of_lookup found) hc hk (closes_isOpen granted hcloses)
      · exact customers_deskTransition s order plan cmd.note now
      · rw [sumOf_modify hs.numbered found rfl horders, counted_transitioned granted]
  | reopened found granted sound =>
      rename_i ref cmd actor now order plan
      obtain rfl := Rows.key_of_lookup found
      have horders := orders_deskReopen s order plan.toStatus now
      obtain ⟨hplaced, hpaisa⟩ := orders_modify_facts horders hs (fun _ => rfl) fun _ => rfl
      refine hs.move (k := order.customerId) (δ := (0, 1, -1, order.grandTotal))
        (f := Customer.afterReopen order.grandTotal) (fun c hc hk => ?_) (fun _ => rfl) ?_
        (fun j => ?_) hnumbered hplaced hpaisa
      · exact numbers_afterReopen
          (hs.one_le_cancelled (Rows.mem_of_lookup found) hc hk (planReopen_ok granted).2.1)
      · exact customers_deskReopen s order plan.toStatus now
      · rw [sumOf_modify hs.numbered found rfl horders,
          counted_reopened (planReopen_ok granted).2.1]

theorem counterInv_desk : CounterInv s.desk ↔ CounterInv s := by
  have hlength : s.desk.orders.length = s.orders.length := by simp [Store.desk]
  have hids : s.desk.orders.map Order.id = s.orders.map Order.id := by
    simp only [Store.desk, List.map_map]
    rfl
  have hsum : ∀ k, s.desk.sumOf k Order.counted = s.sumOf k Order.counted := by
    intro k
    simp only [Store.sumOf, Store.desk, List.map_map]
    rfl
  have hnumbered : s.desk.Numbered ↔ s.Numbered := by
    rw [Store.Numbered, Store.Numbered, hids, hlength]
  have hhead : ∀ {o}, o ∈ s.orders → o.head ∈ s.desk.orders := fun ho => List.mem_map_of_mem ho
  constructor
  · intro h
    exact ⟨hnumbered.mp h.numbered, h.customerIds, fun o ho => h.placed o.head (hhead ho),
      fun o ho => h.paisa o.head (hhead ho), fun c hc => hsum c.id ▸ h.counted c hc⟩
  · intro h
    refine ⟨hnumbered.mpr h.numbered, h.customerIds, fun o ho => ?_, fun o ho => ?_,
      fun c hc => (hsum c.id).symm ▸ h.counted c hc⟩
    · obtain ⟨x, hx, rfl⟩ := List.mem_map.mp ho
      exact h.placed x hx
    · obtain ⟨x, hx, rfl⟩ := List.mem_map.mp ho
      exact h.paisa x hx

theorem stockStep_counterInv {clamp : ℤ → ℤ} {a : StockAction} (hs : CounterInv s)
    (h : stockStep clamp s a = some t) : CounterInv t :=
  counterInv_desk.mp ((stockStep_desk h).counterInv (counterInv_desk.mpr hs))

end invariant

/-! ### What a recompute writes -/

/-- What one round of the recompute's loop adds. -/
def OrderFact.numbers (o : OrderFact) : CrmNumbers :=
  (0, if o.status.isLiveStatus then 1 else 0, if o.status.isTerminal then 1 else 0,
    if o.status.isLiveStatus then o.grandTotal else 0)

theorem numbers_add (agg : CustomerAggregates) (o : OrderFact) :
    (agg.add o).numbers = agg.numbers + o.numbers := by
  have hstatus : o.status.isCancelledStatus = o.status.isTerminal := by
    cases o.status <;> rfl
  by_cases hlive : o.status.isLiveStatus = true
  · have hflow : o.status.isTerminal = false := by
      cases hs : o.status <;> first | rfl | (rw [hs] at hlive; cases hlive)
    simp [CustomerAggregates.numbers, CustomerAggregates.add, OrderFact.numbers, hlive, hflow]
  · by_cases hterm : o.status.isTerminal = true
    · simp [CustomerAggregates.numbers, CustomerAggregates.add, OrderFact.numbers, hlive, hterm,
        hstatus]
    · simp [CustomerAggregates.numbers, CustomerAggregates.add, OrderFact.numbers, hlive, hterm,
        hstatus]

theorem numbers_foldl (facts : List OrderFact) (agg : CustomerAggregates) :
    (facts.foldl CustomerAggregates.add agg).numbers =
      agg.numbers + (facts.map OrderFact.numbers).sum := by
  induction facts generalizing agg with
  | nil => exact (add_zero agg.numbers).symm
  | cons o rest ih => rw [List.foldl_cons, ih, numbers_add, List.map_cons, List.sum_cons, add_assoc]

theorem ordersCount_foldl (facts : List OrderFact) (agg : CustomerAggregates) :
    (facts.foldl CustomerAggregates.add agg).ordersCount = agg.ordersCount := by
  induction facts generalizing agg with
  | nil => rfl
  | cons o rest ih => exact ih _

section aggregate

variable {s t : Store} {k : CustomerId}

theorem sumOf_aggregated (s : Store) (k : CustomerId) :
    s.sumOf k Order.aggregated =
      (((s.factsOf k).length : ℤ), 0, 0, 0) + ((s.factsOf k).map OrderFact.numbers).sum := by
  have hone : ∀ o : Order, o.aggregated = (1, 0, 0, 0) + o.fact.numbers := by
    intro o
    refine Prod.ext (add_zero _).symm (Prod.ext (zero_add _).symm (Prod.ext ?_ ?_))
    · exact (zero_add _).symm
    · exact (zero_add _).symm
  unfold Store.sumOf Store.factsOf
  induction s.orders with
  | nil => exact (add_zero (0 : CrmNumbers)).symm
  | cons o rest ih =>
      rw [List.map_cons, List.sum_cons, ih, List.filter_cons]
      by_cases hk : o.customerId = k
      · simp only [hk, if_true, decide_true, List.map_cons, List.length_cons, List.sum_cons, hone]
        refine Prod.ext ?_ (Prod.ext ?_ (Prod.ext ?_ ?_))
        · simp only [Prod.fst_add, Nat.cast_add, Nat.cast_one]
          ring
        · simp only [Prod.fst_add, Prod.snd_add]
          ring
        · simp only [Prod.fst_add, Prod.snd_add]
          ring
        · simp only [Prod.snd_add]
          ring
      · simp [hk]

/-- A recompute writes what the customer's orders count for in its own sense. -/
theorem numbers_aggregateOrders (hs : CounterInv s) :
    (aggregateOrders (s.factsOf k)).numbers = s.sumOf k Order.aggregated := by
  let spent : CrmNumbers →+ Money :=
    (AddMonoidHom.snd _ _).comp ((AddMonoidHom.snd _ _).comp (AddMonoidHom.snd _ _))
  have hpaisa : Paisa (spent (s.sumOf k Order.aggregated)) := by
    rw [sumOf_map spent]
    refine HasPlaces.sum fun x hx => ?_
    obtain ⟨o, ho, rfl⟩ := List.mem_map.mp hx
    have hone : Paisa (spent o.aggregated) := by
      show Paisa (if o.status.isLiveStatus then o.grandTotal else 0)
      split
      · exact hs.paisa o ho
      · exact HasPlaces.zero
    split
    · exact hone
    · exact HasPlaces.zero
  have hloop : ((s.factsOf k).foldl CustomerAggregates.add {}).numbers =
      ((s.factsOf k).map OrderFact.numbers).sum := by
    rw [numbers_foldl]
    exact zero_add _
  have hsum := sumOf_aggregated s k
  rw [← hloop] at hsum
  have hround : round2 ((s.factsOf k).foldl CustomerAggregates.add {}).totalSpent =
      ((s.factsOf k).foldl CustomerAggregates.add {}).totalSpent := by
    refine round2_of_paisa ?_
    rw [hsum] at hpaisa
    have hspent : spent ((((s.factsOf k).length : ℤ), 0, 0, 0) +
        ((s.factsOf k).foldl CustomerAggregates.add {}).numbers) =
          ((s.factsOf k).foldl CustomerAggregates.add {}).totalSpent := zero_add _
    exact hspent ▸ hpaisa
  rw [hsum]
  refine Prod.ext ?_ (Prod.ext (zero_add _).symm (Prod.ext (zero_add _).symm ?_))
  · show ((s.factsOf k).length : ℤ) =
      (s.factsOf k).length + ((s.factsOf k).foldl CustomerAggregates.add {}).ordersCount
    rw [ordersCount_foldl]
    exact (add_zero _).symm
  · exact hround.trans (zero_add _).symm

/-- What an order counts for in the two senses, apart. -/
theorem counted_sub_aggregated (o : Order) : o.counted - o.aggregated =
    (0, (if o.status = .pending then 1 else 0) - (if o.status = .delivered then 1 else 0), 0,
      if o.status = .pending then o.grandTotal else 0) := by
  refine Prod.ext (sub_self _) (Prod.ext ?_ (Prod.ext (sub_self _) ?_))
  · show (if o.status.isOpen then (1 : ℤ) else 0) - (if o.status.isLiveStatus then 1 else 0) =
      (if o.status = .pending then 1 else 0) - if o.status = .delivered then 1 else 0
    cases o.status <;> rfl
  · show (if o.status.isTerminal then 0 else o.grandTotal) -
        (if o.status.isLiveStatus then o.grandTotal else 0) =
      if o.status = .pending then o.grandTotal else 0
    cases o.status <;> simp [OrderStatus.isLiveStatus, OrderStatus.isTerminal]

/-- **The increments agree with a recompute exactly when the customer is balanced.** -/
theorem numbers_agree_iff (hs : CounterInv s) {c : Customer} (hc : c ∈ s.customers) :
    c.numbers = (aggregateOrders (s.factsOf c.id)).numbers ↔ Balanced s c.id := by
  have hzero : s.sumOf c.id (fun _ => (0 : ℤ)) = 0 := by
    simp [Store.sumOf]
  have hcount : ∀ status, s.sumOf c.id (fun o => if o.status = status then (1 : ℤ) else 0) =
      (s.inStatus c.id status).length := by
    intro status
    rw [← sumOf_inStatus]
    simp
  have hdiff : s.sumOf c.id Order.counted - s.sumOf c.id Order.aggregated =
      (0, ((s.inStatus c.id .pending).length : ℤ) - ((s.inStatus c.id .delivered).length : ℤ), 0,
        ((s.inStatus c.id .pending).map (·.grandTotal)).sum) := by
    rw [← sumOf_sub, funext counted_sub_aggregated, sumOf_mk, hzero, sumOf_sub, hcount, hcount,
      sumOf_inStatus]
  rw [hs.counted c hc, numbers_aggregateOrders hs, ← sub_eq_zero, hdiff]
  constructor
  · intro h
    obtain ⟨-, h⟩ := Prod.mk.inj h
    obtain ⟨hlive, h⟩ := Prod.mk.inj h
    obtain ⟨-, hspent⟩ := Prod.mk.inj h
    exact ⟨by omega, hspent⟩
  · rintro ⟨hlive, hspent⟩
    rw [hlive, hspent, sub_self]
    rfl

/-- A recompute of a balanced customer changes no more than the dates. -/
theorem recompute_undated (hs : CounterInv s) (hb : Balanced s k) :
    (recompute s k).undated = s.undated := by
  unfold recompute
  cases hl : Rows.lookup Customer.id k s.customers with
  | none => rfl
  | some c =>
      have hnumbers : ∀ x ∈ s.customers, x.id = k →
          (aggregateOrders (s.factsOf k)).numbers = x.numbers := by
        rintro x hx rfl
        exact ((numbers_agree_iff hs hx).mpr hb).symm
      refine congrArg s.withCustomers ?_
      show (Rows.modify Customer.id k _ s.customers).map Customer.undated = _
      rw [Rows.modify, List.map_map]
      refine List.map_congr_left fun x hx => ?_
      show (if x.id = k then Customer.withAggregates _ x else x).undated = x.undated
      split
      · rename_i hk
        have hsame := hnumbers x hx hk
        obtain ⟨hcount, hsame⟩ := Prod.mk.inj hsame
        obtain ⟨hlive, hsame⟩ := Prod.mk.inj hsame
        obtain ⟨hbad, hspent⟩ := Prod.mk.inj hsame
        simp only [Customer.withAggregates, Customer.undated, hcount, hlive, hbad, hspent]
      · rfl

/-- The dates are no part of what the counters are about. -/
theorem CounterInv.of_undated (hs : CounterInv s) (h : t.undated = s.undated) : CounterInv t := by
  have hrows := congrArg Store.orders h
  have horders : t.orders = s.orders := hrows
  have hcustomers : t.customers.map Customer.undated = s.customers.map Customer.undated :=
    congrArg Store.customers h
  have hids : t.customers.map Customer.id = s.customers.map Customer.id := by
    have hmap := congrArg (List.map Customer.id) hcustomers
    rwa [List.map_map, List.map_map] at hmap
  have hlength : t.customers.length = s.customers.length := by
    have hmap := congrArg List.length hcustomers
    rwa [List.length_map, List.length_map] at hmap
  refine ⟨?_, ?_, ?_, ?_, fun c hc => ?_⟩
  · rw [Store.Numbered, horders]
    exact hs.numbered
  · rw [hids, hlength]
    exact hs.customerIds
  · rw [horders, hlength]
    exact hs.placed
  · rw [horders]
    exact hs.paisa
  · have hmem : c.undated ∈ s.customers.map Customer.undated :=
      hcustomers ▸ List.mem_map_of_mem hc
    obtain ⟨x, hx, hxc⟩ := List.mem_map.mp hmem
    have hid : x.undated.id = c.undated.id := congrArg Customer.id hxc
    have hnumbers : x.undated.numbers = c.undated.numbers := congrArg Customer.numbers hxc
    have hcounted := hs.counted x hx
    show c.undated.numbers = t.sumOf c.undated.id Order.counted
    rw [← hnumbers, ← hid, Store.sumOf, horders]
    exact hcounted

end aggregate

/-! ### Whole runs -/

/-- A shop that has sold nothing yet. -/
structure CountersNew (s : Store) : Prop where
  noOrders : s.orders = []
  customerIds : s.customers.map Customer.id = List.range s.customers.length
  zero : ∀ c ∈ s.customers, c.numbers = 0

theorem CountersNew.counterInv {s : Store} (h : CountersNew s) : CounterInv s := by
  have hno : ∀ o, o ∉ s.orders := by
    intro o ho
    rw [h.noOrders] at ho
    cases ho
  refine ⟨?_, h.customerIds, fun o ho => absurd ho (hno o), fun o ho => absurd ho (hno o),
    fun c hc => ?_⟩
  · rw [Store.Numbered, h.noOrders]
    rfl
  · rw [h.zero c hc, Store.sumOf, h.noOrders]
    rfl

/-- A run whose recomputes come at balanced moments goes as it goes without them. -/
theorem callsOf_run : ∀ (as : List CrmAction) (s t u : Store), CounterInv s →
    GuardedRun crmStep RecomputesBalanced s as → runFrom crmStep s as = some t →
    u.undated = s.undated →
    CounterInv t ∧ ∃ v, runFrom (stockStep clampZero) u (callsOf as) = some v ∧
      v.undated = t.undated := by
  intro as
  induction as with
  | nil =>
      intro s t u hs _ hrun hu
      obtain rfl := Option.some.inj hrun
      exact ⟨hs, u, rfl, hu⟩
  | cons a rest ih =>
      intro s t u hs hguard hrun hu
      obtain ⟨s', hstep, hrest⟩ := runFrom_cons hrun
      have hguard' := hguard.2 s' hstep
      cases a with
      | recompute k =>
          obtain rfl := Option.some.inj hstep
          have hsame := recompute_undated hs hguard.1
          exact ih _ t u (hs.of_undated hsame) hguard' hrest (hu.trans hsame.symm)
      | call a =>
          have hcall : stockStep clampZero s a = some s' := hstep
          have hdates : (stockStep clampZero u a).map Store.undated = some s'.undated := by
            rw [← stockStep_undated, hu, stockStep_undated, hcall]
            rfl
          obtain ⟨u', hu', hsame⟩ := Option.map_eq_some_iff.mp hdates
          obtain ⟨hinv, v, hv, hvt⟩ := ih s' t u' (stockStep_counterInv hs hcall) hguard' hrest hsame
          have hrun' : runFrom (stockStep clampZero) u (a :: callsOf rest) = some v := by
            rw [runFrom_cons_of_step hu', hv]
          exact ⟨hinv, v, hrun', hvt⟩

/--
**After every run whose recomputes find their customers balanced**, a customer's numbers are
what a recompute would write exactly when the customer is balanced, and they are what the run
leaves without its recomputes.
-/
theorem crm_numbers_agree_iff (s₀ t : Store) (as : List CrmAction) (hnew : CountersNew s₀)
    (hrun : runFrom crmStep s₀ as = some t)
    (hbalanced : GuardedRun crmStep RecomputesBalanced s₀ as) :
    (∀ c ∈ t.customers,
      c.numbers = (aggregateOrders (t.factsOf c.id)).numbers ↔ Balanced t c.id) ∧
    ∃ t', runFrom (stockStep clampZero) s₀ (callsOf as) = some t' ∧
      t'.customers.map Customer.numbers = t.customers.map Customer.numbers := by
  obtain ⟨hinv, t', hrun', hsame⟩ := callsOf_run as s₀ t s₀ hnew.counterInv hbalanced hrun rfl
  refine ⟨fun c hc => numbers_agree_iff hinv hc, t', hrun', ?_⟩
  have hcustomers : t'.customers.map Customer.undated = t.customers.map Customer.undated :=
    congrArg Store.customers hsame
  have hmap := congrArg (List.map Customer.numbers) hcustomers
  rwa [List.map_map, List.map_map] at hmap

/-- An order is confirmed, its customer's numbers are recomputed, and it is cancelled. -/
def confirmedRecompute : List CrmAction :=
  [.call (.place (oneBook .cod) 1), .call (.apply 0 { toStatus := .confirmed } .staff 2),
    .recompute 0,
    .call (.apply 0 { toStatus := .cancelled, credit := some { reason := "দেরি" } } .staff 3)]

theorem smallShop_new : CountersNew smallShop := by
  refine ⟨rfl, rfl, fun c hc => ?_⟩
  cases hc

theorem crm_numbers_agree_iff_confirmed :
    ∃ t, runFrom crmStep smallShop confirmedRecompute = some t ∧
      (∀ c ∈ t.customers,
        c.numbers = (aggregateOrders (t.factsOf c.id)).numbers ↔ Balanced t c.id) ∧
      ∃ t', runFrom (stockStep clampZero) smallShop (callsOf confirmedRecompute) = some t' ∧
        t'.customers.map Customer.numbers = t.customers.map Customer.numbers := by
  have hruns : (runFrom crmStep smallShop confirmedRecompute).isSome = true := by
    decide +kernel
  obtain ⟨t, ht⟩ := Option.isSome_iff_exists.mp hruns
  have hbalanced : GuardedRun crmStep RecomputesBalanced smallShop confirmedRecompute := by
    decide +kernel
  exact ⟨t, ht, crm_numbers_agree_iff smallShop t confirmedRecompute smallShop_new ht hbalanced⟩

/-- **A pending order is live and spent to the increments, and neither to a recompute**, which
leaves other numbers behind than the run has without it. -/
theorem recompute_disagrees :
    ∃ t, runFrom crmStep smallShop [.call (.place (oneBook .cod) 1)] = some t ∧
      t.customers.map Customer.numbers = [(1, 1, 0, 260)] ∧
      (recompute t 0).customers.map Customer.numbers = [(1, 0, 0, 0)] := by
  have hruns : (runFrom crmStep smallShop [.call (.place (oneBook .cod) 1)]).any (fun t =>
      t.customers.map Customer.numbers = [(1, 1, 0, 260)] &&
        (recompute t 0).customers.map Customer.numbers = [(1, 0, 0, 0)]) = true := by
    decide +kernel
  obtain ⟨t, ht, hnumbers⟩ := Option.any_eq_true _ _ |>.mp hruns
  obtain ⟨hleft, hright⟩ := Bool.and_eq_true_iff.mp hnumbers
  exact ⟨t, ht, of_decide_eq_true hleft, of_decide_eq_true hright⟩

end BookHouse
