/-
What a plan can be: the transition rules read backwards.

`planTransition_cases` says once what a granted transition looks like (a regress, a
void or a forward move) with the guards it passed, so that every invariant of an order
is a case analysis on three plans instead of on the rules.
-/
import BookHouse.Lib.Result
import BookHouse.Orders.Placement

namespace BookHouse

open OrderStatus (rank)

variable {order : Order} {req : TransitionRequest} {plan : TransitionPlan}

/-- The plan of a void. -/
def voidPlan (order : Order) (req : TransitionRequest) : TransitionPlan :=
  { fromStatus := order.status, toStatus := req.toStatus,
    stock := if order.shippedAt.isSome then .restock
      else if order.stockReserved then .release else .none,
    set := { cancelledAt := some req.now, cancelledFrom := some order.status,
             stockReserved := some false },
    revokeCoupon := true, closes := order.status.isOpen, voids := true,
    credit := if order.status ≠ .pending then
        (CreditInput.trimmedReason req.credit).map fun r =>
          { reason := r, courierLoss := (req.credit.map (·.courierLoss)).getD 0 }
      else none }

/-- Everything a granted void says. -/
theorem planVoid_ok (h : planVoid order req = .ok plan) :
    plan = voidPlan order req ∧
      (req.toStatus = .cancelled → order.status.isOpen) ∧
      (req.toStatus = .returned → order.status.isReturnableFrom) ∧
      (req.actor = .customer → req.toStatus = .cancelled ∧ order.status = .pending) ∧
      (order.status ≠ .pending → (CreditInput.trimmedReason req.credit).isSome) := by
  unfold planVoid at h
  simp only at h
  split at h
  · cases h
  split at h
  · cases h
  split at h
  · cases h
  split at h
  · cases h
  rename_i hopen hret hcust hcredit
  refine ⟨(Except.ok.inj h).symm, ?_, ?_, ?_, ?_⟩
  · intro hto
    simpa [hto] using hopen
  · intro hto
    simpa [hto] using hret
  · intro hactor
    simpa [hactor] using hcust
  · intro hlive
    simpa [hlive, Option.isSome_iff_ne_none] using hcredit

inductive TransitionCase (order : Order) (req : TransitionRequest) (plan : TransitionPlan) : Prop
  | regress (mode : req.mode = .regress) (actor : req.actor = .staff)
      (target : order.status.regressTarget = some req.toStatus)
      (eq : plan = { fromStatus := order.status, toStatus := req.toStatus })
  | void (terminal : req.toStatus.isTerminal) (eq : plan = voidPlan order req)
      (granted : planVoid order req = .ok plan)
  | advance (flow : req.toStatus.isTerminal = false)
      (forward : rank order.status ≤ rank req.toStatus) (actor : req.actor ≠ .customer)
      (paid : ¬(order.status = .pending ∧ awaitingPayment order))
      (eq : plan = planAdvance order req)

/-- **A granted transition leaves an open order by a regress, a void or a forward move.** -/
theorem planTransition_cases (h : planTransition order req = .ok plan) :
    order.status.isTerminal = false ∧ order.status ≠ req.toStatus ∧
      TransitionCase order req plan := by
  unfold planTransition at h
  split at h
  · cases h
  rename_i hterm
  split at h
  · cases h
  rename_i hsame
  refine ⟨by simpa using hterm, hsame, ?_⟩
  split at h
  · rename_i hmode
    split at h
    · cases h
    rename_i hactor
    split at h
    · cases h
    rename_i htarget
    exact .regress hmode (by simpa using hactor) (by simpa using htarget)
      (Except.ok.inj h).symm
  split at h
  · rename_i hvoid
    refine .void ?_ (planVoid_ok h).1 h
    rcases (by simpa using hvoid : req.toStatus = .cancelled ∨ req.toStatus = .returned) with ht | ht
    · rw [ht]
      rfl
    · rw [ht]
      rfl
  rename_i hvoid
  split at h
  · cases h
  rename_i hback
  split at h
  · cases h
  rename_i hactor
  split at h
  · cases h
  rename_i hpaid
  refine .advance ?_ (not_lt.mp hback) hactor ?_ (Except.ok.inj h).symm
  · have hne : ¬(req.toStatus = .cancelled ∨ req.toStatus = .returned) := by simpa using hvoid
    cases hto : req.toStatus <;> simp_all [OrderStatus.isTerminal]
  · simpa using hpaid

theorem planReopen_ok {req : ReopenRequest} {plan : ReopenPlan}
    (h : planReopen order req = .ok plan) :
    req.actor = .staff ∧ order.status.isTerminal ∧ plan.fromStatus = order.status ∧
      (plan.toStatus = .confirmed → awaitingPayment order = false) := by
  unfold planReopen at h
  split at h
  · cases h
  rename_i hactor
  split at h
  · cases h
  rename_i hterm
  split at h
  · cases h
  split at h
  · cases h
  rename_i hpaid
  obtain rfl := Except.ok.inj h
  refine ⟨by simpa using hactor, by simpa using hterm, rfl, ?_⟩
  intro hto
  have hpaid' : reopenTarget order req = .confirmed → awaitingPayment order = false := by
    simpa using hpaid
  exact hpaid' hto

/-- A status in the flow stays in the flow when it is shipped. -/
theorem not_terminal_of_shippedStage {s : OrderStatus} (h : s.isShippedStage) :
    s.isTerminal = false := by
  cases s <;> first | rfl | (exact absurd h (by decide))

/-! ### What a granted service call did -/

section services

variable {s t : Store} {clamp : ℤ → ℤ} {ref : OrderId} {actor : TransitionActor} {now : Instant}

/-- The row an update changed, and the store it left. -/
theorem updateOrder_ok {id : OrderId} {v : ℤ} {f : Order → Order}
    (h : updateOrder s id v f = .ok t) :
    ∃ o, Rows.lookup Order.id id s.orders = some o ∧ o.version = v ∧ (f o).check = .ok () ∧
      t = { s with orders := Rows.modify Order.id id f s.orders } := by
  unfold updateOrder at h
  cases hl : Rows.lookup Order.id id s.orders with
  | none => simp [hl] at h
  | some o =>
      rw [hl] at h
      by_cases hv : o.version = v
      · simp only [Option.filter_some, hv, decide_true, if_true] at h
        obtain ⟨u, hcheck, hret⟩ := Result.bind_ok.mp h
        exact ⟨o, rfl, hv, hcheck, (Except.ok.inj hret).symm⟩
      · simp [Option.filter, hv] at h

/-- Everything a committed transition did. -/
theorem applyTransition_ok {cmd : TransitionCommand} {r : Applied}
    (h : applyTransition clamp s ref cmd actor now = .ok (t, r)) :
    ∃ order plan s₁ s₂ low, Rows.lookup Order.id ref s.orders = some order ∧
      planTransition order (cmd.request actor now) = .ok plan ∧
      updateOrder s order.id order.version (fun o => o.transitioned plan cmd.note now) =
        .ok s₁ ∧
      applyStock clamp s₁ plan.stock (stockLinesOf order.items)
        { orderId := some order.id, now } = .ok (s₂, low) ∧
      t = bookTransition s₂ order plan now ∧ r = Applied.of order plan low := by
  unfold applyTransition at h
  cases hl : Rows.lookup Order.id ref s.orders with
  | none => simp [hl] at h
  | some order =>
      simp only [hl] at h
      split at h
      · cases h
      cases hp : planTransition order (cmd.request actor now) with
      | error e => simp [hp] at h
      | ok plan =>
          simp only [hp] at h
          obtain ⟨s₁, h₁, h⟩ := Result.bind_ok.mp h
          obtain ⟨⟨s₂, low⟩, h₂, h⟩ := Result.bind_ok.mp h
          obtain ⟨rfl, rfl⟩ := Prod.mk.inj (Except.ok.inj h)
          exact ⟨order, plan, s₁, s₂, low, rfl, hp, h₁, h₂, rfl, rfl⟩

/-- A regress is a transition. -/
theorem regress_ok {note : Option String} {version : Option ℤ} {r : Applied}
    (h : regress clamp s ref note version actor now = .ok (t, r)) :
    ∃ cmd, applyTransition clamp s ref cmd actor now = .ok (t, r) := by
  unfold regress at h
  cases hl : Rows.lookup Order.id ref s.orders with
  | none => simp [hl] at h
  | some order =>
      simp only [hl] at h
      cases ht : order.status.regressTarget with
      | none => simp [ht] at h
      | some target =>
          simp only [ht] at h
          exact ⟨_, h⟩

/-- Everything a committed reopen did. -/
theorem reopen_ok {cmd : ReopenCommand} {e : OrderStatusChangedEvent}
    (h : reopen s ref cmd actor now = .ok (t, e)) :
    ∃ order plan s₁ s₂, Rows.lookup Order.id ref s.orders = some order ∧
      planReopen order { toStatus := cmd.toStatus, reason := cmd.reason, actor } = .ok plan ∧
      updateOrder s order.id order.version (fun o => o.reopened plan.toStatus now) = .ok s₁ ∧
      holdStock s₁ (stockLinesOf order.items) { orderId := some order.id, now } = .ok s₂ ∧
      t = bookReopen s₂ order := by
  unfold reopen at h
  cases hl : Rows.lookup Order.id ref s.orders with
  | none => simp [hl] at h
  | some order =>
      simp only [hl] at h
      split at h
      · cases h
      cases hp : planReopen order { toStatus := cmd.toStatus, reason := cmd.reason, actor } with
      | error e => simp [hp] at h
      | ok plan =>
          simp only [hp] at h
          obtain ⟨s₁, h₁, h⟩ := Result.bind_ok.mp h
          obtain ⟨s₂, h₂, h⟩ := Result.bind_ok.mp h
          obtain ⟨rfl, rfl⟩ := Prod.mk.inj (Except.ok.inj h)
          exact ⟨order, plan, s₁, s₂, rfl, hp, h₁, h₂, rfl⟩

/-- Everything an inserted order met. -/
theorem insertOrder_ok {o : Order} (h : insertOrder s o = .ok t) :
    o.check = .ok () ∧ o.items.forM OrderItem.check = .ok () ∧
      t = { s with orders := s.orders ++ [o] } := by
  unfold insertOrder at h
  split at h
  · cases h
  obtain ⟨⟨⟩, hcheck, h⟩ := Result.bind_ok.mp h
  obtain ⟨⟨⟩, hitems, h⟩ := Result.bind_ok.mp h
  exact ⟨hcheck, hitems, (Except.ok.inj h).symm⟩

/-- Everything a written order left. -/
theorem writeOrder_ok {o : Order} {priced : PricedQuote}
    (h : writeOrder s o priced now = .ok t) :
    ∃ s₁ s₂ s₃, insertOrder s o = .ok s₁ ∧
      Inventory.reserve s₁ priced.quote.stockUnits { orderId := some o.id, now } = .ok s₂ ∧
      redeemCoupon s₂ priced o.id o.customerId = .ok s₃ ∧
      t = { s₃ with
        customers := Rows.modify Customer.id o.customerId
          (Customer.afterPlacement priced.quote.grandTotal now) s₃.customers } := by
  obtain ⟨s₁, h₁, h⟩ := Result.bind_ok.mp h
  obtain ⟨s₂, h₂, h⟩ := Result.bind_ok.mp h
  obtain ⟨s₃, h₃, h⟩ := Result.bind_ok.mp h
  exact ⟨s₁, s₂, s₃, h₁, h₂, h₃, (Except.ok.inj h).symm⟩

/-- Everything a committed placement did. -/
theorem placeInTx_ok {req : PlaceOrder} {o : Order} (h : placeInTx s req now = .ok (t, o)) :
    ∃ phone, req.phone = some phone ∧
      let s₀ := (upsertCustomer s req phone).1
      let customer := (upsertCustomer s req phone).2
      let priced := priceOrder s₀ req customer.id now
      let number := nextNumber s₀.counters .order
      placementRefusal req priced.quote = none ∧
        o = newOrder s₀.orders.length number.1 customer.id phone req priced.quote now ∧
        writeOrder { s₀ with counters := number.2 } o priced now = .ok t := by
  unfold placeInTx at h
  cases hphone : req.phone with
  | none => simp [hphone] at h
  | some phone =>
      simp only [hphone] at h
      refine ⟨phone, rfl, ?_⟩
      split at h
      · cases h
      split at h
      · cases h
      rename_i hrefusal
      obtain ⟨t', ht', heq⟩ := Result.map_ok.mp h
      obtain ⟨rfl, rfl⟩ := Prod.mk.inj heq
      exact ⟨hrefusal, rfl, ht'⟩

end services

end BookHouse
