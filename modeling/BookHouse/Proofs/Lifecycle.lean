/-
What the columns of an order say about its status, in every state it can reach.

Each branch of the rules writes some of the columns, and the reports, the stock effects
and the credit notes read them together.  `SoundLifecycle` is what they may rely on; a
regress, a void, a forward move and a reopen each keep it.
-/
import BookHouse.Proofs.Desk

namespace BookHouse

open Machine

namespace OrderStatus

/-- Confirmed or later in the flow. -/
def isPastPending (s : OrderStatus) : Bool := 0 < rank s

/-- Before the hand-over to the courier. -/
def isOnShelf : OrderStatus → Bool
  | pending | confirmed | processing => true
  | _ => false

end OrderStatus

/-- An order closed at a stage of some kind. -/
def Order.ClosedFrom (o : Order) (stage : OrderStatus → Bool) : Prop :=
  o.status.isTerminal ∧ o.cancelledFrom.any stage

/-- The columns of an order agree with its status. -/
structure SoundLifecycle (o : Order) : Prop where
  reserved : o.stockReserved = true ↔
    o.status = .pending ∨ o.status = .confirmed ∨ o.status = .processing
  shipped : o.shippedAt.isSome ↔
    (o.status = .handedToCourier ∨ o.status = .outForDelivery ∨ o.status = .delivered) ∨
      o.ClosedFrom (·.isReturnableFrom)
  delivered : o.deliveredAt.isSome ↔
    o.status = .delivered ∨ o.status = .returned ∧ o.cancelledFrom = some .delivered
  confirmed : o.confirmedAt.isSome ↔ o.status.isPastPending ∨ o.ClosedFrom (·.isPastPending)
  closed : o.status.isTerminal → o.cancelledAt.isSome ∧ o.cancelledFrom.isSome
  opened : o.status.isTerminal = false → o.cancelledAt = none ∧ o.cancelledFrom = none
  returned : o.status = .returned → o.cancelledFrom.any (·.isReturnableFrom)

section moves

variable {o : Order} {req : TransitionRequest} {plan : TransitionPlan} {note : Option String}
  {now : Instant}

theorem Order.Fresh.sound (h : o.Fresh) : SoundLifecycle o := by
  obtain ⟨hstatus, -, -, hres, hconf, hship, hdel, hcan, hfrom⟩ := h
  constructor <;>
    simp [hstatus, hres, hconf, hship, hdel, hcan, hfrom, Order.ClosedFrom,
      OrderStatus.isTerminal, OrderStatus.isPastPending, OrderStatus.rank]

/-! ### What the columns say of an order in the flow -/

private theorem not_closedFrom (hopen : o.status.isTerminal = false) (stage : OrderStatus → Bool) :
    ¬o.ClosedFrom stage := by
  intro hc
  have hterm := hc.1
  rw [hopen] at hterm
  exact absurd hterm (by decide)

theorem SoundLifecycle.shipped_open (h : SoundLifecycle o) (hopen : o.status.isTerminal = false) :
    o.shippedAt.isSome ↔ o.status.isReturnableFrom := by
  rw [h.shipped, or_iff_left (not_closedFrom hopen _)]
  cases o.status <;> simp [OrderStatus.isReturnableFrom]

theorem SoundLifecycle.delivered_open (h : SoundLifecycle o)
    (hopen : o.status.isTerminal = false) : o.deliveredAt.isSome ↔ o.status = .delivered := by
  have hnot : ¬(o.status = .returned ∧ o.cancelledFrom = some .delivered) := by
    intro hc
    rw [hc.1] at hopen
    exact absurd hopen (by decide)
  rw [h.delivered, or_iff_left hnot]

theorem SoundLifecycle.confirmed_open (h : SoundLifecycle o)
    (hopen : o.status.isTerminal = false) : o.confirmedAt.isSome ↔ o.status.isPastPending := by
  rw [h.confirmed, or_iff_left (not_closedFrom hopen _)]

/-- PROCESSING goes back to CONFIRMED and every date stays. -/
private theorem regress_sound (h : SoundLifecycle o) (hs : o.status = .processing)
    (ht : req.toStatus = .confirmed) :
    SoundLifecycle
      (o.transitioned { fromStatus := o.status, toStatus := req.toStatus } note now) := by
  have hopen : o.status.isTerminal = false := by rw [hs]; rfl
  have hres := h.reserved
  have hship := h.shipped_open hopen
  have hdel := h.delivered_open hopen
  have hconf := h.confirmed_open hopen
  obtain ⟨hcan, hfrom⟩ := h.opened hopen
  rw [hs] at hres hship hdel hconf
  constructor <;>
    simp_all [Order.transitioned, Order.ClosedFrom, OrderStatus.isTerminal,
      OrderStatus.isReturnableFrom, OrderStatus.isPastPending, OrderStatus.rank]

/-- A void keeps the dates and notes where it came from. -/
private theorem void_sound (h : SoundLifecycle o) (hopen : o.status.isTerminal = false)
    (ht : req.toStatus.isTerminal) (hcancel : req.toStatus = .cancelled → o.status.isOpen)
    (hreturn : req.toStatus = .returned → o.status.isReturnableFrom) :
    SoundLifecycle (o.transitioned (voidPlan o req) note now) := by
  have hship := h.shipped_open hopen
  have hdel := h.delivered_open hopen
  have hconf := h.confirmed_open hopen
  have hto : req.toStatus = .cancelled ∨ req.toStatus = .returned := by
    cases hs : req.toStatus <;> simp [hs, OrderStatus.isTerminal] at ht ⊢
  refine ⟨?_, ?_, ?_, ?_, fun _ => ⟨rfl, rfl⟩, fun hc => ?_, fun hret => hreturn hret⟩
  · show false = true ↔ _
    rcases hto with hto | hto <;> simp [Order.transitioned, voidPlan, hto]
  · show o.shippedAt.isSome ↔ (_ ∨ req.toStatus.isTerminal ∧ o.status.isReturnableFrom)
    rw [hship]
    rcases hto with hto | hto <;>
      simp [Order.transitioned, voidPlan, hto, OrderStatus.isTerminal]
  · show o.deliveredAt.isSome ↔ req.toStatus = .delivered ∨
      req.toStatus = .returned ∧ some o.status = some .delivered
    rw [hdel]
    rcases hto with hto | hto
    · have hnot : o.status ≠ .delivered := by
        intro hc
        have hcan := hcancel hto
        rw [hc] at hcan
        exact absurd hcan (by decide)
      simp [hto, hnot]
    · simp [hto]
  · show o.confirmedAt.isSome ↔ req.toStatus.isPastPending ∨
      req.toStatus.isTerminal ∧ o.status.isPastPending
    rw [hconf]
    rcases hto with hto | hto <;>
      simp [hto, OrderStatus.isTerminal, OrderStatus.isPastPending, OrderStatus.rank]
  · have hto' : req.toStatus.isTerminal = false := hc
    rw [ht] at hto'
    exact absurd hto' (by decide)

/-- The three statuses with the courier or past it are the last of the flow. -/
private theorem isReturnableFrom_iff (s : OrderStatus) :
    s.isReturnableFrom = s.isShippedStage := by
  cases s <;> rfl

private theorem shelf_or_shipped {s : OrderStatus} (hs : s.isTerminal = false) :
    s = .pending ∨ s = .confirmed ∨ s = .processing ↔ s.isShippedStage = false := by
  cases s <;> simp [OrderStatus.isTerminal, OrderStatus.isShippedStage, OrderStatus.rank] at hs ⊢

/-- A forward move sets the date of what it reaches and keeps the others. -/
private theorem advance_sound (h : SoundLifecycle o) (hopen : o.status.isTerminal = false)
    (hto : req.toStatus.isTerminal = false)
    (hforward : OrderStatus.rank o.status ≤ OrderStatus.rank req.toStatus)
    (hne : o.status ≠ req.toStatus) :
    SoundLifecycle (o.transitioned (planAdvance o req) note now) := by
  have hship := h.shipped_open hopen
  have hdel := h.delivered_open hopen
  have hconf := h.confirmed_open hopen
  have hres := h.reserved
  rw [shelf_or_shipped hopen] at hres
  rw [isReturnableFrom_iff] at hship
  -- what was shipped stays shipped
  have hkeep : o.status.isShippedStage → req.toStatus.isShippedStage := by
    intro hs
    simp only [OrderStatus.isShippedStage, decide_eq_true_eq] at hs ⊢
    omega
  have hstatus : (o.transitioned (planAdvance o req) note now).status = req.toStatus := rfl
  have hships : (o.transitioned (planAdvance o req) note now).shippedAt.isSome ↔
      req.toStatus.isShippedStage := by
    by_cases hst : req.toStatus.isShippedStage
    · cases hat : o.shippedAt <;> simp [Order.transitioned, planAdvance, hst, hat]
    · have hnone : ¬o.shippedAt.isSome := fun hc => hst (hkeep (hship.mp hc))
      simpa [Order.transitioned, planAdvance, hst] using hnone
  refine ⟨?_, ?_, ?_, ?_, ?_, ?_, ?_⟩
  · rw [hstatus, shelf_or_shipped hto]
    by_cases hst : req.toStatus.isShippedStage
    · cases hat : o.shippedAt with
      | none => simp [Order.transitioned, planAdvance, hst, hat]
      | some d =>
          have hold := hship.mp (by rw [hat]; rfl)
          have hfree : o.stockReserved = false := by simpa [hold] using hres
          simp [Order.transitioned, planAdvance, hst, hat, hfree]
    · have hold : ¬o.status.isShippedStage := fun hc => hst (hkeep hc)
      simp [Order.transitioned, planAdvance, hst, hres, hold]
  · rw [hships, or_iff_left (not_closedFrom hto _), ← isReturnableFrom_iff, hstatus]
    cases req.toStatus <;> simp [OrderStatus.isReturnableFrom]
  · -- DELIVERED is the last of the flow, so it was not reached before
    have hbefore : o.deliveredAt = none := by
      have hnot : o.status ≠ .delivered := by
        intro hc
        rw [hc] at hforward hne
        cases hs : req.toStatus <;> rw [hs] at hforward hne hto <;>
          simp [OrderStatus.rank] at hforward hne hto
      simpa using mt hdel.mp hnot
    rw [hstatus]
    by_cases hd : req.toStatus = .delivered
    · simp [Order.transitioned, planAdvance, hd]
    · have hret : req.toStatus ≠ .returned := by
        intro hc
        rw [hc] at hto
        exact absurd hto (by decide)
      simp [Order.transitioned, planAdvance, hd, hret, hbefore]
  · rw [or_iff_left (not_closedFrom hto _), hstatus]
    have hpast : o.status.isPastPending → req.toStatus.isPastPending := by
      intro hs
      simp only [OrderStatus.isPastPending, decide_eq_true_eq] at hs ⊢
      omega
    have hrank : decide (OrderStatus.rank .confirmed ≤ OrderStatus.rank req.toStatus) =
        req.toStatus.isPastPending := by cases req.toStatus <;> rfl
    by_cases hp : req.toStatus.isPastPending
    · cases hat : o.confirmedAt <;>
        simp [Order.transitioned, planAdvance, hrank, hp, hat]
    · have hnone : ¬o.confirmedAt.isSome := fun hc => hp (hpast (hconf.mp hc))
      simpa [Order.transitioned, planAdvance, hrank, hp] using hnone
  · intro hc
    rw [hstatus, hto] at hc
    exact absurd hc (by decide)
  · intro _
    exact h.opened hopen
  · intro hret
    rw [hstatus] at hret
    rw [hret] at hto
    exact absurd hto (by decide)

theorem transition_sound (h : SoundLifecycle o) (hp : planTransition o req = .ok plan) :
    SoundLifecycle (o.transitioned plan note now) := by
  obtain ⟨hopen, hne, hcase⟩ := planTransition_cases hp
  cases hcase with
  | regress mode actor target eq =>
      have hs : o.status = .processing ∧ req.toStatus = .confirmed := by
        cases hst : o.status <;> rw [hst] at target <;>
          simp [OrderStatus.regressTarget] at target
        exact ⟨rfl, target.symm⟩
      rw [eq]
      exact regress_sound h hs.1 hs.2
  | void terminal eq granted =>
      obtain ⟨-, hcancel, hreturn, -⟩ := planVoid_ok granted
      rw [eq]
      exact void_sound h hopen terminal hcancel hreturn
  | advance flow forward actor paid eq =>
      rw [eq]
      exact advance_sound h hopen flow forward hne

/-- A reopened order starts over at PENDING or CONFIRMED. -/
theorem reopen_sound (o : Order) (target : ReopenTarget) : SoundLifecycle (o.reopened target now) := by
  have hopen : (o.reopened target now).status.isTerminal = false := by cases target <;> rfl
  refine ⟨?_, ?_, ?_, ?_, ?_, fun _ => ⟨rfl, rfl⟩, ?_⟩
  · cases target <;> simp [Order.reopened, ReopenTarget.status]
  · rw [or_iff_left (not_closedFrom hopen _)]
    cases target <;> simp [Order.reopened, ReopenTarget.status]
  · cases target <;> simp [Order.reopened, ReopenTarget.status]
  · rw [or_iff_left (not_closedFrom hopen _)]
    cases target <;>
      simp [Order.reopened, ReopenTarget.status, OrderStatus.isPastPending, OrderStatus.rank]
  · intro hc
    rw [hopen] at hc
    exact absurd hc (by decide)
  · intro hret
    rw [hret] at hopen
    exact absurd hopen (by decide)

end moves

/-! ### Every reachable state -/

theorem RowStep.sound {a : StockAction} {o o' : Order} (h : SoundLifecycle o)
    (hstep : RowStep a o o') : SoundLifecycle o' := by
  cases hstep with
  | transition by_ granted => exact transition_sound h granted
  | reopen by_ granted => exact reopen_sound o _

/-- A customer's move of a row is the cancellation of a pending order. -/
theorem RowStep.customer {a : StockAction} {o o' : Order} (hstep : RowStep a o o')
    (ha : a.actor = some .customer) : o.status = .pending ∧ o'.status = .cancelled := by
  cases hstep with
  | @transition cmd actor now plan by_ granted =>
      obtain rfl : actor = .customer := Option.some.inj (by_.symm.trans ha)
      obtain ⟨-, -, hcase⟩ := planTransition_cases granted
      cases hcase with
      | regress mode actor target eq => exact absurd actor (by simp [TransitionCommand.request])
      | void terminal eq granted =>
          obtain ⟨-, -, -, hcustomer, -⟩ := planVoid_ok granted
          obtain ⟨hto, hpending⟩ := hcustomer rfl
          rw [eq]
          exact ⟨hpending, hto⟩
      | advance flow forward actor paid eq => exact absurd rfl actor
  | @reopen cmd actor now plan by_ granted =>
      obtain rfl : actor = .customer := Option.some.inj (by_.symm.trans ha)
      exact absurd (planReopen_ok granted).1 (by simp)

/-- The orders of a store are numbered, and each of them is sound. -/
structure SoundOrders (s : Store) : Prop where
  numbered : s.desk.Numbered
  sound : ∀ o ∈ s.desk.orders, SoundLifecycle o

theorem stockStep_sound {clamp : ℤ → ℤ} {s t : Store} {a : StockAction} (h : SoundOrders s)
    (hstep : stockStep clamp s a = some t) : SoundOrders t := by
  have hdesk := stockStep_desk hstep
  refine ⟨hdesk.numbered h.numbered, fun o' ho' => ?_⟩
  rcases hdesk.order_cases h.numbered o' ho' with hold | ⟨-, hfresh⟩ | ⟨o, ho, -, hrow⟩
  · exact h.sound o' hold
  · exact hfresh.sound
  · exact hrow.sound (h.sound o ho)

/-- What holds of the orders in every state of a shop, and of a customer's next move. -/
structure LifecycleHolds (t : Store) : Prop where
  sound : ∀ o ∈ t.orders, SoundLifecycle o
  customer : ∀ a t', stockStep clampZero t a = some t' → a.actor = some .customer →
    ∀ o ∈ t.orders, ∀ o' ∈ t'.orders, o'.id = o.id →
      o'.status = o.status ∨ o.status = .pending ∧ o'.status = .cancelled

theorem SoundOrders.holds {t : Store} (h : SoundOrders t) : LifecycleHolds t := by
  have hhead : ∀ o ∈ t.orders, o.head ∈ t.desk.orders := fun o ho => List.mem_map_of_mem ho
  refine ⟨fun o ho => ?_, fun a t' hstep ha o ho o' ho' hid => ?_⟩
  · obtain ⟨h₁, h₂, h₃, h₄, h₅, h₆, h₇⟩ := h.sound o.head (hhead o ho)
    exact ⟨h₁, h₂, h₃, h₄, h₅, h₆, h₇⟩
  · -- an order is known by its number
    have hsame : ∀ x ∈ t.desk.orders, x.id = o.id → x = o.head := by
      intro x hx hxid
      have hlook := Rows.lookup_of_mem h.numbered.nodup hx
      have hlook' := Rows.lookup_of_mem h.numbered.nodup (hhead o ho)
      have hkey : x.id = o.head.id := hxid
      rw [hkey, hlook'] at hlook
      exact (Option.some.inj hlook).symm
    have hplace : o.id < t.desk.orders.length := by
      have hmem : o.head.id ∈ t.desk.orders.map Order.id := List.mem_map_of_mem (hhead o ho)
      rw [h.numbered] at hmem
      exact List.mem_range.mp hmem
    rcases (stockStep_desk hstep).order_cases h.numbered o'.head (List.mem_map_of_mem ho') with
      hold | ⟨hnew, -⟩ | ⟨x, hx, hxid, hrow⟩
    · have heq : o'.head = o.head := hsame o'.head hold hid
      have hstatus : o'.head.status = o.head.status := congrArg _ heq
      exact .inl hstatus
    · have hlast : o'.id = t.desk.orders.length := hnew
      rw [← hlast, hid] at hplace
      exact absurd hplace (lt_irrefl _)
    · have hxo : x = o.head := hsame x hx (hxid.symm.trans hid)
      have hmove := hrow.customer ha
      rw [hxo] at hmove
      exact .inr hmove

/-- **The columns of every order agree with its status after every run.** -/
theorem lifecycle_sound (s₀ t : Store) (as : List StockAction) (hnew : s₀.orders = [])
    (hrun : runFrom (stockStep clampZero) s₀ as = some t) : LifecycleHolds t := by
  have hopening : SoundOrders s₀ := by
    have hdesk : s₀.desk.orders = [] := by simp [Store.desk, hnew]
    refine ⟨?_, fun o ho => ?_⟩
    · rw [Store.Numbered, hdesk]
      rfl
    · rw [hdesk] at ho
      exact absurd ho (by simp)
  exact (runFrom_invariant (fun _ _ _ h hs => stockStep_sound h hs) as s₀ t hopening hrun).holds

/-- A parcel, a customer's cancellation and a reopen in the small shop. -/
theorem lifecycle_sound_smallShop :
    ∃ t, runFrom (stockStep clampZero) smallShop smallShopDays = some t ∧ LifecycleHolds t := by
  have hruns : (runFrom (stockStep clampZero) smallShop smallShopDays).isSome = true := by
    decide +kernel
  obtain ⟨t, ht⟩ := Option.isSome_iff_exists.mp hruns
  exact ⟨t, ht, lifecycle_sound smallShop t smallShopDays rfl ht⟩

end BookHouse
