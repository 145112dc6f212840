/-
What a change of an order's history can do to its row.

Each call is inverted once; from the inversions follow the facts the books rely on:
what was billed never changes, money that came in stays recorded, and an order leaves
the flow by a void and comes back by a reopen only.
-/
import BookHouse.Finance.SaleMachine
import BookHouse.Proofs.Status

namespace BookHouse

/-- The part of a row that its history never changes. -/
def Order.billed (o : Order) : Order :=
  { o with status := .pending, paymentStatus := .unpaid, amountPaid := 0, amountRefunded := 0,
           gatewayFee := 0, courierLoss := 0, stockReserved := false, cancelReason := none,
           cancelledFrom := none, confirmedAt := none, shippedAt := none, deliveredAt := none,
           cancelledAt := none, paidAt := none, version := 0 }

section rows

variable {o row : Order} {actor : TransitionActor} {now : Instant}

theorem Order.transition_ok {cmd : TransitionCommand} {plan : TransitionPlan}
    (h : o.transition cmd actor now = .ok (row, plan)) :
    planTransition o (cmd.request actor now) = .ok plan ∧ row = o.transitioned plan cmd.note now := by
  unfold Order.transition at h
  cases hp : planTransition o (cmd.request actor now) with
  | error r => simp [hp] at h
  | ok p =>
      simp only [hp] at h
      obtain ⟨_, -, h⟩ := Result.bind_ok.mp h
      obtain ⟨rfl, rfl⟩ := Prod.mk.inj (Except.ok.inj h)
      exact ⟨rfl, rfl⟩

theorem Order.reopen_ok {cmd : ReopenCommand} {plan : ReopenPlan}
    (h : o.reopen cmd actor now = .ok (row, plan)) :
    planReopen o { toStatus := cmd.toStatus, reason := cmd.reason, actor } = .ok plan ∧
      row = o.reopened plan.toStatus now := by
  unfold Order.reopen at h
  cases hp : planReopen o { toStatus := cmd.toStatus, reason := cmd.reason, actor } with
  | error r => simp [hp] at h
  | ok p =>
      simp only [hp] at h
      obtain ⟨_, -, h⟩ := Result.bind_ok.mp h
      obtain ⟨rfl, rfl⟩ := Prod.mk.inj (Except.ok.inj h)
      exact ⟨rfl, rfl⟩

theorem Order.markPaid_ok {version : Option ℤ} (h : o.markPaid version now = .ok row) :
    markPaidRefusal o version = none ∧ row = o.markedPaid now := by
  unfold Order.markPaid at h
  cases hr : markPaidRefusal o version with
  | some failure => simp [hr] at h
  | none =>
      simp only [hr] at h
      obtain ⟨_, -, h⟩ := Result.bind_ok.mp h
      exact ⟨rfl, (Except.ok.inj h).symm⟩

theorem refundRow_ok {amount : Money} (h : OrderChange.refundRow o amount = .ok row) :
    0 < o.amountPaid ∧ ∃ a, row = o.refundCompleted a := by
  obtain ⟨a, hask, h⟩ := Result.bind_ok.mp h
  obtain ⟨_, -, h⟩ := Result.bind_ok.mp h
  exact ⟨(checkRefund_ok hask).2.2.1, a, (Except.ok.inj h).symm⟩

/-- A capture is heard once; it marks the order paid and confirms it when it was pending. -/
theorem gatewaySuccessRow_ok {e : PaymentSucceededEvent} {hint : SyncHint}
    (h : OrderChange.gatewaySuccessRow o e now = .ok (row, hint)) :
    (o.paymentStatus ≠ .unpaid ∧ row = o ∧ hint = {}) ∨
      (o.paymentStatus = .unpaid ∧ o.status ≠ .pending ∧ row = o.captured e now ∧ hint = {}) ∨
      (o.paymentStatus = .unpaid ∧ o.status = .pending ∧ ∃ plan,
        planTransition (o.captured e now) ((confirmCommand e).request .webhook now) = .ok plan ∧
          row = (o.captured e now).transitioned plan (confirmCommand e).note now ∧
          hint = { fromStatus := some plan.fromStatus, credit := plan.credit }) := by
  unfold OrderChange.gatewaySuccessRow at h
  split at h
  · rename_i hpaid
    obtain ⟨rfl, rfl⟩ := Prod.mk.inj (Except.ok.inj h)
    exact .inl ⟨hpaid, rfl, rfl⟩
  rename_i hpaid
  obtain ⟨_, -, h⟩ := Result.bind_ok.mp h
  split at h
  · rename_i hpending
    obtain ⟨⟨row', plan⟩, ht, h⟩ := Result.bind_ok.mp h
    obtain ⟨rfl, rfl⟩ := Prod.mk.inj (Except.ok.inj h)
    obtain ⟨hplan, hrow⟩ := Order.transition_ok ht
    exact .inr (.inr ⟨not_not.mp hpaid, hpending, plan, hplan, hrow, rfl⟩)
  · rename_i hpending
    obtain ⟨rfl, rfl⟩ := Prod.mk.inj (Except.ok.inj h)
    exact .inr (.inl ⟨not_not.mp hpaid, hpending, rfl, rfl⟩)

/-! ### What was billed stays -/

theorem Order.billed_id {o' : Order} (h : o.billed = o'.billed) : o.id = o'.id :=
  have hid : o.billed.id = o'.billed.id := congrArg _ h
  hid

theorem Order.billed_method {o' : Order} (h : o.billed = o'.billed) :
    o.paymentMethod = o'.paymentMethod :=
  have hmethod : o.billed.paymentMethod = o'.billed.paymentMethod := congrArg _ h
  hmethod

theorem Order.billed_total {o' : Order} (h : o.billed = o'.billed) : o.grandTotal = o'.grandTotal :=
  have htotal : o.billed.grandTotal = o'.billed.grandTotal := congrArg _ h
  htotal

theorem Order.billed_transitioned {plan : TransitionPlan} {note : Option String} :
    (o.transitioned plan note now).billed = o.billed := rfl

theorem Order.billed_reopened {target : ReopenTarget} : (o.reopened target now).billed = o.billed := rfl

/-- **No change of an order's history changes what it bills.** -/
theorem OrderChange.row_billed {c : OrderChange} {hint : SyncHint} (h : c.row o = .ok (row, hint)) :
    row.billed = o.billed := by
  cases c with
  | transition cmd actor now =>
      obtain ⟨⟨r, plan⟩, ht, heq⟩ := Result.map_ok.mp h
      obtain ⟨rfl, -⟩ := Prod.mk.inj heq
      rw [(Order.transition_ok ht).2, Order.billed_transitioned]
  | reopen cmd actor now =>
      obtain ⟨⟨r, plan⟩, ht, heq⟩ := Result.map_ok.mp h
      obtain ⟨rfl, -⟩ := Prod.mk.inj heq
      rw [(Order.reopen_ok ht).2, Order.billed_reopened]
  | markPaid version now =>
      obtain ⟨r, hr, heq⟩ := Result.map_ok.mp h
      obtain ⟨rfl, -⟩ := Prod.mk.inj heq
      rw [(Order.markPaid_ok hr).2]
      rfl
  | gatewaySuccess e now =>
      rcases gatewaySuccessRow_ok h with ⟨-, rfl, -⟩ | ⟨-, -, rfl, -⟩ | ⟨-, -, plan, -, rfl, -⟩
      · rfl
      · rfl
      · rw [Order.billed_transitioned]
        rfl
  | refund amount =>
      obtain ⟨r, hr, heq⟩ := Result.map_ok.mp h
      obtain ⟨rfl, -⟩ := Prod.mk.inj heq
      obtain ⟨-, a, rfl⟩ := refundRow_ok hr
      rfl
  | attempt id amount => rw [(Prod.mk.inj (Except.ok.inj h)).1]
  | capture id fee => rw [(Prod.mk.inj (Except.ok.inj h)).1]

/-! ### Moves through the flow -/

theorem OrderStatus.isDead_eq_isTerminal (s : OrderStatus) : s.isDead = s.isTerminal := by
  cases s <;> rfl

/-- How a change moves a row through the flow, and what its hint says of it. -/
inductive StatusMove (o row : Order) (hint : SyncHint) : Prop
  | stay (status : row.status = o.status) (origin : row.cancelledFrom = o.cancelledFrom)
      (loss : row.courierLoss = o.courierLoss) (credit : hint.credit = none)
  | forward (openOrder : o.status.isDead = false) (live : row.status.isLive)
      (loss : row.courierLoss = o.courierLoss) (credit : hint.credit = none)
  | void (openOrder : o.status.isDead = false) (dead : row.status.isDead)
      (origin : row.cancelledFrom = some o.status)
      (pending : o.status = .pending →
        row.status = .cancelled ∧ row.courierLoss = o.courierLoss ∧ hint.credit = none)
      (credit : o.status ≠ .pending →
        ∃ c, hint.credit = some c ∧ row.courierLoss = c.courierLoss)
  | reopen (dead : o.status.isDead) (target : row.status = .pending ∨ row.status = .confirmed)
      (loss : row.courierLoss = 0) (credit : hint.credit = none)

theorem transition_move {cmd : TransitionCommand} {plan : TransitionPlan}
    (h : planTransition o (cmd.request actor now) = .ok plan) :
    StatusMove o (o.transitioned plan cmd.note now)
      { fromStatus := some plan.fromStatus, credit := plan.credit } := by
  obtain ⟨hterm, hne, hcase⟩ := planTransition_cases h
  have hopen : o.status.isDead = false := by rw [OrderStatus.isDead_eq_isTerminal, hterm]
  cases hcase with
  | regress mode actor target eq =>
      subst eq
      refine .forward hopen ?_ rfl rfl
      show cmd.toStatus.isLive = true
      cases hs : o.status <;> rw [hs] at target <;> simp [OrderStatus.regressTarget] at target
      have hto : cmd.toStatus = .confirmed := target.symm
      rw [hto]
      rfl
  | void terminal eq granted =>
      obtain ⟨-, -, hret, -, hcredit⟩ := planVoid_ok granted
      subst eq
      refine .void hopen ?_ rfl ?_ ?_
      · rw [OrderStatus.isDead_eq_isTerminal]
        exact terminal
      · intro hpending
        have hcancel : cmd.toStatus = .cancelled := by
          cases hs : cmd.toStatus with
          | cancelled => rfl
          | returned =>
              have hr := hret hs
              rw [hpending] at hr
              cases hr
          | _ => simp [TransitionCommand.request, hs, OrderStatus.isTerminal] at terminal
        refine ⟨hcancel, ?_, ?_⟩
        · simp [Order.transitioned, voidPlan, hpending]
        · simp [voidPlan, hpending]
      · intro hlive
        obtain ⟨reason, hreason⟩ := Option.isSome_iff_exists.mp (hcredit hlive)
        obtain ⟨c, hc⟩ : ∃ c, (voidPlan o (cmd.request actor now)).credit = some c :=
          Option.isSome_iff_exists.mp (by simp [voidPlan, hlive, hreason])
        refine ⟨c, hc, ?_⟩
        simp only [Order.transitioned, hc]
        rfl
  | advance flow forward actor paid eq =>
      subst eq
      refine .forward hopen ?_ rfl rfl
      show cmd.toStatus.isLive = true
      change o.status ≠ cmd.toStatus at hne
      change OrderStatus.rank o.status ≤ OrderStatus.rank cmd.toStatus at forward
      change cmd.toStatus.isTerminal = false at flow
      cases hs : cmd.toStatus with
      | pending =>
          rw [hs] at forward hne
          cases ho : o.status <;> rw [ho] at forward hne hterm <;>
            simp [OrderStatus.rank, OrderStatus.isTerminal] at forward hne hterm
      | cancelled =>
          rw [hs] at flow
          cases flow
      | returned =>
          rw [hs] at flow
          cases flow
      | _ => rfl

/-- **How each change moves the order.** -/
theorem OrderChange.row_move {c : OrderChange} {hint : SyncHint} (h : c.row o = .ok (row, hint)) :
    StatusMove o row hint := by
  cases c with
  | transition cmd actor now =>
      obtain ⟨⟨r, plan⟩, ht, heq⟩ := Result.map_ok.mp h
      obtain ⟨rfl, rfl⟩ := Prod.mk.inj heq
      obtain ⟨hplan, rfl⟩ := Order.transition_ok ht
      exact transition_move hplan
  | reopen cmd actor now =>
      obtain ⟨⟨r, plan⟩, ht, heq⟩ := Result.map_ok.mp h
      obtain ⟨rfl, rfl⟩ := Prod.mk.inj heq
      obtain ⟨hplan, rfl⟩ := Order.reopen_ok ht
      obtain ⟨-, hdead, -, -⟩ := planReopen_ok hplan
      refine .reopen (by rw [OrderStatus.isDead_eq_isTerminal]; exact hdead) ?_ rfl rfl
      show plan.toStatus.status = .pending ∨ plan.toStatus.status = .confirmed
      cases plan.toStatus
      · exact .inl rfl
      · exact .inr rfl
  | markPaid version now =>
      obtain ⟨r, hr, heq⟩ := Result.map_ok.mp h
      obtain ⟨rfl, rfl⟩ := Prod.mk.inj heq
      obtain ⟨-, rfl⟩ := Order.markPaid_ok hr
      exact .stay rfl rfl rfl rfl
  | gatewaySuccess e now =>
      rcases gatewaySuccessRow_ok h with ⟨-, rfl, rfl⟩ | ⟨-, -, rfl, rfl⟩ | ⟨-, -, plan, hplan, rfl, rfl⟩
      · exact .stay rfl rfl rfl rfl
      · exact .stay rfl rfl rfl rfl
      · cases transition_move hplan with
        | stay h₁ h₂ h₃ h₄ => exact .stay h₁ h₂ h₃ h₄
        | forward h₁ h₂ h₃ h₄ => exact .forward h₁ h₂ h₃ h₄
        | void h₁ h₂ h₃ h₄ h₅ => exact .void h₁ h₂ h₃ h₄ h₅
        | reopen h₁ h₂ h₃ h₄ => exact .reopen h₁ h₂ h₃ h₄
  | refund amount =>
      obtain ⟨r, hr, heq⟩ := Result.map_ok.mp h
      obtain ⟨rfl, rfl⟩ := Prod.mk.inj heq
      obtain ⟨-, a, rfl⟩ := refundRow_ok hr
      exact .stay rfl rfl rfl rfl
  | attempt id amount =>
      obtain ⟨rfl, rfl⟩ := Prod.mk.inj (Except.ok.inj h)
      exact .stay rfl rfl rfl rfl
  | capture id fee =>
      obtain ⟨rfl, rfl⟩ := Prod.mk.inj (Except.ok.inj h)
      exact .stay rfl rfl rfl rfl

/-- What a change cannot undo about the money of an order. -/
structure PaidMove (o row : Order) : Prop where
  kept : o.paymentStatus ≠ .unpaid → row.paymentStatus ≠ .unpaid
  online : (o.status.isLive → awaitingPayment o = false) →
    row.status.isLive → awaitingPayment row = false
  delivered : (o.status = .delivered → o.paymentStatus ≠ .unpaid) →
    row.status = .delivered → row.paymentStatus ≠ .unpaid

/-- A row in the same status that is paid is fine. -/
theorem PaidMove.of_paid (hpaid : row.paymentStatus ≠ .unpaid) : PaidMove o row :=
  ⟨fun _ => hpaid, fun _ _ => by simp [awaitingPayment, hpaid], fun _ _ => hpaid⟩

theorem PaidMove.refl (o : Order) : PaidMove o o := ⟨id, id, id⟩

theorem transition_paid {cmd : TransitionCommand} {plan : TransitionPlan}
    (h : planTransition o (cmd.request actor now) = .ok plan) :
    PaidMove o (o.transitioned plan cmd.note now) := by
  by_cases hpaid : (o.transitioned plan cmd.note now).paymentStatus = .unpaid
  · have hunpaid : o.paymentStatus = .unpaid := by
      cases hm : plan.markPaid with
      | true => simp [Order.transitioned, hm] at hpaid
      | false => simpa [Order.transitioned, hm] using hpaid
    obtain ⟨hterm, hne, hcase⟩ := planTransition_cases h
    refine ⟨fun hc => absurd hunpaid hc, ?_, ?_⟩
    · intro hold hlive
      have hsame : awaitingPayment (o.transitioned plan cmd.note now) = awaitingPayment o := by
        unfold awaitingPayment
        rw [hpaid, hunpaid]
        rfl
      rw [hsame]
      cases hcase with
      | regress mode actor target eq =>
          refine hold ?_
          cases hs : o.status <;> rw [hs] at target <;> simp [OrderStatus.regressTarget] at target
          rfl
      | void terminal eq granted =>
          subst eq
          have hto : (o.transitioned (voidPlan o (cmd.request actor now)) cmd.note now).status =
              cmd.toStatus := rfl
          rw [hto] at hlive
          cases hs : cmd.toStatus <;> rw [hs] at hlive <;>
            simp [TransitionCommand.request, hs, OrderStatus.isLive, OrderStatus.isTerminal]
              at hlive terminal
      | advance flow forward actor paid eq =>
          by_cases hpending : o.status = .pending
          · by_contra hc
            exact paid ⟨hpending, by simpa using hc⟩
          · refine hold ?_
            cases hs : o.status <;> simp_all [OrderStatus.isLive, OrderStatus.isTerminal]
    · intro _ hdel
      cases hcase with
      | regress mode actor target eq =>
          subst eq
          have hto : cmd.toStatus = .delivered := hdel
          cases hs : o.status <;> rw [hs] at target <;>
            simp [OrderStatus.regressTarget, TransitionCommand.request, hto] at target
      | void terminal eq granted =>
          subst eq
          have hto : cmd.toStatus = .delivered := hdel
          simp [TransitionCommand.request, hto, OrderStatus.isTerminal] at terminal
      | advance flow forward actor paid eq =>
          subst eq
          have hto : cmd.toStatus = .delivered := hdel
          simp [Order.transitioned, planAdvance, TransitionCommand.request, hto, hunpaid] at hpaid
  · exact .of_paid hpaid

theorem paymentStatusAfterRefund_ne_unpaid {paid refunded : Money} (h : 0 < paid) :
    paymentStatusAfterRefund paid refunded ≠ .unpaid := by
  unfold paymentStatusAfterRefund
  rw [if_neg (not_le.mpr h)]
  split
  · simp
  · split <;> simp

/-- **Money that came in stays recorded**, online orders are live only when paid, and a
delivered order is paid. -/
theorem OrderChange.row_paid {c : OrderChange} {hint : SyncHint} (h : c.row o = .ok (row, hint)) :
    PaidMove o row := by
  cases c with
  | transition cmd actor now =>
      obtain ⟨⟨r, plan⟩, ht, heq⟩ := Result.map_ok.mp h
      obtain ⟨rfl, rfl⟩ := Prod.mk.inj heq
      obtain ⟨hplan, rfl⟩ := Order.transition_ok ht
      exact transition_paid hplan
  | reopen cmd actor now =>
      obtain ⟨⟨r, plan⟩, ht, heq⟩ := Result.map_ok.mp h
      obtain ⟨rfl, rfl⟩ := Prod.mk.inj heq
      obtain ⟨hplan, rfl⟩ := Order.reopen_ok ht
      obtain ⟨-, -, -, hconfirmed⟩ := planReopen_ok hplan
      refine ⟨id, fun _ hlive => ?_, fun _ hdel => ?_⟩
      · cases hto : plan.toStatus with
        | pending =>
            rw [hto] at hlive
            cases hlive
        | confirmed => exact hconfirmed hto
      · have hst : plan.toStatus.status = .delivered := hdel
        cases hto : plan.toStatus <;> rw [hto] at hst <;> cases hst
  | markPaid version now =>
      obtain ⟨r, hr, heq⟩ := Result.map_ok.mp h
      obtain ⟨rfl, rfl⟩ := Prod.mk.inj heq
      obtain ⟨-, rfl⟩ := Order.markPaid_ok hr
      exact .of_paid (by simp [Order.markedPaid])
  | gatewaySuccess e now =>
      rcases gatewaySuccessRow_ok h with ⟨-, rfl, rfl⟩ | ⟨-, -, rfl, rfl⟩ | ⟨-, -, plan, hplan, rfl, rfl⟩
      · exact .refl _
      · exact .of_paid (by simp [Order.captured])
      · exact .of_paid ((transition_paid hplan).kept (by simp [Order.captured]))
  | refund amount =>
      obtain ⟨r, hr, heq⟩ := Result.map_ok.mp h
      obtain ⟨rfl, rfl⟩ := Prod.mk.inj heq
      obtain ⟨hpos, a, rfl⟩ := refundRow_ok hr
      exact .of_paid (paymentStatusAfterRefund_ne_unpaid hpos)
  | attempt id amount =>
      obtain ⟨rfl, rfl⟩ := Prod.mk.inj (Except.ok.inj h)
      exact .refl _
  | capture id fee =>
      obtain ⟨rfl, rfl⟩ := Prod.mk.inj (Except.ok.inj h)
      exact .refl _

/-- An order that is still unpaid after a change was unpaid before it, and nothing came in. -/
theorem OrderChange.row_unpaid {c : OrderChange} {hint : SyncHint} (h : c.row o = .ok (row, hint))
    (hunpaid : row.paymentStatus = .unpaid) :
    o.paymentStatus = .unpaid ∧ row.amountPaid = o.amountPaid := by
  have hbefore : o.paymentStatus = .unpaid := by
    by_contra hpaid
    exact (OrderChange.row_paid h).kept hpaid hunpaid
  refine ⟨hbefore, ?_⟩
  have hplan : ∀ (x : Order) (plan : TransitionPlan) (note : Option String) (at_ : Instant),
      (x.transitioned plan note at_).paymentStatus = .unpaid →
      (x.transitioned plan note at_).amountPaid = x.amountPaid := by
    intro x plan note at_ hx
    cases hm : plan.markPaid with
    | true => simp [Order.transitioned, hm] at hx
    | false => simp [Order.transitioned, hm]
  cases c with
  | transition cmd actor now =>
      obtain ⟨⟨r, plan⟩, ht, heq⟩ := Result.map_ok.mp h
      obtain ⟨rfl, -⟩ := Prod.mk.inj heq
      obtain ⟨-, rfl⟩ := Order.transition_ok ht
      exact hplan o plan _ _ hunpaid
  | reopen cmd actor now =>
      obtain ⟨⟨r, plan⟩, ht, heq⟩ := Result.map_ok.mp h
      obtain ⟨rfl, -⟩ := Prod.mk.inj heq
      rw [(Order.reopen_ok ht).2]
      rfl
  | markPaid version now =>
      obtain ⟨r, hr, heq⟩ := Result.map_ok.mp h
      obtain ⟨rfl, -⟩ := Prod.mk.inj heq
      obtain ⟨-, rfl⟩ := Order.markPaid_ok hr
      cases hunpaid
  | gatewaySuccess e now =>
      rcases gatewaySuccessRow_ok h with ⟨-, rfl, -⟩ | ⟨-, -, rfl, -⟩ | ⟨-, -, plan, hp, rfl, -⟩
      · rfl
      · cases hunpaid
      · exact absurd hunpaid ((transition_paid hp).kept (by simp [Order.captured]))
  | refund amount =>
      obtain ⟨r, hr, heq⟩ := Result.map_ok.mp h
      obtain ⟨rfl, -⟩ := Prod.mk.inj heq
      obtain ⟨-, a, rfl⟩ := refundRow_ok hr
      rfl
  | attempt id amount => rw [(Prod.mk.inj (Except.ok.inj h)).1]
  | capture id fee => rw [(Prod.mk.inj (Except.ok.inj h)).1]

end rows

/-- Everything a change of the history did. -/
theorem OrderChange.apply_ok {s s' : PaperSources} {orderId : OrderId} {c : OrderChange}
    {hint : SyncHint} (h : c.apply s orderId = .ok (s', hint)) :
    ∃ o row payments, Rows.lookup Order.id orderId s.orders = some o ∧
      c.row o = .ok (row, hint) ∧ OrderChange.paymentsAfter s.payments o c = .ok payments ∧
      s' = { s with orders := Rows.modify Order.id orderId (fun _ => row) s.orders, payments } := by
  unfold OrderChange.apply at h
  cases hl : Rows.lookup Order.id orderId s.orders with
  | none => simp [hl] at h
  | some o =>
      simp only [hl] at h
      obtain ⟨⟨row, hint'⟩, hrow, h⟩ := Result.bind_ok.mp h
      obtain ⟨payments, hpay, h⟩ := Result.bind_ok.mp h
      obtain ⟨rfl, rfl⟩ := Prod.mk.inj (Except.ok.inj h)
      exact ⟨o, row, payments, rfl, hrow, hpay, rfl⟩

/-- The row is where the change left it. -/
theorem lookup_modify_row {orders : List Order} {orderId : OrderId} {o row : Order}
    (hl : Rows.lookup Order.id orderId orders = some o) (hid : row.id = o.id) :
    Rows.lookup Order.id orderId (Rows.modify Order.id orderId (fun _ => row) orders) = some row := by
  have hkey : row.id = orderId := by rw [hid, Rows.key_of_lookup hl]
  induction orders with
  | nil => simp at hl
  | cons a rest ih =>
      rw [Rows.lookup_cons] at hl
      rw [Rows.modify_cons, Rows.lookup_cons]
      by_cases ha : a.id = orderId
      · simp [ha, hkey]
      · rw [if_neg ha] at hl
        simp only [if_neg ha]
        exact ih hl

end BookHouse
