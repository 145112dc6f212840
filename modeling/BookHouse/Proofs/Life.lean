/-
The money of an order over whole runs.

The rules look at `paymentStatus` only, so what the amounts say has to be carried along:
while the order is unpaid there is no money on it, and from then on the amount paid is the
grand total, because an attempt is started for what is due and the gateway's amount comes
from the attempt.  Every call is inverted once (`call_ok`); the invariant follows from what
the calls do to the row (`PaidMove`, `ReceiptMove`), to the attempts and to the refunds.
-/
import BookHouse.Payments.LifeMachine
import BookHouse.Proofs.Desk
import BookHouse.Proofs.History
import BookHouse.Proofs.RefundSteps

namespace BookHouse

open Machine

/-! ### What a call does to the money of the row -/

/-- Money comes to an unpaid order all at once; otherwise the amounts stay. -/
inductive ReceiptMove (o row : Order) (amount : Money) : Prop
  | kept (status : row.paymentStatus = o.paymentStatus) (paid : row.amountPaid = o.amountPaid)
      (refunded : row.amountRefunded = o.amountRefunded)
  | arrived (unpaid : o.paymentStatus = .unpaid) (status : row.paymentStatus = .paid)
      (paid : row.amountPaid = amount) (refunded : row.amountRefunded = o.amountRefunded)

section rows

variable {o row : Order} {actor : TransitionActor} {now : Instant}

theorem transition_money {cmd : TransitionCommand} {plan : TransitionPlan}
    (h : planTransition o (cmd.request actor now) = .ok plan) :
    ReceiptMove o (o.transitioned plan cmd.note now) o.grandTotal := by
  by_cases hm : plan.markPaid
  · obtain ⟨-, -, hcase⟩ := planTransition_cases h
    have hunpaid : o.paymentStatus = .unpaid := by
      cases hcase with
      | regress mode actor target eq =>
          rw [eq] at hm
          exact absurd hm (by simp)
      | void terminal eq granted =>
          rw [eq] at hm
          exact absurd hm (by simp [voidPlan])
      | advance flow forward actor paid eq =>
          rw [eq] at hm
          simp only [planAdvance, Bool.and_eq_true, decide_eq_true_eq] at hm
          exact hm.2
    refine .arrived hunpaid ?_ ?_ rfl
    · simp [Order.transitioned, hm]
    · simp [Order.transitioned, hm]
  · refine .kept ?_ ?_ rfl
    · simp [Order.transitioned, hm]
    · simp [Order.transitioned, hm]

/-- A paid order that is confirmed keeps its money. -/
theorem confirm_money {e : PaymentSucceededEvent} {plan : TransitionPlan}
    (hunpaid : o.paymentStatus = .unpaid)
    (h : planTransition (o.captured e now) ((confirmCommand e).request actor now) = .ok plan) :
    ReceiptMove o ((o.captured e now).transitioned plan (confirmCommand e).note now) e.amount := by
  cases transition_money h with
  | kept status paid refunded => exact .arrived hunpaid status paid refunded
  | arrived unpaid => exact absurd unpaid (by simp [Order.captured])

end rows

/-! ### What a call does -/

/-- A committed call moves the row, or its attempts, or its refunds. -/
inductive LifeMove (s t : OrderLife) : Prop
  | row {amount : Money} (status : PaidMove s.row t.row) (money : ReceiptMove s.row t.row amount)
      (billed : t.row.billed = s.row.billed)
      (due : amount = s.row.grandTotal ∨ ∃ e ∈ s.captured, e.amount = amount)
      (eq : t = { s with row := t.row })
  | attempts
      (due : ∀ p ∈ t.payments, (∃ q ∈ s.payments, q.amount = p.amount) ∨
        s.row.paymentStatus = .unpaid ∧ p.amount = PaymentCheckout.amountDue s.row)
      (captured : ∀ e ∈ t.captured, e ∈ s.captured ∨ ∃ p ∈ s.payments, p.amount = e.amount)
      (eq : t = { s with payments := t.payments, captured := t.captured })
  | refunds (paid : t.refunds ≠ [] → s.refunds ≠ [] ∨ 0 < s.row.amountPaid)
      (eq : t = { s with refunds := t.refunds })
  | refunded {amount : Money} (paid : s.refunds ≠ [] ∨ 0 < s.row.amountPaid)
      (row : t.row = s.row.refundCompleted amount)
      (eq : t = { s with row := t.row, refunds := t.refunds, cash := t.cash })

section calls

variable {s t : OrderLife} {actor : TransitionActor} {now : Instant}

theorem OrderLife.withRow_ok {row : Except Failure Order} (h : s.withRow row = .ok t) :
    row = .ok t.row ∧ t = { s with row := t.row } := by
  obtain ⟨o, ho, rfl⟩ := Result.map_ok.mp h
  exact ⟨ho, rfl⟩

theorem OrderLife.transition_ok {cmd : TransitionCommand}
    (h : s.transition cmd actor now = .ok t) : LifeMove s t := by
  unfold OrderLife.transition at h
  split at h
  · cases h
  obtain ⟨hrow, heq⟩ := OrderLife.withRow_ok h
  obtain ⟨⟨o, plan⟩, ht, ho⟩ := Result.map_ok.mp hrow
  obtain ⟨hplan, hcolumns⟩ := Order.transition_ok ht
  have hrow' : t.row = s.row.transitioned plan cmd.note now := ho.symm.trans hcolumns
  refine @LifeMove.row s t s.row.grandTotal ?_ ?_ ?_ (.inl rfl) heq
  · rw [hrow']
    exact transition_paid hplan
  · rw [hrow']
    exact transition_money hplan
  · rw [hrow', Order.billed_transitioned]

theorem OrderLife.complete_ok {r : Refund} (h : s.complete r now = .ok t) :
    t.row = s.row.refundCompleted r.amount ∧ t = { s with row := t.row, cash := t.cash } := by
  obtain ⟨⟨row, cash⟩, happly, hret⟩ := Result.bind_ok.mp h
  obtain rfl := Except.ok.inj hret
  exact ⟨(applyCompleted_ok happly).1, rfl⟩

/-- The rows after an attempt was started: old ones with their amounts, and what is due. -/
theorem start_ok {payments payments' : List Payment} {o : Order}
    (h : PaymentCheckout.start payments o = .ok payments') :
    PaymentCheckout.initRefusal o = none ∧ ∃ id tranId,
      payments' = PaymentCheckout.supersede payments o.id ++
        [PaymentCheckout.newPayment id o tranId] := by
  unfold PaymentCheckout.start at h
  cases hr : PaymentCheckout.initRefusal o with
  | some failure => simp [hr] at h
  | none =>
      simp only [hr] at h
      unfold PaymentCheckout.insertPayment at h
      split at h
      · cases h
      split at h
      · cases h
      exact ⟨rfl, _, _, (Except.ok.inj h).symm⟩

theorem initRefusal_unpaid {o : Order} (h : PaymentCheckout.initRefusal o = none) :
    o.paymentStatus = .unpaid := by
  unfold PaymentCheckout.initRefusal at h
  split at h
  · cases h
  split at h
  · cases h
  split at h
  · cases h
  rename_i hpaid
  exact not_not.mp hpaid

@[simp] theorem superseded_amount (p : Payment) : (PaymentCheckout.superseded p).amount = p.amount := by
  unfold PaymentCheckout.superseded
  split <;> rfl

@[simp] theorem succeed_amount (c : PaymentSettlement.Captured) (p : Payment) :
    (PaymentSettlement.succeed c now p).amount = p.amount := by
  unfold PaymentSettlement.succeed
  split <;> rfl

@[simp] theorem fail_amount (status : Failable) (reason : String) (p : Payment) :
    (PaymentSettlement.fail status reason p).amount = p.amount := by
  unfold PaymentSettlement.fail
  split <;> rfl

/-- An update of the attempts that keeps their amounts. -/
theorem amount_modify {id : PaymentId} {f : Payment → Payment} (hf : ∀ p, (f p).amount = p.amount)
    {payments : List Payment} :
    ∀ p ∈ Rows.modify Payment.id id f payments, ∃ q ∈ payments, q.amount = p.amount := by
  intro p hp
  obtain ⟨q, hq, rfl⟩ := List.mem_map.mp hp
  refine ⟨q, hq, ?_⟩
  split
  · exact (hf q).symm
  · rfl

theorem newRefund_paid {o : Order} {payments : List Payment} {input : RefundInput}
    {refundId : RefundId} {flight : Money} {r : Refund}
    (h : RefundsService.newRefund o payments input refundId flight now = .ok r) :
    0 < o.amountPaid := by
  obtain ⟨amount, hask, -⟩ := Result.bind_ok.mp h
  exact (checkRefund_ok hask).2.2.1

/-- **Everything a committed call did.** -/
theorem LifeAction.call_ok {a : LifeAction} (h : a.call s = .ok t) : LifeMove s t := by
  cases a with
  | transition cmd actor now => exact OrderLife.transition_ok h
  | regress note version actor now =>
      simp only [LifeAction.call] at h
      split at h
      · cases h
      · exact OrderLife.transition_ok h
  | reopen cmd actor now =>
      simp only [LifeAction.call] at h
      split at h
      · cases h
      obtain ⟨hrow, heq⟩ := OrderLife.withRow_ok h
      obtain ⟨⟨o, plan⟩, hr, ho⟩ := Result.map_ok.mp hrow
      have hchange : (OrderChange.reopen cmd actor now).row s.row =
          .ok (o, { fromStatus := some plan.fromStatus }) := Result.map_ok.mpr ⟨_, hr, rfl⟩
      obtain rfl : o = t.row := ho
      refine @LifeMove.row s t s.row.grandTotal (OrderChange.row_paid hchange) ?_
        (OrderChange.row_billed hchange) (.inl rfl) heq
      rw [(Order.reopen_ok hr).2]
      exact .kept rfl rfl rfl
  | bulkStatus action seen note credit now =>
      obtain ⟨toStatus, -, h⟩ := Result.bind_ok.mp h
      exact OrderLife.transition_ok h
  | markPaid version now =>
      obtain ⟨hrow, heq⟩ := OrderLife.withRow_ok h
      have hchange : (OrderChange.markPaid version now).row s.row = .ok (t.row, {}) :=
        Result.map_ok.mpr ⟨_, hrow, rfl⟩
      obtain ⟨hgranted, hcolumns⟩ := Order.markPaid_ok hrow
      refine @LifeMove.row s t s.row.grandTotal (OrderChange.row_paid hchange) ?_
        (OrderChange.row_billed hchange) (.inl rfl) heq
      rw [hcolumns]
      refine .arrived ?_ rfl rfl rfl
      unfold markPaidRefusal at hgranted
      split at hgranted
      · cases hgranted
      split at hgranted
      · cases hgranted
      split at hgranted
      · cases hgranted
      · rename_i hpaid
        exact not_not.mp hpaid
  | init =>
      obtain ⟨payments, hstart, rfl⟩ := Result.map_ok.mp h
      obtain ⟨hgranted, id, tranId, rfl⟩ := start_ok hstart
      refine .attempts (fun p hp => ?_) (fun e he => .inl he) rfl
      rcases List.mem_append.mp hp with hold | hnew
      · obtain ⟨q, hq, rfl⟩ := List.mem_map.mp hold
        refine .inl ⟨q, hq, ?_⟩
        split
        · exact (superseded_amount q).symm
        · rfl
      · rw [List.mem_singleton.mp hnew]
        exact .inr ⟨initRefusal_unpaid hgranted, rfl⟩
  | capture id columns now =>
      simp only [LifeAction.call] at h
      split at h
      · cases h
      rename_i p hp
      split at h
      · cases h
      obtain rfl := Except.ok.inj h
      refine .attempts (fun q hq => .inl (amount_modify (fun _ => succeed_amount ..) q hq)) ?_ rfl
      intro e he
      rcases List.mem_append.mp he with hold | hnew
      · exact .inl hold
      · rw [List.mem_singleton.mp hnew]
        exact .inr ⟨p, Rows.mem_of_lookup hp, rfl⟩
  | closeAttempt id status reason =>
      obtain rfl := Except.ok.inj h
      exact .attempts (fun q hq => .inl (amount_modify (fun _ => fail_amount ..) q hq))
        (fun e he => .inl he) rfl
  | gatewaySuccess e now =>
      simp only [LifeAction.call] at h
      split at h
      · rename_i he
        obtain ⟨hrow, heq⟩ := OrderLife.withRow_ok h
        obtain ⟨⟨o, hint⟩, hg, ho⟩ := Result.map_ok.mp hrow
        obtain rfl : o = t.row := ho
        have hchange : (OrderChange.gatewaySuccess e now).row s.row = .ok (t.row, hint) := hg
        refine @LifeMove.row s t e.amount (OrderChange.row_paid hchange) ?_
          (OrderChange.row_billed hchange) (.inr ⟨e, he, rfl⟩) heq
        rcases gatewaySuccessRow_ok hg with ⟨-, hsame, -⟩ | ⟨hunpaid, -, hcap, -⟩ |
          ⟨hunpaid, -, plan, hplan, hconf, -⟩
        · rw [hsame]
          exact .kept rfl rfl rfl
        · rw [hcap]
          exact .arrived hunpaid rfl rfl rfl
        · rw [hconf]
          exact confirm_money hunpaid hplan
      · cases h
  | gatewayFailure e now =>
      simp only [LifeAction.call] at h
      split at h
      · exact OrderLife.transition_ok h
      · obtain rfl := Except.ok.inj h
        exact .refunds (fun hne => .inl hne) rfl
  | sweep now => exact OrderLife.transition_ok h
  | refund input refundId now =>
      obtain ⟨r, hnew, h⟩ := Result.bind_ok.mp h
      have hpaid := newRefund_paid hnew
      split at h
      · cases h
      split at h
      · obtain ⟨hrow, heq⟩ := OrderLife.complete_ok h
        exact .refunded (.inr hpaid) hrow (by rw [heq])
      · obtain rfl := Except.ok.inj h
        exact .refunds (fun _ => .inr hpaid) rfl
  | settleRefund refundId status providerRef now =>
      simp only [LifeAction.call] at h
      split at h
      · cases h
      rename_i r hr
      have hsome : s.refunds ≠ [] := List.ne_nil_of_mem (Rows.mem_of_lookup hr)
      split at h
      · obtain rfl := Except.ok.inj h
        exact .refunds (fun _ => .inl hsome) rfl
      split at h
      · obtain ⟨hrow, heq⟩ := OrderLife.complete_ok h
        exact .refunded (.inl hsome) hrow (by rw [heq])
      · obtain rfl := Except.ok.inj h
        exact .refunds (fun _ => .inl hsome) rfl
  | refundFailed refundId =>
      obtain rfl := Except.ok.inj h
      refine .refunds (fun hne => .inl fun hnil => hne ?_) rfl
      rw [hnil]
      rfl

end calls

/-! ### The invariant -/

/-- What the money columns say, and what the attempts and the captures carry. -/
structure LifeInv (o : Order) (s : OrderLife) : Prop where
  billed : s.row.billed = o.billed
  unpaid : s.row.paymentStatus = .unpaid → s.row.amountPaid = 0 ∧ s.row.amountRefunded = 0
  paid : s.row.paymentStatus ≠ .unpaid → s.row.amountPaid = s.row.grandTotal
  refunds : s.refunds ≠ [] → 0 < s.row.amountPaid
  due : ∀ p ∈ s.payments, p.amount = s.row.grandTotal
  captured : ∀ e ∈ s.captured, e.amount = s.row.grandTotal
  /-- an online order is live only when it is paid -/
  online : s.row.status.isLive → awaitingPayment s.row = false
  delivered : s.row.status = .delivered → s.row.paymentStatus ≠ .unpaid

section invariant

variable {o : Order} {s t : OrderLife}

/-- A placed order, before anything happens to it. -/
theorem Order.Fresh.life (h : o.Fresh) : LifeInv o { row := o } := by
  refine ⟨rfl, fun _ => h.noMoney, fun hc => absurd h.unpaid hc, fun hc => absurd rfl hc,
    fun p hp => ?_, fun e he => ?_, fun hlive => ?_, fun hdel => ?_⟩
  · cases hp
  · cases he
  · rw [h.status] at hlive
    exact absurd hlive (by decide)
  · rw [h.status] at hdel
    exact absurd hdel (by decide)

theorem LifeMove.inv (h : LifeInv o s) (hm : LifeMove s t) : LifeInv o t := by
  cases hm with
  | @row amount status money billed due eq =>
      have htotal : t.row.grandTotal = s.row.grandTotal := Order.billed_total billed
      have hamount : amount = s.row.grandTotal := by
        rcases due with hd | ⟨e, he, hd⟩
        · exact hd
        · rw [← hd, h.captured e he]
      have hpayments : t.payments = s.payments := by rw [eq]
      have hcaptured : t.captured = s.captured := by rw [eq]
      have hrefunds : t.refunds = s.refunds := by rw [eq]
      refine ⟨billed.trans h.billed, ?_, ?_, ?_, ?_, ?_, status.online h.online,
        status.delivered h.delivered⟩
      · intro hu
        cases money with
        | kept st paid refunded =>
            rw [paid, refunded]
            exact h.unpaid (st ▸ hu)
        | arrived unpaid st paid refunded =>
            rw [st] at hu
            exact absurd hu (by decide)
      · intro hp
        cases money with
        | kept st paid refunded =>
            rw [paid, htotal]
            exact h.paid (st ▸ hp)
        | arrived unpaid st paid refunded => rw [paid, hamount, htotal]
      · intro hne
        have hpos := h.refunds (hrefunds ▸ hne)
        cases money with
        | kept st paid refunded =>
            rw [paid]
            exact hpos
        | arrived unpaid st paid refunded =>
            have hz := (h.unpaid unpaid).1
            rw [hz] at hpos
            exact absurd hpos (lt_irrefl _)
      · intro p hp
        rw [htotal]
        exact h.due p (hpayments ▸ hp)
      · intro e he
        rw [htotal]
        exact h.captured e (hcaptured ▸ he)
  | attempts due captured eq =>
      have hrow : t.row = s.row := by rw [eq]
      have hrefunds : t.refunds = s.refunds := by rw [eq]
      refine ⟨hrow ▸ h.billed, hrow ▸ h.unpaid, hrow ▸ h.paid, ?_, ?_, ?_, hrow ▸ h.online,
        hrow ▸ h.delivered⟩
      · rw [hrow, hrefunds]
        exact h.refunds
      · intro p hp
        rw [hrow]
        rcases due p hp with ⟨q, hq, hamount⟩ | ⟨hunpaid, hamount⟩
        · rw [← hamount, h.due q hq]
        · rw [hamount, PaymentCheckout.amountDue, (h.unpaid hunpaid).1, sub_zero]
      · intro e he
        rw [hrow]
        rcases captured e he with hold | ⟨p, hp, hamount⟩
        · exact h.captured e hold
        · rw [← hamount, h.due p hp]
  | refunds paid eq =>
      have hrow : t.row = s.row := by rw [eq]
      have hpayments : t.payments = s.payments := by rw [eq]
      have hcaptured : t.captured = s.captured := by rw [eq]
      refine ⟨hrow ▸ h.billed, hrow ▸ h.unpaid, hrow ▸ h.paid, ?_, ?_, ?_, hrow ▸ h.online,
        hrow ▸ h.delivered⟩
      · intro hne
        rw [hrow]
        exact (paid hne).elim h.refunds id
      · rw [hrow, hpayments]
        exact h.due
      · rw [hrow, hcaptured]
        exact h.captured
  | @refunded amount paid row eq =>
      have hpos : 0 < s.row.amountPaid := paid.elim h.refunds id
      have hwas : s.row.paymentStatus ≠ .unpaid := by
        intro hu
        rw [(h.unpaid hu).1] at hpos
        exact absurd hpos (lt_irrefl _)
      have hpaid : t.row.paymentStatus ≠ .unpaid := by
        rw [row]
        exact paymentStatusAfterRefund_ne_unpaid hpos
      have hpayments : t.payments = s.payments := by rw [eq]
      have hcaptured : t.captured = s.captured := by rw [eq]
      refine ⟨?_, fun hu => absurd hu hpaid, fun _ => ?_, fun _ => ?_, ?_, ?_, fun _ => ?_,
        fun _ => hpaid⟩
      · rw [row]
        exact h.billed
      · rw [row]
        exact h.paid hwas
      · rw [row]
        exact hpos
      · rw [row, hpayments]
        exact h.due
      · rw [row, hcaptured]
        exact h.captured
      · unfold awaitingPayment
        simp [hpaid]

theorem lifeStep_inv {a : LifeAction} (h : LifeInv o s) (hstep : lifeStep s a = some t) :
    LifeInv o t :=
  (LifeAction.call_ok (Result.toOption_some.mp hstep)).inv h

theorem lifeRun_inv (as : List LifeAction) (h : o.Fresh)
    (hrun : runFrom lifeStep { row := o } as = some t) : LifeInv o t :=
  runFrom_invariant (fun _ _ _ hi hs => lifeStep_inv hi hs) as _ t h.life hrun

end invariant

theorem placeInTx_fresh {s t : Store} {req : PlaceOrder} {now : Instant} {o : Order}
    (h : placeInTx s req now = .ok (t, o)) : o.Fresh ∧ o.paymentMethod = req.paymentMethod := by
  obtain ⟨phone, -, -, rfl, -⟩ := placeInTx_ok h
  exact ⟨fresh_newOrder .., rfl⟩

/-! ### An online order is live only when it is paid -/

/-- **No unpaid online order goes live**, whatever is done to it. -/
theorem online_live_only_paid (s s' : Store) (req : PlaceOrder) (placed : Instant) (o : Order)
    (hplaced : placeInTx s req placed = .ok (s', o)) (hmethod : req.paymentMethod = .sslcommerz)
    (as : List LifeAction) (t : OrderLife) (hrun : runFrom lifeStep { row := o } as = some t)
    (hlive : t.row.status = .confirmed ∨ t.row.status = .processing ∨
      t.row.status = .handedToCourier ∨ t.row.status = .outForDelivery ∨
      t.row.status = .delivered) :
    t.row.paymentStatus ≠ .unpaid := by
  obtain ⟨hfresh, hpays⟩ := placeInTx_fresh hplaced
  have hinv := lifeRun_inv as hfresh hrun
  have hssl : t.row.paymentMethod = .sslcommerz := by
    rw [Order.billed_method hinv.billed, hpays, hmethod]
  have hpaid : awaitingPayment t.row = false := by
    refine hinv.online ?_
    rcases hlive with h | h | h | h | h <;> rw [h] <;> rfl
  intro hunpaid
  simp [awaitingPayment, hssl, hunpaid] at hpaid

/-- What placing that cart in the small shop comes to. -/
def oneBookOrder (method : PaymentMethod) : Option (Store × Order) :=
  (placeInTx smallShop (oneBook method) 1).toOption

/-- An attempt, its capture, the confirmation that follows, and a parcel. -/
def paidOnline : List LifeAction :=
  [.init, .capture 0 { valId := "v", fee := 5 } 2,
   .gatewaySuccess { amount := 260, fee := 5, tranId := "CLO-2042-1" } 3,
   .bulkStatus .advance .confirmed none none 4]

theorem online_live_only_paid_run :
    ∃ s' o t, placeInTx smallShop (oneBook .sslcommerz) 1 = .ok (s', o) ∧
      runFrom lifeStep { row := o } paidOnline = some t ∧ t.row.status = .processing ∧
      t.row.paymentStatus ≠ .unpaid := by
  have hruns : (oneBookOrder .sslcommerz).any (fun r =>
      (runFrom lifeStep { row := r.2 } paidOnline).any (·.row.status = .processing)) = true := by
    decide +kernel
  obtain ⟨⟨s', o⟩, hplaced, hrun⟩ := Option.any_eq_true _ _ |>.mp hruns
  obtain ⟨t, ht, hstatus⟩ := Option.any_eq_true _ _ |>.mp hrun
  have hplaced' := Result.toOption_some.mp hplaced
  have hprocessing : t.row.status = .processing := by simpa using hstatus
  exact ⟨s', o, t, hplaced', ht, hprocessing,
    online_live_only_paid smallShop s' (oneBook .sslcommerz) 1 o hplaced' rfl paidOnline t ht
      (.inr (.inl hprocessing))⟩

/-! ### A delivered order is paid for, unless money went back before -/

/-- What is left on the order of what was paid is its grand total. -/
def PaidFor (o : Order) : Prop := o.amountPaid - o.amountRefunded = o.grandTotal

instance (o : Order) : Decidable (PaidFor o) := inferInstanceAs (Decidable (_ = _))

/--
**A delivery is paid for exactly when nothing was refunded before it.**  A re-opened order
keeps the payment status of its first life, so a COD order whose money went back is handed
over again and not marked paid.
-/
theorem delivered_paidFor_iff (s s' : Store) (req : PlaceOrder) (placed : Instant) (o : Order)
    (hplaced : placeInTx s req placed = .ok (s', o)) (as : List LifeAction) (a : LifeAction)
    (t t' : OrderLife) (hrun : runFrom lifeStep { row := o } as = some t)
    (hstep : lifeStep t a = some t') (hbefore : t.row.status ≠ .delivered)
    (hafter : t'.row.status = .delivered) :
    PaidFor t'.row ↔ t.row.amountRefunded = 0 := by
  have hinv := lifeRun_inv as (placeInTx_fresh hplaced).1 hrun
  have hinv' := lifeStep_inv hinv hstep
  have hpaid : t'.row.amountPaid = t'.row.grandTotal := hinv'.paid (hinv'.delivered hafter)
  have hrefunded : t'.row.amountRefunded = t.row.amountRefunded := by
    cases LifeAction.call_ok (Result.toOption_some.mp hstep) with
    | row status money billed due eq =>
        cases money with
        | kept st paid refunded => exact refunded
        | arrived unpaid st paid refunded => exact refunded
    | attempts due captured eq => rw [eq]
    | refunds paid eq => rw [eq]
    | refunded paid row eq =>
        -- a refund leaves the status as it was
        rw [row] at hafter
        exact absurd hafter hbefore
  rw [PaidFor, hpaid, hrefunded]
  constructor
  · intro h
    linarith
  · intro h
    rw [h, sub_zero]

/-- A COD parcel comes back, its money goes back, and it is sent out again. -/
def sentTwice : List LifeAction :=
  [.transition { toStatus := .delivered } .staff 2,
   .transition { toStatus := .returned, credit := some { reason := "ফেরত" } } .staff 3,
   .refund { amount := 260, reason := "ফেরত" } "r1" 4,
   .reopen { reason := "আবার নেবেন" } .staff 5]

/-- **The second delivery is not paid for.** -/
theorem redelivered_unpaid :
    ∃ s' o t t', placeInTx smallShop (oneBook .cod) 1 = .ok (s', o) ∧
      runFrom lifeStep { row := o } sentTwice = some t ∧
      GuardedRun lifeStep RefundsWhenClosed { row := o } sentTwice ∧
      lifeStep t (.transition { toStatus := .delivered } .staff 6) = some t' ∧
      t.row.status ≠ .delivered ∧ t'.row.status = .delivered ∧ ¬PaidFor t'.row := by
  have hruns : (oneBookOrder .cod).any (fun r =>
      decide (GuardedRun lifeStep RefundsWhenClosed { row := r.2 } sentTwice) &&
      (runFrom lifeStep { row := r.2 } sentTwice).any fun t => t.row.status ≠ .delivered &&
        (lifeStep t (.transition { toStatus := .delivered } .staff 6)).any fun t' =>
          t'.row.status = .delivered && !decide (PaidFor t'.row)) = true := by
    decide +kernel
  obtain ⟨⟨s', o⟩, hplaced, hrun⟩ := Option.any_eq_true _ _ |>.mp hruns
  obtain ⟨hguard, hrun⟩ := Bool.and_eq_true_iff.mp hrun
  obtain ⟨t, ht, hrest⟩ := Option.any_eq_true _ _ |>.mp hrun
  obtain ⟨hbefore, hrest⟩ := Bool.and_eq_true_iff.mp hrest
  obtain ⟨t', ht', hend⟩ := Option.any_eq_true _ _ |>.mp hrest
  obtain ⟨hafter, hdue⟩ := Bool.and_eq_true_iff.mp hend
  exact ⟨s', o, t, t', Result.toOption_some.mp hplaced, ht, of_decide_eq_true hguard, ht',
    of_decide_eq_true hbefore, of_decide_eq_true hafter, by simpa using hdue⟩

/-- The first delivery is. -/
theorem delivered_paidFor_first :
    ∃ s' o t', placeInTx smallShop (oneBook .cod) 1 = .ok (s', o) ∧
      lifeStep { row := o } (.transition { toStatus := .delivered } .staff 2) = some t' ∧
      PaidFor t'.row := by
  have hruns : (oneBookOrder .cod).any (fun r => r.2.status ≠ .delivered &&
      r.2.amountRefunded = 0 &&
      (lifeStep { row := r.2 } (.transition { toStatus := .delivered } .staff 2)).any
        (·.row.status = .delivered)) = true := by
    decide +kernel
  obtain ⟨⟨s', o⟩, hplaced, hrun⟩ := Option.any_eq_true _ _ |>.mp hruns
  obtain ⟨hstart, hrun⟩ := Bool.and_eq_true_iff.mp hrun
  obtain ⟨hbefore, hnone⟩ := Bool.and_eq_true_iff.mp hstart
  obtain ⟨t', ht', hafter⟩ := Option.any_eq_true _ _ |>.mp hrun
  have hplaced' := Result.toOption_some.mp hplaced
  refine ⟨s', o, t', hplaced', ht', ?_⟩
  exact (delivered_paidFor_iff smallShop s' (oneBook .cod) 1 o hplaced' [] _ { row := o } t' rfl ht'
    (of_decide_eq_true hbefore) (of_decide_eq_true hafter)).mpr (of_decide_eq_true hnone)

end BookHouse
