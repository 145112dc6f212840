/-
Refunds are settled once, and no more goes back than was paid.

Both results are about any number of `create` and `refresh` calls in any order.  The
first compares the order, the cashbook and the refunds row by row: a completed refund
joins all three at once, unless it joined them before.  The second bounds what can still
go out by what is counted against the order; the count is what `create` reads, so it
bounds the next refund too.
-/
import BookHouse.Proofs.Payments
import BookHouse.Proofs.RefundSteps

namespace BookHouse

open RefundsService

/-- A paid order on which nothing was refunded yet. -/
structure Unrefunded (s : RefundState) : Prop where
  idle : s.tasks = []
  noRefunds : s.refunds = []
  sound : s.order.check = .ok ()
  paisa : Paisa s.order.amountPaid
  nothing : s.order.amountRefunded = 0
  status : s.order.paymentStatus = paymentStatusAfterRefund s.order.amountPaid 0
  noEntries : s.entries = []
  ledger : CashLedger.Sound s.cash

theorem Unrefunded.base {s : RefundState} (h : Unrefunded s) : RefundBase s := by
  refine ⟨?_, ?_, ?_, ?_⟩
  · rw [h.noRefunds]
    exact List.nodup_nil
  · rw [h.noRefunds]
    intro r hr
    cases hr
  · rw [h.noRefunds]
    intro r hr
    cases hr
  · rw [h.idle]
    intro t ht
    cases ht

/-! ### Settled once -/

namespace CashLedger

/-- A refund whose memo no live entry has gets an entry of its own. -/
theorem recordRefund_new {b b' : Cashbook} {p : RefundPosting} (hb : Sound b)
    (hfree : has b { orderId := some p.orderId, kind := .refund, memo := some p.memo } = false)
    (hpaisa : Paisa p.amount) (h : recordRefund b p = .ok b') :
    Sound b' ∧ ∃ e : CashTransaction, (e.memo, e.amount) = (sliceTo 500 p.memo, p.amount) ∧
      live b' { orderId := some p.orderId, kind := .refund, direction := some .out } =
        live b { orderId := some p.orderId, kind := .refund, direction := some .out } ++ [e] := by
  rw [recordRefund, if_neg (by rw [hfree]; simp)] at h
  refine ⟨hb.post (fun i hc => by cases hc) h, ?_⟩
  obtain ⟨acc, hlive⟩ := live_post
    (m := { orderId := some p.orderId, kind := .refund, direction := some .out }) hb rfl h
  rw [if_pos (by simp [Match.holds, PostEntry.row])] at hlive
  exact ⟨_, by simp [PostEntry.row, round2_of_paisa hpaisa], hlive⟩

end CashLedger

structure AgreeInv (s : RefundState) : Prop where
  base : RefundBase s
  ledger : CashLedger.Sound s.cash
  refunded : s.order.amountRefunded = (s.completed.map (·.amount)).sum
  entries : (s.entries.map fun e => (e.memo, e.amount)).Perm
    (s.completed.map (RefundState.entryOf s.order))
  status : s.order.paymentStatus =
    paymentStatusAfterRefund s.order.amountPaid s.order.amountRefunded

theorem AgreeInv.agree {s : RefundState} (hi : AgreeInv s) : RefundsAgree s := by
  refine ⟨hi.refunded, ?_, hi.entries, hi.status⟩
  have hamounts := (hi.entries.map Prod.snd).sum_eq
  rw [List.map_map, List.map_map] at hamounts
  exact hamounts

section agree

variable {s s' : RefundState} {a : RefundAction} {r : Refund} {now : Instant} {completes : Prop}

/-- The books still agree when the refunds that are completed and the money move together. -/
theorem AgreeInv.after (hi : AgreeInv s) (hbase : RefundBase s') (hpaisa : Paisa r.amount)
    (hmoney : MoneyMove s r now completes s'.order s'.cash)
    (hfree : completes → noEntryYet s r = true)
    (hyes : completes → ∃ y : Refund, y.fixed = r.fixed ∧ s'.completed.Perm (s.completed ++ [y]))
    (hno : ¬completes → s'.completed.Perm s.completed) : AgreeInv s' := by
  cases hmoney with
  | none no order cash =>
      have hperm := hno no
      have hentries : s'.entries = s.entries := by
        unfold RefundState.entries
        rw [order, cash]
      refine ⟨hbase, cash ▸ hi.ledger, ?_, ?_, by rw [order]; exact hi.status⟩
      · rw [order, hi.refunded]
        exact ((hperm.map _).sum_eq).symm
      · rw [order, hentries]
        exact hi.entries.trans (hperm.map _).symm
  | out yes order cash =>
      obtain ⟨y, hfix, hperm⟩ := hyes yes
      obtain ⟨hid, hrest⟩ := Prod.mk.inj hfix
      have hamount : y.amount = r.amount := (Prod.mk.inj hrest).1
      have hnone : CashLedger.has s.cash
          { orderId := some s.order.id, kind := .refund,
            memo := some (posting s.order r now).memo } = false := by
        have hyet := hfree yes
        rw [noEntryYet, Bool.not_eq_true'] at hyet
        exact hyet
      obtain ⟨hsound, e, hpair, hlive⟩ :=
        CashLedger.recordRefund_new (p := posting s.order r now) hi.ledger hnone hpaisa cash
      have hentries : s'.entries = s.entries ++ [e] := by
        unfold RefundState.entries
        rw [order]
        exact hlive
      have hentry : RefundState.entryOf s.order y = (e.memo, e.amount) := by
        rw [hpair, RefundState.entryOf, hamount]
        show (sliceTo 500 ("ফেরত " ++ s.order.orderNo ++ " · " ++ sliceTo 8 y.id), _) = _
        rw [hid]
        rfl
      refine ⟨hbase, hsound, ?_, ?_, by rw [order]; rfl⟩
      · rw [order, (hperm.map _).sum_eq, List.map_append, List.sum_append, ← hi.refunded,
          List.map_singleton, List.sum_singleton, hamount]
        rfl
      · have hsame : RefundState.entryOf s'.order = RefundState.entryOf s.order := by
          rw [order]
          rfl
        rw [hsame, hentries, List.map_append, List.map_singleton, ← hentry]
        refine List.Perm.trans ?_ (hperm.map _).symm
        rw [List.map_append, List.map_singleton]
        exact hi.entries.append_right _

/-- The task that acts is the one the guard speaks of. -/
theorem all_of_get {t : RefundTask} {i : ℕ} {p : RefundTask → Bool} (hget : s.tasks[i]? = some t)
    (hall : s.tasks[i]?.all p = true) : p t = true := by
  rw [hget] at hall
  exact hall

theorem notCompleted_row {id : RefundId} {x : Refund}
    (hx : Rows.lookup Refund.id id s.refunds = some x) (h : notCompleted s id = true) :
    decide (x.status = .completed) = false := by
  rw [notCompleted, hx] at h
  simpa using h

/-- **A step that writes over no completed refund keeps the books in agreement.** -/
theorem refundStep_agree (hi : AgreeInv s) (hclear : WritesOnce s a)
    (h : refundStep s a = some s') : AgreeInv s' := by
  have hbase := refundStep_base hi.base h
  cases refundStep_cases h with
  | start work eq =>
      subst eq
      exact ⟨hbase, hi.ledger, hi.refunded, hi.entries, hi.status⟩
  | move i work old new get phase eq =>
      subst eq
      exact ⟨hbase, hi.ledger, hi.refunded, hi.entries, hi.status⟩
  | answer i work id known pref ref status act get eq =>
      subst eq
      exact ⟨hbase, hi.ledger, hi.refunded, hi.entries, hi.status⟩
  | lost i input own id pref taken act get eq =>
      subst eq
      exact ⟨hbase, hi.ledger, hi.refunded, hi.entries, hi.status⟩
  | insert i now input id o k seen r s₁ act get asked serial commit eq =>
      subst act
      have honce := all_of_get get hclear
      obtain ⟨-, -, -, -, hpaisa, -⟩ := newRefund_ok asked
      obtain ⟨-, o', cash', writes, rfl, hmoney⟩ := commitCreate_ok commit
      subst eq
      refine hi.after hbase hpaisa hmoney ?_ ?_ ?_
      · intro hdone
        simpa [writesOnce, asked, hdone] using honce
      · intro hdone
        refine ⟨r, rfl, ?_⟩
        show ((s.refunds ++ [r]).filter _).Perm _
        rw [List.filter_append, List.filter_singleton]
        simp [hdone, RefundState.completed]
      · intro hopen
        show ((s.refunds ++ [r]).filter _).Perm _
        rw [List.filter_append, List.filter_singleton]
        simp [hopen, RefundState.completed]
  | settle i now work r status ref s₁ act get commit eq =>
      subst act
      have honce : (notCompleted s r.id && (status ≠ .completed || noEntryYet s r)) = true := by
        have hall := all_of_get get hclear
        cases work <;> exact hall
      rw [Bool.and_eq_true] at honce
      obtain ⟨x, hx, hfix, -, -⟩ := hi.base.settling_row get
      obtain ⟨hxid, hrest⟩ := Prod.mk.inj hfix
      have hpaisa : Paisa r.amount :=
        (Prod.mk.inj hrest).1 ▸ (hi.base.amounts x (Rows.mem_of_lookup hx)).2
      obtain ⟨o', cash', writes, rfl, hmoney⟩ := commitSettle_ok commit
      subst eq
      have hperm : ((Rows.modify Refund.id r.id (settled r status ref now) s.refunds).filter
          fun y => y.status = .completed).Perm (s.completed ++
            [settled r status ref now x].filter fun y => y.status = .completed) :=
        Rows.filter_modify hi.base.ids hx (notCompleted_row hx honce.1)
      refine hi.after hbase hpaisa hmoney ?_ ?_ ?_
      · intro hdone
        simpa [hdone] using honce.2
      · intro hdone
        refine ⟨settled r status ref now x, hfix, hperm.trans ?_⟩
        rw [List.filter_singleton]
        simp [settled, hdone]
      · intro hopen
        refine hperm.trans ?_
        rw [List.filter_singleton]
        simp [settled, hopen]
  | mark i work id act get eq =>
      subst act
      have honce : notCompleted s id = true := by
        have hall := all_of_get get hclear
        cases work <;> exact hall
      obtain ⟨x, hx, hxid, -⟩ := hi.base.tasks _ (List.mem_of_getElem? get)
      have hlookup : Rows.lookup Refund.id id s.refunds = some x :=
        hxid ▸ Rows.lookup_of_mem hi.base.ids hx
      subst eq
      have hstill : MoneyMove s x 0 False s.order s.cash := .none not_false rfl rfl
      refine hi.after hbase (hi.base.amounts x hx).2 hstill (fun hc => hc.elim)
        (fun hc => hc.elim) fun _ => ?_
      have hperm : ((Rows.modify Refund.id id ({ · with status := .failed }) s.refunds).filter
          fun y => y.status = .completed).Perm (s.completed ++
            [{ x with status := .failed }].filter fun y => y.status = .completed) :=
        Rows.filter_modify hi.base.ids hlookup (notCompleted_row hlookup honce)
      refine hperm.trans ?_
      rw [List.filter_singleton]
      simp

theorem Unrefunded.agree (h : Unrefunded s) : AgreeInv s := by
  have hnone : s.completed = [] := by
    rw [RefundState.completed, h.noRefunds]
    rfl
  refine ⟨h.base, h.ledger, ?_, ?_, ?_⟩
  · rw [hnone]
    exact h.nothing
  · rw [hnone, h.noEntries]
    exact List.Perm.refl _
  · rw [h.nothing]
    exact h.status

end agree

/--
**While each refund is completed once and under a memo of its own, the books agree**: the
order's total, the cash entries and the payment status say what the completed refunds
add up to, between any two steps of any calls.
-/
theorem refunds_agree (s t : RefundState) (as : List RefundAction) (h : Unrefunded s)
    (hclear : Machine.GuardedRun refundStep WritesOnce s as)
    (hrun : Machine.runFrom refundStep s as = some t) : RefundsAgree t :=
  (Machine.guarded_invariant (fun _ _ _ hi hok hs => refundStep_agree hi hok hs)
    as s t h.agree hclear hrun).agree

/-- An order of 1000, delivered and paid online. -/
def paidOrder : RefundState :=
  { order :=
      { id := 1, orderNo := "CLO-2042", paymentMethod := .sslcommerz, paymentStatus := .paid,
        status := .delivered, itemsSubtotal := 1000, grandTotal := 1000, amountPaid := 1000 },
    payments :=
      [{ id := 1, orderId := 1, status := .success, amount := 1000, fee := 25,
         tranId := some "CLO-2042-1", bankTranId := some "B1" }] }

theorem paidOrder_unrefunded : Unrefunded paidOrder := by
  refine ⟨rfl, rfl, by decide +kernel, ⟨100000, by decide +kernel⟩, rfl, by decide +kernel, rfl, ?_⟩
  intro r hr
  cases hr

/-- A gateway refund that the bank confirms later. -/
def refundAndRefresh : List RefundAction :=
  [.create { amount := 300, reason := "একটি বই ফেরত" } "0199a3f2-7c10", .read 0, .begin_ 0,
   .commit 0 10, .reply 0 (.answer (some "processing") "R-77"), .settleRead 0, .settleWrite 0 11,
   .refresh "0199a3f2-7c10", .read 1, .reply 1 (.answer (some "refunded") ""), .settleRead 1,
   .settleWrite 1 20]

/-- Two refunds over the counter, made in one minute. -/
def twoInAMinute : List RefundAction :=
  [.create { amount := 200, reason := "একটি বই ফেরত", method := some .cash } "0199a3f2-7c10",
   .read 0, .begin_ 0, .commit 0 10,
   .create { amount := 100, reason := "আরেকটি বই ফেরত", method := some .cash } "0199a3f2-9e21",
   .read 1, .begin_ 1, .commit 1 11]

theorem refunds_agree_refreshed : ∃ t,
    Machine.runFrom refundStep paidOrder refundAndRefresh = some t ∧
      t.order.amountRefunded = 300 ∧ RefundsAgree t := by
  have hruns : (Machine.runFrom refundStep paidOrder refundAndRefresh).any
      (fun t => t.order.amountRefunded = 300) = true := by
    decide +kernel
  obtain ⟨t, ht, hrefunded⟩ := (Option.any_eq_true _ _).mp hruns
  exact ⟨t, ht, of_decide_eq_true hrefunded,
    refunds_agree paidOrder t refundAndRefresh paidOrder_unrefunded (by decide +kernel) ht⟩

/-- The two ids share their first characters, so the second refund has no cash entry. -/
theorem refund_entry_missing : Unrefunded paidOrder ∧ ∃ t,
    Machine.runFrom refundStep paidOrder twoInAMinute = some t ∧
      t.order.amountRefunded = 300 ∧ (t.entries.map (·.amount)).sum = 200 ∧ ¬RefundsAgree t := by
  have hruns : (Machine.runFrom refundStep paidOrder twoInAMinute).any
      (fun t => t.order.amountRefunded = 300 ∧ (t.entries.map (·.amount)).sum = 200 ∧
        ¬RefundsAgree t) = true := by
    decide +kernel
  obtain ⟨t, ht, hfacts⟩ := (Option.any_eq_true _ _).mp hruns
  exact ⟨paidOrder_unrefunded, t, ht, of_decide_eq_true hfacts⟩

/-! ### Never more than was paid -/

namespace RefundState

/-- The refund may still reach the customer: the gateway has not refused it. -/
def mayGoOut (s : RefundState) (r : Refund) : Bool :=
  r.method ≠ .sslcommerz || s.word r.id ≠ .refused

/-- All that may have to be paid out. -/
def owed (s : RefundState) : Money :=
  (s.refunds.map fun r => if s.mayGoOut r then r.amount else 0).sum

def completedTotal (s : RefundState) : Money :=
  (s.refunds.map fun r => if r.status = .completed then r.amount else 0).sum

end RefundState

/-- What a task may rely on about the gateway, and about the room for its refund. -/
def TaskCovered (s : RefundState) (t : RefundTask) : Prop :=
  match t.phase with
  | .start | .asking .. | .done => True
  | .read o _ => o.amountPaid = s.order.amountPaid
  | .began o _ seen => o.amountPaid = s.order.amountPaid ∧ Paisa o.amountRefunded ∧
      Paisa seen.inFlight ∧ seen.creates ≤ s.creates ∧
      (seen.creates = s.creates → s.owed ≤ o.amountRefunded + seen.inFlight)
  | .answered id status _ => (status = .failed → s.word id = .refused) ∧ s.word id ≠ .unasked
  | .settling r status _ =>
      (status = .failed → s.word r.id = .refused) ∧ s.word r.id ≠ .unasked
  | .catching id => s.word id = .refused

structure CoveredInv (s : RefundState) : Prop where
  base : RefundBase s
  paisa : Paisa s.order.amountPaid ∧ Paisa s.order.amountRefunded
  covered : s.owed ≤ s.order.amountPaid
  counted : s.completedTotal ≤ s.order.amountRefunded
  alive : ∀ r ∈ s.refunds, s.mayGoOut r → r.status = .processing ∨ r.status = .completed
  tasks : ∀ t ∈ s.tasks, TaskCovered s t

section covered

variable {s s' : RefundState} {a : RefundAction} {i : ℕ} {t : RefundTask} {r : Refund}

/-- What goes out may go out. -/
theorem CoveredInv.sent (hi : CoveredInv s) : RefundsCovered s := by
  have hout (r : Refund) (h : s.sentOut r = true) : s.mayGoOut r = true := by
    unfold RefundState.sentOut at h
    unfold RefundState.mayGoOut
    by_cases hm : r.method = .sslcommerz
    · rw [if_pos hm] at h
      have hne : s.word r.id ≠ .refused := by
        intro hc
        rw [hc] at h
        cases h
      simp [hne]
    · simp [hm]
  refine ⟨le_trans (List.sum_le_sum fun r hr => ?_) hi.covered, fun r hr hm hacc => ?_⟩
  · have hpos := (hi.base.amounts r hr).1
    by_cases hs : s.sentOut r = true
    · simp [hs, hout r hs]
    · rw [if_neg hs]
      split
      · exact hpos.le
      · exact le_refl 0
  · exact hi.alive r hr (hout r (by rw [RefundState.sentOut, if_pos hm]; exact hacc))

/-- **What may go out is counted against the order**, as completed or as in flight. -/
theorem CoveredInv.owed_le (hi : CoveredInv s) :
    s.owed ≤ s.order.amountRefunded + inFlight s.refunds := by
  have hsplit : s.owed ≤ s.completedTotal + inFlight s.refunds := by
    unfold RefundState.owed RefundState.completedTotal inFlight
    rw [← List.sum_map_add]
    refine List.sum_le_sum fun r hr => ?_
    have hpos := (hi.base.amounts r hr).1
    by_cases hout : s.mayGoOut r = true
    · rw [if_pos hout]
      rcases hi.alive r hr hout with hst | hst
      · simp [hst]
      · simp [hst]
    · rw [if_neg hout]
      refine add_nonneg ?_ ?_
      · split
        · exact hpos.le
        · exact le_refl 0
      · split
        · exact hpos.le
        · exact le_refl 0
  exact hsplit.trans (add_le_add_left hi.counted _)

/-- What a step may change without disturbing the others: less is owed unless a refund
was inserted, and the gateway takes no refusal back. -/
structure CoveredMove (s s' : RefundState) : Prop where
  paid : s'.order.amountPaid = s.order.amountPaid
  creates : s.creates ≤ s'.creates
  owed : s'.creates = s.creates → s'.owed ≤ s.owed
  refused : ∀ id, s.word id = .refused → s'.word id = .refused
  asked : ∀ id, s.word id ≠ .unasked → s'.word id ≠ .unasked

theorem TaskCovered.mono (ht : TaskCovered s t) (h : CoveredMove s s') : TaskCovered s' t := by
  obtain ⟨work, phase⟩ := t
  cases phase with
  | start => trivial
  | asking id ref => trivial
  | done => trivial
  | read o k =>
      have hpaid : o.amountPaid = s.order.amountPaid := ht
      exact hpaid.trans h.paid.symm
  | began o k seen =>
      obtain ⟨hpaid, hrefunded, hflight, hle, hroom⟩ := ht
      refine ⟨hpaid.trans h.paid.symm, hrefunded, hflight, hle.trans h.creates, fun heq => ?_⟩
      have hsame : s'.creates = s.creates := le_antisymm (heq ▸ hle) h.creates
      exact (h.owed hsame).trans (hroom (heq.trans hsame))
  | answered id status ref => exact ⟨fun hf => h.refused id (ht.1 hf), h.asked id ht.2⟩
  | settling r status ref => exact ⟨fun hf => h.refused r.id (ht.1 hf), h.asked r.id ht.2⟩
  | catching id => exact h.refused id ht

/-- A word that is neither acceptance nor silence is a refusal. -/
theorem refused_of_not_accepted {w : GatewayWord} (hasked : w ≠ .unasked)
    (hnot : w.accepted = false) : w = .refused := by
  cases w with
  | unasked => exact absurd rfl hasked
  | taken => cases hnot
  | paid => cases hnot
  | refused => rfl

/-- A phase step leaves the task with what it relied on, or with what it has just seen. -/
theorem TaskCovered.step {work : RefundWork} {old new : RefundPhase} (hi : CoveredInv s)
    (hget : s.tasks[i]? = some ⟨work, old⟩) (hturn : InTurn s a)
    (h : PhaseStep s a i work old new) : TaskCovered s ⟨work, new⟩ := by
  have hmem := List.mem_of_getElem? hget
  have ht : TaskCovered s ⟨work, old⟩ := hi.tasks _ hmem
  have hbase : TaskBase s ⟨work, old⟩ := hi.base.tasks _ hmem
  cases h with
  | quit => trivial
  | order => exact rfl
  | retry work o k seen => exact ht.1
  | begin_ work o k eq =>
      subst eq
      have hfresh : o.amountRefunded = s.order.amountRefunded :=
        of_decide_eq_true (all_of_get hget hturn)
      have hflight : Paisa (inFlight s.refunds) := by
        refine Rounding.HasPlaces.sum fun x hx => ?_
        obtain ⟨r, hr, rfl⟩ := List.mem_map.mp hx
        split
        · exact (hi.base.amounts r hr).2
        · exact Rounding.HasPlaces.zero
      refine ⟨ht, hfresh ▸ hi.paisa.2, hflight, le_refl _, fun _ => ?_⟩
      rw [hfresh]
      exact hi.owed_le
  | poll => trivial
  | load work id status ref r found =>
      obtain rfl : r.id = id := Rows.key_of_lookup found
      exact ht
  | missing input own id status ref gone =>
      obtain ⟨⟨x, hx, hxid, -⟩, -⟩ := hbase
      have hfound : (Rows.lookup Refund.id id s.refunds).isSome :=
        Rows.lookup_isSome.mpr (hxid ▸ List.mem_map_of_mem hx)
      rw [gone] at hfound
      cases hfound
  | unread input own id status ref eq =>
      subst eq
      have hkeeps : (!(s.word id).accepted) = true := all_of_get hget hturn
      exact refused_of_not_accepted ht.2 (by simpa using hkeeps)
  | unsettled input own r status ref cause =>
      refine refused_of_not_accepted ht.2 ?_
      rcases cause with rfl | ⟨now, rfl, hfails⟩
      · have hkeeps : (!(s.word r.id).accepted) = true := all_of_get hget hturn
        simpa using hkeeps
      · have hkeeps : ((s.commitSettle r status ref now).toOption.isSome ||
            !(s.word r.id).accepted) = true := all_of_get hget hturn
        simpa [hfails] using hkeeps

/-- A rewritten row keeps what may go out. -/
theorem owed_rewrite {id : RefundId} {f : Refund → Refund} (hf : ∀ r, (f r).fixed = r.fixed) :
    RefundState.owed { s with refunds := Rows.modify Refund.id id f s.refunds } = s.owed := by
  unfold RefundState.owed
  congr 1
  refine Rows.map_modify fun r => ?_
  obtain ⟨hid, hrest⟩ := Prod.mk.inj (hf r)
  obtain ⟨hamount, hmethod⟩ := Prod.mk.inj hrest
  simp only [RefundState.mayGoOut, hid, hamount, hmethod]
  rfl

/-- The one row that is rewritten counts for at most its amount. -/
theorem completed_rewrite {id : RefundId} {x : Refund} {f : Refund → Refund} (hb : RefundBase s)
    (hx : Rows.lookup Refund.id id s.refunds = some x) :
    RefundState.completedTotal { s with refunds := Rows.modify Refund.id id f s.refunds } ≤
      s.completedTotal + if (f x).status = .completed then (f x).amount else 0 := by
  unfold RefundState.completedTotal
  rw [Rows.sum_modify hb.ids hx]
  have hpos := (hb.amounts x (Rows.mem_of_lookup hx)).1
  refine add_le_add_left ?_ _
  rw [sub_le_self_iff]
  split
  · exact hpos.le
  · exact le_refl 0

/-- A reply of the gateway that takes no refusal back. -/
theorem CoveredInv.word (hi : CoveredInv s) {id : RefundId} {w : GatewayWord} {new : RefundTask}
    (hbase : RefundBase { s with tasks := s.tasks.set i new, word := Function.update s.word id w })
    (hstands : s.word id = .refused → w = .refused) (hasked : w ≠ .unasked)
    (hnew : TaskCovered
      { s with tasks := s.tasks.set i new, word := Function.update s.word id w } new) :
    CoveredInv { s with tasks := s.tasks.set i new, word := Function.update s.word id w } := by
  have hrefused : ∀ j, s.word j = .refused → Function.update s.word id w j = .refused := by
    intro j hj
    by_cases hji : j = id
    · subst hji
      rw [Function.update_self]
      exact hstands hj
    · rw [Function.update_of_ne hji]
      exact hj
  have hout (r : Refund) (h : RefundState.mayGoOut
      { s with tasks := s.tasks.set i new, word := Function.update s.word id w } r = true) :
      s.mayGoOut r = true := by
    simp only [RefundState.mayGoOut, Bool.or_eq_true, decide_eq_true_eq] at h ⊢
    exact h.imp_right fun hne hc => hne (hrefused _ hc)
  have howed : RefundState.owed
      { s with tasks := s.tasks.set i new, word := Function.update s.word id w } ≤ s.owed := by
    refine List.sum_le_sum fun r hr => ?_
    have hpos := (hi.base.amounts r hr).1
    split
    · rename_i h
      rw [if_pos (hout r h)]
    · split
      · exact hpos.le
      · exact le_refl 0
  have hmove : CoveredMove s
      { s with tasks := s.tasks.set i new, word := Function.update s.word id w } := by
    refine ⟨rfl, le_refl _, fun _ => howed, hrefused, fun j hj => ?_⟩
    show Function.update s.word id w j ≠ .unasked
    by_cases hji : j = id
    · subst hji
      rw [Function.update_self]
      exact hasked
    · rw [Function.update_of_ne hji]
      exact hj
  exact ⟨hbase, hi.paisa, howed.trans hi.covered, hi.counted,
    fun r hr h => hi.alive r hr (hout r h),
    Procs.forall_set (fun t ht => (hi.tasks t ht).mono hmove) hnew⟩

/-- **A step keeps the refunds covered** while the gateway stands by its refusals and
`create` reads a fresh order and loses no accepted refund. -/
theorem refundStep_covered (hi : CoveredInv s) (hstands : GatewayStands s a) (hturn : InTurn s a)
    (h : refundStep s a = some s') : CoveredInv s' := by
  have hbase := refundStep_base hi.base h
  cases refundStep_cases h with
  | start work eq =>
      subst eq
      exact ⟨hbase, hi.paisa, hi.covered, hi.counted, hi.alive,
        Procs.forall_append hi.tasks trivial⟩
  | move i work old new get phase eq =>
      subst eq
      have hnew : TaskCovered s ⟨work, new⟩ := TaskCovered.step hi get hturn phase
      exact ⟨hbase, hi.paisa, hi.covered, hi.counted, hi.alive, Procs.forall_set hi.tasks hnew⟩
  | answer i work id known pref ref status act get eq =>
      subst act
      subst eq
      have hagain : s.word id = .refused →
          GatewayWord.of (mapGatewayRefundStatus status) = .refused := by
        have hall := all_of_get get hstands
        simpa [standsBy, imp_iff_not_or] using hall
      have hasked : GatewayWord.of (mapGatewayRefundStatus status) ≠ .unasked := by
        cases mapGatewayRefundStatus status <;> simp [GatewayWord.of]
      refine hi.word hbase hagain hasked ⟨fun hfailed => ?_, ?_⟩
      · show Function.update s.word id _ id = .refused
        rw [Function.update_self, hfailed]
        rfl
      · show Function.update s.word id _ id ≠ .unasked
        rw [Function.update_self]
        exact hasked
  | lost i input own id pref taken act get eq =>
      subst act
      subst eq
      have hnot : taken = false := by simpa [keepsAccepted] using all_of_get get hturn
      subst hnot
      refine hi.word hbase (fun _ => rfl) (by simp) ?_
      show Function.update s.word id _ id = .refused
      rw [Function.update_self]
      rfl
  | insert i now input id o k seen r s₁ act get asked serial commit eq =>
      obtain ⟨-, hgateway, hmanual, hpos, hpaisa, hmax⟩ := newRefund_ok asked
      obtain ⟨-, o', cash', writes, rfl, hmoney⟩ := commitCreate_ok commit
      obtain ⟨hpaid, hrefundedPaisa, hflight, -, hroom⟩ := hi.tasks _ (List.mem_of_getElem? get)
      have hstill : s.owed + r.amount ≤ s.order.amountPaid := by
        have hfit : r.amount ≤ o.amountPaid - o.amountRefunded - seen.inFlight := by
          have hleft : Paisa (o.amountPaid - o.amountRefunded - seen.inFlight) :=
            ((hpaid ▸ hi.paisa.1).sub hrefundedPaisa).sub hflight
          unfold refundable at hmax
          simp only [round2_of_paisa hleft] at hmax
          split at hmax
          · exact absurd (hpos.trans_le hmax) (lt_irrefl _)
          · exact hmax
        have howed := hroom serial
        rw [hpaid] at hfit
        linarith
      have hadd : RefundState.owed { s with refunds := s.refunds ++ [r] } ≤ s.owed + r.amount := by
        show ((s.refunds ++ [r]).map _).sum ≤ _
        rw [Procs.sum_append]
        refine add_le_add_right ?_ _
        split
        · exact le_refl _
        · exact hpos.le
      have hamounts : o'.amountPaid = s.order.amountPaid ∧ Paisa o'.amountRefunded ∧
          s.completedTotal + (if r.status = .completed then r.amount else 0) ≤ o'.amountRefunded := by
        rcases hmoney with ⟨hdone, rfl, -⟩ | ⟨hopen, rfl, -⟩
        · rw [if_pos hdone]
          exact ⟨rfl, hi.paisa.2.add hpaisa, add_le_add_left hi.counted _⟩
        · rw [if_neg hopen, add_zero]
          exact ⟨rfl, hi.paisa.2, hi.counted⟩
      obtain ⟨hsame, hrefPaisa, hcounted⟩ := hamounts
      subst eq
      refine ⟨hbase, ⟨hsame ▸ hi.paisa.1, hrefPaisa⟩, ?_, ?_, ?_,
        Procs.forall_set (fun t ht => (hi.tasks t ht).mono ⟨hsame, Nat.le_succ _,
          fun hc => absurd hc (Nat.succ_ne_self _), fun _ hw => hw, fun _ hw => hw⟩) ?_⟩
      · exact (hadd.trans hstill).trans_eq hsame.symm
      · show ((s.refunds ++ [r]).map _).sum ≤ o'.amountRefunded
        rw [Procs.sum_append]
        exact hcounted
      · refine Procs.forall_append hi.alive fun _ => ?_
        by_cases hm : r.method = .sslcommerz
        · exact .inl (hgateway hm)
        · exact .inr (hmanual hm)
      · by_cases hdone : r.status = .completed
        · rw [if_pos hdone]
          trivial
        · rw [if_neg hdone]
          trivial
  | settle i now work r status ref s₁ act get commit eq =>
      obtain ⟨x, hx, hfix, hm, hasked⟩ := hi.base.settling_row get
      obtain ⟨hxid, hrest⟩ := Prod.mk.inj hfix
      have hamount : x.amount = r.amount := (Prod.mk.inj hrest).1
      obtain ⟨hword, -⟩ := hi.tasks _ (List.mem_of_getElem? get)
      obtain ⟨o', cash', writes, rfl, hmoney⟩ := commitSettle_ok commit
      have hamounts : o'.amountPaid = s.order.amountPaid ∧ Paisa o'.amountRefunded ∧
          s.completedTotal + (if status = .completed then r.amount else 0) ≤ o'.amountRefunded := by
        have hpaisa : Paisa r.amount :=
          hamount ▸ (hi.base.amounts x (Rows.mem_of_lookup hx)).2
        rcases hmoney with ⟨hdone, rfl, -⟩ | ⟨hopen, rfl, -⟩
        · rw [if_pos hdone]
          exact ⟨rfl, hi.paisa.2.add hpaisa, add_le_add_left hi.counted _⟩
        · rw [if_neg hopen, add_zero]
          exact ⟨rfl, hi.paisa.2, hi.counted⟩
      obtain ⟨hsame, hrefPaisa, hcounted⟩ := hamounts
      have howed : RefundState.owed { s with
          refunds := Rows.modify Refund.id r.id (settled r status ref now) s.refunds } = s.owed :=
        owed_rewrite fun _ => rfl
      have hcompleted := completed_rewrite (f := settled r status ref now) hi.base hx
      subst eq
      refine ⟨hbase, ⟨hsame ▸ hi.paisa.1, hrefPaisa⟩, ?_, ?_, ?_,
        Procs.forall_set (fun t ht => (hi.tasks t ht).mono
          ⟨hsame, le_refl _, fun _ => howed.le, fun _ hw => hw, fun _ hw => hw⟩) trivial⟩
      · exact (howed.le.trans hi.covered).trans_eq hsame.symm
      · refine le_trans (hcompleted.trans ?_) hcounted
        show _ + (if status = .completed then x.amount else 0) ≤ _
        rw [hamount]
      · intro z hz hout
        obtain ⟨y, hy, rfl⟩ := List.mem_map.mp hz
        by_cases hkey : y.id = r.id
        · obtain rfl := hi.base.unique hy (Rows.mem_of_lookup hx) (hkey.trans hxid.symm)
          rw [if_pos hkey] at hout ⊢
          have hlive : s.word y.id ≠ .refused := by
            have hor : y.method ≠ .sslcommerz ∨ s.word y.id ≠ .refused := by
              have hout' : (decide (y.method ≠ .sslcommerz) ||
                decide (s.word y.id ≠ .refused)) = true := hout
              simpa using hout'
            exact hor.resolve_left (not_not.mpr hm)
          show status = .processing ∨ status = .completed
          cases status with
          | requested => exact absurd rfl hasked
          | processing => exact .inl rfl
          | completed => exact .inr rfl
          | failed => exact absurd (hkey ▸ hword rfl) hlive
        · rw [if_neg hkey] at hout ⊢
          exact hi.alive y hy hout
  | mark i work id act get eq =>
      obtain ⟨x, hx, hxid, hm⟩ := hi.base.tasks _ (List.mem_of_getElem? get)
      have hword : s.word id = .refused := hi.tasks _ (List.mem_of_getElem? get)
      have hlookup : Rows.lookup Refund.id id s.refunds = some x :=
        hxid ▸ Rows.lookup_of_mem hi.base.ids hx
      have howed : RefundState.owed { s with
          refunds := Rows.modify Refund.id id ({ · with status := .failed }) s.refunds } = s.owed :=
        owed_rewrite fun _ => rfl
      have hcompleted :=
        completed_rewrite (f := ({ · with status := .failed })) hi.base hlookup
      subst eq
      refine ⟨hbase, hi.paisa, howed.le.trans hi.covered, ?_, ?_,
        Procs.forall_set (fun t ht => (hi.tasks t ht).mono
          ⟨rfl, le_refl _, fun _ => howed.le, fun _ hw => hw, fun _ hw => hw⟩) trivial⟩
      · rw [if_neg (by simp), add_zero] at hcompleted
        exact le_trans hcompleted hi.counted
      · intro z hz hout
        obtain ⟨y, hy, rfl⟩ := List.mem_map.mp hz
        by_cases hkey : y.id = id
        · obtain rfl := hi.base.unique hy hx (hkey.trans hxid.symm)
          rw [if_pos hkey] at hout
          have hout' : (decide (y.method ≠ .sslcommerz) ||
            decide (s.word y.id ≠ .refused)) = true := hout
          rw [hm, hkey, hword] at hout'
          cases hout'
        · rw [if_neg hkey] at hout ⊢
          exact hi.alive y hy hout

theorem Unrefunded.covered (h : Unrefunded s) : CoveredInv s := by
  have hpaid : 0 ≤ s.order.amountPaid := (Order.check_eq_ok.mp h.sound).1.2.2.2.2.2.1
  refine ⟨h.base, ⟨h.paisa, ?_⟩, ?_, ?_, ?_, ?_⟩
  · rw [h.nothing]
    exact Rounding.HasPlaces.zero
  · rw [RefundState.owed, h.noRefunds]
    exact hpaid
  · rw [RefundState.completedTotal, h.noRefunds, h.nothing]
    exact le_refl 0
  · rw [h.noRefunds]
    intro r hr
    cases hr
  · rw [h.idle]
    intro t ht
    cases ht

end covered

/--
**No more goes back than was paid, and nothing the gateway accepted is given up**, while
`create` begins on the order as it read it and loses no accepted refund; the gateway
stands by its refusals.
-/
theorem refunds_covered (s t : RefundState) (as : List RefundAction) (h : Unrefunded s)
    (hgateway : Machine.GuardedRun refundStep GatewayStands s as)
    (hturn : Machine.GuardedRun refundStep InTurn s as)
    (hrun : Machine.runFrom refundStep s as = some t) : RefundsCovered t :=
  (Machine.guarded_invariant (fun _ _ _ hi hok hs => refundStep_covered hi hok.1 hok.2 hs)
    as s t h.covered (hgateway.and as s hturn) hrun).sent

/-- Two admins refund 600 each: both have read the order before either refund is made. -/
def twoAdmins : List RefundAction :=
  [.create { amount := 600, reason := "ক্যাশে ফেরত", method := some .cash } "0199a3f2-7c10",
   .create { amount := 600, reason := "কার্ডে ফেরত" } "0199a3f4-11aa",
   .read 0, .read 1, .begin_ 0, .commit 0 10, .begin_ 1, .commit 1 11,
   .reply 1 (.answer (some "processing") "R-78")]

/-- The second admin opens the order after the first refund, and asks for what is left. -/
def oneAfterTheOther : List RefundAction :=
  [.create { amount := 600, reason := "ক্যাশে ফেরত", method := some .cash } "0199a3f2-7c10",
   .read 0, .begin_ 0, .commit 0 10,
   .create { amount := 400, reason := "কার্ডে ফেরত" } "0199a3f4-11aa",
   .read 1, .begin_ 1, .commit 1 11, .reply 1 (.answer (some "processing") "R-78"),
   .settleRead 1, .settleWrite 1 12]

theorem refunds_covered_inTurn : ∃ t,
    Machine.runFrom refundStep paidOrder oneAfterTheOther = some t ∧ t.sent = 1000 ∧
      RefundsCovered t := by
  have hruns : (Machine.runFrom refundStep paidOrder oneAfterTheOther).any
      (fun t => t.sent = 1000) = true := by
    decide +kernel
  obtain ⟨t, ht, hsent⟩ := (Option.any_eq_true _ _).mp hruns
  exact ⟨t, ht, of_decide_eq_true hsent,
    refunds_covered paidOrder t oneAfterTheOther paidOrder_unrefunded (by decide +kernel)
      (by decide +kernel) ht⟩

/-- 1200 is on its way to the customer, who paid 1000. -/
theorem refunded_more_than_paid : Unrefunded paidOrder ∧
    Machine.GuardedRun refundStep GatewayStands paidOrder twoAdmins ∧ ∃ t,
    Machine.runFrom refundStep paidOrder twoAdmins = some t ∧
      t.order.amountPaid = 1000 ∧ t.sent = 1200 ∧ ¬RefundsCovered t := by
  have hruns : (Machine.runFrom refundStep paidOrder twoAdmins).any
      (fun t => t.order.amountPaid = 1000 ∧ t.sent = 1200 ∧ ¬RefundsCovered t) = true := by
    decide +kernel
  obtain ⟨t, ht, hfacts⟩ := (Option.any_eq_true _ _).mp hruns
  exact ⟨paidOrder_unrefunded, by decide +kernel, t, ht, of_decide_eq_true hfacts⟩

end BookHouse
