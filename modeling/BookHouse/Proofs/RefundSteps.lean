/-
What a step of a refund can do.

`refundStep_cases` reads the machine backwards: a step starts a task, moves one without
touching the books, inserts a refund, hears from the gateway, settles, or marks a refund
FAILED.  `RefundBase` is what every run keeps: a refund never changes its id, its amount
or its method, manual refunds are complete, and whoever is about to write a refund holds
one that is there and belongs to the gateway.
-/
import BookHouse.Lib.Procs
import BookHouse.Payments.RefundMachine
import BookHouse.Proofs.Cashbook
import BookHouse.Proofs.Money

namespace BookHouse

open RefundsService

/-! ### What the transactions did -/

section commits

variable {s s' : RefundState} {o : Order} {r : Refund} {now : Instant} {input : RefundInput}
  {refundId : RefundId} {status : RefundStatus} {ref : String} {flight : Money}

theorem mapGatewayRefundStatus_ne_requested (answer : Option String) :
    mapGatewayRefundStatus answer ≠ .requested := by
  unfold mapGatewayRefundStatus
  simp only
  split
  · simp
  · split <;> simp

/-- Everything a refund that `create` may insert has met. -/
theorem newRefund_ok {payments : List Payment}
    (h : newRefund o payments input refundId flight now = .ok r) :
    r.id = refundId ∧ (r.method = .sslcommerz → r.status = .processing) ∧
      (r.method ≠ .sslcommerz → r.status = .completed) ∧ 0 < r.amount ∧ Paisa r.amount ∧
      r.amount ≤ refundable o.amountPaid o.amountRefunded flight := by
  obtain ⟨amount, hask, h⟩ := Result.bind_ok.mp h
  obtain ⟨hround, hpos, -, hmax, -⟩ := checkRefund_ok hask
  split at h
  · cases h
  obtain rfl := Except.ok.inj h
  refine ⟨rfl, fun hm => if_pos hm, fun hm => if_neg hm, hpos, ?_, hmax⟩
  exact hround ▸ round2_paisa _

theorem applyCompleted_ok {cash cash' : Cashbook} {o' : Order}
    (h : applyCompleted o cash r now = .ok (o', cash')) :
    o' = o.refundCompleted r.amount ∧ CashLedger.recordRefund cash (posting o r now) = .ok cash' := by
  obtain ⟨_, -, h⟩ := Result.bind_ok.mp h
  obtain ⟨cash₁, hcash, h⟩ := Result.bind_ok.mp h
  obtain ⟨rfl, rfl⟩ := Prod.mk.inj (Except.ok.inj h)
  exact ⟨rfl, hcash⟩

/-- The order and the cashbook after a transaction that completes `r`, or does not. -/
inductive MoneyMove (s : RefundState) (r : Refund) (now : Instant) (completes : Prop)
    (o' : Order) (cash' : Cashbook) : Prop
  | out (yes : completes) (order : o' = s.order.refundCompleted r.amount)
      (cash : CashLedger.recordRefund s.cash (posting s.order r now) = .ok cash')
  | none (no : ¬completes) (order : o' = s.order) (cash : cash' = s.cash)

theorem commitCreate_ok (h : s.commitCreate r now = .ok s') :
    r.id ∉ s.refunds.map Refund.id ∧ ∃ o' cash' writes,
      s' = { s with order := o', cash := cash', refunds := s.refunds ++ [r],
                    creates := s.creates + 1, orderWrites := writes } ∧
      MoneyMove s r now (r.status = .completed) o' cash' := by
  unfold RefundState.commitCreate at h
  split at h
  · cases h
  rename_i hnew
  refine ⟨hnew, ?_⟩
  split at h
  · rename_i hdone
    obtain ⟨⟨o', cash'⟩, happly, h⟩ := Result.bind_ok.mp h
    obtain rfl := Except.ok.inj h
    obtain ⟨horder, hcash⟩ := applyCompleted_ok happly
    exact ⟨o', cash', _, rfl, .out hdone horder hcash⟩
  · rename_i hopen
    obtain rfl := Except.ok.inj h
    exact ⟨s.order, s.cash, s.orderWrites, rfl, .none hopen rfl rfl⟩

theorem commitSettle_ok (h : s.commitSettle r status ref now = .ok s') : ∃ o' cash' writes,
    s' = { s with order := o', cash := cash', orderWrites := writes,
                  refunds := Rows.modify Refund.id r.id (settled r status ref now) s.refunds } ∧
    MoneyMove s r now (status = .completed) o' cash' := by
  unfold RefundState.commitSettle at h
  simp only at h
  split at h
  · rename_i hdone
    obtain ⟨⟨o', cash'⟩, happly, h⟩ := Result.bind_ok.mp h
    obtain rfl := Except.ok.inj h
    obtain ⟨horder, hcash⟩ := applyCompleted_ok happly
    exact ⟨o', cash', _, rfl, .out hdone horder hcash⟩
  · rename_i hopen
    obtain rfl := Except.ok.inj h
    exact ⟨s.order, s.cash, s.orderWrites, rfl, .none hopen rfl rfl⟩

end commits

/-! ### The cases of a step -/

/-- How a task moves on without touching the books. -/
inductive PhaseStep (s : RefundState) (a : RefundAction) (i : ℕ) :
    RefundWork → RefundPhase → RefundPhase → Prop
  | quit (work : RefundWork) (old : RefundPhase) : PhaseStep s a i work old .done
  | order (input : RefundInput) (id : RefundId) :
      PhaseStep s a i (.create input id) .start (.read s.order 1)
  | retry (work : RefundWork) (o : Order) (k : ℕ) (seen : RefundSnapshot) :
      PhaseStep s a i work (.began o k seen) (.read o (k + 1))
  | begin_ (work : RefundWork) (o : Order) (k : ℕ) (eq : a = .begin_ i) :
      PhaseStep s a i work (.read o k)
        (.began o k ⟨inFlight s.refunds, s.creates, s.orderWrites⟩)
  | poll (id : RefundId) (r : Refund) (ref : String)
      (found : Rows.lookup Refund.id id s.refunds = some r) (open_ : r.status = .processing) :
      PhaseStep s a i (.refresh id) .start (.asking id ref)
  | load (work : RefundWork) (id : RefundId) (status : RefundStatus) (ref : String) (r : Refund)
      (found : Rows.lookup Refund.id id s.refunds = some r) :
      PhaseStep s a i work (.answered id status ref) (.settling r status ref)
  | missing (input : RefundInput) (own id : RefundId) (status : RefundStatus) (ref : String)
      (gone : Rows.lookup Refund.id id s.refunds = none) :
      PhaseStep s a i (.create input own) (.answered id status ref) (.catching id)
  | unread (input : RefundInput) (own id : RefundId) (status : RefundStatus) (ref : String)
      (eq : a = .settleFail i) :
      PhaseStep s a i (.create input own) (.answered id status ref) (.catching id)
  | unsettled (input : RefundInput) (own : RefundId) (r : Refund) (status : RefundStatus)
      (ref : String)
      (cause : a = .settleFail i ∨ ∃ now, a = .settleWrite i now ∧
        (s.commitSettle r status ref now).toOption = none) :
      PhaseStep s a i (.create input own) (.settling r status ref) (.catching r.id)

inductive RefundCase (s s' : RefundState) (a : RefundAction) : Prop
  | start (work : RefundWork) (eq : s' = { s with tasks := s.tasks ++ [{ work }] })
  | move (i : ℕ) (work : RefundWork) (old new : RefundPhase)
      (get : s.tasks[i]? = some ⟨work, old⟩) (phase : PhaseStep s a i work old new)
      (eq : s' = s.move i work new)
  | insert (i : ℕ) (now : Instant) (input : RefundInput) (id : RefundId) (o : Order) (k : ℕ)
      (seen : RefundSnapshot) (r : Refund) (s₁ : RefundState) (act : a = .commit i now)
      (get : s.tasks[i]? = some ⟨.create input id, .began o k seen⟩)
      (asked : newRefund o s.payments input id seen.inFlight now = .ok r)
      (serial : seen.creates = s.creates) (commit : s.commitCreate r now = .ok s₁)
      (eq : s' = s₁.move i (.create input id)
        (if r.status = .completed then .done else .asking id ""))
  | answer (i : ℕ) (work : RefundWork) (id : RefundId) (known pref ref : String)
      (status : Option String) (act : a = .reply i (.answer status ref))
      (get : s.tasks[i]? = some ⟨work, .asking id pref⟩)
      (eq : s' = { s.move i work (.answered id (mapGatewayRefundStatus status) known) with
        word := Function.update s.word id (.of (mapGatewayRefundStatus status)) })
  | lost (i : ℕ) (input : RefundInput) (own id : RefundId) (pref : String) (taken : Bool)
      (act : a = .reply i (.lost taken))
      (get : s.tasks[i]? = some ⟨.create input own, .asking id pref⟩)
      (eq : s' = { s.move i (.create input own) (.catching id) with
        word := Function.update s.word id (if taken then .taken else .refused) })
  | settle (i : ℕ) (now : Instant) (work : RefundWork) (r : Refund) (status : RefundStatus)
      (ref : String) (s₁ : RefundState) (act : a = .settleWrite i now)
      (get : s.tasks[i]? = some ⟨work, .settling r status ref⟩)
      (commit : s.commitSettle r status ref now = .ok s₁) (eq : s' = s₁.move i work .done)
  | mark (i : ℕ) (work : RefundWork) (id : RefundId) (act : a = .markFailed i)
      (get : s.tasks[i]? = some ⟨work, .catching id⟩)
      (eq : s' = { s.move i work .done with
        refunds := Rows.modify Refund.id id ({ · with status := .failed }) s.refunds })

section steps

variable {s s' : RefundState} {a : RefundAction} {i : ℕ}

/-- **Everything a step can do.** -/
theorem refundStep_cases (h : refundStep s a = some s') : RefundCase s s' a := by
  cases a with
  | create input id => exact .start _ (Option.some.inj h).symm
  | refresh id => exact .start _ (Option.some.inj h).symm
  | read i =>
      simp only [refundStep] at h
      split at h
      · rename_i input id hget
        exact .move i _ _ _ hget (.order input id) (Option.some.inj h).symm
      · rename_i id hget
        split at h
        · exact .move i _ _ _ hget (.quit _ _) (Option.some.inj h).symm
        · rename_i r hfound
          split at h
          · rename_i ref hopen hknown
            exact .move i _ _ _ hget (.poll id r ref hfound hopen) (Option.some.inj h).symm
          · exact .move i _ _ _ hget (.quit _ _) (Option.some.inj h).symm
      · cases h
  | begin_ i =>
      simp only [refundStep] at h
      split at h
      · rename_i work o k hget
        exact .move i _ _ _ hget (.begin_ work o k rfl) (Option.some.inj h).symm
      · cases h
  | commit i now =>
      simp only [refundStep] at h
      split at h
      · rename_i input id o k seen hget
        split at h
        · exact .move i _ _ _ hget (.quit _ _) (Option.some.inj h).symm
        · rename_i r hasked
          split at h
          · cases h
          rename_i hserial
          split at h
          · exact .move i _ _ _ hget (.quit _ _) (Option.some.inj h).symm
          · rename_i s₁ hcommit
            exact .insert i now input id o k seen r s₁ rfl hget hasked
              (not_not.mp fun hc => hserial (.inl hc)) hcommit (Option.some.inj h).symm
      · cases h
  | conflict i =>
      simp only [refundStep] at h
      split at h
      · rename_i work o k seen hget
        by_cases hk : k < 3
        · rw [if_pos hk] at h
          exact .move i _ _ _ hget (.retry work o k seen) (Option.some.inj h).symm
        · rw [if_neg hk] at h
          exact .move i _ _ _ hget (.quit _ _) (Option.some.inj h).symm
      · cases h
  | reply i reply =>
      cases reply with
      | answer status ref =>
          simp only [refundStep] at h
          split at h
          · rename_i work id pref hget
            exact .answer i work id _ pref ref status rfl hget (Option.some.inj h).symm
          · cases h
      | lost taken =>
          simp only [refundStep] at h
          split at h
          · rename_i input own id pref hget
            exact .lost i input own id pref taken rfl hget (Option.some.inj h).symm
          · rename_i id asked pref hget
            exact .move i _ _ _ hget (.quit _ _) (Option.some.inj h).symm
          · cases h
  | settleRead i =>
      simp only [refundStep] at h
      split at h
      · rename_i work id status ref hget
        split at h
        · rename_i hgone
          cases work with
          | create input own =>
              exact .move i _ _ _ hget (.missing input own id status ref hgone)
                (Option.some.inj h).symm
          | refresh asked => exact .move i _ _ _ hget (.quit _ _) (Option.some.inj h).symm
        · rename_i r hfound
          by_cases hdone : r.status = .completed
          · rw [if_pos hdone] at h
            exact .move i _ _ _ hget (.quit _ _) (Option.some.inj h).symm
          · rw [if_neg hdone] at h
            exact .move i _ _ _ hget (.load work id status ref r hfound) (Option.some.inj h).symm
      · cases h
  | settleWrite i now =>
      simp only [refundStep] at h
      split at h
      · rename_i work r status ref hget
        split at h
        · rename_i why hcommit
          cases work with
          | create input own =>
              refine .move i _ _ _ hget (.unsettled input own r status ref ?_)
                (Option.some.inj h).symm
              exact .inr ⟨now, rfl, by rw [hcommit]; rfl⟩
          | refresh asked => exact .move i _ _ _ hget (.quit _ _) (Option.some.inj h).symm
        · rename_i s₁ hcommit
          exact .settle i now work r status ref s₁ rfl hget hcommit (Option.some.inj h).symm
      · cases h
  | settleFail i =>
      simp only [refundStep] at h
      split at h
      · rename_i work id status ref hget
        cases work with
        | create input own =>
            exact .move i _ _ _ hget (.unread input own id status ref rfl) (Option.some.inj h).symm
        | refresh asked => exact .move i _ _ _ hget (.quit _ _) (Option.some.inj h).symm
      · rename_i work r status ref hget
        cases work with
        | create input own =>
            exact .move i _ _ _ hget (.unsettled input own r status ref (.inl rfl))
              (Option.some.inj h).symm
        | refresh asked => exact .move i _ _ _ hget (.quit _ _) (Option.some.inj h).symm
      · cases h
  | markFailed i =>
      simp only [refundStep] at h
      split at h
      · rename_i work id hget
        exact .mark i work id rfl hget (Option.some.inj h).symm
      · cases h

end steps

/-! ### What every run keeps -/

/-- What never changes of a refund. -/
def Refund.fixed (r : Refund) : RefundId × Money × PaymentMethod := (r.id, r.amount, r.method)

/-- A gateway refund is there under this id. -/
def AtGateway (s : RefundState) (id : RefundId) : Prop :=
  ∃ x ∈ s.refunds, x.id = id ∧ x.method = .sslcommerz

/-- What a task knows of the refund it is about to write. -/
def TaskBase (s : RefundState) (t : RefundTask) : Prop :=
  match t.phase with
  | .start | .read .. | .began .. | .done => True
  | .asking id _ => AtGateway s id
  | .answered id status _ => AtGateway s id ∧ status ≠ .requested
  | .catching id => AtGateway s id
  | .settling r status _ => (∃ x ∈ s.refunds, x.fixed = r.fixed ∧ x.method = .sslcommerz) ∧
      status ≠ .requested

structure RefundBase (s : RefundState) : Prop where
  ids : (s.refunds.map Refund.id).Nodup
  amounts : ∀ r ∈ s.refunds, 0 < r.amount ∧ Paisa r.amount
  manual : ∀ r ∈ s.refunds, r.method ≠ .sslcommerz → r.status = .completed
  tasks : ∀ t ∈ s.tasks, TaskBase s t

section base

variable {s s' : RefundState} {a : RefundAction} {i : ℕ} {id : RefundId} {r x : Refund}
  {t : RefundTask} {f : Refund → Refund}

/-- A task that knows its refund knows it in every table that still has it. -/
theorem TaskBase.mono (ht : TaskBase s t)
    (hkeep : ∀ x ∈ s.refunds, ∃ y ∈ s'.refunds, y.fixed = x.fixed) : TaskBase s' t := by
  have hgate {id : RefundId} (hg : AtGateway s id) : AtGateway s' id := by
    obtain ⟨x, hx, hid, hm⟩ := hg
    obtain ⟨y, hy, hfix⟩ := hkeep x hx
    obtain ⟨hyid, hrest⟩ := Prod.mk.inj hfix
    exact ⟨y, hy, hyid.trans hid, (Prod.mk.inj hrest).2.trans hm⟩
  obtain ⟨work, phase⟩ := t
  cases phase with
  | start => trivial
  | read o k => trivial
  | began o k seen => trivial
  | done => trivial
  | asking id ref => exact hgate ht
  | answered id status ref => exact ⟨hgate ht.1, ht.2⟩
  | catching id => exact hgate ht
  | settling r status ref =>
      obtain ⟨⟨x, hx, hfix, hm⟩, hstatus⟩ := ht
      obtain ⟨y, hy, hsame⟩ := hkeep x hx
      obtain ⟨-, hrest⟩ := Prod.mk.inj hsame
      exact ⟨⟨y, hy, hsame.trans hfix, (Prod.mk.inj hrest).2.trans hm⟩, hstatus⟩

/-- The one row of an id. -/
theorem RefundBase.unique (hb : RefundBase s) {y : Refund} (hx : x ∈ s.refunds)
    (hy : y ∈ s.refunds) (h : x.id = y.id) : x = y := by
  have hlx := Rows.lookup_of_mem hb.ids hx
  have hly := Rows.lookup_of_mem hb.ids hy
  rw [h] at hlx
  exact Option.some.inj (hlx.symm.trans hly)

/-- The refunds may gain members, and a gateway refund may be rewritten. -/
theorem RefundBase.rewrite (hb : RefundBase s) (hg : AtGateway s id)
    (hf : ∀ r, (f r).fixed = r.fixed) :
    let refunds := Rows.modify Refund.id id f s.refunds
    (refunds.map Refund.id).Nodup ∧ (∀ r ∈ refunds, 0 < r.amount ∧ Paisa r.amount) ∧
      (∀ r ∈ refunds, r.method ≠ .sslcommerz → r.status = .completed) ∧
      ∀ x ∈ s.refunds, ∃ y ∈ refunds, y.fixed = x.fixed := by
  have hid (r : Refund) : (f r).id = r.id := (Prod.mk.inj (hf r)).1
  have hamount (r : Refund) : (f r).amount = r.amount :=
    (Prod.mk.inj (Prod.mk.inj (hf r)).2).1
  have hmethod (r : Refund) : (f r).method = r.method :=
    (Prod.mk.inj (Prod.mk.inj (hf r)).2).2
  refine ⟨?_, ?_, ?_, ?_⟩
  · rw [Rows.map_modify hid]
    exact hb.ids
  · exact Rows.forall_modify hb.amounts fun r hr => by rw [hamount]; exact hr
  · intro r hr hm
    obtain ⟨y, hy, rfl⟩ := List.mem_map.mp hr
    by_cases hkey : y.id = id
    · obtain ⟨x, hx, hxid, hxm⟩ := hg
      obtain rfl := hb.unique hy hx (hkey.trans hxid.symm)
      simp only [if_pos hkey, hmethod] at hm
      exact absurd hxm hm
    · simp only [if_neg hkey] at hm ⊢
      exact hb.manual y hy hm
  · intro x hx
    by_cases hkey : x.id = id
    · exact ⟨f x, List.mem_map.mpr ⟨x, hx, if_pos hkey⟩, hf x⟩
    · exact ⟨x, List.mem_map.mpr ⟨x, hx, if_neg hkey⟩, rfl⟩

/-- A phase step keeps what the task knows. -/
theorem TaskBase.step {work : RefundWork} {old new : RefundPhase} (hb : RefundBase s)
    (ht : TaskBase s ⟨work, old⟩) (h : PhaseStep s a i work old new) : TaskBase s ⟨work, new⟩ := by
  cases h with
  | quit => trivial
  | order => trivial
  | retry => trivial
  | begin_ => trivial
  | poll id r ref found open_ =>
      have hmem := Rows.mem_of_lookup found
      refine ⟨r, hmem, Rows.key_of_lookup found, ?_⟩
      by_contra hm
      rw [hb.manual r hmem hm] at open_
      cases open_
  | load work id status ref r found =>
      obtain ⟨⟨x, hx, hxid, hxm⟩, hstatus⟩ := ht
      have hmem := Rows.mem_of_lookup found
      obtain rfl := hb.unique hmem hx ((Rows.key_of_lookup found).trans hxid.symm)
      exact ⟨⟨r, hx, rfl, hxm⟩, hstatus⟩
  | missing input own id status ref gone => exact ht.1
  | unread input own id status ref eq => exact ht.1
  | unsettled input own r status ref cause =>
      obtain ⟨⟨x, hx, hfix, hm⟩, -⟩ := ht
      exact ⟨x, hx, (Prod.mk.inj hfix).1, hm⟩

/-- A task that settles finds the refund it has read, by then maybe in another status. -/
theorem RefundBase.settling_row {status : RefundStatus} {ref : String} {work : RefundWork}
    (hb : RefundBase s) (hget : s.tasks[i]? = some ⟨work, .settling r status ref⟩) :
    ∃ x, Rows.lookup Refund.id r.id s.refunds = some x ∧ x.fixed = r.fixed ∧
      x.method = .sslcommerz ∧ status ≠ .requested := by
  obtain ⟨⟨x, hx, hfix, hm⟩, hstatus⟩ := hb.tasks _ (List.mem_of_getElem? hget)
  have hid : x.id = r.id := (Prod.mk.inj hfix).1
  refine ⟨x, ?_, hfix, hm, hstatus⟩
  rw [← hid]
  exact Rows.lookup_of_mem hb.ids hx

/-- **Every step keeps the refunds what they are.** -/
theorem refundStep_base (hb : RefundBase s) (h : refundStep s a = some s') : RefundBase s' := by
  have htask {w : RefundWork} {p : RefundPhase} {i : ℕ} (hget : s.tasks[i]? = some ⟨w, p⟩) :
      TaskBase s ⟨w, p⟩ := hb.tasks _ (List.mem_of_getElem? hget)
  cases refundStep_cases h with
  | start work eq =>
      subst eq
      exact ⟨hb.ids, hb.amounts, hb.manual, Procs.forall_append hb.tasks trivial⟩
  | move i work old new get phase eq =>
      subst eq
      have hnew : TaskBase s ⟨work, new⟩ := TaskBase.step hb (htask get) phase
      exact ⟨hb.ids, hb.amounts, hb.manual, Procs.forall_set hb.tasks hnew⟩
  | insert i now input id o k seen r s₁ act get asked serial commit eq =>
      obtain ⟨hid, hgateway, hmanual, hpos, hpaisa, -⟩ := newRefund_ok asked
      obtain ⟨hnew, o', cash', writes, rfl, -⟩ := commitCreate_ok commit
      subst eq
      have hkeep : ∀ x ∈ s.refunds, ∃ y ∈ s.refunds ++ [r], y.fixed = x.fixed :=
        fun x hx => ⟨x, List.mem_append_left _ hx, rfl⟩
      refine ⟨?_, Procs.forall_append hb.amounts ⟨hpos, hpaisa⟩,
        Procs.forall_append hb.manual hmanual,
        Procs.forall_set (fun t ht => (hb.tasks t ht).mono hkeep) ?_⟩
      · show ((s.refunds ++ [r]).map Refund.id).Nodup
        rw [List.map_append]
        exact List.nodup_append.mpr
          ⟨hb.ids, List.nodup_singleton _, fun y hy z hz => by
            rw [List.map_singleton, List.mem_singleton] at hz
            rintro rfl
            exact hnew (hz ▸ hy)⟩
      · by_cases hdone : r.status = .completed
        · rw [if_pos hdone]
          trivial
        · rw [if_neg hdone]
          refine ⟨r, List.mem_append_right _ (List.mem_singleton_self r), hid, ?_⟩
          by_contra hm
          exact hdone (hmanual hm)
  | answer i work id known pref ref status act get eq =>
      subst eq
      exact ⟨hb.ids, hb.amounts, hb.manual, Procs.forall_set hb.tasks
        ⟨htask get, mapGatewayRefundStatus_ne_requested status⟩⟩
  | lost i input own id pref taken act get eq =>
      subst eq
      exact ⟨hb.ids, hb.amounts, hb.manual, Procs.forall_set hb.tasks (htask get)⟩
  | settle i now work r status ref s₁ act get commit eq =>
      obtain ⟨⟨x, hx, hfix, hm⟩, -⟩ := htask get
      obtain ⟨o', cash', writes, rfl, -⟩ := commitSettle_ok commit
      subst eq
      obtain ⟨hids, hamounts, hmanual, hkeep⟩ :=
        hb.rewrite (f := settled r status ref now) ⟨x, hx, (Prod.mk.inj hfix).1, hm⟩ fun _ => rfl
      exact ⟨hids, hamounts, hmanual,
        Procs.forall_set (fun t ht => (hb.tasks t ht).mono hkeep) trivial⟩
  | mark i work id act get eq =>
      subst eq
      obtain ⟨hids, hamounts, hmanual, hkeep⟩ :=
        hb.rewrite (f := ({ · with status := .failed })) (htask get) fun _ => rfl
      exact ⟨hids, hamounts, hmanual,
        Procs.forall_set (fun t ht => (hb.tasks t ht).mono hkeep) trivial⟩

end base

end BookHouse
