/-
What the threads of the payment desk promise each other.

A thread that has read a payment relies on the columns that are never written again (its
order, amount, currency and tran_id), on what its own entries in the log say, and on the
orders it was about to cancel being its own to cancel.  Each operation keeps the tables
sound and disturbs none of this for the other threads.
-/
import BookHouse.Payments.Settlement
import BookHouse.Lib.Result
import BookHouse.Proofs.Money

namespace BookHouse

open Prog

/-- The columns of a payment that are never written again. -/
def Payment.terms (p : Payment) : PaymentId × OrderId × Money × String × Option String :=
  (p.id, p.orderId, p.amount, p.currency, p.tranId)

namespace PaymentSettlement

variable {p : Payment}

@[simp] theorem terms_markPending (reason : String) : (markPending reason p).terms = p.terms := by
  unfold markPending
  split
  · rfl
  · rfl

@[simp] theorem terms_fail (status : Failable) (reason : String) :
    (fail status reason p).terms = p.terms := by
  unfold fail
  split
  · rfl
  · rfl

@[simp] theorem terms_succeed (c : Captured) (at_ : Instant) :
    (succeed c at_ p).terms = p.terms := by
  unfold succeed
  split
  · rfl
  · rfl

end PaymentSettlement

namespace GatewayDesk

/-- What a log says happened in thread `i`, newest first. -/
def happenedIn (i : ℕ) (log : List (ℕ × Happening)) : List Happening :=
  (log.filter fun e => e.1 = i).map Prod.snd

def own (s : GatewayDesk) (i : ℕ) : List Happening := happenedIn i s.log

/-- Nothing that was once written down is lost. -/
structure Grows (s t : GatewayDesk) : Prop where
  log : s.log <:+ t.log
  payments : ∀ id p, Rows.lookup Payment.id id s.payments = some p →
    ∃ p', Rows.lookup Payment.id id t.payments = some p' ∧ p'.terms = p.terms
  orders : ∀ id o, Rows.lookup Order.id id s.orders = some o →
    ∃ o', Rows.lookup Order.id id t.orders = some o' ∧ o'.orderNo = o.orderNo

/-- What a table of payments and orders always is. -/
structure Sound (s : GatewayDesk) : Prop where
  ids : s.payments.map Payment.id = List.range s.payments.length
  tranIds : (s.payments.map Payment.tranId).Nodup
  named : ∀ p ∈ s.payments, ∃ tranId, p.tranId = some tranId ∧ tranId.length ≤ 30
  amounts : ∀ p ∈ s.payments, 0 < p.amount ∧ round2 p.amount = p.amount
  placed : ∀ p ∈ s.payments, ∃ o, Rows.lookup Order.id p.orderId s.orders = some o
  orderIds : (s.orders.map Order.id).Nodup
  columns : ∀ o ∈ s.orders, fitsColumns o = true

/-- What the others leave alone while a thread waits. -/
structure Rely (i : ℕ) (s t : GatewayDesk) : Prop where
  grows : Grows s t
  own : t.own i = s.own i
  watches : ∀ w ∈ s.watches, w.thread = i → w ∈ t.watches

variable {s t u : GatewayDesk} {i j : ℕ}

namespace Grows

theorem refl (s : GatewayDesk) : Grows s s :=
  ⟨List.suffix_refl _, fun _ p h => ⟨p, h, rfl⟩, fun _ o h => ⟨o, h, rfl⟩⟩

theorem trans (h : Grows s t) (h' : Grows t u) : Grows s u := by
  refine ⟨h.log.trans h'.log, fun id p hp => ?_, fun id o ho => ?_⟩
  · obtain ⟨p', hp', hterms⟩ := h.payments id p hp
    obtain ⟨p'', hp'', hterms'⟩ := h'.payments id p' hp'
    exact ⟨p'', hp'', hterms'.trans hterms⟩
  · obtain ⟨o', ho', hno⟩ := h.orders id o ho
    obtain ⟨o'', ho'', hno'⟩ := h'.orders id o' ho'
    exact ⟨o'', ho'', hno'.trans hno⟩

end Grows

namespace Rely

theorem refl (i : ℕ) (s : GatewayDesk) : Rely i s s := ⟨Grows.refl s, rfl, fun _ h _ => h⟩

theorem trans (h : Rely i s t) (h' : Rely i t u) : Rely i s u :=
  ⟨h.grows.trans h'.grows, h'.own.trans h.own,
    fun w hw hi => h'.watches w (h.watches w hw hi) hi⟩

end Rely

theorem mem_happenedIn {h : Happening} {log : List (ℕ × Happening)} :
    h ∈ happenedIn i log ↔ (i, h) ∈ log := by
  unfold happenedIn
  constructor
  · intro hm
    obtain ⟨⟨k, x⟩, hx, rfl⟩ := List.mem_map.mp hm
    obtain ⟨hlog, hk⟩ := List.mem_filter.mp hx
    have hki : k = i := by simpa using hk
    exact hki ▸ hlog
  · intro hm
    exact List.mem_map.mpr ⟨(i, h), List.mem_filter.mpr ⟨hm, by simp⟩, rfl⟩

/-! ### What an operation writes -/

/-- The entries of one thread. -/
def entries (i : ℕ) (new : List Happening) : List (ℕ × Happening) := new.map fun h => (i, h)

theorem happenedIn_entries (i : ℕ) (new : List Happening) (log : List (ℕ × Happening)) :
    happenedIn i (entries i new ++ log) = new ++ happenedIn i log := by
  have hall : ((entries i new).filter fun e => e.1 = i) = entries i new :=
    List.filter_eq_self.mpr fun e he => by
      obtain ⟨x, -, rfl⟩ := List.mem_map.mp he
      simp
  rw [happenedIn, List.filter_append, List.map_append, hall]
  simp [happenedIn, entries, List.map_map, Function.comp_def]

theorem own_append_self {new : List Happening} (h : t.log = entries i new ++ s.log) :
    t.own i = new ++ s.own i := by
  rw [own, h, happenedIn_entries]
  rfl

theorem own_append_ne {new : List Happening} (h : t.log = entries i new ++ s.log) (hne : j ≠ i) :
    t.own j = s.own j := by
  have hnone : (entries i new).filter (fun e => e.1 = j) = [] := by
    refine List.filter_eq_nil_iff.mpr fun e he => ?_
    obtain ⟨x, -, rfl⟩ := List.mem_map.mp he
    simpa using fun hc : i = j => hne hc.symm
  rw [own, h, happenedIn, List.filter_append, List.map_append, hnone]
  rfl

/-- Tables whose lasting columns are the same are as sound. -/
theorem Sound.of_terms (h : Sound s) (hp : t.payments.map Payment.terms = s.payments.map Payment.terms)
    (ho : t.orders = s.orders) : Sound t := by
  have hcol : ∀ {γ : Type} (g : PaymentId × OrderId × Money × String × Option String → γ),
      t.payments.map (fun p => g p.terms) = s.payments.map fun p => g p.terms := by
    intro γ g
    have hg := congrArg (List.map g) hp
    simpa [List.map_map, Function.comp_def] using hg
  have hmem : ∀ p ∈ t.payments, ∃ q ∈ s.payments, q.terms = p.terms := by
    intro p hm
    have hin : p.terms ∈ s.payments.map Payment.terms := hp ▸ List.mem_map_of_mem hm
    obtain ⟨q, hq, heq⟩ := List.mem_map.mp hin
    exact ⟨q, hq, heq⟩
  have hlength : t.payments.length = s.payments.length := by
    simpa using congrArg List.length hp
  refine ⟨?_, ?_, fun p hm => ?_, fun p hm => ?_, fun p hm => ?_, ho ▸ h.orderIds, ho ▸ h.columns⟩
  · exact (hcol fun x => x.1).trans (hlength ▸ h.ids)
  · have htran := hcol fun x => x.2.2.2.2
    have hnd : (s.payments.map fun p => p.terms.2.2.2.2).Nodup := h.tranIds
    exact (htran ▸ hnd : (t.payments.map fun p => p.terms.2.2.2.2).Nodup)
  · obtain ⟨q, hq, heq⟩ := hmem p hm
    have htran : q.tranId = p.tranId := congrArg (fun x => x.2.2.2.2) heq
    exact htran ▸ h.named q hq
  · obtain ⟨q, hq, heq⟩ := hmem p hm
    have hamount : q.amount = p.amount := congrArg (fun x => x.2.2.1) heq
    exact hamount ▸ h.amounts q hq
  · obtain ⟨q, hq, heq⟩ := hmem p hm
    have horder : q.orderId = p.orderId := congrArg (fun x => x.2.1) heq
    rw [ho, ← horder]
    exact h.placed q hq

theorem Grows.of_terms (hlog : s.log <:+ t.log)
    (hp : t.payments.map Payment.terms = s.payments.map Payment.terms)
    (ho : t.orders = s.orders) : Grows s t := by
  refine ⟨hlog, fun id p h => ?_, fun id o h => ⟨o, ho ▸ h, rfl⟩⟩
  have hkeyed : t.payments.map (fun r => (r.id, r.terms)) =
      s.payments.map fun r => (r.id, r.terms) := by
    have hg := congrArg (List.map fun x => (x.1, x)) hp
    simpa [List.map_map, Function.comp_def, Payment.terms] using hg
  have hlook := Rows.lookup_map_congr (k := id) hkeyed
  rw [h] at hlook
  exact Option.map_eq_some_iff.mp hlook

/-- Thread `i` went from `s` to `t`, and `new` is what it entered in the log. -/
structure Wrote (i : ℕ) (new : List Happening) (s t : GatewayDesk) : Prop where
  log : t.log = entries i new ++ s.log
  grows : Grows s t
  sound : Sound s → Sound t
  watches : ∀ w ∈ s.watches, w.thread ≠ i → w ∈ t.watches

namespace Wrote

variable {new : List Happening}

theorem rely (h : Wrote i new s t) (hne : j ≠ i) : Rely j s t :=
  ⟨h.grows, own_append_ne h.log hne, fun w hw hj => h.watches w hw (hj ▸ hne)⟩

theorem own_self (h : Wrote i new s t) : t.own i = new ++ s.own i := own_append_self h.log

/-- An operation that leaves the lasting columns alone. -/
theorem of_terms (hlog : t.log = entries i new ++ s.log)
    (hp : t.payments.map Payment.terms = s.payments.map Payment.terms)
    (ho : t.orders = s.orders) (hw : ∀ w ∈ s.watches, w ∈ t.watches) : Wrote i new s t :=
  ⟨hlog, Grows.of_terms ⟨_, hlog.symm⟩ hp ho, fun h => h.of_terms hp ho, fun w hm _ => hw w hm⟩

theorem refl (i : ℕ) (s : GatewayDesk) : Wrote i [] s s :=
  of_terms rfl rfl rfl fun _ h => h

theorem note (i : ℕ) (s : GatewayDesk) (what : Happening) : Wrote i [what] s (s.note i what) :=
  of_terms rfl rfl rfl fun _ h => h

end Wrote

/-- An `UPDATE` of a payment enters the move, if there was one. -/
theorem wrote_movePayment {k : PaymentId} {c : PaymentStatus → Bool} {f : Payment → Payment}
    (hf : ∀ p, (f p).terms = p.terms) :
    ∃ new, Wrote i new s (s.movePayment i k c f).2 ∧
      ∀ h ∈ new, ∃ p, Rows.lookup Payment.id k s.payments = some p ∧ c p.status = true ∧
        h = .moved k p.status (f p).status := by
  unfold movePayment
  split
  · exact ⟨[], Wrote.refl i s, fun h hm => absurd hm (by simp)⟩
  · rename_i p hp
    split
    · rename_i hc
      refine ⟨[.moved k p.status (f p).status], ?_, fun h hm => ?_⟩
      · exact Wrote.of_terms rfl (Rows.map_modify hf) rfl fun _ hw => hw
      · exact ⟨p, hp, hc, List.mem_singleton.mp hm⟩
    · exact ⟨[], Wrote.refl i s, fun h hm => absurd hm (by simp)⟩

theorem wrote_supersede (orderId : OrderId) :
    ∃ new, Wrote i new s (s.supersede i orderId) ∧
      ∀ h ∈ new, ∃ p ∈ s.payments, p.orderId = orderId ∧ p.status.isOpen = true ∧
        h = .moved p.id p.status .cancelled := by
  let open_ := s.payments.filter fun p => p.orderId = orderId && p.status.isOpen
  refine ⟨open_.map fun p => .moved p.id p.status .cancelled, ?_, fun h hm => ?_⟩
  · refine Wrote.of_terms ?_ ?_ rfl fun _ hw => hw
    · simp [supersede, entries, open_, List.map_map, Function.comp_def]
    · show (PaymentCheckout.supersede s.payments orderId).map Payment.terms = _
      rw [PaymentCheckout.supersede, List.map_map]
      refine List.map_congr_left fun p _ => ?_
      simp only [Function.comp_apply, PaymentCheckout.superseded]
      split
      · split
        · rfl
        · rfl
      · rfl
  · obtain ⟨p, hp, rfl⟩ := List.mem_map.mp hm
    obtain ⟨hmem, hcond⟩ := List.mem_filter.mp hp
    simp only [Bool.and_eq_true, decide_eq_true_eq] at hcond
    exact ⟨p, hmem, hcond.1, hcond.2, rfl⟩

/-- A row is written over: it keeps its id and number, and fits its columns. -/
theorem wrote_order (hs : Sound s) {id : OrderId} {o row : Order}
    (hl : Rows.lookup Order.id id s.orders = some o) (hid : row.id = id)
    (hno : row.orderNo = o.orderNo) (hfits : fitsColumns row = true)
    (ht : t = { s with orders := Rows.modify Order.id id (fun _ => row) s.orders }) :
    Wrote i [] s t := by
  have hkey : ∀ r ∈ s.orders, r.id = id → r = o := by
    intro r hr hrid
    have hlook := Rows.lookup_of_mem hs.orderIds hr
    exact Option.some.inj (hlook.symm.trans (hrid ▸ hl))
  have hcols : t.orders.map (fun r => (r.id, r.orderNo)) =
      s.orders.map fun r => (r.id, r.orderNo) := by
    rw [ht]
    refine Rows.map_modify_of_mem fun r hr hrid => ?_
    rw [hid, hno, hkey r hr hrid, Rows.key_of_lookup hl]
  have hlook : ∀ k, (Rows.lookup Order.id k t.orders).map Order.orderNo =
      (Rows.lookup Order.id k s.orders).map Order.orderNo := fun k => Rows.lookup_map_congr hcols
  have hids : t.orders.map Order.id = s.orders.map Order.id := by
    simpa [List.map_map, Function.comp_def] using congrArg (List.map Prod.fst) hcols
  have hpay : t.payments = s.payments := by rw [ht]
  refine ⟨by rw [ht]; rfl, ⟨by rw [ht], fun k p hp => ⟨p, hpay ▸ hp, rfl⟩, fun k x hx => ?_⟩,
    fun _ => ⟨hpay ▸ hs.ids, hpay ▸ hs.tranIds, hpay ▸ hs.named, hpay ▸ hs.amounts, ?_, ?_, ?_⟩,
    fun w hw _ => by rw [ht]; exact hw⟩
  · have hx' := hlook k
    rw [hx] at hx'
    exact Option.map_eq_some_iff.mp hx'
  · intro p hp
    obtain ⟨x, hx⟩ := hs.placed p (hpay ▸ hp)
    have hx' := hlook p.orderId
    rw [hx] at hx'
    obtain ⟨y, hy, -⟩ := Option.map_eq_some_iff.mp hx'
    exact ⟨y, hy⟩
  · exact hids ▸ hs.orderIds
  · intro r hr
    rw [ht] at hr
    rcases Rows.mem_modify hs.orderIds hl hr with rfl | ⟨hold, -⟩
    · exact hfits
    · exact hs.columns r hold

theorem fitsColumns_iff {o : Order} : fitsColumns o = true ↔
    o.orderNo.length ≤ 30 ∧ round2 o.grandTotal = o.grandTotal ∧
      round2 o.amountPaid = o.amountPaid := by
  simp only [fitsColumns, Bool.and_eq_true, decide_eq_true_eq, and_assoc]

theorem transition_columns {o row : Order} {cmd : TransitionCommand} {actor : TransitionActor}
    {now : Instant} {plan : TransitionPlan} (h : o.transition cmd actor now = .ok (row, plan)) :
    row.id = o.id ∧ row.orderNo = o.orderNo ∧ (fitsColumns o = true → fitsColumns row = true) := by
  unfold Order.transition at h
  split at h
  · cases h
  · rename_i planned _
    obtain ⟨⟨⟩, -, hrow⟩ := Result.bind_ok.mp h
    obtain ⟨rfl, rfl⟩ := Prod.mk.inj (Result.pure_ok.mp hrow)
    refine ⟨rfl, rfl, fun hf => ?_⟩
    obtain ⟨hlength, htotal, hpaid⟩ := fitsColumns_iff.mp hf
    refine fitsColumns_iff.mpr ⟨hlength, htotal, ?_⟩
    show round2 (if planned.markPaid then o.grandTotal else o.amountPaid) =
      if planned.markPaid then o.grandTotal else o.amountPaid
    split
    · exact htotal
    · exact hpaid

theorem wrote_saveOrder (hs : Sound s) {row : Order} (h : s.saveOrder row = .ok t) :
    Wrote i [] s t := by
  unfold saveOrder at h
  split at h
  · cases h
  rename_i hfits
  have hfits : fitsColumns row = true := by simpa using hfits
  split at h
  · rename_i hnone
    obtain rfl := Except.ok.inj h
    have hfresh : row.id ∉ s.orders.map Order.id := by
      rw [← Rows.lookup_isSome, hnone]
      simp
    refine ⟨rfl, ⟨List.suffix_refl _, fun k p hp => ⟨p, hp, rfl⟩, fun k x hx =>
      ⟨x, Rows.lookup_append_of_some hx, rfl⟩⟩, fun _ => ⟨hs.ids, hs.tranIds, hs.named, hs.amounts,
      fun p hp => ?_, ?_, ?_⟩, fun w hw _ => hw⟩
    · obtain ⟨x, hx⟩ := hs.placed p hp
      exact ⟨x, Rows.lookup_append_of_some hx⟩
    · show ((s.orders ++ [row]).map Order.id).Nodup
      rw [List.map_append, List.nodup_append]
      refine ⟨hs.orderIds, List.nodup_singleton _, fun a ha b hb => ?_⟩
      have hb' : b = row.id := by simpa using hb
      intro hab
      exact hfresh (hb' ▸ hab ▸ ha)
    · exact Procs.forall_append hs.columns hfits
  · rename_i o ho
    split at h
    · cases h
    · rename_i hno
      exact wrote_order hs ho rfl (not_not.mp hno).symm hfits (Except.ok.inj h).symm

theorem wrote_autoCancel (hs : Sound s) {orderId : OrderId} {failed : Option PaymentId}
    {cmd : TransitionCommand} {actor : TransitionActor} {now : Instant}
    (h : s.autoCancel i orderId failed cmd actor now = .ok t) :
    Wrote i [.autoCancelled orderId failed s.payments] s t := by
  unfold autoCancel at h
  split at h
  · cases h
  rename_i o ho
  split at h
  · cases h
  rename_i row plan hrow
  obtain rfl := Except.ok.inj h
  obtain ⟨hid, hno, hfits⟩ := transition_columns hrow
  have hcolumns := hfits (hs.columns o (Rows.mem_of_lookup ho))
  have hw : Wrote i [] s { s with orders := Rows.modify Order.id orderId (fun _ => row) s.orders } :=
    wrote_order hs ho (hid.trans (Rows.key_of_lookup ho)) hno hcolumns rfl
  refine ⟨rfl, ⟨List.suffix_cons _ _, hw.grows.payments, hw.grows.orders⟩, fun _ => ?_, hw.watches⟩
  exact (hw.sound hs).of_terms rfl rfl

theorem wrote_createPayment (hs : Sound s) {o : Order} {tranId : String} {now : Instant}
    {p : Payment} (hplaced : ∃ x, Rows.lookup Order.id o.id s.orders = some x)
    (hfits : fitsColumns o = true) (hshort : tranId.length ≤ 30)
    (h : s.createPayment o tranId now = .ok (p, t)) : Wrote i [] s t ∧
      t = { s with payments := s.payments ++ [p] } ∧ p.id = s.payments.length ∧
      p.orderId = o.id ∧ p.tranId = some tranId ∧ p.status = .initiated := by
  unfold createPayment at h
  dsimp only at h
  split at h
  · cases h
  rename_i payments hins
  obtain ⟨rfl, rfl⟩ := Prod.mk.inj (Except.ok.inj h)
  unfold PaymentCheckout.insertPayment at hins
  split at hins
  · cases hins
  rename_i hunique
  split at hins
  · cases hins
  rename_i hpos
  obtain rfl := Except.ok.inj hins
  let p : Payment := { PaymentCheckout.newPayment s.payments.length o tranId with initiatedAt := now }
  have hnew : p.tranId ∉ s.payments.map Payment.tranId := by
    intro hm
    obtain ⟨q, hq, heq⟩ := List.mem_map.mp hm
    exact hunique (List.any_eq_true.mpr ⟨q, hq, by simpa using heq⟩)
  obtain ⟨-, htotal, hpaid⟩ := fitsColumns_iff.mp hfits
  have hamount : round2 p.amount = p.amount := by
    refine Rounding.toPlaces_of_hasPlaces ?_
    show Paisa (o.grandTotal - o.amountPaid)
    exact Rounding.HasPlaces.sub (htotal ▸ round2_paisa _) (hpaid ▸ round2_paisa _)
  refine ⟨⟨rfl, ⟨List.suffix_refl _, fun k q hq => ⟨q, Rows.lookup_append_of_some hq, rfl⟩,
    fun k x hx => ⟨x, hx, rfl⟩⟩, fun _ => ⟨?_, ?_, ?_, ?_, ?_, hs.orderIds, hs.columns⟩,
    fun w hw _ => hw⟩, rfl, rfl, rfl, rfl, rfl⟩
  · show (s.payments ++ [p]).map Payment.id = List.range (s.payments ++ [p]).length
    rw [List.map_append, hs.ids, List.length_append, List.length_singleton, List.range_succ]
    rfl
  · show ((s.payments ++ [p]).map Payment.tranId).Nodup
    rw [List.map_append, List.nodup_append]
    refine ⟨hs.tranIds, List.nodup_singleton _, fun a ha b hb hab => ?_⟩
    have hb' : b = p.tranId := by simpa using hb
    exact hnew (hb' ▸ hab ▸ ha)
  · exact Procs.forall_append hs.named ⟨tranId, rfl, hshort⟩
  · exact Procs.forall_append hs.amounts ⟨not_le.mp hpos, hamount⟩
  · exact Procs.forall_append hs.placed hplaced

/-- A capture that found its payment moves it to SUCCESS and posts to the ledger. -/
theorem capture_ok {id : PaymentId} {columns : PaymentSettlement.Captured}
    {posting : CashLedger.GatewayCapture} {won : Bool}
    (h : s.capture i id columns posting = .ok (won, t)) :
    (won = false ∧ t = s) ∨
      ∃ p cash, won = true ∧ Rows.lookup Payment.id id s.payments = some p ∧
        p.status.isFinalOk = false ∧ CashLedger.recordGatewayCapture s.cash posting = .ok cash ∧
        t = { s with
          payments := Rows.modify Payment.id id (PaymentSettlement.succeed columns posting.at_)
            s.payments,
          log := (i, .moved id p.status .success) :: s.log, cash } := by
  unfold capture movePayment at h
  cases hp : Rows.lookup Payment.id id s.payments with
  | none =>
      simp only [hp] at h
      obtain ⟨rfl, rfl⟩ := Prod.mk.inj (Except.ok.inj h)
      exact .inl ⟨rfl, rfl⟩
  | some p =>
      simp only [hp] at h
      by_cases hfinal : p.status.isFinalOk = true
      · simp only [hfinal, Bool.not_true, Bool.false_eq_true, if_false] at h
        obtain ⟨rfl, rfl⟩ := Prod.mk.inj (Except.ok.inj h)
        exact .inl ⟨rfl, rfl⟩
      · have hopen : p.status.isFinalOk = false := by simpa using hfinal
        simp only [hopen, Bool.not_false, if_true] at h
        have hstatus : (PaymentSettlement.succeed columns posting.at_ p).status = .success := by
          simp [PaymentSettlement.succeed, hopen]
        rw [hstatus] at h
        cases hc : CashLedger.recordGatewayCapture s.cash posting with
        | error failure =>
            simp only [hc] at h
            cases h
        | ok cash =>
            simp only [hc] at h
            obtain ⟨rfl, rfl⟩ := Prod.mk.inj (Except.ok.inj h)
            exact .inr ⟨p, cash, rfl, rfl, hopen, rfl, rfl⟩

theorem wrote_capture {id : PaymentId} {columns : PaymentSettlement.Captured}
    {posting : CashLedger.GatewayCapture} {won : Bool}
    (h : s.capture i id columns posting = .ok (won, t)) :
    ∃ new, Wrote i new s t ∧ ∀ w ∈ s.watches, w ∈ t.watches := by
  rcases capture_ok h with ⟨-, rfl⟩ | ⟨p, cash, -, -, -, -, rfl⟩
  · exact ⟨[], Wrote.refl i _, fun _ h => h⟩
  · refine ⟨[.moved id p.status .success], ?_, fun _ h => h⟩
    exact Wrote.of_terms rfl (Rows.map_modify fun q => PaymentSettlement.terms_succeed _ _) rfl
      fun _ h => h

theorem Wrote.trans {new new' : List Happening} (h : Wrote i new s t) (h' : Wrote i new' t u) :
    Wrote i (new' ++ new) s u := by
  refine ⟨?_, h.grows.trans h'.grows, fun hs => h'.sound (h.sound hs), fun w hw hne =>
    h'.watches w (h.watches w hw hne) hne⟩
  rw [h'.log, h.log, entries, entries, entries, List.map_append, List.append_assoc]

theorem wrote_unwatch (i : ℕ) (s : GatewayDesk) (orderId : OrderId) :
    Wrote i [] s (s.unwatch i orderId) := by
  refine ⟨rfl, Grows.of_terms (List.suffix_refl _) rfl rfl, fun h => h.of_terms rfl rfl,
    fun w hw hne => ?_⟩
  exact List.mem_filter.mpr ⟨hw, by simp [hne]⟩

end GatewayDesk

end BookHouse
