/-
Automatic cancellation and the attempts that are still alive.

Both automatic paths look first and cancel later, so a watch on the order stands in
between.  As long as nothing of a watched order comes alive, the order is cancelled in the
state it was seen in.  Two things go wrong where this is not so: an attempt is started or
captured under a watch, and the sweeper puts a watch on orders whose attempt is INITIATED,
which the failure handler would not.
-/
import BookHouse.Proofs.Callbacks

namespace BookHouse

open Prog (Contract Act World)
open GatewayDesk Machine

/-- An attempt that a cancellation has to spare. -/
def isAlive : PaymentStatus → Bool
  | .initiated | .pending | .success => true
  | _ => false

/-- No attempt of the order but the failed one is alive, and none has captured. -/
structure Clear (payments : List Payment) (orderId : OrderId) (failed : Option PaymentId) :
    Prop where
  others : ∀ p ∈ payments, p.orderId = orderId → some p.id ≠ failed → isAlive p.status = false
  unpaid : ∀ p ∈ payments, p.orderId = orderId → p.status ≠ .success

variable {config : GatewayConfig} {i : ℕ} {s t : GatewayDesk} {p : Payment}

/-- No attempt of the order comes alive or captures. -/
def Ebbs (s t : GatewayDesk) (orderId : OrderId) : Prop :=
  ∀ q ∈ t.payments, q.orderId = orderId → ∃ p ∈ s.payments, q.id = p.id ∧ q.orderId = p.orderId ∧
    (q.status = .success → p.status = .success) ∧ (isAlive q.status = true → isAlive p.status = true)

theorem Clear.ebbs {orderId : OrderId} {failed : Option PaymentId}
    (h : Clear s.payments orderId failed) (he : Ebbs s t orderId) :
    Clear t.payments orderId failed := by
  refine ⟨fun q hq horder hne => ?_, fun q hq horder hpaid => ?_⟩
  · obtain ⟨p, hp, hid, hpo, -, halive⟩ := he q hq horder
    rw [← Bool.not_eq_true]
    intro hc
    have hdead := h.others p hp (hpo.symm.trans horder) (hid ▸ hne)
    rw [halive hc] at hdead
    cases hdead
  · obtain ⟨p, hp, -, hpo, hsuccess, -⟩ := he q hq horder
    exact h.unpaid p hp (hpo.symm.trans horder) (hsuccess hpaid)

theorem ebbs_of_eq (h : t.payments = s.payments) (orderId : OrderId) : Ebbs s t orderId :=
  fun q hq _ => ⟨q, h ▸ hq, rfl, rfl, fun hc => hc, fun hc => hc⟩

/-- A row moves to a status that is no more alive. -/
theorem ebbs_moved {f : Payment → Payment} (hs : Sound s)
    (hp : Rows.lookup Payment.id p.id s.payments = some p) (hf : (f p).terms = p.terms)
    (hpaid : (f p).status ≠ .success)
    (halive : isAlive (f p).status = true → isAlive p.status = true) (orderId : OrderId) :
    Ebbs s (s.moved i p f) orderId := by
  intro q hq _
  rcases Rows.mem_modify hs.nodup hp hq with rfl | ⟨hold, -⟩
  · exact ⟨p, Rows.mem_of_lookup hp, congrArg (fun x => x.1) hf, congrArg (fun x => x.2.1) hf,
      fun hc => absurd hc hpaid, halive⟩
  · exact ⟨q, hold, rfl, rfl, fun hc => hc, fun hc => hc⟩

theorem isAlive_of_isOpen {st : PaymentStatus} (h : st.isOpen = true) : isAlive st = true := by
  cases st with
  | initiated => rfl
  | pending => rfl
  | _ => cases h

/-! ### Watches -/

/-- The watches that an operation of thread `i` sets. -/
inductive NewWatch (i : ℕ) (s : GatewayDesk) : GatewayOp → Watch → Prop
  | counted {orderId : OrderId} {failed : PaymentId}
      (none : othersAlive s.payments orderId failed = 0) :
      NewWatch i s (.countAlive orderId failed) ⟨i, orderId, some failed⟩
  | listed {cutoff : Instant} {orderId : OrderId} (listed : orderId ∈ (s.listStale i cutoff).1) :
      NewWatch i s (.staleUnpaid cutoff) ⟨i, orderId, none⟩

theorem movePayment_watches {id : PaymentId} {c : PaymentStatus → Bool} {f : Payment → Payment} :
    (s.movePayment i id c f).2.watches = s.watches := by
  unfold movePayment
  split
  · rfl
  · split
    · rfl
    · rfl

theorem unwatch_watches {orderId : OrderId} {w : Watch} (h : w ∈ (s.unwatch i orderId).watches) :
    w ∈ s.watches := (List.mem_filter.mp h).1

theorem perform_watches {o : GatewayOp} {x : Outside} :
    ∀ w ∈ (o.perform i x s).2.watches, w ∈ s.watches ∨ NewWatch i s o w := by
  cases o with
  | createEvent eventKey eventType signatureOk =>
      simp only [GatewayOp.perform, createEvent]
      split
      · rename_i heq
        split at heq
        · cases heq
        · obtain ⟨-, rfl⟩ := Prod.mk.inj (Except.ok.inj heq)
          exact fun w hw => .inl hw
      · exact fun w hw => .inl hw
  | findEvent eventKey =>
      simp only [GatewayOp.perform, findEvent]
      split
      · rename_i heq
        split at heq
        · cases heq
        · obtain ⟨-, rfl⟩ := Prod.mk.inj (Except.ok.inj heq)
          exact fun w hw => .inl hw
      · exact fun w hw => .inl hw
  | markPending id reason => exact fun w hw => .inl (movePayment_watches ▸ hw)
  | close id status reason => exact fun w hw => .inl (movePayment_watches ▸ hw)
  | sessionFailed id reason => exact fun w hw => .inl (movePayment_watches ▸ hw)
  | capture id columns posting =>
      simp only [GatewayOp.perform]
      split
      · rename_i hcap
        rcases capture_ok hcap with ⟨-, rfl⟩ | ⟨p, cash, -, -, -, -, rfl⟩
        · exact fun w hw => .inl hw
        · exact fun w hw => .inl hw
      · exact fun w hw => .inl hw
  | createPayment o tranId =>
      simp only [GatewayOp.perform, createPayment]
      split
      · rename_i heq
        split at heq
        · cases heq
        · obtain ⟨-, rfl⟩ := Prod.mk.inj (Except.ok.inj heq)
          exact fun w hw => .inl hw
      · exact fun w hw => .inl hw
  | countAlive orderId failed =>
      intro w hw
      simp only [GatewayOp.perform, countAlive] at hw
      split at hw
      · rename_i hnone
        rcases List.mem_cons.mp hw with rfl | hold
        · exact .inr (.counted hnone)
        · exact .inl hold
      · exact .inl hw
  | staleUnpaid cutoff =>
      intro w hw
      rcases List.mem_append.mp hw with hnew | hold
      · obtain ⟨id, hid, rfl⟩ := List.mem_map.mp hnew
        exact .inr (.listed hid)
      · exact .inl hold
  | autoCancel orderId failed cmd actor =>
      simp only [GatewayOp.perform]
      split
      · rename_i heq
        unfold autoCancel at heq
        split at heq
        · cases heq
        · split at heq
          · cases heq
          · rw [← Except.ok.inj heq]
            exact fun w hw => .inl (unwatch_watches hw)
      · exact fun w hw => .inl (unwatch_watches hw)
  | saveOrder row =>
      simp only [GatewayOp.perform]
      split
      · rename_i heq
        unfold saveOrder at heq
        split at heq
        · cases heq
        split at heq
        · rw [← Except.ok.inj heq]
          exact fun w hw => .inl hw
        · split at heq
          · cases heq
          · rw [← Except.ok.inj heq]
            exact fun w hw => .inl hw
      · exact fun w hw => .inl hw
  | receive _ | validate _ | queryByTranId _ | emitSucceeded _ _ _ | emitFailed _ | supersede _
  | doneEvent _ _ _ | now | gatewayFeePct | findPayment _ | statusOf _ | openAttempts _ | tryLock
  | unlock | findOrder _ | countAttempts _ | createSession _ | sessionOpened _ =>
      exact fun w hw => .inl hw

theorem dropped_watches {o : GatewayOp} {w : Watch} (h : w ∈ (o.dropped i s).watches) :
    w ∈ s.watches := by
  cases o with
  | autoCancel orderId failed cmd actor => exact unwatch_watches h
  | _ => exact h

/-! ### The condition -/

/-- Nothing of a watched order comes alive, and no watch is set on one where something is. -/
def WatchClear (i : ℕ) (s : GatewayDesk) : GatewayOp → Prop
  | .staleUnpaid cutoff => ∀ orderId ∈ (s.listStale i cutoff).1, ∀ p ∈ s.payments,
      p.orderId = orderId → p.status ≠ .initiated
  | .countAlive orderId failed => ∀ p ∈ s.payments, p.orderId = orderId → p.id = failed →
      p.status ≠ .success
  | .createPayment o _ => ∀ w ∈ s.watches, w.orderId ≠ o.id
  | .capture id _ _ => ∀ p ∈ s.payments, p.id = id → ∀ w ∈ s.watches, w.orderId ≠ p.orderId
  | _ => True

instance (i : ℕ) (s : GatewayDesk) : ∀ o, Decidable (WatchClear i s o) := by
  intro o
  unfold WatchClear
  split
  · infer_instance
  · infer_instance
  · infer_instance
  · infer_instance
  · infer_instance

/-- The condition on an operation that does not throw. -/
def SparesAttempts (i : ℕ) (o : GatewayOp) (x : Outside) (s : GatewayDesk) : Prop :=
  x.fault = none → WatchClear i s o

instance : ∀ i o x s, Decidable (SparesAttempts i o x s) := fun i o x s =>
  inferInstanceAs (Decidable (x.fault = none → WatchClear i s o))

/-- A new watch is on an order that may be cancelled. -/
theorem NewWatch.clear {o : GatewayOp} {w : Watch} (hw : NewWatch i s o w) (h : WatchClear i s o) :
    Clear s.payments w.orderId w.failed := by
  cases hw with
  | @counted orderId failed hnone =>
      have hothers : ∀ p ∈ s.payments, p.orderId = orderId → some p.id ≠ some failed →
          isAlive p.status = false := by
        intro p hp horder hne
        have hcount := List.countP_eq_zero.mp hnone p hp
        have hid : p.id ≠ failed := fun hc => hne (congrArg some hc)
        cases hst : p.status <;> simp [horder, hid, hst, PaymentStatus.isOpen, isAlive] at hcount ⊢
      refine ⟨hothers, fun p hp horder hpaid => ?_⟩
      by_cases hid : p.id = failed
      · exact h p hp horder hid hpaid
      · have hdead := hothers p hp horder fun hc => hid (Option.some.inj hc)
        rw [hpaid] at hdead
        cases hdead
  | @listed cutoff orderId hlisted =>
      obtain ⟨o, ho, rfl⟩ := List.mem_map.mp hlisted
      have hstale := (List.mem_filter.mp (List.mem_of_mem_take ho)).2
      simp only [staleUnpaid, Bool.and_eq_true, List.all_eq_true] at hstale
      have hrest : ∀ p ∈ s.payments, p.orderId = o.id → p.status ≠ .success ∧ p.status ≠ .pending := by
        intro p hp horder
        simpa [horder] using hstale.2 p hp
      refine ⟨fun p hp horder _ => ?_, fun p hp horder => (hrest p hp horder).1⟩
      have hnew := h o.id hlisted p hp horder
      obtain ⟨hpaid, hpending⟩ := hrest p hp horder
      cases hst : p.status <;> simp_all [isAlive]

/-! ### Every step -/

/-- Watched orders may be cancelled, and the cancelled ones could be. -/
structure Spared (s : GatewayDesk) : Prop where
  watched : ∀ w ∈ s.watches, Clear s.payments w.orderId w.failed
  cancelled : ∀ e ∈ s.log, ∀ orderId failed payments,
    e.2 = .autoCancelled orderId failed payments → Clear payments orderId failed

theorem Spared.dropped {o : GatewayOp} (h : Spared s) : Spared (o.dropped i s) := by
  have hsame : (o.dropped i s).payments = s.payments ∧ (o.dropped i s).log = s.log := by
    cases o with
    | autoCancel orderId failed cmd actor => exact ⟨rfl, rfl⟩
    | _ => exact ⟨rfl, rfl⟩
  refine ⟨fun w hw => ?_, fun e he => h.cancelled e (hsame.2 ▸ he)⟩
  rw [hsame.1]
  exact h.watched w (dropped_watches hw)

/-- Moves of payments, under which the watched orders stay as they were. -/
theorem Spared.of_ebbs (h : Spared s) {moves : List Happening} (hwatches : t.watches = s.watches)
    (hlog : t.log = entries i moves ++ s.log) (hmoves : ∀ y ∈ moves, y.isMove = true)
    (he : ∀ w ∈ s.watches, Ebbs s t w.orderId) : Spared t := by
  refine ⟨fun w hw => ?_, fun e hm orderId failed payments heq => ?_⟩
  · have hw' := hwatches ▸ hw
    exact (h.watched w hw').ebbs (he w hw')
  · rw [hlog] at hm
    rcases List.mem_append.mp hm with hnew | hold
    · obtain ⟨y, hy, rfl⟩ := List.mem_map.mp hnew
      have hmove := hmoves y hy
      rw [show y = .autoCancelled orderId failed payments from heq] at hmove
      cases hmove
    · exact h.cancelled e hold orderId failed payments heq

theorem Spared.of_move {f : Payment → Payment} (h : Spared s) (hs : Sound s)
    (hp : Rows.lookup Payment.id p.id s.payments = some p) (hf : (f p).terms = p.terms)
    (hpaid : (f p).status ≠ .success)
    (halive : isAlive (f p).status = true → isAlive p.status = true) : Spared (s.moved i p f) := by
  refine h.of_ebbs rfl (show _ = entries i [.moved p.id p.status (f p).status] ++ s.log from rfl)
    (fun y hy => ?_) fun w _ => ebbs_moved hs hp hf hpaid halive w.orderId
  rw [List.mem_singleton.mp hy]
  rfl

theorem spared_step {o : GatewayOp} {x : Outside} {r : Except Fault o.Res} (hs : Sound s)
    (hpre : deskPre config i o s) (hclear : WatchClear i s o) (hj : Spared s)
    (h : o.exec i x s = some (r, t)) : Spared t := by
  have hwatches : ∀ w ∈ t.watches, w ∈ s.watches ∨ NewWatch i s o w := by
    rcases exec_cases h with hp | ⟨fault, -, -, rfl⟩
    · have ht : (o.perform i x s).2 = t := congrArg Prod.snd hp
      exact ht ▸ perform_watches
    · exact fun w hw => .inl (dropped_watches hw)
  cases exec_payStep hs hpre h with
  | rest log still input payments cash events cancels =>
      refine ⟨fun w hw => ?_, fun e he orderId failed snapshot heq => ?_⟩
      · rw [payments]
        rcases hwatches w hw with hold | hnew
        · exact hj.watched w hold
        · exact hnew.clear hclear
      · rw [log] at he
        rcases List.mem_append.mp he with hnew | hold
        · obtain ⟨y, hy, rfl⟩ := List.mem_map.mp hnew
          obtain ⟨rfl, cmd, actor, rfl⟩ := cancels y hy orderId failed snapshot heq
          exact hj.watched _ hpre
        · exact hj.cancelled e hold orderId failed snapshot heq
  | @pending id reason p row before =>
      obtain rfl := Rows.key_of_lookup row
      have hafter : (PaymentSettlement.markPending reason p).status = .pending := by
        simp [PaymentSettlement.markPending, before]
      refine hj.of_move hs row (PaymentSettlement.terms_markPending _) (by simp [hafter]) fun _ => ?_
      rw [before]
      rfl
  | @closed id status reason p row before =>
      obtain rfl := Rows.key_of_lookup row
      have hafter : (PaymentSettlement.fail status reason p).status = status.status := by
        simp [PaymentSettlement.fail, before]
      refine hj.of_move hs row (PaymentSettlement.terms_fail _ _) ?_ fun _ => isAlive_of_isOpen before
      rw [hafter]
      cases status <;> simp [Failable.status]
  | @session id reason p row =>
      obtain rfl := Rows.key_of_lookup row
      exact hj.of_move hs row rfl (by simp [PaymentCheckout.sessionFailed]) fun hc => by
        simp [PaymentCheckout.sessionFailed, isAlive] at hc
  | @captured id columns posting p cash row before posted =>
      obtain rfl := Rows.key_of_lookup row
      have hmem := Rows.mem_of_lookup row
      refine hj.of_ebbs rfl (show _ = entries i [.moved p.id p.status _] ++ s.log from rfl)
        (fun y hy => ?_) fun w hw q hq horder => ?_
      · rw [List.mem_singleton.mp hy]
        rfl
      · rcases Rows.mem_modify hs.nodup row hq with rfl | ⟨hold, -⟩
        · have hqo := congrArg (fun x => x.2.1)
            (PaymentSettlement.terms_succeed columns posting.at_ (p := p))
          exact absurd (horder.symm.trans hqo) (hclear p hmem rfl w hw)
        · exact ⟨q, hold, rfl, rfl, fun hc => hc, fun hc => hc⟩
  | @superseded orderId =>
      obtain ⟨moves, hm, hmoved⟩ := wrote_supersede (s := s) (i := i) orderId
      refine hj.of_ebbs rfl hm.log (fun y hy => ?_) fun w _ q hq _ => ?_
      · obtain ⟨p, -, -, -, rfl⟩ := hmoved y hy
        rfl
      · obtain ⟨p, hp, rfl⟩ := List.mem_map.mp hq
        by_cases hmine : p.orderId = orderId ∧ p.status.isOpen = true
        · refine ⟨p, hp, ?_⟩
          simp [hmine.1, PaymentCheckout.superseded, hmine.2, isAlive]
        · have hsame : (if p.orderId = orderId then PaymentCheckout.superseded p else p) = p := by
            by_cases horder : p.orderId = orderId
            · have hopen : p.status.isOpen = false := by simpa [horder] using hmine
              simp [PaymentCheckout.superseded, hopen]
            · rw [if_neg horder]
          rw [hsame]
          exact ⟨p, hp, rfl, rfl, fun hc => hc, fun hc => hc⟩
  | @created o tranId p id orderId tran status fresh =>
      refine hj.of_ebbs rfl (show _ = entries i [] ++ s.log from rfl) (fun y hy => absurd hy (by simp))
        fun w hw q hq horder => ?_
      rcases List.mem_append.mp hq with hold | hnew
      · exact ⟨q, hold, rfl, rfl, fun hc => hc, fun hc => hc⟩
      · obtain rfl := List.mem_singleton.mp hnew
        exact absurd (horder.symm.trans orderId) (hclear w hw)

theorem spared_exec {o : GatewayOp} {x : Outside} {r : Except Fault o.Res} (hs : Sound s)
    (hpre : deskPre config i o s) (hok : SparesAttempts i o x s) (hj : Spared s)
    (h : o.exec i x s = some (r, t)) : Spared t := by
  cases hx : x.fault with
  | none => exact spared_step hs hpre (hok hx) hj h
  | some fault =>
      by_cases hcan : o.canFail = true
      · simp only [GatewayOp.exec, hx, Option.filter_some, hcan, if_true, Option.some.injEq,
          Prod.mk.injEq] at h
        exact h.2 ▸ hj.dropped
      · have hclear : WatchClear i s o := by
          cases o with
          | staleUnpaid | countAlive | createPayment | capture => exact absurd rfl hcan
          | _ => trivial
        exact spared_step hs hpre hclear hj h

/-! ### Whole runs -/

/-- A desk before its first attempt, with no cancellation about to come. -/
structure CancelOpening (s : GatewayDesk) : Prop extends DeskOpening s where
  watches : s.watches = []

instance (s : GatewayDesk) : Decidable (CancelOpening s) :=
  decidable_of_iff (DeskOpening s ∧ s.watches = [])
    ⟨fun h => ⟨h.1, h.2⟩, fun h => ⟨h.toDeskOpening, h.watches⟩⟩

/-- **Automatic cancellation spares live attempts, in every run that keeps clear of a watch.** -/
theorem auto_cancel_spares (config : GatewayConfig) (s₀ : GatewayDesk) (w : GatewayWorld)
    (as : List (Act GatewayRequest Outside)) (hopen : CancelOpening s₀)
    (hguard : GuardedRun (gatewayStep config) (World.Admits SparesAttempts) { state := s₀ } as)
    (hrun : runFrom (gatewayStep config) { state := s₀ } as = some w) (thread : ℕ)
    (orderId : OrderId) (failed : Option PaymentId) (payments : List Payment)
    (hcancel : (thread, .autoCancelled orderId failed payments) ∈ w.state.log) :
    Clear payments orderId failed := by
  have hstart : Spared s₀ := by
    refine ⟨fun v hv => ?_, fun e he => ?_⟩
    · rw [hopen.watches] at hv
      cases hv
    · rw [hopen.log] at he
      cases he
  have hspared : Spared w.state :=
    gateway_guarded (J := Spared) (hopen.kept config) hstart
      (fun _ _ _ _ _ _ hs hpre hok hj he => spared_exec hs hpre hok hj he) hguard hrun
  exact hspared.cancelled _ hcancel orderId failed payments rfl

/-- The only attempt fails, and its event cancels the order. -/
def attemptFails : List (Act GatewayRequest Outside) :=
  let session : SslSession := { status := some "SUCCESS", gatewayPageUrl := some "https://pay" }
  [.start (.init { key := .id 0, phone := some "+8801700000000" }),
   .run 0 {}, .run 0 {}, .run 0 {}, .run 0 { now := 1 }, .run 0 { session }, .run 0 {},
   .start (.callback .fail [("tran_id", "CLO-2041-1")]),
   .run 1 {}, .run 1 {}, .run 1 {},
   .run 1 { query := some { element := [{ status := some "FAILED" }] } }, .run 1 {}, .run 1 {},
   .start (.failed { paymentId := 0, orderId := 0, reason := "failed: FAILED" }),
   .run 2 {}, .run 2 {}, .run 2 { now := 2 }]

/-- Every cancellation that a log has, with what it found. -/
def cancellations (log : List (ℕ × Happening)) : List (ℕ × OrderId × Option PaymentId × List Payment) :=
  log.filterMap fun e =>
    match e.2 with
    | .autoCancelled orderId failed payments => some (e.1, orderId, failed, payments)
    | _ => none

theorem mem_of_cancellations {log : List (ℕ × Happening)} {thread : ℕ} {orderId : OrderId}
    {failed : Option PaymentId} {payments : List Payment}
    (h : (thread, orderId, failed, payments) ∈ cancellations log) :
    (thread, .autoCancelled orderId failed payments) ∈ log := by
  obtain ⟨⟨j, y⟩, hy, heq⟩ := List.mem_filterMap.mp h
  cases y with
  | autoCancelled o f ps =>
      simp only [Option.some.injEq, Prod.mk.injEq] at heq
      obtain ⟨rfl, rfl, rfl, rfl⟩ := heq
      exact hy
  | _ => cases heq

theorem auto_cancel_spares_attemptFails :
    ∃ w payments,
      runFrom (gatewayStep asciiConfig) { state := onlineDesk } attemptFails = some w ∧
      (2, .autoCancelled 0 (some 0) payments) ∈ w.state.log ∧ Clear payments 0 (some 0) ∧
      w.state.orders.map Order.status = [.cancelled] := by
  have hruns : (runFrom (gatewayStep asciiConfig) { state := onlineDesk } attemptFails).any
      (fun w => (cancellations w.state.log).any (fun c => c.1 = 2 ∧ c.2.1 = 0 ∧ c.2.2.1 = some 0) ∧
        w.state.orders.map Order.status = [.cancelled]) = true := by
    decide +kernel
  obtain ⟨w, hw, hfacts⟩ := Option.any_eq_true _ _ |>.mp hruns
  obtain ⟨hany, hstatus⟩ := of_decide_eq_true hfacts
  obtain ⟨⟨thread, orderId, failed, payments⟩, hmem, hc⟩ := List.any_eq_true.mp hany
  obtain ⟨rfl, rfl, rfl⟩ := of_decide_eq_true hc
  have hlog := mem_of_cancellations hmem
  exact ⟨w, payments, hw, hlog, auto_cancel_spares asciiConfig onlineDesk w attemptFails
    (by decide +kernel) (by decide +kernel) hw 2 0 (some 0) payments hlog, hstatus⟩

/-- The shopper is on the gateway's page when the sweeper comes. -/
def sweptWhilePaying : List (Act GatewayRequest Outside) :=
  let session : SslSession := { status := some "SUCCESS", gatewayPageUrl := some "https://pay" }
  [.start (.init { key := .id 0, phone := some "+8801700000000" }),
   .run 0 {}, .run 0 {}, .run 0 {}, .run 0 { now := 2600000 }, .run 0 { session }, .run 0 {},
   .start (.sweep 45), .run 1 { now := 2700001 }, .run 1 {}, .run 1 { now := 2700002 }]

/-- The sweeper cancels an order whose attempt has just been started. -/
theorem sweeper_cancels_initiated :
    ∃ w, runFrom (gatewayStep asciiConfig) { state := onlineDesk } sweptWhilePaying = some w ∧
      w.state.orders.map Order.status = [.cancelled] ∧
      ∃ payments, (1, .autoCancelled 0 none payments) ∈ w.state.log ∧
        payments.map Payment.status = [.initiated] := by
  have hruns : (runFrom (gatewayStep asciiConfig) { state := onlineDesk } sweptWhilePaying).any
      (fun w => w.state.orders.map Order.status = [.cancelled] ∧
        (cancellations w.state.log).any (fun c => c.1 = 1 ∧ c.2.1 = 0 ∧ c.2.2.1 = none ∧
          c.2.2.2.map Payment.status = [.initiated])) = true := by
    decide +kernel
  obtain ⟨w, hw, hfacts⟩ := Option.any_eq_true _ _ |>.mp hruns
  obtain ⟨hstatus, hany⟩ := of_decide_eq_true hfacts
  obtain ⟨⟨thread, orderId, failed, payments⟩, hmem, hc⟩ := List.any_eq_true.mp hany
  obtain ⟨rfl, rfl, rfl, hnew⟩ := of_decide_eq_true hc
  exact ⟨w, hw, hstatus, payments, mem_of_cancellations hmem, hnew⟩

end BookHouse
