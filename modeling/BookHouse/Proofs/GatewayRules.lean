/-
The contract of the payment desk, and that every service keeps it.

What a service has to know before an operation is what the results rest on: a payment is
closed as not paid on the gateway's word or by a caller that may close it, it becomes
SUCCESS on a matching answer of the validation API, the event of a SUCCESS comes right
after it, and an order is cancelled by a thread that has just seen that it may be.
-/
import BookHouse.Proofs.GatewayDesk

namespace BookHouse

open Prog (Contract lift)
open GatewayDesk

/-! ### Contents of a thread's own log -/

namespace Happening

/-- A payment became SUCCESS. -/
def isSuccess (id : PaymentId) : Happening → Bool
  | moved k _ .success => k = id
  | _ => false

/-- The event of a SUCCESS went out. -/
def isEmitted (id : PaymentId) : Happening → Bool
  | succeeded k _ _ => k = id
  | _ => false

/-- What a request brings. -/
def isInput : Happening → Bool
  | received _ | recorded .. => true
  | _ => false

/-- Neither an input nor a SUCCESS nor its event. -/
def quiet : Happening → Bool
  | received _ | recorded .. | succeeded .. | moved _ _ .success => false
  | _ => true

end Happening

/-- As many events as there were successes. -/
def Even (own : List Happening) : Prop :=
  ∀ id, own.countP (Happening.isSuccess id) = own.countP (Happening.isEmitted id)

theorem even_nil : Even [] := fun _ => rfl

theorem Even.quiet_append {new own : List Happening} (hq : ∀ h ∈ new, h.quiet = true)
    (he : Even own) : Even (new ++ own) := by
  intro id
  have hsuccess : new.countP (Happening.isSuccess id) = 0 := by
    refine List.countP_eq_zero.mpr fun h hm => ?_
    have := hq h hm
    cases h with
    | moved k before after => cases after <;> simp_all [Happening.quiet, Happening.isSuccess]
    | _ => simp [Happening.isSuccess]
  have hemitted : new.countP (Happening.isEmitted id) = 0 := by
    refine List.countP_eq_zero.mpr fun h hm => ?_
    have := hq h hm
    cases h with
    | succeeded k o e => cases this
    | _ => simp [Happening.isEmitted]
  rw [List.countP_append, List.countP_append, hsuccess, hemitted, he id]

/-- A success and its event. -/
theorem Even.success {own : List Happening} {id : PaymentId} {before : PaymentStatus}
    {orderId : OrderId} {e : PaymentSucceededEvent} (he : Even own) :
    Even (.succeeded id orderId e :: .moved id before .success :: own) := by
  intro k
  have hk := he k
  by_cases h : id = k
  · simp [Happening.isSuccess, Happening.isEmitted, h, hk]
  · simp [Happening.isSuccess, Happening.isEmitted, h, hk]

/-! ### What the gateway said -/

/-- The hash of a body is right. -/
def signedBody (config : GatewayConfig) (body : Body) : Prop :=
  verifySslSignature config.host body config.storePassword = .ok true

/-- An answer of the validation API is the payment's own success. -/
structure Confirms (host : Host) (p : Payment) (v : SslValidation) : Prop where
  status : v.statusWord host ∈ paidWords
  tranId : v.tranId = p.tranId
  currency : v.currencyWord host = host.toUpperCase p.currency
  amount : ∃ text paid, v.paidAmount = some text ∧ decimal text = some paid ∧
    round2 paid = round2 p.amount

/-- A gateway answer about the payment's tran_id says that it ended as `status`. -/
def SaysClosed (host : Host) (p : Payment) (tranId : String) (status : PaymentStatus)
    (own : List Happening) : Prop :=
  (∃ q failable reason, .queried tranId q ∈ own ∧
    interpretTransactionQuery host q tranId = .notPaid failable reason ∧
    status = failable.status) ∨
  ∃ valId v, .validated valId (some v) ∈ own ∧ v.tranId = some tranId ∧
    ((∃ failable reason, evaluateValidation host ⟨tranId, p.amount, p.currency⟩ (some v) =
        .ok (.notPaid failable reason) ∧ status = failable.status) ∨
      ∃ reason, evaluateValidation host ⟨tranId, p.amount, p.currency⟩ (some v) =
        .ok (.mismatch reason) ∧ status = .failed)

theorem given_eq_some {v : Option String} {w : String} (h : given v = some w) : v = some w := by
  unfold given at h
  rw [Option.filter_eq_some_iff] at h
  exact h.1

/-- What a status other than a foreign one says of the answer. -/
theorem evaluateValidation_own {host : Host} {expected : Expected} {v : SslValidation}
    {d : ValidationDecision} (h : evaluateValidation host expected (some v) = .ok d) :
    (∃ reason, d = .foreign reason) ∨ v.tranId = some expected.tranId := by
  unfold evaluateValidation at h
  dsimp only at h
  split at h
  · exact .inl ⟨_, (Except.ok.inj h).symm⟩
  rename_i hother
  split at h
  · exact .inl ⟨_, (Except.ok.inj h).symm⟩
  rename_i hnamed
  refine .inr ?_
  cases hv : given v.tranId with
  | none => simp [hv] at hnamed
  | some w =>
      have hw : w = expected.tranId := by simpa [hv] using hother
      exact hw ▸ given_eq_some hv

theorem evaluateValidation_success {host : Host} {p : Payment} {tranId : String}
    {answer : Option SslValidation} {s : SslSuccess} (hp : p.tranId = some tranId)
    (h : evaluateValidation host ⟨tranId, p.amount, p.currency⟩ answer = .ok (.success s)) :
    ∃ v, answer = some v ∧ Confirms host p v := by
  cases answer with
  | none => cases h
  | some v =>
      refine ⟨v, rfl, ?_⟩
      have htran : v.tranId = some tranId := by
        rcases evaluateValidation_own h with ⟨reason, hc⟩ | hv
        · cases hc
        · exact hv
      unfold evaluateValidation at h
      dsimp only at h
      split at h
      · cases h
      split at h
      · cases h
      split at h
      · rename_i hpaid
        unfold evaluatePaid at h
        dsimp only at h
        split at h
        · cases h
        rename_i hcurrency
        split at h
        · cases h
        rename_i text htext
        split at h
        · cases h
        split at h
        · cases h
        rename_i paid hparse
        split at h
        · cases h
        rename_i hamount
        have hdecimal : decimal text = some paid := by
          unfold parseD at hparse
          split at hparse
          · rename_i x hx
            exact hx.trans (congrArg some (Except.ok.inj hparse))
          · cases hparse
        exact ⟨hpaid, htran.trans hp.symm, not_not.mp hcurrency, text, paid, htext, hdecimal,
          not_not.mp hamount⟩
      · split at h
        · cases h
        · cases h

/-! ### The contract -/

/-- The payment as it was read is the row, up to what is written to it. -/
def Known (p : Payment) (s : GatewayDesk) : Prop :=
  ∃ q, Rows.lookup Payment.id p.id s.payments = some q ∧ q.terms = p.terms

/-- Thread `i` may close payments on its own word: if it serves a body at all, the body is
signed and new. -/
def MayClose (config : GatewayConfig) (i : ℕ) (s : GatewayDesk) : Prop :=
  ∀ body, .received body ∈ s.own i → signedBody config body ∧ ∀ key, .recorded key true ∉ s.own i

/-- Thread `i` serves no body. -/
def NoBody (i : ℕ) (s : GatewayDesk) : Prop := ∀ body, .received body ∉ s.own i

theorem NoBody.mayClose {config : GatewayConfig} {i : ℕ} {s : GatewayDesk} (h : NoBody i s) :
    MayClose config i s :=
  fun body hm => absurd hm (h body)

/-- What a capture posts is the payment's own. -/
structure CaptureOf (host : Host) (i : ℕ) (id : PaymentId) (columns : PaymentSettlement.Captured)
    (posting : CashLedger.GatewayCapture) (p : Payment) (s : GatewayDesk) : Prop where
  id : p.id = id
  known : Known p s
  orderId : posting.orderId = p.orderId
  amount : posting.amount = p.amount
  tranId : p.tranId = some posting.tranId
  fee : posting.fee = columns.fee
  feeColumn : 0 ≤ columns.fee ∧ round2 columns.fee = columns.fee
  orderNo : ∃ o, Rows.lookup Order.id p.orderId s.orders = some o ∧ o.orderNo = posting.orderNo
  confirmed : ∃ valId v, .validated valId (some v) ∈ s.own i ∧ Confirms host p v

/-- What thread `i` has to know before an operation. -/
def deskPre (config : GatewayConfig) (i : ℕ) (o : GatewayOp) (s : GatewayDesk) : Prop :=
  match o with
  | .close id status _ => MayClose config i s ∨
      ∃ p tranId, p.id = id ∧ Known p s ∧ p.tranId = some tranId ∧
        SaysClosed config.host p tranId status.status (s.own i)
  | .capture id columns posting => ∃ p, CaptureOf config.host i id columns posting p s
  | .emitSucceeded id .. => ∃ before own, s.own i = .moved id before .success :: own ∧ Even own
  | .createPayment o tranId => (∃ x, Rows.lookup Order.id o.id s.orders = some x) ∧
      fitsColumns o = true ∧ tranId.length ≤ 30 ∧ NoBody i s
  | .supersede _ | .sessionFailed .. => NoBody i s
  | .autoCancel orderId failed .. => ⟨i, orderId, failed⟩ ∈ s.watches
  | _ => True

section stable

variable {config : GatewayConfig} {i : ℕ} {s t : GatewayDesk} {p : Payment}

theorem Known.grows (h : Known p s) (hg : Grows s t) : Known p t := by
  obtain ⟨q, hq, hterms⟩ := h
  obtain ⟨q', hq', hterms'⟩ := hg.payments _ q hq
  exact ⟨q', hq', hterms'.trans hterms⟩

theorem deskPre_stable {o : GatewayOp} (hr : Rely i s t) (h : deskPre config i o s) :
    deskPre config i o t := by
  have hg := hr.grows
  cases o with
  | close id status reason =>
      show MayClose config i t ∨ _
      rcases h with hmay | ⟨p, tranId, hid, hk, htran, hword⟩
      · left
        unfold MayClose
        rw [hr.own]
        exact hmay
      · exact .inr ⟨p, tranId, hid, hk.grows hg, htran, hr.own.symm ▸ hword⟩
  | capture id columns posting =>
      obtain ⟨p, hc⟩ := h
      obtain ⟨o, ho, hno⟩ := hc.orderNo
      obtain ⟨o', ho', hno'⟩ := hg.orders _ o ho
      exact ⟨p, { hc with known := hc.known.grows hg, orderNo := ⟨o', ho', hno'.trans hno⟩,
                          confirmed := hr.own.symm ▸ hc.confirmed }⟩
  | emitSucceeded id orderId e =>
      show ∃ before own, t.own i = _ ∧ Even own
      rw [hr.own]
      exact h
  | createPayment o tranId =>
      obtain ⟨⟨x, hx⟩, hfits, hshort, hno⟩ := h
      obtain ⟨x', hx', -⟩ := hg.orders _ x hx
      refine ⟨⟨x', hx'⟩, hfits, hshort, ?_⟩
      show NoBody i t
      unfold NoBody
      rw [hr.own]
      exact hno
  | supersede orderId =>
      show NoBody i t
      unfold NoBody
      rw [hr.own]
      exact h
  | sessionFailed id reason =>
      show NoBody i t
      unfold NoBody
      rw [hr.own]
      exact h
  | autoCancel orderId failed cmd actor => exact hr.watches _ h rfl
  | _ => trivial

/-- An operation that brings no input, no SUCCESS and no event of one. -/
def GatewayOp.quiet : GatewayOp → Bool
  | .receive _ | .createEvent .. | .findEvent _ | .capture .. | .emitSucceeded .. | .autoCancel .. =>
      false
  | _ => true

/-- What a step enters in the log, and what a quiet one leaves alone besides. -/
def DeskEffect (o : GatewayOp) (i : ℕ) (s t : GatewayDesk) : Prop :=
  ∃ new, Wrote i new s t ∧
    (o.quiet = true → (∀ y ∈ new, y.quiet = true) ∧ ∀ w ∈ s.watches, w ∈ t.watches)

namespace DeskEffect

variable {o : GatewayOp} {y : Happening} {new : List Happening}

theorem refl (o : GatewayOp) (i : ℕ) (s : GatewayDesk) : DeskEffect o i s s :=
  ⟨[], Wrote.refl i s, fun _ => ⟨fun y hy => absurd hy (by simp), fun _ hw => hw⟩⟩

theorem note (hy : o.quiet = true → y.quiet = true) : DeskEffect o i s (s.note i y) := by
  refine ⟨[y], Wrote.note i s y, fun hq => ⟨fun z hz => ?_, fun _ hw => hw⟩⟩
  rw [List.mem_singleton.mp hz]
  exact hy hq

theorem loud (h : Wrote i new s t) (hq : o.quiet = false) : DeskEffect o i s t :=
  ⟨new, h, fun hc => by rw [hq] at hc; cases hc⟩

/-- A move of a payment anywhere but to SUCCESS. -/
theorem move {id : PaymentId} {c : PaymentStatus → Bool} {f : Payment → Payment}
    (hf : ∀ p, (f p).terms = p.terms) (hne : ∀ p, c p.status = true → (f p).status ≠ .success) :
    DeskEffect o i s (s.movePayment i id c f).2 := by
  obtain ⟨new, hw, hmoved⟩ := wrote_movePayment (s := s) (i := i) (k := id) (c := c) hf
  refine ⟨new, hw, fun _ => ⟨fun y hy => ?_, fun w hm => ?_⟩⟩
  · obtain ⟨p, -, hc, rfl⟩ := hmoved y hy
    have hp := hne p hc
    revert hp
    cases (f p).status <;> simp [Happening.quiet]
  · unfold movePayment
    split
    · exact hm
    · split
      · exact hm
      · exact hm

end DeskEffect

/-- **What an operation writes.** -/
theorem perform_effect {o : GatewayOp} {x : Outside} (hs : Sound s) (hpre : deskPre config i o s) :
    DeskEffect o i s (o.perform i x s).2 := by
  cases o with
  | receive body => exact DeskEffect.note fun hc => by cases hc
  | createEvent eventKey eventType signatureOk =>
      simp only [GatewayOp.perform, createEvent]
      split
      · rename_i heq
        split at heq
        · cases heq
        · obtain ⟨-, rfl⟩ := Prod.mk.inj (Except.ok.inj heq)
          exact DeskEffect.loud (show Wrote i [.recorded eventKey false] _ _ from
            Wrote.of_terms rfl rfl rfl fun _ hw => hw) rfl
      · exact DeskEffect.refl _ i s
  | findEvent eventKey =>
      simp only [GatewayOp.perform, findEvent]
      split
      · rename_i heq
        split at heq
        · cases heq
        · obtain ⟨-, rfl⟩ := Prod.mk.inj (Except.ok.inj heq)
          exact DeskEffect.note fun hc => by cases hc
      · exact DeskEffect.refl _ i s
  | doneEvent id error paymentId =>
      refine ⟨[], ?_, fun _ => ⟨fun y hy => absurd hy (by simp), fun w hw => hw⟩⟩
      exact Wrote.of_terms rfl rfl rfl fun _ hw => hw
  | validate valId => exact DeskEffect.note fun _ => rfl
  | queryByTranId tranId => exact DeskEffect.note fun _ => rfl
  | markPending id reason =>
      refine DeskEffect.move (fun p => PaymentSettlement.terms_markPending reason) fun p hc => ?_
      have hinit : p.status = .initiated := by simpa using hc
      simp [PaymentSettlement.markPending, hinit]
  | close id status reason =>
      refine DeskEffect.move (fun p => PaymentSettlement.terms_fail status reason) fun p hc => ?_
      simp only [PaymentSettlement.fail, hc, if_true]
      cases status <;> simp [Failable.status]
  | capture id columns posting =>
      simp only [GatewayOp.perform]
      split
      · rename_i heq
        obtain ⟨new, hw, -⟩ := wrote_capture heq
        exact DeskEffect.loud hw rfl
      · exact DeskEffect.refl _ i s
  | emitSucceeded id orderId e => exact DeskEffect.note fun hc => by cases hc
  | emitFailed e => exact DeskEffect.note fun _ => rfl
  | supersede orderId =>
      obtain ⟨new, hw, hmoved⟩ := wrote_supersede (s := s) (i := i) orderId
      refine ⟨new, hw, fun _ => ⟨fun y hy => ?_, fun w hw => hw⟩⟩
      obtain ⟨p, -, -, -, rfl⟩ := hmoved y hy
      rfl
  | createPayment o tranId =>
      obtain ⟨hplaced, hfits, hshort, -⟩ := hpre
      simp only [GatewayOp.perform]
      split
      · rename_i heq
        obtain ⟨hw, ht, -⟩ := wrote_createPayment (i := i) hs hplaced hfits hshort heq
        refine ⟨[], hw, fun _ => ⟨fun y hy => absurd hy (by simp), fun w hm => ?_⟩⟩
        rw [ht]
        exact hm
      · exact DeskEffect.refl _ i s
  | sessionFailed id reason =>
      refine DeskEffect.move (fun p => rfl) fun p _ => ?_
      simp [PaymentCheckout.sessionFailed]
  | countAlive orderId failed =>
      refine ⟨[], ?_, fun _ => ⟨fun y hy => absurd hy (by simp), fun w hw => ?_⟩⟩
      · simp only [GatewayOp.perform, countAlive]
        split
        · exact Wrote.of_terms rfl rfl rfl fun _ hw => List.mem_cons_of_mem _ hw
        · exact Wrote.refl i s
      · simp only [GatewayOp.perform, countAlive]
        split
        · exact List.mem_cons_of_mem _ hw
        · exact hw
  | staleUnpaid cutoff =>
      refine ⟨[], ?_, fun _ => ⟨fun y hy => absurd hy (by simp), fun w hw => ?_⟩⟩
      · exact Wrote.of_terms rfl rfl rfl fun _ hw => List.mem_append_right _ hw
      · exact List.mem_append_right _ hw
  | autoCancel orderId failed cmd actor =>
      have hun := wrote_unwatch i s orderId
      simp only [GatewayOp.perform]
      split
      · rename_i heq
        exact DeskEffect.loud (hun.trans (wrote_autoCancel (hun.sound hs) heq)) rfl
      · exact DeskEffect.loud hun rfl
  | saveOrder row =>
      simp only [GatewayOp.perform]
      split
      · rename_i heq
        refine ⟨[], wrote_saveOrder hs heq, fun _ => ⟨fun y hy => absurd hy (by simp), fun w hw => ?_⟩⟩
        unfold saveOrder at heq
        split at heq
        · cases heq
        split at heq
        · obtain rfl := Except.ok.inj heq
          exact hw
        · split at heq
          · cases heq
          · obtain rfl := Except.ok.inj heq
            exact hw
      · exact DeskEffect.refl _ i s
  | now | gatewayFeePct | findPayment _ | statusOf _ | openAttempts _ | tryLock | unlock
  | findOrder _ | countAttempts _ | createSession _ | sessionOpened _ =>
      exact DeskEffect.refl _ i s

theorem dropped_effect {o : GatewayOp} : DeskEffect o i s (o.dropped i s) := by
  cases o with
  | autoCancel orderId failed cmd actor => exact DeskEffect.loud (wrote_unwatch i s orderId) rfl
  | _ => exact DeskEffect.refl _ i s

/-- An operation was performed, or it threw. -/
theorem exec_cases {o : GatewayOp} {x : Outside} {r : Except Fault o.Res}
    (h : o.exec i x s = some (r, t)) :
    o.perform i x s = (r, t) ∨ ∃ fault, o.canFail = true ∧ r = .error fault ∧ t = o.dropped i s := by
  unfold GatewayOp.exec at h
  split at h
  · rename_i fault hf
    obtain ⟨rfl, rfl⟩ := Prod.mk.inj (Option.some.inj h)
    exact .inr ⟨fault, (Option.filter_eq_some_iff.mp hf).2, rfl, rfl⟩
  · exact .inl (Option.some.inj h)

theorem exec_effect {o : GatewayOp} {x : Outside} {r : Except Fault o.Res} (hs : Sound s)
    (hpre : deskPre config i o s) (h : o.exec i x s = some (r, t)) : DeskEffect o i s t := by
  rcases exec_cases h with hp | ⟨fault, -, -, rfl⟩
  · have ht := perform_effect (x := x) hs hpre
    rw [hp] at ht
    exact ht
  · exact dropped_effect

/-! ### What an operation does to the payments -/

/-- The row of a payment after a move, and the move in the log. -/
def GatewayDesk.moved (s : GatewayDesk) (i : ℕ) (p : Payment) (f : Payment → Payment) :
    GatewayDesk :=
  { s with payments := Rows.modify Payment.id p.id f s.payments,
           log := (i, .moved p.id p.status (f p).status) :: s.log }

def Happening.isMove : Happening → Bool
  | moved .. => true
  | _ => false

/-- All that an operation of thread `i` can do to the payments and the ledger. -/
inductive PayStep (i : ℕ) (s : GatewayDesk) : GatewayOp → GatewayDesk → Prop
  | rest {o : GatewayOp} {t : GatewayDesk} {new : List Happening}
      (log : t.log = entries i new ++ s.log) (still : ∀ y ∈ new, y.isMove = false)
      (input : ∀ y ∈ new, y.isInput = true → new = [y]) (payments : t.payments = s.payments)
      (cash : t.cash = s.cash)
      (events : ∀ y ∈ new, ∀ id, y.isEmitted id = true →
        new = [y] ∧ ∃ orderId e, o = .emitSucceeded id orderId e)
      (cancels : ∀ y ∈ new, ∀ orderId failed payments, y = .autoCancelled orderId failed payments →
        payments = s.payments ∧ ∃ cmd actor, o = .autoCancel orderId failed cmd actor) :
      PayStep i s o t
  | pending {id : PaymentId} {reason : String} {p : Payment}
      (row : Rows.lookup Payment.id id s.payments = some p) (before : p.status = .initiated) :
      PayStep i s (.markPending id reason) (s.moved i p (PaymentSettlement.markPending reason))
  | closed {id : PaymentId} {status : Failable} {reason : String} {p : Payment}
      (row : Rows.lookup Payment.id id s.payments = some p) (before : p.status.isOpen = true) :
      PayStep i s (.close id status reason) (s.moved i p (PaymentSettlement.fail status reason))
  | captured {id : PaymentId} {columns : PaymentSettlement.Captured}
      {posting : CashLedger.GatewayCapture} {p : Payment} {cash : Cashbook}
      (row : Rows.lookup Payment.id id s.payments = some p) (before : p.status.isFinalOk = false)
      (posted : CashLedger.recordGatewayCapture s.cash posting = .ok cash) :
      PayStep i s (.capture id columns posting)
        { s.moved i p (PaymentSettlement.succeed columns posting.at_) with cash }
  | superseded {orderId : OrderId} : PayStep i s (.supersede orderId) (s.supersede i orderId)
  | created {o : Order} {tranId : String} {p : Payment} (id : p.id = s.payments.length)
      (orderId : p.orderId = o.id) (tran : p.tranId = some tranId) (status : p.status = .initiated)
      (fresh : p.tranId ∉ s.payments.map Payment.tranId) :
      PayStep i s (.createPayment o tranId) { s with payments := s.payments ++ [p] }
  | session {id : PaymentId} {reason : String} {p : Payment}
      (row : Rows.lookup Payment.id id s.payments = some p) :
      PayStep i s (.sessionFailed id reason)
        (s.moved i p (PaymentCheckout.sessionFailed reason))

namespace PayStep

variable {o : GatewayOp} {y : Happening}

theorem same (hlog : t.log = s.log) (hp : t.payments = s.payments) (hc : t.cash = s.cash) :
    PayStep i s o t :=
  .rest (show t.log = entries i [] ++ s.log from hlog) (fun _ hy => absurd hy (by simp))
    (fun _ hy => absurd hy (by simp)) hp hc (fun _ hy => absurd hy (by simp)) fun _ hy => absurd hy (by simp)

theorem note (hlog : t.log = (i, y) :: s.log) (hy : y.isMove = false)
    (hp : t.payments = s.payments) (hc : t.cash = s.cash)
    (he : ∀ id, y.isEmitted id = true → ∃ orderId e, o = .emitSucceeded id orderId e)
    (hcancel : ∀ orderId failed payments, y = .autoCancelled orderId failed payments →
      payments = s.payments ∧ ∃ cmd actor, o = .autoCancel orderId failed cmd actor) :
    PayStep i s o t := by
  refine .rest (show t.log = entries i [y] ++ s.log from hlog) (fun z hz => ?_) (fun z hz _ => ?_)
    hp hc (fun z hz id hid => ?_) fun z hz => ?_
  · rw [List.mem_singleton.mp hz]
    exact hy
  · rw [List.mem_singleton.mp hz]
  · obtain rfl := List.mem_singleton.mp hz
    exact ⟨rfl, he id hid⟩
  · obtain rfl := List.mem_singleton.mp hz
    exact hcancel

/-- A conditional `UPDATE` that found no row to write, or wrote one. -/
theorem move {id : PaymentId} {c : PaymentStatus → Bool} {f : Payment → Payment}
    (h : ∀ p, Rows.lookup Payment.id id s.payments = some p → c p.status = true →
      PayStep i s o (s.moved i p f)) : PayStep i s o (s.movePayment i id c f).2 := by
  unfold movePayment
  split
  · exact same rfl rfl rfl
  · rename_i p hp
    split
    · rename_i hc
      have hid : p.id = id := Rows.key_of_lookup hp
      subst hid
      exact h p hp hc
    · exact same rfl rfl rfl

end PayStep

/-- **All that an operation does to the payments.** -/
theorem exec_payStep {o : GatewayOp} {x : Outside} {r : Except Fault o.Res} (hs : Sound s)
    (hpre : deskPre config i o s) (h : o.exec i x s = some (r, t)) : PayStep i s o t := by
  rcases exec_cases h with hp | ⟨fault, -, -, rfl⟩
  case inr =>
    cases o with
    | autoCancel orderId failed cmd actor => exact .same rfl rfl rfl
    | _ => exact .same rfl rfl rfl
  have ht : (o.perform i x s).2 = t := congrArg Prod.snd hp
  rw [← ht]
  cases o with
  | receive body => exact .note rfl rfl rfl rfl (fun _ hc => by cases hc) fun _ _ _ hc => by cases hc
  | createEvent eventKey eventType signatureOk =>
      simp only [GatewayOp.perform, createEvent]
      split
      · rename_i heq
        split at heq
        · cases heq
        · obtain ⟨-, rfl⟩ := Prod.mk.inj (Except.ok.inj heq)
          exact .note rfl rfl rfl rfl (fun _ hc => by cases hc) fun _ _ _ hc => by cases hc
      · exact .same rfl rfl rfl
  | findEvent eventKey =>
      simp only [GatewayOp.perform, findEvent]
      split
      · rename_i heq
        split at heq
        · cases heq
        · obtain ⟨-, rfl⟩ := Prod.mk.inj (Except.ok.inj heq)
          exact .note rfl rfl rfl rfl (fun _ hc => by cases hc) fun _ _ _ hc => by cases hc
      · exact .same rfl rfl rfl
  | validate valId => exact .note rfl rfl rfl rfl (fun _ hc => by cases hc) fun _ _ _ hc => by cases hc
  | queryByTranId tranId => exact .note rfl rfl rfl rfl (fun _ hc => by cases hc) fun _ _ _ hc => by cases hc
  | emitSucceeded id orderId e =>
      refine .note rfl rfl rfl rfl (fun k hk => ⟨orderId, e, ?_⟩) fun _ _ _ hc => by cases hc
      have hid : id = k := by simpa [Happening.isEmitted] using hk
      rw [hid]
  | emitFailed e => exact .note rfl rfl rfl rfl (fun _ hc => by cases hc) fun _ _ _ hc => by cases hc
  | markPending id reason => exact .move fun p hp hc => .pending hp (by simpa using hc)
  | close id status reason => exact .move fun p hp hc => .closed hp hc
  | sessionFailed id reason => exact .move fun p hp _ => .session hp
  | capture id columns posting =>
      simp only [GatewayOp.perform]
      split
      · rename_i hcap
        rcases capture_ok hcap with ⟨-, rfl⟩ | ⟨p, cash, -, hp, hopen, hcash, rfl⟩
        · exact .same rfl rfl rfl
        · have hid : p.id = id := Rows.key_of_lookup hp
          have hstep : PayStep i s (.capture id columns posting)
              { s.moved i p (PaymentSettlement.succeed columns posting.at_) with cash } :=
            .captured hp hopen hcash
          have hstatus : (PaymentSettlement.succeed columns posting.at_ p).status = .success := by
            simp [PaymentSettlement.succeed, hopen]
          rw [moved, hid, hstatus] at hstep
          exact hstep
      · exact .same rfl rfl rfl
  | supersede orderId => exact .superseded
  | createPayment o tranId =>
      obtain ⟨hplaced, hfits, hshort, -⟩ := hpre
      simp only [GatewayOp.perform]
      split
      · rename_i p t' heq
        obtain ⟨hw, rfl, hid, horder, htran, hstatus⟩ :=
          wrote_createPayment (i := i) hs hplaced hfits hshort heq
        refine .created hid horder htran hstatus ?_
        have hnd := (hw.sound hs).tranIds
        rw [List.map_append, List.nodup_append] at hnd
        exact fun hm => hnd.2.2 _ hm _ (List.mem_singleton.mpr rfl) rfl
      · exact .same rfl rfl rfl
  | countAlive orderId failed =>
      simp only [GatewayOp.perform, countAlive]
      split
      · exact .same rfl rfl rfl
      · exact .same rfl rfl rfl
  | autoCancel orderId failed cmd actor =>
      simp only [GatewayOp.perform]
      split
      · rename_i heq
        unfold autoCancel at heq
        split at heq
        · cases heq
        · split at heq
          · cases heq
          · rw [← Except.ok.inj heq]
            refine .note rfl rfl rfl rfl (fun _ hc => by cases hc) fun orderId' failed' payments' heq => ?_
            obtain ⟨rfl, rfl, rfl⟩ := Happening.autoCancelled.inj heq
            exact ⟨rfl, cmd, actor, rfl⟩
      · exact .same rfl rfl rfl
  | saveOrder row =>
      simp only [GatewayOp.perform]
      split
      · rename_i heq
        unfold saveOrder at heq
        split at heq
        · cases heq
        split at heq
        · rw [← Except.ok.inj heq]
          exact .same rfl rfl rfl
        · split at heq
          · cases heq
          · rw [← Except.ok.inj heq]
            exact .same rfl rfl rfl
      · exact .same rfl rfl rfl
  | doneEvent _ _ _ | staleUnpaid _ | now | gatewayFeePct | findPayment _ | statusOf _
  | openAttempts _ | tryLock | unlock | findOrder _ | countAttempts _ | createSession _
  | sessionOpened _ => exact .same rfl rfl rfl

end stable

/-- The contract of the payment desk. -/
def deskContract (config : GatewayConfig) :
    Contract GatewayOp GatewayOp.Res Fault GatewayDesk Outside where
  exec := GatewayOp.exec
  Inv := Sound
  Rely := Rely
  pre := deskPre config
  rely_refl := Rely.refl
  rely_trans := Rely.trans
  pre_stable := deskPre_stable
  fresh i s := s.own i = []
  fresh_stable h hf := h.own.trans hf
  step hs hpre h := by
    obtain ⟨new, hw, -⟩ := exec_effect hs hpre h
    exact ⟨hw.sound hs, fun j hne => hw.rely hne⟩

/-! ### What passes while a thread works -/

/-- From `s` to `t`, thread `i` and the others have disturbed nothing that it knew. -/
structure Passes (i : ℕ) (s t : GatewayDesk) : Prop where
  grows : Grows s t
  kept : ∀ h ∈ s.own i, h ∈ t.own i
  inputs : ∀ h ∈ t.own i, h.isInput = true → h ∈ s.own i
  even : Even (s.own i) → Even (t.own i)
  watches : ∀ w ∈ s.watches, w.thread = i → w ∈ t.watches

section obeys

variable {config : GatewayConfig} {i : ℕ} {s t u : GatewayDesk} {α β : Type}
  {Q : Except Fault β → GatewayDesk → Prop}

namespace Passes

theorem refl (i : ℕ) (s : GatewayDesk) : Passes i s s :=
  ⟨Grows.refl s, fun _ h => h, fun _ h _ => h, fun h => h, fun _ h _ => h⟩

theorem trans (h : Passes i s t) (h' : Passes i t u) : Passes i s u :=
  ⟨h.grows.trans h'.grows, fun x hx => h'.kept x (h.kept x hx),
    fun x hx hin => h.inputs x (h'.inputs x hx hin) hin, fun he => h'.even (h.even he),
    fun w hw hi => h'.watches w (h.watches w hw hi) hi⟩

theorem of_rely (h : Rely i s t) : Passes i s t :=
  ⟨h.grows, fun _ hx => h.own.symm ▸ hx, fun _ hx _ => h.own ▸ hx, fun he => h.own.symm ▸ he,
    h.watches⟩

theorem of_quiet {o : GatewayOp} (hq : o.quiet = true) (h : DeskEffect o i s t) : Passes i s t := by
  obtain ⟨new, hw, hquiet⟩ := h
  obtain ⟨hnew, hwatch⟩ := hquiet hq
  have hown := hw.own_self
  refine ⟨hw.grows, fun y hy => ?_, fun y hy hin => ?_, fun he => ?_, fun w hm _ => hwatch w hm⟩
  · rw [hown]
    exact List.mem_append_right _ hy
  · rw [hown] at hy
    rcases List.mem_append.mp hy with hn | ho
    · have hyq := hnew y hn
      cases y with
      | received body => cases hyq
      | recorded key dup => cases hyq
      | _ => cases hin
    · exact ho
  · rw [hown]
    exact Even.quiet_append hnew he

theorem mayClose (h : Passes i s t) (hm : MayClose config i s) : MayClose config i t := by
  intro body hb
  obtain ⟨hsigned, hnew⟩ := hm body (h.inputs _ hb rfl)
  exact ⟨hsigned, fun key hk => hnew key (h.inputs _ hk rfl)⟩

theorem noBody (h : Passes i s t) (hn : NoBody i s) : NoBody i t :=
  fun body hb => hn body (h.inputs _ hb rfl)

end Passes

/-- **A quiet operation and the rest of the program.** -/
theorem obeys_ask {o : GatewayOp} {f : o.Res → Service β} (hq : o.quiet = true) (h : Passes i s t)
    (hpre : ∀ u, Passes i s u → deskPre config i o u)
    (hok : ∀ t₁ x a t₂, Passes i s t₁ → Sound t₁ → o.perform i x t₁ = (.ok a, t₂) →
      Passes i s t₂ → (deskContract config).Obeys i Q (f a) t₂)
    (herr : ∀ fault u, Passes i s u → Q (.error fault) u) :
    (deskContract config).Obeys i Q (ask o >>= f) t := by
  refine Contract.Obeys.perform (hpre t h) (fun t₁ x a t₂ hr hs he => ?_)
    fun t₁ x fault t₂ hr hs he u hu => ?_
  · have h₁ := h.trans (.of_rely hr)
    have h₂ := h₁.trans (.of_quiet hq (exec_effect hs (hpre t₁ h₁) he))
    rcases exec_cases he with hp | ⟨fault, -, hc, -⟩
    · exact hok t₁ x a t₂ h₁ hs hp h₂
    · cases hc
  · have h₁ := h.trans (.of_rely hr)
    have h₂ := h₁.trans (.of_quiet hq (exec_effect hs (hpre t₁ h₁) he))
    exact herr fault u (h₂.trans (.of_rely hu))

theorem obeys_tryAsk {o : GatewayOp} {f : Except Fault o.Res → Service β} (hq : o.quiet = true)
    (h : Passes i s t) (hpre : ∀ u, Passes i s u → deskPre config i o u)
    (hok : ∀ t₁ x a t₂, Passes i s t₁ → Sound t₁ → o.perform i x t₁ = (.ok a, t₂) →
      Passes i s t₂ → (deskContract config).Obeys i Q (f (.ok a)) t₂)
    (herr : ∀ fault u, Passes i s u → (deskContract config).Obeys i Q (f (.error fault)) u) :
    (deskContract config).Obeys i Q (tryAsk o >>= f) t := by
  refine ⟨hpre t h, fun t₁ x r t₂ hr hs he => ?_⟩
  have h₁ := h.trans (.of_rely hr)
  have h₂ := h₁.trans (.of_quiet hq (exec_effect hs (hpre t₁ h₁) he))
  cases r with
  | error fault => exact herr fault t₂ h₂
  | ok a =>
      rcases exec_cases he with hp | ⟨fault, -, hc, -⟩
      · exact hok t₁ x a t₂ h₁ hs hp h₂
      · cases hc

/-- The thread has disturbed nothing since `s`. -/
def Through (i : ℕ) (s : GatewayDesk) : Except Fault α → GatewayDesk → Prop :=
  fun _ u => Passes i s u

theorem obeys_return {r : α} (h : Passes i s t) :
    (deskContract config).Obeys i (Through i s) (pure r : Service α) t :=
  fun _ hu => h.trans (.of_rely hu)

theorem obeys_throw {fault : Fault} (h : Passes i s t) :
    (deskContract config).Obeys i (Through i s) (throw fault : Service α) t :=
  fun _ hu => h.trans (.of_rely hu)

/-- A quiet operation at the end. -/
theorem obeys_last {o : GatewayOp} (hq : o.quiet = true) (h : Passes i s t)
    (hpre : ∀ u, Passes i s u → deskPre config i o u) :
    (deskContract config).Obeys i (Through i s) (ask o) t := by
  refine ⟨hpre t h, fun t₁ x r t₂ hr hs he => ?_⟩
  have h₂ := (h.trans (.of_rely hr)).trans
    (.of_quiet hq (exec_effect hs (hpre t₁ (h.trans (.of_rely hr))) he))
  cases r with
  | ok a => exact obeys_return h₂
  | error fault => exact obeys_throw h₂

/-- What keeps everything is followed by the rest. -/
theorem obeys_then {p : Service α} {f : α → Service β}
    (hp : (deskContract config).Obeys i (Through i s) p t)
    (hf : ∀ a u, Passes i s u → (deskContract config).Obeys i Q (f a) u)
    (herr : ∀ fault u, Passes i s u → Q (.error fault) u) :
    (deskContract config).Obeys i Q (p >>= f) t := by
  refine Contract.Obeys.bind (hp.mono fun r u hu => ?_)
  cases r with
  | ok a => exact hf a u hu
  | error fault => exact herr fault u hu

theorem obeys_discard {p : Service α} (hp : (deskContract config).Obeys i (Through i s) p t) :
    (deskContract config).Obeys i (Through i s) (discard p) t :=
  obeys_then hp (fun _ _ hu => obeys_return hu) fun _ _ hu => hu

theorem obeys_lift {e : Except Fault α} {f : α → Service β} (h : Passes i s t)
    (hok : ∀ a, e = .ok a → (deskContract config).Obeys i (Through i s) (f a) t) :
    (deskContract config).Obeys i (Through i s) (lift e >>= f) t := by
  cases e with
  | ok a => exact hok a rfl
  | error fault => exact obeys_throw h

end obeys

end BookHouse
