/-
Every service of online payment keeps the contract of the payment desk.

The services are taken from the inside out: a settlement, what an answer of the gateway
leads to, the reconciler, a new attempt, the automatic cancellations, a request body.
-/
import BookHouse.Proofs.GatewayRules

namespace BookHouse

open Prog (Contract lift)
open GatewayDesk

section obeys

variable {config : GatewayConfig} {i : ℕ} {s t u : GatewayDesk} {α β : Type}
  {Q : Except Fault β → GatewayDesk → Prop}

/-! ### Settlement -/

open PaymentSettlement

theorem obeys_failAttempt {p : Payment} {status : Failable} {reason : String} (h : Passes i s t)
    (hpre : ∀ u, Passes i s u → deskPre config i (.close p.id status reason) u) :
    (deskContract config).Obeys i (Through i s) (failAttempt p status reason) t := by
  refine obeys_ask rfl h hpre (fun t₁ x closed t₂ _ _ _ h₂ => ?_) fun _ _ hu => hu
  show (deskContract config).Obeys i _ (if _ then _ else _) t₂
  split
  · exact obeys_return h₂
  · refine obeys_ask rfl h₂ (fun _ _ => trivial) (fun t₃ x _ t₄ _ _ _ h₄ => ?_) fun _ _ hu => hu
    exact obeys_return h₄

/-- A payment that `findPayment` has found, by what is never written again. -/
structure Reading (p : Payment) (orderNo tranId : String) (s : GatewayDesk) : Prop where
  known : Known p s
  tranId : p.tranId = some tranId
  orderNo : ∃ o, Rows.lookup Order.id p.orderId s.orders = some o ∧ o.orderNo = orderNo
  amount : 0 < p.amount

theorem Reading.grows {p : Payment} {orderNo tranId : String} (h : Reading p orderNo tranId s)
    (hg : Grows s t) : Reading p orderNo tranId t := by
  obtain ⟨o, ho, hno⟩ := h.orderNo
  obtain ⟨o', ho', hno'⟩ := hg.orders _ o ho
  exact ⟨h.known.grows hg, h.tranId, ⟨o', ho', hno'.trans hno⟩, h.amount⟩

theorem GatewayDesk.Sound.nodup (hs : Sound s) : (s.payments.map Payment.id).Nodup :=
  hs.ids ▸ List.nodup_range

theorem reading_of_found {p : Payment} {orderNo tranId : String} (hs : Sound s)
    (h : s.findPayment tranId = some (p, orderNo)) : Reading p orderNo tranId s := by
  unfold findPayment at h
  obtain ⟨q, hq, hrest⟩ := Option.bind_eq_some_iff.mp h
  obtain ⟨o, ho, heq⟩ := Option.map_eq_some_iff.mp hrest
  obtain ⟨rfl, rfl⟩ := Prod.mk.inj heq
  have hmem := Rows.mem_of_lookup hq
  exact ⟨⟨q, Rows.lookup_of_mem hs.nodup hmem, rfl⟩, Rows.key_of_lookup hq, ⟨o, ho, rfl⟩,
    (hs.amounts q hmem).1⟩

/-- A fee fits its column. -/
theorem computeGatewayFee_ok {amount : Money} {store : Option String} {pct : ℚ} {fee : Money}
    (ha : 0 < amount) (h : computeGatewayFee amount store pct = .ok fee) :
    0 ≤ fee ∧ round2 fee = fee := by
  have hfallback : 0 ≤ (if 0 < pct then percentOf amount pct else 0) ∧
      round2 (if 0 < pct then percentOf amount pct else 0) =
        if 0 < pct then percentOf amount pct else 0 := by
    split
    · rename_i hpct
      exact ⟨percentOf_nonneg ha.le hpct.le, Rounding.toPlaces_of_hasPlaces (percentOf_paisa _ _)⟩
    · exact ⟨le_refl _, Rounding.toPlaces_of_hasPlaces Rounding.HasPlaces.zero⟩
  unfold computeGatewayFee at h
  dsimp only at h
  split at h
  · exact Except.ok.inj h ▸ hfallback
  · split at h
    · cases h
    · obtain rfl := Except.ok.inj h
      split
      · rename_i hfee
        exact ⟨hfee.1, Rounding.toPlaces_of_hasPlaces (round2_paisa _)⟩
      · exact hfallback

theorem captured_fee {ok : SslSuccess} {fee : Money} {columns : Captured}
    (h : captured ok fee = .ok columns) : columns.fee = fee := by
  unfold captured at h
  split at h
  · exact (Except.ok.inj h) ▸ rfl
  · split at h
    · exact (Except.ok.inj h) ▸ rfl
    · cases h

/-- The thread has just moved a payment to SUCCESS, and owes the event. -/
def OwesEvent (i : ℕ) (s : GatewayDesk) (id : PaymentId) (u : GatewayDesk) : Prop :=
  ∃ v before, Passes i s v ∧ Grows v u ∧ u.own i = .moved id before .success :: v.own i ∧
    ∀ w ∈ v.watches, w.thread = i → w ∈ u.watches

theorem OwesEvent.rely {id : PaymentId} (h : OwesEvent i s id t) (hr : Rely i t u) :
    OwesEvent i s id u := by
  obtain ⟨v, before, hv, hg, hown, hw⟩ := h
  exact ⟨v, before, hv, hg.trans hr.grows, hr.own.trans hown,
    fun w hm hi => hr.watches w (hw w hm hi) hi⟩

/-- Once the event is out, nothing is owed. -/
theorem OwesEvent.emitted {id : PaymentId} {orderId : OrderId} {e : PaymentSucceededEvent}
    (h : OwesEvent i s id t) : Passes i s (t.note i (.succeeded id orderId e)) := by
  obtain ⟨v, before, hv, hg, hown, hw⟩ := h
  have hown' : (t.note i (.succeeded id orderId e)).own i =
      .succeeded id orderId e :: .moved id before .success :: v.own i := by
    rw [(Wrote.note i t (.succeeded id orderId e)).own_self, hown]
    rfl
  refine hv.trans ⟨hg.trans (Wrote.note i t _).grows, fun x hx => ?_, fun x hx hin => ?_,
    fun he => ?_, hw⟩
  · rw [hown']
    exact List.mem_cons_of_mem _ (List.mem_cons_of_mem _ hx)
  · rw [hown'] at hx
    rcases List.mem_cons.mp hx with rfl | hx
    · cases hin
    · rcases List.mem_cons.mp hx with rfl | hx
      · cases hin
      · exact hx
  · rw [hown']
    exact he.success

/-- The transaction of a capture: it was won and the event is owed, or nothing changed. -/
theorem obeys_capture {id : PaymentId} {columns : Captured} {posting : CashLedger.GatewayCapture}
    {p : Payment} (hc : CaptureOf config.host i id columns posting p s)
    (h : Passes i s t) :
    (deskContract config).Obeys i
      (Contract.Ends (fun won u => if won = true then OwesEvent i s id u else Passes i s u) (Passes i s))
      (ask (.capture id columns posting)) t := by
  have hpre : ∀ u, Passes i s u → deskPre config i (.capture id columns posting) u := by
    intro u hu
    obtain ⟨o, ho, hno⟩ := hc.orderNo
    obtain ⟨o', ho', hno'⟩ := hu.grows.orders _ o ho
    obtain ⟨valId, v, hv, hconf⟩ := hc.confirmed
    exact ⟨p, { hc with known := hc.known.grows hu.grows, orderNo := ⟨o', ho', hno'.trans hno⟩,
                        confirmed := ⟨valId, v, hu.kept _ hv, hconf⟩ }⟩
  refine ⟨hpre t h, fun t₁ x r t₂ hr hs he => ?_⟩
  have h₁ := h.trans (.of_rely hr)
  rcases exec_cases he with hp | ⟨fault, -, rfl, rfl⟩
  · simp only [GatewayOp.perform] at hp
    split at hp
    · rename_i won t₃ hcap
      obtain ⟨rfl, rfl⟩ := Prod.mk.inj hp
      intro u hu
      rcases capture_ok hcap with ⟨rfl, rfl⟩ | ⟨q, cash, rfl, hq, -, -, rfl⟩
      · exact h₁.trans (.of_rely hu)
      · obtain ⟨new, hw, hwatch⟩ := wrote_capture hcap
        refine OwesEvent.rely ⟨t₁, q.status, h₁, hw.grows, ?_, fun w hm _ => hwatch w hm⟩ hu
        exact own_append_self (show _ = entries i [.moved id q.status .success] ++ t₁.log from rfl)
    · obtain ⟨rfl, rfl⟩ := Prod.mk.inj hp
      exact fun u hu => h₁.trans (.of_rely hu)
  · exact fun u hu => h₁.trans (.of_rely hu)

theorem obeys_settle {p : Payment} {orderNo tranId : String} {store : Option String}
    {ok : SslSuccess} (h : Passes i s t) (he : Even (s.own i)) (hread : Reading p orderNo tranId s)
    (hconf : ∃ valId v, .validated valId (some v) ∈ s.own i ∧ Confirms config.host p v) :
    (deskContract config).Obeys i (Through i s) (settle p orderNo tranId store ok) t := by
  refine obeys_ask rfl h (fun _ _ => trivial) (fun _ _ pct t₁ _ _ _ h₁ => ?_) fun _ _ hu => hu
  refine obeys_lift h₁ fun fee hfee => ?_
  refine obeys_ask rfl h₁ (fun _ _ => trivial) (fun _ _ at_ t₂ _ _ _ h₂ => ?_) fun _ _ hu => hu
  refine obeys_lift h₂ fun columns hcolumns => ?_
  have hfee' : columns.fee = fee := captured_fee hcolumns
  have hc : CaptureOf config.host i p.id columns
      ⟨p.orderId, orderNo, tranId, p.amount, fee, at_⟩ p s :=
    ⟨rfl, hread.known, rfl, rfl, hread.tranId, hfee'.symm,
      hfee'.symm ▸ computeGatewayFee_ok hread.amount hfee, hread.orderNo, hconf⟩
  refine Contract.Obeys.bind (Contract.Obeys.mono (fun r u hu => ?_)
    (withRetry_obeys (fun u hu => obeys_capture hc hu)
      (fun u v huv hu => hu.trans (.of_rely huv)) 3 t₂ h₂))
  cases r with
  | error fault => exact hu
  | ok won =>
      show (deskContract config).Obeys i _ (if _ then _ else _) u
      by_cases hwon : won = true
      · simp only [hwon, Bool.not_true, Bool.false_eq_true, if_false] at hu ⊢
        refine Contract.Obeys.perform ?_ (fun u₁ x a u₂ hr hs hexec => ?_) ?_
        · obtain ⟨v, before, hv, -, hown, -⟩ := hu
          exact ⟨before, v.own i, hown, hv.even he⟩
        · rcases exec_cases hexec with hp | ⟨fault, -, hcon, -⟩
          · have hu₂ : u₂ = u₁.note i (.succeeded p.id p.orderId ⟨p.amount, fee, tranId⟩) :=
              (congrArg Prod.snd hp).symm
            rw [hu₂]
            exact obeys_return (hu.rely hr).emitted
          · cases hcon
        · intro u₁ x fault u₂ hr hs hexec v hv
          rcases exec_cases hexec with hp | ⟨fault, hcan, -, -⟩
          · cases congrArg Prod.fst hp
          · cases hcan
      · have hlost : won = false := by simpa using hwon
        simp only [hlost, Bool.not_false, if_true] at hu ⊢
        exact obeys_last rfl hu fun _ _ => trivial

theorem close_of_word {p : Payment} {tranId : String} {status : Failable} {reason : String}
    (hknown : Known p s) (htran : p.tranId = some tranId)
    (hword : SaysClosed config.host p tranId status.status (s.own i)) :
    ∀ u, Passes i s u → deskPre config i (.close p.id status reason) u := by
  intro u hu
  refine .inr ⟨p, tranId, rfl, hknown.grows hu.grows, htran, ?_⟩
  rcases hword with ⟨q, failable, r, hq, heq⟩ | ⟨valId, v, hv, heq⟩
  · exact .inl ⟨q, failable, r, hu.kept _ hq, heq⟩
  · exact .inr ⟨valId, v, hu.kept _ hv, heq⟩

theorem close_of_may {id : PaymentId} {status : Failable} {reason : String}
    (hmay : MayClose config i s) :
    ∀ u, Passes i s u → deskPre config i (.close id status reason) u :=
  fun _ hu => .inl (hu.mayClose hmay)

/-- What keeps everything from later on keeps everything. -/
theorem obeys_from {p : Service α} (h : Passes i s t)
    (hp : (deskContract config).Obeys i (Through i t) p t) :
    (deskContract config).Obeys i (Through i s) p t :=
  hp.mono fun _ _ hu => h.trans hu

theorem obeys_decide {p : Payment} {orderNo tranId valId : String} {answer : Option SslValidation}
    (h : Passes i s t) (he : Even (s.own i)) (hread : Reading p orderNo tranId s)
    (hv : .validated valId answer ∈ s.own i) :
    (deskContract config).Obeys i (Through i s) (decide_ config.host p orderNo tranId answer) t := by
  refine obeys_lift h fun decision hd => ?_
  have hstatus : ∀ u, Passes i s u →
      (deskContract config).Obeys i (Through i s) (ask (.statusOf p.id)) u :=
    fun u hu => obeys_last rfl hu fun _ _ => trivial
  -- a decision to close is an answer about this very tran_id
  have hclose : ∀ (status : Failable) (reason : String),
      (∃ v, answer = some v ∧ ((∃ r, decision = .notPaid status r) ∨
        (∃ r, decision = .mismatch r) ∧ status = .failed)) →
      (deskContract config).Obeys i (Through i s)
        (failAttempt p status reason >>= fun _ => ask (.statusOf p.id)) t := by
    rintro status reason ⟨v, rfl, hcase⟩
    have htran : v.tranId = some tranId := by
      rcases evaluateValidation_own hd with ⟨r, hr⟩ | htran
      · rcases hcase with ⟨r', hr'⟩ | ⟨⟨r', hr'⟩, -⟩
        · rw [hr] at hr'
          cases hr'
        · rw [hr] at hr'
          cases hr'
      · exact htran
    have hword : SaysClosed config.host p tranId status.status (s.own i) := by
      rcases hcase with ⟨r, rfl⟩ | ⟨⟨r, rfl⟩, rfl⟩
      · exact .inr ⟨valId, v, hv, htran, .inl ⟨status, r, hd, rfl⟩⟩
      · exact .inr ⟨valId, v, hv, htran, .inr ⟨r, hd, rfl⟩⟩
    refine obeys_then (obeys_failAttempt h (close_of_word hread.known hread.tranId hword))
      (fun _ u hu => hstatus u hu) fun _ _ hu => hu
  have hanswer : ∀ {d : ValidationDecision}, decision = d → (∀ r, d ≠ .pending r) →
      ∃ v, answer = some v := by
    intro d hd' hne
    cases answer with
    | none => exact absurd (hd'.symm.trans (Except.ok.inj hd).symm) (hne _)
    | some v => exact ⟨v, rfl⟩
  cases decision with
  | foreign reason => exact obeys_return h
  | pending reason =>
      exact obeys_ask rfl h (fun _ _ => trivial) (fun _ _ _ u _ _ _ hu => hstatus u hu)
        fun _ _ hu => hu
  | mismatch reason =>
      obtain ⟨v, hv'⟩ := hanswer rfl fun r hc => by cases hc
      exact hclose .failed _ ⟨v, hv', .inr ⟨⟨reason, rfl⟩, rfl⟩⟩
  | notPaid status reason =>
      obtain ⟨v, hv'⟩ := hanswer rfl fun r hc => by cases hc
      exact hclose status _ ⟨v, hv', .inl ⟨reason, rfl⟩⟩
  | success ok =>
      obtain ⟨v, rfl, hconf⟩ := evaluateValidation_success hread.tranId hd
      exact obeys_settle h he hread ⟨valId, v, hv, hconf⟩

theorem obeys_confirm {tranId valId : String} (h : Passes i s t) (he : Even (s.own i)) :
    (deskContract config).Obeys i (Through i s) (confirm config.host tranId valId) t := by
  refine obeys_ask rfl h (fun _ _ => trivial) (fun t₁ x found t₂ h₁ hs hp h₂ => ?_)
    fun _ _ hu => hu
  cases found with
  | none => exact obeys_return h₂
  | some found =>
      obtain ⟨p, orderNo⟩ := found
      obtain ⟨hfound, rfl⟩ := Prod.mk.inj hp
      have hread := reading_of_found hs (Except.ok.inj hfound)
      show (deskContract config).Obeys i _ (if _ then _ else _) t₁
      split
      · exact obeys_return h₂
      · refine obeys_tryAsk rfl (Passes.refl i t₁) (fun _ _ => trivial)
          (fun t₃ y answer t₄ h₃ _ hp' h₄ => ?_) fun fault u hu => ?_
        · obtain ⟨ha, rfl⟩ := Prod.mk.inj hp'
          have hv : .validated valId answer ∈ (t₃.note i (.validated valId y.validation)).own i := by
            rw [(Wrote.note i t₃ _).own_self, Except.ok.inj ha]
            exact List.mem_append_left _ (List.mem_singleton.mpr rfl)
          exact obeys_from (h₁.trans h₄) (obeys_decide (Passes.refl i _) (h₄.even (h₁.even he))
            (hread.grows h₄.grows) hv)
        · refine obeys_ask rfl (h₁.trans hu) (fun _ _ => trivial) (fun _ _ _ v _ _ _ hv => ?_)
            fun _ _ hv => hv
          exact obeys_last rfl hv fun _ _ => trivial

theorem obeys_closeUnknown {p : Payment} {fallback : Option Fallback} (h : Passes i s t)
    (hfall : fallback ≠ none → MayClose config i s) :
    (deskContract config).Obeys i (Through i s) (closeUnknown p fallback) t := by
  cases fallback with
  | none => exact obeys_return h
  | some f => exact obeys_discard (obeys_failAttempt h (close_of_may (hfall (by simp))))

theorem obeys_waitOrExpire {p : Payment} {fallback : Option Fallback} (h : Passes i s t)
    (hfall : fallback ≠ none → MayClose config i s) :
    (deskContract config).Obeys i (Through i s) (waitOrExpire p fallback) t := by
  have hwait : (deskContract config).Obeys i (Through i s)
      (ask (.markPending p.id "gateway_pending")) t := obeys_last rfl h fun _ _ => trivial
  cases fallback with
  | none => exact hwait
  | some f =>
      obtain ⟨status, reason⟩ := f
      cases status with
      | failed => exact hwait
      | cancelled => exact hwait
      | expired =>
          show (deskContract config).Obeys i _ (if _ then _ else _) t
          split
          · exact obeys_discard (obeys_failAttempt h (close_of_may (hfall (by simp))))
          · exact hwait

theorem obeys_act {p : Payment} {tranId : String} {fallback : Option Fallback}
    {answer : Option TranQuery} (h : Passes i s t) (he : Even (s.own i))
    (hknown : MayClose config i s ∨ Known p s) (htran : p.tranId = some tranId)
    (hfall : fallback ≠ none → MayClose config i s) (hq : .queried tranId answer ∈ s.own i) :
    (deskContract config).Obeys i (Through i s)
      (act config.host p tranId fallback (interpretTransactionQuery config.host answer tranId)) t := by
  have hstatus : ∀ {α : Type} {q : Service α},
      (deskContract config).Obeys i (Through i s) q t →
      (deskContract config).Obeys i (Through i s) (q >>= fun _ => ask (.statusOf p.id)) t :=
    fun hq => obeys_then hq (fun _ u hu => obeys_last rfl hu fun _ _ => trivial) fun _ _ hu => hu
  cases hout : interpretTransactionQuery config.host answer tranId with
  | paid valId => exact obeys_confirm h he
  | notPaid status reason =>
      refine hstatus (obeys_failAttempt h ?_)
      rcases hknown with hmay | hknown
      · exact close_of_may hmay
      · exact close_of_word hknown htran (.inl ⟨answer, status, reason, hq, hout, rfl⟩)
  | none => exact hstatus (obeys_closeUnknown h hfall)
  | pending => exact hstatus (obeys_waitOrExpire h hfall)

theorem obeys_reconcile {p : Payment} {fallback : Option Fallback} (h : Passes i s t)
    (he : Even (s.own i)) (hknown : MayClose config i s ∨ Known p s)
    (hfall : fallback ≠ none → MayClose config i s) :
    (deskContract config).Obeys i (Through i s) (reconcile config.host p fallback) t := by
  unfold reconcile
  split
  · exact obeys_return h
  rename_i tranId htran
  refine obeys_tryAsk rfl h (fun _ _ => trivial) (fun t₁ x answer t₂ h₁ hs hp h₂ => ?_)
    fun fault u hu => ?_
  · refine obeys_from h₂ (obeys_act (Passes.refl i t₂) (h₂.even he) ?_ (given_eq_some htran)
      (fun hne => h₂.mayClose (hfall hne)) ?_)
    · rcases hknown with hmay | hknown
      · exact .inl (h₂.mayClose hmay)
      · exact .inr (hknown.grows h₂.grows)
    · obtain ⟨ha, rfl⟩ := Prod.mk.inj hp
      rw [(Wrote.note i t₁ _).own_self, Except.ok.inj ha]
      exact List.mem_append_left _ (List.mem_singleton.mpr rfl)
  · cases fault with
    | gateway message => exact obeys_return hu
    | domain failure => exact obeys_throw hu
    | forbidden code message => exact obeys_throw hu
    | database code message => exact obeys_throw hu
    | error message => exact obeys_throw hu

/-! ### The reconciler -/

theorem obeys_reconcileAll {cutoff : Instant} (he : Even (s.own i)) (hno : NoBody i s) :
    ∀ (attempts : List Payment) (t : GatewayDesk), Passes i s t →
      (deskContract config).Obeys i (Through i s)
        (PaymentReconciler.reconcileAll config.host cutoff attempts) t := by
  intro attempts
  induction attempts with
  | nil => exact fun t h => obeys_return h
  | cons p rest ih =>
      intro t h
      refine obeys_then (Contract.Obeys.catching (Contract.Obeys.mono (fun _ _ hu => hu)
        (obeys_reconcile h he (.inl hno.mayClose) fun _ => hno.mayClose)))
        (fun _ u hu => ih u hu) fun _ _ hu => hu

theorem obeys_reconciler (he : Even (s.own i)) (hno : NoBody i s) :
    (deskContract config).Obeys i (Through i s) (PaymentReconciler.run config.host) s := by
  refine obeys_ask rfl (Passes.refl i s) (fun _ _ => trivial)
    (fun _ _ locked t _ _ _ h => ?_) fun _ _ hu => hu
  show (deskContract config).Obeys i _ (if _ then _ else _) t
  split
  · exact obeys_return h
  refine obeys_then (Contract.Obeys.catching (Contract.Obeys.mono (fun _ _ hu => hu) ?_))
    (fun out u hu => ?_) fun _ _ hu => hu
  · refine obeys_ask rfl h (fun _ _ => trivial) (fun _ _ now t₁ _ _ _ h₁ => ?_) fun _ _ hu => hu
    refine obeys_ask rfl h₁ (fun _ _ => trivial) (fun _ _ later t₂ _ _ _ h₂ => ?_)
      fun _ _ hu => hu
    refine obeys_ask rfl h₂ (fun _ _ => trivial) (fun _ _ attempts t₃ _ _ _ h₃ => ?_)
      fun _ _ hu => hu
    exact obeys_reconcileAll he hno attempts t₃ h₃
  · refine obeys_ask rfl hu (fun _ _ => trivial) (fun _ _ _ v _ _ _ hv => ?_) fun _ _ hv => hv
    cases out with
    | ok a => exact obeys_return hv
    | error fault => exact obeys_throw hv

/-! ### Starting an attempt -/

open PaymentCheckout

theorem obeys_openSession {p : Payment} (h : Passes i s t) (hno : NoBody i s) :
    (deskContract config).Obeys i (Through i s) (openSession config.host p) t := by
  have hfail : ∀ (reason : String) (fault : Fault) (u : GatewayDesk), Passes i s u →
      (deskContract config).Obeys i (Through i s)
        (ask (.sessionFailed p.id reason) >>= fun _ => (throw fault : Service Unit)) u := by
    intro reason fault u hu
    exact obeys_ask rfl hu (fun _ hv => hv.noBody hno) (fun _ _ _ v _ _ _ hv => obeys_throw hv)
      fun _ _ hv => hv
  refine obeys_tryAsk rfl h (fun _ _ => trivial) (fun _ _ session t₁ _ _ _ h₁ => ?_)
    fun fault u hu => ?_
  · show (deskContract config).Obeys i _ (if _ then _ else _) t₁
    split
    · exact hfail _ _ t₁ h₁
    · exact obeys_last rfl h₁ fun _ _ => trivial
  · cases fault with
    | gateway message => exact hfail _ _ u hu
    | domain failure => exact hfail _ _ u hu
    | forbidden code message => exact hfail _ _ u hu
    | database code message => exact hfail _ _ u hu
    | error message => exact hfail _ _ u hu

theorem findOrder_some {key : OrderKey} {o : Order} (h : s.findOrder key = some o) :
    o ∈ s.orders := by
  cases key with
  | id id => exact Rows.mem_of_lookup h
  | orderNo orderNo => exact Rows.mem_of_lookup h

theorem makeTranId_length (orderNo : String) (n : ℕ) : (makeTranId orderNo n).length ≤ 30 := by
  simp [makeTranId, sliceTo]

theorem obeys_init {req : InitRequest} (hno : NoBody i s) :
    (deskContract config).Obeys i (Through i s) (init config.host req) s := by
  refine obeys_ask rfl (Passes.refl i s) (fun _ _ => trivial)
    (fun t₁ x found t₂ h₁ hs hp h₂ => ?_) fun _ _ hu => hu
  cases found with
  | none => exact obeys_throw h₂
  | some o =>
      obtain ⟨hfound, rfl⟩ := Prod.mk.inj hp
      have hmem := findOrder_some (Except.ok.inj hfound)
      have hplaced : ∃ x, Rows.lookup Order.id o.id t₁.orders = some x :=
        ⟨o, Rows.lookup_of_mem hs.orderIds hmem⟩
      show (deskContract config).Obeys i _ (if _ then _ else _) t₁
      split
      · exact obeys_throw h₂
      split
      · exact obeys_throw h₂
      refine obeys_from h₂ ?_
      have hno₁ := h₂.noBody hno
      refine obeys_ask rfl (Passes.refl i t₁) (fun _ _ => trivial)
        (fun _ _ attempts t₃ _ _ _ h₃ => ?_) fun _ _ hu => hu
      refine obeys_ask rfl h₃ (fun _ hu => hu.noBody hno₁) (fun _ _ _ t₄ _ _ _ h₄ => ?_)
        fun _ _ hu => hu
      refine obeys_ask rfl h₄ (fun u hu => ?_) (fun _ _ p t₅ _ _ _ h₅ => ?_) fun _ _ hu => hu
      · obtain ⟨x, hx⟩ := hplaced
        obtain ⟨x', hx', -⟩ := hu.grows.orders _ x hx
        exact ⟨⟨x', hx'⟩, hs.columns o hmem, makeTranId_length _ _, hu.noBody hno₁⟩
      · exact obeys_then (obeys_openSession h₅ hno₁) (fun _ _ hu => obeys_return hu)
          fun _ _ hu => hu

/-! ### Automatic cancellation -/

open OrderPayment

/-- The thread owes no event. -/
def Settled (i : ℕ) : Except Fault α → GatewayDesk → Prop := fun _ u => Even (u.own i)

theorem settled_of_rely {r : Except Fault α} (he : Even (s.own i)) (hr : Rely i s t) :
    Settled i r t := by
  show Even (t.own i)
  exact hr.own.symm ▸ he

theorem Through.settled {p : Service α} (he : Even (s.own i))
    (h : (deskContract config).Obeys i (Through i s) p t) :
    (deskContract config).Obeys i (Settled i) p t :=
  h.mono fun _ _ hu => hu.even he

/-- A cancellation owes nothing, and leaves the other watches of the thread. -/
theorem autoCancel_effect {orderId : OrderId} {failed : Option PaymentId} {cmd : TransitionCommand}
    {actor : TransitionActor} {x : Outside} {r : Except Fault Unit} (hs : Sound s)
    (he : Even (s.own i)) (h : (GatewayOp.autoCancel orderId failed cmd actor).exec i x s = some (r, t)) :
    Even (t.own i) ∧ ∀ w ∈ s.watches, w.orderId ≠ orderId → w ∈ t.watches := by
  have hun := wrote_unwatch i s orderId
  have heun : Even ((s.unwatch i orderId).own i) := hun.own_self ▸ he
  have hwatch : ∀ w ∈ s.watches, w.orderId ≠ orderId → w ∈ (s.unwatch i orderId).watches :=
    fun w hw hne => List.mem_filter.mpr ⟨hw, by simp [hne]⟩
  rcases exec_cases h with hp | ⟨fault, -, -, rfl⟩
  · simp only [GatewayOp.perform] at hp
    split at hp
    · rename_i t' hok
      obtain ⟨-, rfl⟩ := Prod.mk.inj hp
      have hw := wrote_autoCancel (hun.sound hs) hok
      refine ⟨?_, fun w hm hne => ?_⟩
      · rw [hw.own_self]
        exact Even.quiet_append (fun y hy => by rw [List.mem_singleton.mp hy]; rfl) heun
      · have hsame : t'.watches = (s.unwatch i orderId).watches := by
          unfold autoCancel at hok
          split at hok
          · cases hok
          · split at hok
            · cases hok
            · rw [← Except.ok.inj hok]
              rfl
        exact hsame ▸ hwatch w hm hne
    · obtain ⟨-, rfl⟩ := Prod.mk.inj hp
      exact ⟨heun, hwatch⟩
  · exact ⟨heun, hwatch⟩

theorem obeys_onGatewayFailure {e : PaymentFailedEvent} (he : Even (s.own i)) :
    (deskContract config).Obeys i (Settled i) (onGatewayFailure e) s := by
  refine obeys_ask rfl (Passes.refl i s) (fun _ _ => trivial)
    (fun _ _ found t₁ _ _ _ h₁ => ?_) fun _ _ hu => hu.even he
  cases found with
  | none => exact Through.settled he (obeys_return h₁)
  | some o =>
      show (deskContract config).Obeys i _ (if _ then _ else _) t₁
      split
      · exact Through.settled he (obeys_return h₁)
      refine obeys_ask rfl h₁ (fun _ _ => trivial) (fun t₂ x alive t₃ _ _ hp h₃ => ?_)
        fun _ _ hu => hu.even he
      show (deskContract config).Obeys i _ (if _ then _ else _) t₃
      split
      · exact Through.settled he (obeys_return h₃)
      rename_i hzero
      have hwatch : (⟨i, o.id, some e.paymentId⟩ : Watch) ∈ t₃.watches := by
        simp only [GatewayOp.perform, countAlive] at hp
        obtain ⟨ha, rfl⟩ := Prod.mk.inj hp
        have hnone : othersAlive t₂.payments o.id e.paymentId = 0 :=
          (Except.ok.inj ha).trans (not_not.mp hzero)
        rw [if_pos hnone]
        exact List.mem_cons_self
      refine ⟨hwatch, fun t₄ y r t₅ hr hs hexec => ?_⟩
      have heven := (autoCancel_effect hs ((h₃.trans (.of_rely hr)).even he) hexec).1
      cases r with
      | ok a => exact fun u hu => settled_of_rely heven hu
      | error fault => exact fun u hu => settled_of_rely heven hu

theorem obeys_cancelAll :
    ∀ (stale : List OrderId) (t : GatewayDesk), stale.Nodup → Even (t.own i) →
      (∀ id ∈ stale, (⟨i, id, none⟩ : Watch) ∈ t.watches) →
      (deskContract config).Obeys i (Settled i) (cancelAll stale) t := by
  intro stale
  induction stale with
  | nil => exact fun t _ he _ u hu => settled_of_rely he hu
  | cons id rest ih =>
      intro t hnd he hwatch
      rw [List.nodup_cons] at hnd
      refine ⟨hwatch id List.mem_cons_self, fun t₁ x r t₂ hr hs hexec => ?_⟩
      obtain ⟨heven, hleft⟩ := autoCancel_effect hs (hr.own.symm ▸ he) hexec
      refine Contract.Obeys.bind (p := cancelAll rest) (Contract.Obeys.mono (fun out u hu => ?_)
        (ih t₂ hnd.2 heven fun k hk =>
          hleft _ (hr.watches _ (hwatch k (List.mem_cons_of_mem _ hk)) rfl) ?_))
      · cases out with
        | ok n => exact fun v hv => settled_of_rely hu hv
        | error fault => exact hu
      · rintro rfl
        exact hnd.1 hk

theorem obeys_cancelStaleUnpaid {minutes : ℤ} (he : Even (s.own i)) :
    (deskContract config).Obeys i (Settled i) (cancelStaleUnpaid minutes) s := by
  refine obeys_ask rfl (Passes.refl i s) (fun _ _ => trivial)
    (fun _ _ now t₁ _ _ _ h₁ => ?_) fun _ _ hu => hu.even he
  refine obeys_ask rfl h₁ (fun _ _ => trivial) (fun t₂ x stale t₃ _ hs hp h₃ => ?_)
    fun _ _ hu => hu.even he
  obtain ⟨ha, rfl⟩ := Prod.mk.inj hp
  have hstale := Except.ok.inj ha
  refine obeys_cancelAll stale _ ?_ (h₃.even he) fun id hid => ?_
  · rw [← hstale]
    refine List.Nodup.sublist ?_ hs.orderIds
    exact ((List.take_sublist _ _).trans List.filter_sublist).map _
  · refine List.mem_append_left _ (List.mem_map.mpr ⟨id, ?_, rfl⟩)
    rw [← hstale] at hid
    exact hid

/-! ### Callbacks and IPNs -/

open PaymentEvents PaymentCallbacks

/-- A request that has been stored: its body, and whether its event was processed before. -/
def Stored (i : ℕ) (body : Body) (duplicate : Bool) (s : GatewayDesk) : Prop :=
  ∃ key, s.own i = [.recorded key duplicate, .received body]

theorem Stored.even {body : Body} {dup : Bool} (h : Stored i body dup s) : Even (s.own i) := by
  obtain ⟨key, hown⟩ := h
  rw [hown]
  exact fun id => rfl

theorem Stored.mayClose {body : Body} (h : Stored i body false s)
    (hsigned : signedBody config body) : MayClose config i s := by
  obtain ⟨key, hown⟩ := h
  intro b hb
  rw [hown] at hb ⊢
  have hbody : b = body := by simpa using hb
  refine ⟨hbody ▸ hsigned, fun k hk => ?_⟩
  simp at hk

theorem obeys_record {body : Body} {key type : String} {signed : Bool}
    (hown : t.own i = [.received body]) :
    (deskContract config).Obeys i
      (Contract.Ends (fun r u => Stored i body r.2 u) fun u => u.own i = [.received body])
      (record key type signed) t := by
  refine ⟨trivial, fun t₁ x r t₂ hr hs hexec => ?_⟩
  have hown₁ : t₁.own i = [.received body] := hr.own.trans hown
  have hcreated : (∃ e, r = .ok e ∧ t₂.own i = [.recorded (sliceTo 120 key) false, .received body]) ∨
      (∃ fault, r = .error fault ∧ t₂ = t₁) := by
    rcases exec_cases hexec with hp | ⟨fault, -, rfl, rfl⟩
    · simp only [GatewayOp.perform, createEvent] at hp
      split at hp
      · rename_i e t' heq
        obtain ⟨rfl, rfl⟩ := Prod.mk.inj hp
        split at heq
        · cases heq
        · obtain ⟨rfl, rfl⟩ := Prod.mk.inj (Except.ok.inj heq)
          refine .inl ⟨_, rfl, ?_⟩
          rw [← hown₁]
          exact own_append_self (show _ = entries i [.recorded (sliceTo 120 key) false] ++ t₁.log from rfl)
      · rename_i fault heq
        obtain ⟨rfl, rfl⟩ := Prod.mk.inj hp
        exact .inr ⟨fault, rfl, rfl⟩
    · exact .inr ⟨fault, rfl, rfl⟩
  rcases hcreated with ⟨e, rfl, hown₂⟩ | ⟨fault, rfl, rfl⟩
  · exact fun u hu => ⟨_, hu.own.trans hown₂⟩
  · show (deskContract config).Obeys i _ (if _ then _ else _) t₂
    split
    · exact fun u hu => hu.own.trans hown₁
    · refine Contract.Obeys.perform trivial (fun t₃ y e t₄ hr' hs' hexec' => ?_)
        fun t₃ y fault' t₄ hr' hs' hexec' u hu => ?_
      · have hown₃ : t₃.own i = [.received body] := hr'.own.trans hown₁
        rcases exec_cases hexec' with hp | ⟨fault', -, hc, -⟩
        · simp only [GatewayOp.perform, findEvent] at hp
          split at hp
          · rename_i e' t' heq
            obtain ⟨he, rfl⟩ := Prod.mk.inj hp
            split at heq
            · cases heq
            · obtain ⟨rfl, rfl⟩ := Prod.mk.inj (Except.ok.inj heq)
              obtain rfl := Except.ok.inj he
              refine fun u hu => ⟨sliceTo 120 key, hu.own.trans ?_⟩
              rw [← hown₃]
              exact (Wrote.note i t₃ _).own_self
          · cases (Prod.mk.inj hp).1
        · cases hc
      · have hown₃ : t₃.own i = [.received body] := hr'.own.trans hown₁
        rcases exec_cases hexec' with hp | ⟨fault'', -, -, rfl⟩
        · simp only [GatewayOp.perform, findEvent] at hp
          split at hp
          · cases (Prod.mk.inj hp).1
          · obtain ⟨-, rfl⟩ := Prod.mk.inj hp
            exact hu.own.trans hown₃
        · exact hu.own.trans hown₃

theorem obeys_named {body : Body} {f : Option (Payment × String) → Service β}
    (h : Passes i s t)
    (hnone : ∀ u, Passes i s u → (deskContract config).Obeys i (Through i s) (f none) u)
    (hsome : ∀ p orderNo u, Passes i s u → Known p u →
      (deskContract config).Obeys i (Through i s) (f (some (p, orderNo))) u) :
    (deskContract config).Obeys i (Through i s) (named body >>= f) t := by
  unfold named
  dsimp only
  split
  · exact hnone t h
  · refine obeys_ask rfl h (fun _ _ => trivial) (fun t₁ x found t₂ _ hs hp h₂ => ?_)
      fun _ _ hu => hu
    obtain ⟨hfound, rfl⟩ := Prod.mk.inj hp
    cases found with
    | none => exact hnone t₁ h₂
    | some found =>
        obtain ⟨p, orderNo⟩ := found
        exact hsome p orderNo t₁ h₂ (reading_of_found hs (Except.ok.inj hfound)).known

theorem obeys_outcomeOf {kind : CallbackKind} {body : Body} {signed dup : Bool}
    (he : Even (s.own i))
    (hmay : signed = true → dup = false → MayClose config i s) :
    (deskContract config).Obeys i (Through i s) (outcomeOf config kind body signed dup) s := by
  refine obeys_named (Passes.refl i s) (fun u hu => obeys_return hu) fun p orderNo u hu hknown => ?_
  show (deskContract config).Obeys i _ (if _ then _ else _) u
  split
  · exact obeys_return hu
  rename_i hdup
  split
  · exact obeys_then (obeys_confirm hu he) (fun _ _ hv => obeys_return hv) fun _ _ hv => hv
  · refine obeys_from hu (obeys_then (obeys_reconcile (Passes.refl i u) (hu.even he)
      (.inr hknown) fun hne => ?_) (fun _ _ hv => obeys_return hv) fun _ _ hv => hv)
    refine hu.mayClose (hmay ?_ (by simpa using hdup))
    unfold signedFallback at hne
    by_contra hc
    exact hne (by simp [hc])

theorem obeys_closeEvent {event : PaymentEvent} {id : Option PaymentId} (h : Passes i s t) :
    (deskContract config).Obeys i (Through i s) (closeEvent event id) t := by
  refine obeys_tryAsk rfl h (fun _ _ => trivial) (fun _ _ _ u _ _ _ hu => obeys_return hu)
    fun fault u hu => ?_
  exact obeys_last rfl hu fun _ _ => trivial

/-- The body comes in, and is stored; what follows starts from there. -/
theorem obeys_stored {body : Body} {key type : String} {f : Bool → PaymentEvent × Bool → Service β}
    (hfresh : s.own i = [])
    (hf : ∀ signed r u, verifySslSignature config.host body config.storePassword = .ok signed →
      Stored i body r.2 u → (deskContract config).Obeys i (Settled i) (f signed r) u) :
    (deskContract config).Obeys i (Settled i) (do
      ask (.receive body)
      let signed ← lift (verifySslSignature config.host body config.storePassword)
      let r ← record key type signed
      f signed r) s := by
  refine Contract.Obeys.perform trivial (fun t₁ x a t₂ hr _ hexec => ?_)
    fun t₁ x fault t₂ _ _ hexec => ?_
  · have hown : t₂.own i = [.received body] := by
      rcases exec_cases hexec with hp | ⟨fault, -, hc, -⟩
      · obtain ⟨-, rfl⟩ := Prod.mk.inj hp
        rw [(Wrote.note i t₁ _).own_self, hr.own, hfresh]
        rfl
      · cases hc
    have heven : Even (t₂.own i) := hown ▸ fun id => rfl
    cases hv : verifySslSignature config.host body config.storePassword with
    | error fault => exact fun u hu => settled_of_rely heven hu
    | ok signed =>
        refine Contract.Obeys.bind (p := record key type signed)
          (Contract.Obeys.mono (fun out u hu => ?_) (obeys_record hown))
        cases out with
        | ok r => exact hf signed r u hv hu
        | error fault =>
            have hown' : u.own i = [.received body] := hu
            show Even (u.own i)
            exact hown' ▸ fun id => rfl
  · rcases exec_cases hexec with hp | ⟨fault, hcan, -, -⟩
    · cases (Prod.mk.inj hp).1
    · cases hcan

theorem obeys_callback {kind : CallbackKind} {body : Body} (hfresh : s.own i = []) :
    (deskContract config).Obeys i (Settled i) (callback config kind body) s := by
  refine obeys_stored hfresh fun signed r u hv hstored => ?_
  obtain ⟨event, dup⟩ := r
  have heven := hstored.even
  refine Through.settled heven (obeys_then (Contract.Obeys.catching (Contract.Obeys.mono
    (fun _ _ hu => hu) (obeys_outcomeOf heven fun hsigned hnew => ?_)))
    (fun out v hv => ?_) fun _ _ hu => hu)
  · subst hsigned hnew
    exact hstored.mayClose hv
  · cases out with
    | error err =>
        exact obeys_ask rfl hv (fun _ _ => trivial) (fun _ _ _ w _ _ _ hw => obeys_return hw)
          fun _ _ hw => hw
    | ok out =>
        exact obeys_then (obeys_closeEvent hv) (fun _ _ hw => obeys_return hw) fun _ _ hw => hw

theorem obeys_ipnSettle {body : Body} (he : Even (s.own i)) (h : Passes i s t) :
    (deskContract config).Obeys i (Through i s) (ipnSettle config body) t := by
  refine obeys_named h (fun u hu => obeys_return hu) fun p orderNo u hu hknown => ?_
  refine obeys_then ?_ (fun _ _ hv => obeys_return hv) fun _ _ hv => hv
  show (deskContract config).Obeys i _ (if _ then _ else _) u
  split
  · exact obeys_confirm hu he
  · exact obeys_from hu (obeys_reconcile (Passes.refl i u) (hu.even he) (.inr hknown)
      fun hne => absurd rfl hne)

theorem obeys_ipn {body : Body} (hfresh : s.own i = []) :
    (deskContract config).Obeys i (Settled i) (ipn config body) s := by
  refine obeys_stored hfresh fun signed r u _ hstored => ?_
  obtain ⟨event, dup⟩ := r
  have heven := hstored.even
  have h := Passes.refl i u
  show (deskContract config).Obeys i _ (if _ then _ else _) u
  split
  · exact Through.settled heven (obeys_return h)
  show (deskContract config).Obeys i _ (if _ then _ else _) u
  split
  · exact Through.settled heven (obeys_ask rfl h (fun _ _ => trivial)
      (fun _ _ _ v _ _ _ hv => obeys_return hv) fun _ _ hv => hv)
  refine Through.settled heven (obeys_then (Contract.Obeys.catching (Contract.Obeys.mono
    (fun _ _ hu => hu) ?_)) (fun out v hv => ?_) fun _ _ hu => hu)
  · exact obeys_then (obeys_ipnSettle heven h)
      (fun _ v hv => obeys_last rfl hv fun _ _ => trivial) fun _ _ hv => hv
  · cases out with
    | error err =>
        exact obeys_ask rfl hv (fun _ _ => trivial) (fun _ _ _ w _ _ _ hw => obeys_throw hw)
          fun _ _ hw => hw
    | ok _ => exact obeys_return hv

/-! ### Everything that comes in -/

/-- **Every request keeps the contract.** -/
theorem obeys_body (request : GatewayRequest) (hfresh : s.own i = []) :
    (deskContract config).Obeys i (Settled i) (request.body config) s := by
  have he : Even (s.own i) := hfresh ▸ even_nil
  have hno : NoBody i s := fun body hb => by
    rw [hfresh] at hb
    cases hb
  have h := Passes.refl i s
  have hvoid : ∀ {α : Type} {p : Service α}, (deskContract config).Obeys i (Settled i) p s →
      (deskContract config).Obeys i (Settled i) (discard p) s := by
    intro α p hp
    refine Contract.Obeys.bind (Contract.Obeys.mono (fun out u hu => ?_) hp)
    cases out with
    | ok a => exact fun v hv => settled_of_rely hu hv
    | error fault => exact hu
  cases request with
  | callback kind body => exact hvoid (obeys_callback hfresh)
  | ipn body => exact hvoid (obeys_ipn hfresh)
  | reconciler => exact Through.settled he (obeys_reconciler he hno)
  | init req => exact hvoid (Through.settled he (obeys_init hno))
  | failed e => exact obeys_onGatewayFailure he
  | sweep minutes => exact hvoid (obeys_cancelStaleUnpaid he)
  | confirm tranId valId => exact hvoid (Through.settled he (obeys_confirm h he))
  | fail p status reason =>
      exact hvoid (Through.settled he (obeys_failAttempt h (close_of_may hno.mayClose)))
  | reconcile p fallback =>
      exact hvoid (Through.settled he (obeys_reconcile h he (.inl hno.mayClose)
        fun _ => hno.mayClose))
  | saveOrder row => exact Through.settled he (obeys_last rfl h fun _ _ => trivial)

end obeys

end BookHouse
