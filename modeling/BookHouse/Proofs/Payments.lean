/-
Captured money and the order it was captured for.

A capture reads the row without a lock and writes it without a version, so the money
can be lost to whoever commits in between.  While nobody does, one equation carries the
whole argument: the row holds exactly what the committed handlers brought in, which is
nothing as long as it is unpaid.
-/
import BookHouse.Lib.Procs
import BookHouse.Orders.PaymentMachine
import BookHouse.Proofs.History

namespace BookHouse

/-! ### The CHECKs of a row -/

/-- What the CHECKs of the orders table ask. -/
theorem Order.check_eq_ok {o : Order} : o.check = .ok () ↔
    (0 ≤ o.itemsSubtotal ∧ 0 ≤ o.discountTotal ∧ 0 ≤ o.shippingFee ∧ 0 ≤ o.taxTotal ∧
      0 ≤ o.grandTotal ∧ 0 ≤ o.amountPaid ∧ 0 ≤ o.amountRefunded ∧ 0 ≤ o.courierCost ∧
      0 ≤ o.gatewayFee ∧ 0 ≤ o.courierLoss) ∧
    o.discountTotal ≤ o.itemsSubtotal ∧
    o.grandTotal = o.itemsSubtotal - o.discountTotal + o.shippingFee + o.taxTotal ∧
    o.amountRefunded ≤ o.amountPaid ∧
    (o.status = .cancelled ∨ o.status = .returned → o.cancelledAt.isSome) := by
  unfold Order.check
  constructor
  · intro h
    split at h
    · cases h
    rename_i hnonneg
    split at h
    · cases h
    rename_i hdiscount
    split at h
    · cases h
    rename_i htotal
    split at h
    · cases h
    rename_i hrefund
    split at h
    · cases h
    rename_i hcancel
    refine ⟨?_, not_lt.mp hdiscount, not_not.mp htotal, not_lt.mp hrefund, ?_⟩
    · simpa [and_assoc] using hnonneg
    · intro hclosed
      exact Option.isSome_iff_ne_none.mpr (by simpa [hclosed] using hcancel)
  · rintro ⟨hnonneg, hdiscount, htotal, hrefund, hcancel⟩
    rw [if_neg, if_neg (not_lt.mpr hdiscount), if_neg (not_not.mpr htotal),
      if_neg (not_lt.mpr hrefund), if_neg]
    · rw [Bool.and_eq_true, Bool.or_eq_true, decide_eq_true_eq, decide_eq_true_eq]
      rintro ⟨hclosed, hnone⟩
      have hsome := hcancel hclosed
      rw [Option.isNone_iff_eq_none.mp hnone] at hsome
      cases hsome
    · simpa [and_assoc] using hnonneg

section rows

variable {o row : Order} {e : PaymentSucceededEvent} {now : Instant}

/-- A capture passes the CHECKs of an order nothing was refunded on. -/
theorem Order.captured_check (h : o.check = .ok ()) (hrefunded : o.amountRefunded = 0)
    (hamount : 0 < e.amount) (hfee : 0 ≤ e.fee) : (o.captured e now).check = .ok () := by
  rw [Order.check_eq_ok] at h ⊢
  obtain ⟨⟨h₁, h₂, h₃, h₄, h₅, -, h₇, h₈, h₉, h₁₀⟩, hdiscount, htotal, -, hcancel⟩ := h
  have hfees : 0 ≤ o.gatewayFee + e.fee := add_nonneg h₉ hfee
  have hrefund : o.amountRefunded ≤ e.amount := hrefunded ▸ hamount.le
  exact ⟨⟨h₁, h₂, h₃, h₄, h₅, hamount.le, h₇, h₈, hfees, h₁₀⟩, hdiscount, htotal, hrefund, hcancel⟩

/-- The auto-confirm of a captured order that is still pending goes through, and leaves
the money as the capture wrote it. -/
theorem Order.confirm_captured (hpending : o.status = .pending)
    (hcheck : (o.captured e now).check = .ok ()) :
    ∃ plan, (o.captured e now).transition (confirmCommand e) .webhook now =
        .ok ((o.captured e now).transitioned plan (confirmCommand e).note now, plan) ∧
      plan.markPaid = false ∧
      ((o.captured e now).transitioned plan (confirmCommand e).note now).check = .ok () := by
  let req := (confirmCommand e).request .webhook now
  have hplan : planTransition (o.captured e now) req = .ok (planAdvance (o.captured e now) req) := by
    simp [planTransition, req, TransitionCommand.request, confirmCommand, Order.captured, hpending,
      OrderStatus.isTerminal, OrderStatus.rank, awaitingPayment]
  have hmark : (planAdvance (o.captured e now) req).markPaid = false := by
    simp [planAdvance, Order.captured]
  have hchecked : ((o.captured e now).transitioned (planAdvance (o.captured e now) req)
      (confirmCommand e).note now).check = .ok () := by
    rw [Order.check_eq_ok] at hcheck ⊢
    obtain ⟨hnonneg, hdiscount, htotal, hrefund, -⟩ := hcheck
    refine ⟨?_, hdiscount, htotal, ?_, ?_⟩
    · simpa [Order.transitioned, planAdvance, req, TransitionCommand.request, confirmCommand]
        using hnonneg
    · simpa [Order.transitioned, hmark] using hrefund
    · intro hclosed
      simp [Order.transitioned, planAdvance, req, TransitionCommand.request, confirmCommand]
        at hclosed
  refine ⟨planAdvance (o.captured e now) req, ?_, hmark, hchecked⟩
  rw [Order.transition, hplan]
  simp only [hchecked]
  rfl

/-- Cash is collected with the parcel of an unpaid order only. -/
theorem planTransition_markPaid {req : TransitionRequest} {plan : TransitionPlan}
    (h : planTransition o req = .ok plan) (hpaid : plan.markPaid = true) :
    o.paymentStatus = .unpaid := by
  obtain ⟨-, -, hcase⟩ := planTransition_cases h
  rcases hcase with ⟨-, -, -, rfl⟩ | ⟨-, rfl, -⟩ | ⟨-, -, -, -, rfl⟩
  · cases hpaid
  · cases hpaid
  · have hboth : req.toStatus = .delivered ∧ o.paymentStatus = .unpaid := by
      simpa [planAdvance] using hpaid
    exact hboth.2

theorem markPaidRefusal_none {version : Option ℤ} (h : markPaidRefusal o version = none) :
    o.paymentStatus = .unpaid := by
  unfold markPaidRefusal at h
  by_contra hpaid
  rw [if_pos hpaid] at h
  split at h
  · cases h
  split at h <;> cases h

/-- What a call changes on the row it has read. -/
structure CallWrite (o row : Order) (paid : Option Money) : Prop where
  version : row.version = o.version + 1
  refunded : row.amountRefunded = o.amountRefunded
  fee : row.gatewayFee = o.gatewayFee
  money : (paid = none ∧ row.paymentStatus = o.paymentStatus ∧ row.amountPaid = o.amountPaid) ∨
    (paid = some row.amountPaid ∧ o.paymentStatus = .unpaid ∧ row.paymentStatus = .paid)

/-- **A call leaves the money alone, or pays an unpaid order in full.** -/
theorem RowCall.plan_ok {c : RowCall} {w : RowWrite} (h : c.plan now o = .ok w) :
    CallWrite o (w.columns o) w.paid := by
  unfold RowCall.plan at h
  cases c with
  | transition cmd actor =>
      simp only at h
      split at h
      · cases h
      cases hp : planTransition o (cmd.request actor now) with
      | error r => simp [hp] at h
      | ok plan =>
          simp only [hp] at h
          obtain rfl := Except.ok.inj h
          refine ⟨rfl, rfl, rfl, ?_⟩
          by_cases hmark : plan.markPaid = true
          · have hunpaid := planTransition_markPaid hp hmark
            exact .inr (by simp [Order.transitioned, hmark, hunpaid])
          · exact .inl (by simp [Order.transitioned, hmark])
  | markPaid version =>
      simp only at h
      cases hr : markPaidRefusal o version with
      | some failure => simp [hr] at h
      | none =>
          simp only [hr] at h
          obtain rfl := Except.ok.inj h
          exact ⟨rfl, rfl, rfl, .inr ⟨rfl, markPaidRefusal_none hr, rfl⟩⟩

end rows

/-! ### The invariant of an undisturbed run -/

namespace Handler

/-- The money this handler has put on the row. -/
def credited (h : Handler) : Money :=
  match h.phase with
  | .done (.committed paid) => paid.getD 0
  | _ => 0

/-- The fee this handler has put on the row. -/
def bookedFee (h : Handler) : Money :=
  match h.phase with
  | .done (.committed _) => h.fee
  | _ => 0

end Handler

/-- What a handler that holds the row has written over it. -/
def Written (row : Order) (h : Handler) (o w : Order) : Prop :=
  w.check = .ok () ∧ match h.work with
    | .gateway e => row.paymentStatus = .unpaid ∧ (o.status = .pending → row.status = .pending) ∧
        w = row.captured e h.now
    | .call c => ∃ rw, c.plan h.now row = .ok rw ∧ o = row ∧ w = rw.columns row

/-- Where a handler stands between its statements. -/
def Standing (row : Order) (lock : Option (ℕ × Order)) (j : ℕ) (h : Handler) : Prop :=
  match h.phase with
  | .start => True
  | .read o => o.version ≤ row.version ∧ (o.version = row.version → o = row)
  | .wrote o => ∃ w, lock = some (j, w) ∧ Written row h o w
  | .done outcome => ∀ e, h.work = .gateway e →
      outcome = .committed (some e.amount) ∧ row.paymentStatus ≠ .unpaid

structure PaymentInv (s : PaymentState) : Prop where
  sound : s.row.check = .ok ()
  unrefunded : s.row.amountRefunded = 0
  unpaid : s.row.paymentStatus = .unpaid → s.row.amountPaid = 0
  paid : s.row.amountPaid = (s.handlers.map Handler.credited).sum
  fees : s.row.gatewayFee = (s.handlers.map Handler.bookedFee).sum
  captures : ∀ h ∈ s.handlers, ∀ e, h.work = .gateway e → 0 < e.amount ∧ 0 ≤ e.fee
  standing : ∀ j h, s.handlers[j]? = some h → Standing s.row s.lock j h

section steps

variable {s : PaymentState} {i j : ℕ} {h x : Handler} {row : Order} {lock : Option (ℕ × Order)}

/-- The others stand where they stood when the row or its lock passes on. -/
theorem Standing.pass (hx : Standing s.row s.lock j x) (hne : j ≠ i)
    (hlock : ∀ k w, s.lock = some (k, w) → k = i)
    (hrow : row = s.row ∨ s.row.version < row.version ∧
      (s.row.paymentStatus ≠ .unpaid → row.paymentStatus ≠ .unpaid)) :
    Standing row lock j x := by
  obtain ⟨work, now, phase⟩ := x
  cases phase with
  | start => trivial
  | read o =>
      rcases hrow with rfl | ⟨hnewer, -⟩
      · exact hx
      · have hle : o.version ≤ s.row.version := hx.1
        exact ⟨by omega, fun hc => absurd hc (by omega)⟩
  | wrote o =>
      obtain ⟨w, hw, -⟩ := hx
      exact absurd (hlock j w hw) hne
  | done outcome =>
      intro e he
      obtain ⟨hout, hpaid⟩ := hx e he
      rcases hrow with rfl | ⟨-, hkeep⟩
      · exact ⟨hout, hpaid⟩
      · exact ⟨hout, hkeep hpaid⟩

/-- After a move all stand where they should, when the one that moved does and the others
still do. -/
theorem standing_move {y : Handler} (hi : PaymentInv s) (hx : s.handlers[i]? = some x)
    (hself : Standing row lock i y)
    (hothers : ∀ j z, j ≠ i → Standing s.row s.lock j z → Standing row lock j z) :
    ∀ j z, (s.handlers.set i y)[j]? = some z → Standing row lock j z := by
  intro j z hz
  rcases Procs.get_set hx hz with ⟨rfl, rfl⟩ | ⟨hne, hold⟩
  · exact hself
  · exact hothers j z hne (hi.standing j z hold)

/-- The captures stay what they are when a handler changes its phase. -/
theorem captures_move {work : HandlerWork} {now : Instant} {old phase : HandlerPhase}
    (hi : PaymentInv s) (hx : s.handlers[i]? = some { work, now, phase := old }) :
    ∀ h ∈ s.handlers.set i { work, now, phase }, ∀ e, h.work = .gateway e →
      0 < e.amount ∧ 0 ≤ e.fee :=
  Procs.forall_set hi.captures fun e he => hi.captures _ (List.mem_of_getElem? hx) e he

/-- A handler that moves without committing brings nothing in. -/
theorem PaymentInv.idle {work : HandlerWork} {now : Instant} {old phase : HandlerPhase}
    (hi : PaymentInv s) (hx : s.handlers[i]? = some { work, now, phase := old })
    (hold : ∀ paid, old ≠ .done (.committed paid)) (hnew : ∀ paid, phase ≠ .done (.committed paid))
    (hstanding : ∀ j z, (s.handlers.set i { work, now, phase })[j]? = some z →
      Standing s.row lock j z) :
    PaymentInv { s.move i { work, now } phase with lock } := by
  have hnone {p : HandlerPhase} (hp : ∀ paid, p ≠ .done (.committed paid)) :
      Handler.credited { work, now, phase := p } = 0 ∧
        Handler.bookedFee { work, now, phase := p } = 0 := by
    unfold Handler.credited Handler.bookedFee
    split
    · rename_i paid hc
      exact absurd hc (hp paid)
    · exact ⟨rfl, rfl⟩
  refine ⟨hi.sound, hi.unrefunded, hi.unpaid, ?_, ?_, captures_move hi hx, hstanding⟩
  · refine hi.paid.trans (Procs.sum_set_eq hx ?_).symm
    rw [(hnone hnew).1, (hnone hold).1]
  · refine hi.fees.trans (Procs.sum_set_eq hx ?_).symm
    rw [(hnone hnew).2, (hnone hold).2]

theorem PaymentInv.start (hi : PaymentInv s) {work : HandlerWork} {now : Instant}
    (hwork : ∀ e, work = .gateway e → 0 < e.amount ∧ 0 ≤ e.fee) :
    PaymentInv { s with handlers := s.handlers ++ [{ work, now }] } where
  sound := hi.sound
  unrefunded := hi.unrefunded
  unpaid := hi.unpaid
  paid := by
    rw [Procs.sum_append]
    show s.row.amountPaid = _ + 0
    rw [add_zero]
    exact hi.paid
  fees := by
    rw [Procs.sum_append]
    show s.row.gatewayFee = _ + 0
    rw [add_zero]
    exact hi.fees
  captures := Procs.forall_append hi.captures hwork
  standing := by
    intro j z hz
    rcases Procs.get_append hz with ⟨-, rfl⟩ | hold
    · trivial
    · exact hi.standing j z hold

/-- A call whose transaction failed leaves the row to the others. -/
theorem standing_failed {c : RowCall} {now : Instant} {why : Failure} :
    Standing row lock i { work := .call c, now, phase := .done (.failed why) } := by
  intro e he
  cases he

theorem PaymentInv.read (hi : PaymentInv s) {work : HandlerWork} {now : Instant}
    (hx : s.handlers[i]? = some { work, now })
    (hclear : Handler.undisturbed { work, now } s.row) :
    PaymentInv (s.move i { work, now } (Handler.onRead { work, now } s.row)) := by
  have hothers : ∀ j z, j ≠ i → Standing s.row s.lock j z → Standing s.row s.lock j z :=
    fun _ _ _ hz => hz
  have hread : Standing s.row s.lock i { work, now, phase := .read s.row } :=
    ⟨le_refl _, fun _ => rfl⟩
  cases work with
  | gateway e =>
      have hunpaid : s.row.paymentStatus = .unpaid := by simpa [Handler.undisturbed] using hclear
      have hphase : Handler.onRead { work := .gateway e, now } s.row = .read s.row := by
        simp [Handler.onRead, hunpaid]
      rw [hphase]
      exact hi.idle hx (by simp) (by simp) (standing_move hi hx hread hothers)
  | call c =>
      cases hp : c.plan now s.row with
      | error failure =>
          have hphase : Handler.onRead { work := .call c, now } s.row = .done (.failed failure) := by
            simp [Handler.onRead, hp]
          rw [hphase]
          exact hi.idle hx (by simp) (by simp) (standing_move hi hx standing_failed hothers)
      | ok w =>
          have hphase : Handler.onRead { work := .call c, now } s.row = .read s.row := by
            simp [Handler.onRead, hp]
          rw [hphase]
          exact hi.idle hx (by simp) (by simp) (standing_move hi hx hread hothers)

/-- A handler takes the row: a capture whatever its version, a call at the version it read. -/
theorem PaymentInv.write (hi : PaymentInv s) {work : HandlerWork} {now : Instant} {o row : Order}
    (hx : s.handlers[i]? = some { work, now, phase := .read o }) (hfree : s.lock = none)
    (hclear : Handler.undisturbed { work, now, phase := .read o } s.row)
    (hw : Handler.write { work, now } o s.row = .ok row) :
    PaymentInv { s.move i { work, now } (.wrote o) with lock := some (i, row) } := by
  have hseen : o.version ≤ s.row.version ∧ (o.version = s.row.version → o = s.row) :=
    hi.standing i _ hx
  have hwritten : Written s.row { work, now, phase := .wrote o } o row := by
    cases work with
    | gateway e =>
        obtain ⟨_, hcheck, h⟩ := Result.bind_ok.mp hw
        obtain rfl := Except.ok.inj h
        have hstill : s.row.paymentStatus = .unpaid ∧
            (o.status = .pending → s.row.status = .pending) := by
          simpa [Handler.undisturbed, imp_iff_not_or] using hclear
        exact ⟨hcheck, hstill.1, hstill.2, rfl⟩
    | call c =>
        obtain ⟨w, hplan, h⟩ := Result.bind_ok.mp hw
        split at h
        · cases h
        rename_i hversion
        obtain ⟨_, hcheck, h⟩ := Result.bind_ok.mp h
        obtain rfl := Except.ok.inj h
        have hsame : o = s.row := hseen.2 (not_not.mp hversion).symm
        exact ⟨hcheck, w, hsame ▸ hplan, hsame, rfl⟩
  refine hi.idle hx (by simp) (by simp) (standing_move hi hx ⟨row, rfl, hwritten⟩ ?_)
  intro j z hne hz
  refine hz.pass hne (fun k w hc => ?_) (.inl rfl)
  rw [hfree] at hc
  cases hc

/-- A capture's write always passes; a call's may not, and then nothing has happened. -/
theorem PaymentInv.writeFailed (hi : PaymentInv s) {work : HandlerWork} {now : Instant} {o : Order}
    {why : Failure} (hx : s.handlers[i]? = some { work, now, phase := .read o })
    (hw : Handler.write { work, now } o s.row = .error why) :
    PaymentInv (s.move i { work, now } (.done (.failed why))) := by
  cases work with
  | gateway e =>
      obtain ⟨hamount, hfee⟩ := hi.captures _ (List.mem_of_getElem? hx) e rfl
      have hcheck : (s.row.captured e now).check = .ok () :=
        Order.captured_check hi.sound hi.unrefunded hamount hfee
      simp only [Handler.write, hcheck] at hw
      cases hw
  | call c =>
      exact hi.idle hx (by simp) (by simp) (standing_move hi hx standing_failed fun _ _ _ hz => hz)

/-- A committed transaction: what it wrote is the row, and what it brought in is counted. -/
theorem PaymentInv.commit (hi : PaymentInv s) {work : HandlerWork} {now : Instant} {o w row : Order}
    {paid : Option Money} (hx : s.handlers[i]? = some { work, now, phase := .wrote o })
    (hheld : s.lock = some (i, w)) (hw : Handler.finish { work, now } o w = .ok (row, paid)) :
    PaymentInv { s.move i { work, now } (.done (.committed paid)) with row, lock := none } := by
  obtain ⟨w', hw', hcheck, hwritten⟩ := hi.standing i _ hx
  obtain rfl : w = w' := (Prod.mk.inj (Option.some.inj (hheld.symm.trans hw'))).2
  have hholder : ∀ k r, s.lock = some (k, r) → k = i := fun k r hc =>
    (Prod.mk.inj (Option.some.inj (hc.symm.trans hheld))).1
  have hpaidSum (y : Handler) : ((s.handlers.set i y).map Handler.credited).sum =
      s.row.amountPaid + y.credited := by
    rw [Procs.sum_set hx, ← hi.paid]
    show s.row.amountPaid - 0 + _ = _
    rw [sub_zero]
  have hfeeSum (y : Handler) : ((s.handlers.set i y).map Handler.bookedFee).sum =
      s.row.gatewayFee + y.bookedFee := by
    rw [Procs.sum_set hx, ← hi.fees]
    show s.row.gatewayFee - 0 + _ = _
    rw [sub_zero]
  have hcaptures : ∀ h ∈ s.handlers.set i { work, now, phase := .done (.committed paid) }, ∀ e,
      h.work = .gateway e → 0 < e.amount ∧ 0 ≤ e.fee := captures_move hi hx
  cases work with
  | gateway e =>
      obtain ⟨hunpaid, hstill, rfl⟩ := hwritten
      have hnone : s.row.amountPaid = 0 := hi.unpaid hunpaid
      have hrow : row.check = .ok () ∧ row.amountRefunded = 0 ∧ row.paymentStatus = .paid ∧
          row.amountPaid = e.amount ∧ row.gatewayFee = s.row.gatewayFee + e.fee ∧
          s.row.version < row.version ∧ paid = some e.amount := by
        unfold Handler.finish at hw
        by_cases hpending : o.status = .pending
        · obtain ⟨plan, htrans, hmark, hchecked⟩ :=
            Order.confirm_captured (hstill hpending) hcheck
          simp only [if_pos hpending, htrans] at hw
          obtain ⟨rfl, rfl⟩ := Prod.mk.inj (Except.ok.inj hw)
          refine ⟨hchecked, hi.unrefunded, ?_, ?_, rfl, ?_, rfl⟩
          · simp [Order.transitioned, hmark, Order.captured]
          · simp [Order.transitioned, hmark, Order.captured]
          · show s.row.version < s.row.version + 1 + 1
            omega
        · simp only [if_neg hpending] at hw
          obtain ⟨rfl, rfl⟩ := Prod.mk.inj (Except.ok.inj hw)
          exact ⟨hcheck, hi.unrefunded, rfl, rfl, rfl, lt_add_one s.row.version, rfl⟩
      obtain ⟨hsound, hrefunded, hstatus, hamount, hfee, hversion, rfl⟩ := hrow
      have hnot : row.paymentStatus ≠ .unpaid := by simp [hstatus]
      exact {
        sound := hsound
        unrefunded := hrefunded
        unpaid := fun hc => absurd hc hnot
        paid := by
          refine Eq.trans ?_ (hpaidSum _).symm
          rw [hnone, zero_add]
          exact hamount
        fees := by
          refine Eq.trans ?_ (hfeeSum _).symm
          exact hfee
        captures := hcaptures
        standing := by
          refine standing_move hi hx ?_ fun j z hne hz =>
            hz.pass hne hholder (.inr ⟨hversion, fun _ => hnot⟩)
          intro e' he'
          obtain rfl := HandlerWork.gateway.inj he'
          exact ⟨rfl, hnot⟩ }
  | call c =>
      obtain ⟨rw', hplan, rfl, rfl⟩ := hwritten
      have hcall := RowCall.plan_ok hplan
      simp only [Handler.finish, hplan, Except.map] at hw
      obtain ⟨rfl, rfl⟩ := Prod.mk.inj (Except.ok.inj hw)
      have hversion : s.row.version < (rw'.columns s.row).version := by
        rw [hcall.version]
        exact lt_add_one _
      have hkeep : s.row.paymentStatus ≠ .unpaid →
          (rw'.columns s.row).paymentStatus ≠ .unpaid := by
        rcases hcall.money with ⟨-, hsame, -⟩ | ⟨-, -, hpaid⟩
        · rw [hsame]
          exact id
        · intro _
          simp [hpaid]
      exact {
        sound := hcheck
        unrefunded := hcall.refunded.trans hi.unrefunded
        unpaid := by
          intro hunpaid
          rcases hcall.money with ⟨-, hsame, hamount⟩ | ⟨-, -, hpaid⟩
          · exact hamount.trans (hi.unpaid (hsame.symm.trans hunpaid))
          · exact absurd (hpaid.symm.trans hunpaid) (by decide)
        paid := by
          refine Eq.trans ?_ (hpaidSum _).symm
          rcases hcall.money with ⟨hnone, -, hamount⟩ | ⟨hsome, hunpaid, -⟩
          · rw [hnone]
            exact hamount.trans (add_zero _).symm
          · rw [hsome, hi.unpaid hunpaid, zero_add]
            rfl
        fees := by
          refine Eq.trans ?_ (hfeeSum _).symm
          exact hcall.fee.trans (add_zero _).symm
        captures := hcaptures
        standing := standing_move hi hx (fun e he => by cases he) fun j z hne hz =>
          hz.pass hne hholder (.inr ⟨hversion, hkeep⟩) }

/-- What an undisturbed capture writes, it commits. -/
theorem PaymentInv.commitFailed (hi : PaymentInv s) {work : HandlerWork} {now : Instant}
    {o w : Order} {why : Failure} (hx : s.handlers[i]? = some { work, now, phase := .wrote o })
    (hheld : s.lock = some (i, w)) (hw : Handler.finish { work, now } o w = .error why) : False := by
  obtain ⟨w', hw', hcheck, hwritten⟩ := hi.standing i _ hx
  obtain rfl : w = w' := (Prod.mk.inj (Option.some.inj (hheld.symm.trans hw'))).2
  cases work with
  | gateway e =>
      obtain ⟨-, hstill, rfl⟩ := hwritten
      unfold Handler.finish at hw
      by_cases hpending : o.status = .pending
      · obtain ⟨plan, htrans, -⟩ := Order.confirm_captured (hstill hpending) hcheck
        simp only [if_pos hpending, htrans] at hw
        cases hw
      · simp only [if_neg hpending] at hw
        cases hw
  | call c =>
      obtain ⟨rw', hplan, rfl, -⟩ := hwritten
      simp only [Handler.finish, hplan] at hw
      cases hw

/-- A call that fails after it wrote gives the row back as it was. -/
theorem PaymentInv.abort (hi : PaymentInv s) {c : RowCall} {now : Instant} {o : Order}
    {why : Failure} (hx : s.handlers[i]? = some { work := .call c, now, phase := .wrote o }) :
    PaymentInv { s.move i { work := .call c, now } (.done (.failed why)) with lock := none } := by
  obtain ⟨w, hheld, -⟩ := hi.standing i _ hx
  refine hi.idle hx (by simp) (by simp) (standing_move hi hx standing_failed fun j z hne hz => ?_)
  exact hz.pass hne
    (fun k r hc => (Prod.mk.inj (Option.some.inj (hc.symm.trans hheld))).1) (.inl rfl)

/-- The handler that moves is the one the guard speaks of. -/
theorem undisturbed_of_get (hx : s.handlers[i]? = some x)
    (hall : s.handlers[i]?.all (·.undisturbed s.row)) : x.undisturbed s.row := by
  rw [hx] at hall
  exact hall

/-- **An undisturbed step keeps the row in step with what the handlers brought in.** -/
theorem paymentStep_inv {s' : PaymentState} {a : PaymentAction} (hi : PaymentInv s)
    (hclear : Undisturbed s a) (h : paymentStep s a = some s') : PaymentInv s' := by
  cases a with
  | capture e now =>
      simp only [paymentStep] at h
      split at h
      · rename_i hvalid
        obtain rfl := Option.some.inj h
        refine hi.start fun e' he' => ?_
        obtain rfl := HandlerWork.gateway.inj he'
        exact hvalid
      · cases h
  | call c now =>
      obtain rfl := Option.some.inj h
      exact hi.start fun e he => by cases he
  | read i =>
      simp only [paymentStep] at h
      split at h
      · rename_i work now hx
        obtain rfl := Option.some.inj h
        exact hi.read hx (undisturbed_of_get hx hclear)
      · cases h
  | write i =>
      simp only [paymentStep] at h
      split at h
      · rename_i work now o hx hfree
        split at h
        · rename_i why hw
          obtain rfl := Option.some.inj h
          exact hi.writeFailed hx hw
        · rename_i row hw
          obtain rfl := Option.some.inj h
          exact hi.write hx hfree (undisturbed_of_get hx hclear) hw
      · cases h
  | commit i =>
      simp only [paymentStep] at h
      split at h
      · rename_i work now o holder w hx hheld
        split at h
        · cases h
        rename_i hholder
        obtain rfl := not_not.mp hholder
        split at h
        · rename_i why hw
          exact (hi.commitFailed hx hheld hw).elim
        · rename_i row paid hw
          obtain rfl := Option.some.inj h
          exact hi.commit hx hheld hw
      · cases h
  | abort i why =>
      simp only [paymentStep] at h
      split at h
      · rename_i c now o hx
        obtain rfl := Option.some.inj h
        exact hi.abort hx
      · cases h

end steps

/-! ### Every captured payment reaches its order -/

theorem AwaitsMoney.inv {s : PaymentState} (h : AwaitsMoney s) : PaymentInv s := by
  have hnobody : s.handlers = [] := congrArg PaymentState.handlers h.fresh
  refine ⟨h.sound, h.noMoney.2.1, fun _ => h.noMoney.1, ?_, ?_, ?_, ?_⟩
  · rw [hnobody]
    exact h.noMoney.1
  · rw [hnobody]
    exact h.noMoney.2.2
  · rw [hnobody]
    intro x hx
    cases hx
  · rw [hnobody]
    intro j x hx
    cases hx

/-- A finished handler has put on the row what was received through it. -/
theorem PaymentInv.received {s : PaymentState} (hi : PaymentInv s) {h : Handler}
    (hmem : h ∈ s.handlers) (hdone : h.isDone) :
    h.credited = h.received ∧ h.bookedFee = h.fee ∧
      (h.isCapture → s.row.paymentStatus ≠ .unpaid) := by
  obtain ⟨j, hj⟩ := List.getElem?_of_mem hmem
  have hstand := hi.standing j h hj
  obtain ⟨work, now, phase⟩ := h
  cases phase with
  | start => cases hdone
  | read o => cases hdone
  | wrote o => cases hdone
  | done outcome =>
      cases work with
      | gateway e =>
          obtain ⟨rfl, hpaid⟩ := hstand e rfl
          exact ⟨rfl, rfl, fun _ => hpaid⟩
      | call c =>
          refine ⟨?_, ?_, fun hc => by cases hc⟩
          · cases outcome <;> rfl
          · cases outcome <;> rfl

theorem PaymentInv.reached {s : PaymentState} (hi : PaymentInv s) : PaymentsReached s := by
  intro hdone hsome
  have hall : ∀ h ∈ s.handlers, h.isDone := List.all_eq_true.mp hdone
  refine ⟨?_, hi.paid.trans ?_, hi.fees.trans ?_⟩
  · obtain ⟨h, hmem, hcapture⟩ := List.any_eq_true.mp hsome
    exact (hi.received hmem (hall h hmem)).2.2 hcapture
  · exact congrArg List.sum (List.map_congr_left fun h hm => (hi.received hm (hall h hm)).1)
  · exact congrArg List.sum (List.map_congr_left fun h hm => (hi.received hm (hall h hm)).2.1)

/--
**While no capture is disturbed, every captured payment reaches its order**: whatever
calls run beside the captures, once all have finished the order is paid, with the amounts
and the fees of all that was received.
-/
theorem captured_payments_reach_order (s t : PaymentState) (as : List PaymentAction)
    (h : AwaitsMoney s) (hclear : Machine.GuardedRun paymentStep Undisturbed s as)
    (hrun : Machine.runFrom paymentStep s as = some t) : PaymentsReached t :=
  (Machine.guarded_invariant (fun _ _ _ hi hok hs => paymentStep_inv hi hok hs)
    as s t h.inv hclear hrun).reached

/-! ### Paid while it was being cancelled -/

/-- An online order of 560, just placed. -/
def onlineOrder : PaymentState :=
  { row := { id := 1, orderNo := "CLO-2042", paymentMethod := .sslcommerz, itemsSubtotal := 500,
             shippingFee := 60, grandTotal := 560, stockReserved := true } }

def onlinePayment : PaymentSucceededEvent :=
  { amount := 560, fee := 14, tranId := "CLO-2042-1" }

/-- The customer's cancel commits first; the capture finds the order closed. -/
def cancelThenCapture : List PaymentAction :=
  [.call (.transition { toStatus := .cancelled } .customer) 5, .read 0, .write 0, .commit 0,
   .capture onlinePayment 6, .read 1, .write 1, .commit 1]

/-- The same calls, but the capture has read the order before the cancel commits. -/
def captureDuringCancel : List PaymentAction :=
  [.capture onlinePayment 6, .call (.transition { toStatus := .cancelled } .customer) 5,
   .read 0, .read 1, .write 1, .commit 1, .write 0, .commit 0]

theorem onlineOrder_awaitsMoney : AwaitsMoney onlineOrder :=
  ⟨rfl, by decide +kernel, rfl, rfl, rfl, rfl⟩

theorem captured_payments_reach_order_cancelled : ∃ t,
    Machine.runFrom paymentStep onlineOrder cancelThenCapture = some t ∧
      t.row.status = .cancelled ∧ PaymentsReached t := by
  have hruns : (Machine.runFrom paymentStep onlineOrder cancelThenCapture).any
      (fun t => t.row.status = .cancelled) = true := by
    decide +kernel
  obtain ⟨t, ht, hcancelled⟩ := (Option.any_eq_true _ _).mp hruns
  exact ⟨t, ht, of_decide_eq_true hcancelled,
    captured_payments_reach_order onlineOrder t cancelThenCapture onlineOrder_awaitsMoney
      (by decide +kernel) ht⟩

/-- The customer's 560 is with the gateway and the cancelled order is unpaid. -/
theorem captured_payment_lost : AwaitsMoney onlineOrder ∧ ∃ t,
    Machine.runFrom paymentStep onlineOrder captureDuringCancel = some t ∧
      t.handlers.all Handler.isDone ∧ t.handlers.any Handler.isCapture ∧
      t.row.status = .cancelled ∧ t.row.paymentStatus = .unpaid ∧ ¬PaymentsReached t := by
  have hruns : (Machine.runFrom paymentStep onlineOrder captureDuringCancel).any
      (fun t => t.handlers.all Handler.isDone ∧ t.handlers.any Handler.isCapture ∧
        t.row.status = .cancelled ∧ t.row.paymentStatus = .unpaid ∧ ¬PaymentsReached t) = true := by
    decide +kernel
  obtain ⟨t, ht, hfacts⟩ := (Option.any_eq_true _ _).mp hruns
  exact ⟨onlineOrder_awaitsMoney, t, ht, of_decide_eq_true hfacts⟩

end BookHouse
