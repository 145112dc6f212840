/-
When two schedules of the issuer leave the same books.

The plan looks at the order's current row only, so what a missed run would have written
is lost for good.  It is no loss when the sale it would have billed was voided without a
trace, before the parcel and the money moved; `CleanEnd` and `cleanChange` say so of a
history.  Over such a history the papers of every schedule that ends with a run say the
same: what `ScheduleInv` reads off the last row.
-/
import BookHouse.Finance.Schedule
import BookHouse.Proofs.Sales

namespace BookHouse

open DocumentIssuer

/-! ### Clean histories -/

/--
A change that leaves no trace a later run would miss: voiding a live order reverses the
courier and books no loss, and once the order was live its captured fees stay.
-/
def cleanChange (orderId : OrderId) (p : OrderPast) (c : OrderChange) : Prop :=
  ∀ o ∈ p.orderRow orderId, ∀ p' ∈ pastStep orderId p c, ∀ row ∈ p'.orderRow orderId,
    (o.status.isLive = true → row.status.isDead = true →
      (reverseCourier row.status row.cancelledFrom = true ∨ o.courierCost = 0) ∧
        row.courierLoss = 0) ∧
    (o.status.isLive = true ∨ p.voidedLive = true →
      paperFee p'.sources row = paperFee p.sources o)

instance (orderId : OrderId) (p : OrderPast) (c : OrderChange) :
    Decidable (cleanChange orderId p c) :=
  inferInstanceAs (Decidable (∀ o ∈ _, ∀ p' ∈ _, ∀ row ∈ _, _ ∧ _))

/--
Where a history may end: not waiting for a confirmation after a live sale was voided, and
live when the voided sale was paid.
-/
def CleanEnd (orderId : OrderId) (p : OrderPast) : Prop :=
  ∀ o ∈ p.orderRow orderId, (p.voidedLive = true → o.status ≠ .pending) ∧
    (p.voidedPaid = true → o.status.isLive = true)

instance (orderId : OrderId) (p : OrderPast) : Decidable (CleanEnd orderId p) :=
  inferInstanceAs (Decidable (∀ o ∈ _, _ ∧ _))

/-! ### Papers drawn from the same figures -/

/-- An invoice that bills what another one bills. -/
structure DrawnAs (inv snap : FinancialDocument) : Prop where
  kind : inv.kind = .invoice
  lines : inv.lines = snap.lines
  discount : inv.discount = snap.discount
  shippingFee : inv.shippingFee = snap.shippingFee
  shippingCost : inv.shippingCost = snap.shippingCost
  gatewayFee : inv.gatewayFee = snap.gatewayFee

theorem DrawnAs.figure {inv snap : FinancialDocument} (h : DrawnAs inv snap)
    (hk : snap.kind = .invoice) (k : Figure) : docFigure k inv = docFigure k snap := by
  unfold docFigure Pnl.add
  rw [h.kind, hk, h.lines, h.discount, h.shippingFee, h.shippingCost, h.gatewayFee]
  cases k <;> cases (lineMoney snap.lines).known <;> simp [Pnl.figure]

theorem docFigure_receipt {d : FinancialDocument} (h : d.kind = .receipt) (k : Figure) :
    docFigure k d = 0 := by
  cases k <;> simp [docFigure, Pnl.add, h, Pnl.figure]

/-- A credit note that reverses everything takes back what the invoice added. -/
theorem docFigure_credit {d inv : FinancialDocument} (hd : d.kind = .creditNote)
    (hinv : inv.kind = .invoice) (hrep : Repeats d inv) (hfee : d.gatewayFee = inv.gatewayFee)
    (hcourier : d.reverseCourier = true ∨ inv.shippingCost = 0) (hloss : d.courierLoss = some 0)
    (k : Figure) : docFigure k d = -docFigure k inv := by
  unfold docFigure Pnl.add
  rw [hd, hinv, hrep.lines, hrep.discount, hrep.shippingFee, hrep.shippingCost, hfee, hloss]
  cases hk : (lineMoney inv.lines).known
  · cases k <;> simp [hk, Pnl.figure]
  · rcases hcourier with hr | hr
    · cases k <;> simp [hk, hr, Pnl.figure]
    · cases d.reverseCourier <;> cases k <;> simp [hk, hr, Pnl.figure]

theorem docFigure_numbered {p d : FinancialDocument} (h : Numbered p d) (k : Figure) :
    docFigure k d = docFigure k p := by
  rw [h]
  rfl

theorem figures_numbered {ps ds : List FinancialDocument} (h : List.Forall₂ Numbered ps ds)
    (k : Figure) : (ds.map (docFigure k)).sum = (ps.map (docFigure k)).sum := by
  induction h with
  | nil => rfl
  | cons hnum _ ih =>
      rw [List.map_cons, List.map_cons, List.sum_cons, List.sum_cons, ih, docFigure_numbered hnum]

/-- A paper depends on what the order bills and on its captured fees only. -/
theorem snapshotBase_congr {s s' : PaperSources} {o row : Order} {kind : DocumentKind}
    {now : Instant} (hbilled : row.billed = o.billed) (hcat : s'.categories = s.categories)
    (hfee : paperFee s' row = paperFee s o) :
    snapshotBase s' row kind now = snapshotBase s o kind now := by
  have hsnap : ∀ (s : PaperSources) (o : Order),
      snapshotBase s o kind now =
        { snapshotBase { categories := s.categories } o.billed kind now with
          gatewayFee := paperFee s o } := by
    intro s o
    rfl
  rw [hsnap s' row, hsnap s o, hbilled, hcat, hfee]

/-! ### The row along a clean history -/

/-- What the row of an order says along a clean history. -/
structure RowClean (p : OrderPast) (base o : Order) : Prop where
  billed : o.billed = base.billed
  loss : o.courierLoss = 0
  dead : o.status.isDead = true → ∃ f, o.cancelledFrom = some f ∧
    (reverseCourier o.status (some f) = true ∨ o.courierCost = 0)
  online : o.status.isLive = true → awaitingPayment o = false
  delivered : o.status = .delivered → o.paymentStatus ≠ .unpaid
  voidedPaid : p.voidedPaid = true → o.paymentStatus ≠ .unpaid

section rows

variable {p : OrderPast} {base o row : Order} {hint : SyncHint}

/-- A live order that is paid has its money in. -/
theorem salePaid_of_paid (hlive : o.status.isLive = true) (hpaid : o.paymentStatus ≠ .unpaid) :
    salePaid o = true := by
  simp [salePaid, moneyIn, hlive, hpaid]

theorem RowClean.salePaid_iff (h : RowClean p base o) :
    salePaid o = true ↔ o.status.isLive = true ∧ o.paymentStatus ≠ .unpaid := by
  refine ⟨fun hs => ?_, fun hs => salePaid_of_paid hs.1 hs.2⟩
  simp only [salePaid, Bool.and_eq_true, moneyIn] at hs
  refine ⟨hs.1, ?_⟩
  by_cases hdel : o.status = .delivered
  · exact h.delivered hdel
  · simpa [hdel] using hs.2

theorem not_dead_of_live {s : OrderStatus} (h : s.isLive = true) : s.isDead = false := by
  cases s <;> simp_all [OrderStatus.isLive, OrderStatus.isDead]

theorem live_of_not_dead {s : OrderStatus} (h : s.isDead = false) (hp : s ≠ .pending) :
    s.isLive = true := by
  cases s <;> simp_all [OrderStatus.isLive, OrderStatus.isDead]

/-- **A clean change keeps the row clean**, and its hint books no courier loss. -/
theorem RowClean.change {c : OrderChange} (sources : PaperSources) (h : RowClean p base o)
    (hc : c.row o = .ok (row, hint))
    (hvoid : o.status.isLive = true → row.status.isDead = true →
      (reverseCourier row.status row.cancelledFrom = true ∨ o.courierCost = 0) ∧
        row.courierLoss = 0) :
    RowClean (p.after sources o row) base row ∧
      ∀ credit, hint.credit = some credit → credit.courierLoss = 0 := by
  have hmove := OrderChange.row_move hc
  have hpaid := OrderChange.row_paid hc
  have hsame := OrderChange.row_billed hc
  have hcost : row.courierCost = o.courierCost := by
    have hb : row.billed.courierCost = o.billed.courierCost := congrArg _ hsame
    exact hb
  have hlossHint : row.courierLoss = 0 ∧ ∀ credit, hint.credit = some credit → credit.courierLoss = 0 := by
    cases hmove with
    | stay status origin loss credit =>
        exact ⟨loss.trans h.loss, fun cr hcr => by rw [credit] at hcr; cases hcr⟩
    | forward openOrder live loss credit =>
        exact ⟨loss.trans h.loss, fun cr hcr => by rw [credit] at hcr; cases hcr⟩
    | reopen dead target loss credit =>
        exact ⟨loss, fun cr hcr => by rw [credit] at hcr; cases hcr⟩
    | void openOrder dead origin pending credit =>
        by_cases hp : o.status = .pending
        · obtain ⟨-, hl, hnone⟩ := pending hp
          exact ⟨hl.trans h.loss, fun cr hcr => by rw [hnone] at hcr; cases hcr⟩
        · obtain ⟨cr, hcr, hl⟩ := credit hp
          have hzero := (hvoid (live_of_not_dead openOrder hp) dead).2
          refine ⟨hzero, fun cr' hcr' => ?_⟩
          obtain rfl := Option.some.inj (hcr.symm.trans hcr')
          rw [← hl, hzero]
  refine ⟨⟨hsame.trans h.billed, hlossHint.1, ?_, hpaid.online h.online, hpaid.delivered h.delivered,
    ?_⟩, hlossHint.2⟩
  · intro hdead
    cases hmove with
    | stay status origin loss credit =>
        rw [status] at hdead
        obtain ⟨f, hf, hrev⟩ := h.dead hdead
        exact ⟨f, origin.trans hf, by rwa [status, hcost]⟩
    | forward openOrder live loss credit =>
        rw [not_dead_of_live live] at hdead
        cases hdead
    | reopen dead target loss credit =>
        rcases target with ht | ht <;> rw [ht] at hdead <;> cases hdead
    | void openOrder dead origin pending credit =>
        refine ⟨o.status, origin, ?_⟩
        rw [hcost]
        by_cases hp : o.status = .pending
        · rw [(pending hp).1, hp]
          exact .inl rfl
        · rw [← origin]
          exact (hvoid (live_of_not_dead openOrder hp) dead).1
  · intro hflag
    simp only [OrderPast.after, Bool.or_eq_true, Bool.and_eq_true] at hflag
    rcases hflag with hold | ⟨-, hsale⟩
    · exact hpaid.kept (h.voidedPaid hold)
    · exact hpaid.kept (h.salePaid_iff.mp hsale).2

end rows

/-! ### The papers along a schedule -/

/-- What the papers of an order say, whatever runs were missed. -/
structure DrawnClean (b : Books) (p : OrderPast) (orderId : OrderId) (base o : Order) : Prop where
  openLive : uncredited (docsOf b orderId) ≠ [] → o.status.isLive = true ∨ p.voidedLive = true
  receiptPaid : receiptsOf (docsOf b orderId) ≠ [] → salePaid o = true ∨ p.voidedPaid = true
  online : base.paymentMethod = .sslcommerz → uncredited (docsOf b orderId) ≠ [] →
    receiptsOf (docsOf b orderId) ≠ []
  drawn : ∀ inv ∈ uncredited (docsOf b orderId),
    DrawnAs inv (snapshotBase p.sources o .invoice 0)
  figures : ∀ k, ((docsOf b orderId).map (docFigure k)).sum =
    if uncredited (docsOf b orderId) = [] then 0
    else docFigure k (snapshotBase p.sources o .invoice 0)
  money : NothingIn b orderId ∨ MoneyBooked b orderId base

/-- A live order stays live or is voided. -/
theorem StatusMove.of_live {o row : Order} {hint : SyncHint} (h : StatusMove o row hint)
    (ho : o.status.isLive = true) : row.status.isLive = true ∨ row.status.isDead = true := by
  cases h with
  | stay status origin loss credit => exact .inl (by rw [status, ho])
  | forward openOrder live loss credit => exact .inl live
  | void openOrder dead origin pending credit => exact .inr dead
  | reopen dead target loss credit =>
      rw [not_dead_of_live ho] at dead
      cases dead

/-- A clean change leaves the papers as they are, and they still fit the row. -/
theorem DrawnClean.change {b : Books} {p : OrderPast} {orderId : OrderId} {base o row : Order}
    {c : OrderChange} {hint : SyncHint} {sources : PaperSources} (h : DrawnClean b p orderId base o)
    (hrow : RowClean p base o) (hc : c.row o = .ok (row, hint))
    (hcat : sources.categories = p.sources.categories)
    (hfee : o.status.isLive = true ∨ p.voidedLive = true →
      paperFee sources row = paperFee p.sources o) :
    DrawnClean b (p.after sources o row) orderId base row := by
  have hsnap : uncredited (docsOf b orderId) ≠ [] →
      snapshotBase sources row .invoice 0 = snapshotBase p.sources o .invoice 0 := fun hne =>
    snapshotBase_congr (OrderChange.row_billed hc) hcat (hfee (h.openLive hne))
  refine ⟨fun hne => ?_, fun hne => ?_, h.online, fun inv hinv => ?_, fun k => ?_, h.money⟩
  · rcases h.openLive hne with ho | hv
    · rcases (OrderChange.row_move hc).of_live ho with hlive | hdead
      · exact .inl hlive
      · exact .inr (by simp [OrderPast.after, ho, hdead])
    · exact .inr (by simp [OrderPast.after, hv])
  · rcases h.receiptPaid hne with hs | hv
    · obtain ⟨ho, hpaid⟩ := hrow.salePaid_iff.mp hs
      rcases (OrderChange.row_move hc).of_live ho with hlive | hdead
      · exact .inl (salePaid_of_paid hlive ((OrderChange.row_paid hc).kept hpaid))
      · exact .inr (by simp [OrderPast.after, ho, hdead, hs])
    · exact .inr (by simp [OrderPast.after, hv])
  · show DrawnAs inv (snapshotBase sources row .invoice 0)
    rw [hsnap (List.ne_nil_of_mem hinv)]
    exact h.drawn inv hinv
  · rw [h.figures k]
    split
    · rfl
    · rename_i hne
      show _ = docFigure k (snapshotBase sources row .invoice 0)
      rw [hsnap hne]

/-- An uncredited invoice was uncredited before, or is new. -/
theorem mem_uncredited_append {ds new : List FinancialDocument} {x : FinancialDocument}
    (h : x ∈ uncredited (ds ++ new)) : x ∈ uncredited ds ∨ (x ∈ new ∧ x.kind = .invoice) := by
  obtain ⟨hmem, hkind, hnot⟩ := mem_uncredited.mp h
  rcases List.mem_append.mp hmem with hd | hn
  · refine .inl (mem_uncredited.mpr ⟨hd, hkind, fun hc => hnot ?_⟩)
    obtain ⟨n, hn, hk, hi⟩ := mem_credited.mp hc
    exact mem_credited.mpr ⟨n, List.mem_append_left _ hn, hk, hi⟩
  · exact .inr ⟨hn, hkind⟩

section sync

variable {b b' : Books} {p : OrderPast} {base o : Order} {hint : SyncHint} {now : Instant}
  {ds : List FinancialDocument}

/-- What a run adds to a figure is what the planned papers add. -/
theorem Synced.figures (hs : Synced b b' o hint now ds) (k : Figure) :
    ((docsOf b' o.id).map (docFigure k)).sum = ((docsOf b o.id).map (docFigure k)).sum +
      ((plannedPapers b o hint (planOf b o hint) now).map (docFigure k)).sum := by
  rw [hs.docsOf_self, List.map_append, List.sum_append, figures_numbered hs.papers]

theorem figures_live (hlive : o.status.isLive = true) (k : Figure) :
    ((plannedPapers b o hint (planOf b o hint) now).map (docFigure k)).sum =
      if uncredited (docsOf b o.id) = [] then docFigure k (snapshotBase b.toPaperSources o .invoice 0)
      else 0 := by
  have hreceipt : ((if receiptDue b o then [snapshotBase b.toPaperSources o .receipt now]
      else []).map (docFigure k)).sum = 0 := by
    split
    · rw [List.map_singleton, List.sum_singleton]
      exact docFigure_receipt rfl k
    · rfl
  rw [plannedPapers_live hlive, List.map_append, List.sum_append, hreceipt, add_zero]
  cases hl : liveInvoice (papersOf b o.id) with
  | none =>
      rw [if_pos (liveInvoice_eq_none.mp hl)]
      simp only [Option.isSome_none, Bool.false_eq_true, if_false, List.map_singleton,
        List.sum_singleton]
      rfl
  | some inv =>
      have hne : uncredited (docsOf b o.id) ≠ [] :=
        List.ne_nil_of_mem (mem_uncredited_of_liveInvoice hl)
      rw [if_neg hne]
      rfl

/-- An invoice that a run writes bills the order's row. -/
theorem new_invoice_drawn (hlive : o.status.isLive = true) :
    ∀ paper ∈ plannedPapers b o hint (planOf b o hint) now, paper.kind = .invoice →
      DrawnAs paper (snapshotBase b.toPaperSources o .invoice 0) := by
  intro paper hp hk
  rw [plannedPapers_live hlive, List.mem_append] at hp
  rcases hp with hp | hp
  · split at hp
    · cases hp
    · rw [List.mem_singleton.mp hp]
      exact ⟨rfl, rfl, rfl, rfl, rfl, rfl⟩
  · split at hp
    · rw [List.mem_singleton.mp hp] at hk
      cases hk
    · cases hp

theorem paperFee_of_offline {s : PaperSources} (h : o.paymentMethod ≠ .sslcommerz) :
    paperFee s o = 0 := by
  simp [paperFee, gatewayFeeFor, h]

/-- The credit note of a cleanly voided sale takes back all that the invoice added. -/
theorem figures_dead (hrow : RowClean p base o) (h : DrawnClean b p o.id base o)
    (hdead : o.status.isDead = true)
    (hhint : ∀ credit, hint.credit = some credit → credit.courierLoss = 0) (k : Figure) :
    ((plannedPapers b o hint (planOf b o hint) now).map (docFigure k)).sum =
      -((docsOf b o.id).map (docFigure k)).sum := by
  rw [plannedPapers_dead hdead, h.figures k]
  cases hl : liveInvoice (papersOf b o.id) with
  | none =>
      rw [if_pos (liveInvoice_eq_none.mp hl)]
      simp
  | some inv =>
      have hinv := mem_uncredited_of_liveInvoice hl
      have hdrawn := h.drawn inv hinv
      have hne : uncredited (docsOf b o.id) ≠ [] := List.ne_nil_of_mem hinv
      obtain ⟨f, hf, hrev⟩ := hrow.dead hdead
      rw [if_neg hne, List.map_singleton, List.sum_singleton, ← hdrawn.figure rfl k]
      refine docFigure_credit (d := creditNote o hint _ inv _ now) rfl hdrawn.kind
        ⟨rfl, rfl, rfl, rfl, rfl, rfl, rfl⟩ ?_ ?_ ?_ k
      · cases hr : (papersOf b o.id).any (·.kind = .receipt) with
        | true => rfl
        | false =>
            have hoffline : o.paymentMethod ≠ .sslcommerz := by
              intro hm
              refine h.online ?_ hne (receipt_papersOf.mp hr)
              rw [← Order.billed_method hrow.billed, hm]
            show 0 = inv.gatewayFee
            rw [hdrawn.gatewayFee]
            exact (paperFee_of_offline hoffline).symm
      · rcases hrev with hr | hcost
        · refine .inl ?_
          show reverseCourier o.status (o.cancelledFrom.orElse _) = true
          rw [hf]
          exact hr
        · refine .inr ?_
          rw [hdrawn.shippingCost]
          exact hcost
      · show some (if (hint.credit.map (·.courierLoss)).getD o.courierLoss < 0 then 0
          else (hint.credit.map (·.courierLoss)).getD o.courierLoss) = some 0
        have hzero : (hint.credit.map (·.courierLoss)).getD o.courierLoss = 0 := by
          cases hcr : hint.credit with
          | none => exact hrow.loss
          | some credit => exact hhint credit hcr
        rw [hzero]
        simp

/-- **A run of the issuer keeps the papers clean.** -/
theorem DrawnClean.sync (hb : BooksInv b) (hsound : CashLedger.Sound b.cash)
    (hrow : RowClean p base o) (h : DrawnClean b p o.id base o)
    (hhint : ∀ credit, hint.credit = some credit → credit.courierLoss = 0)
    (hs : Synced (b.withSources p.sources) b' o hint now ds) : DrawnClean b' p o.id base o := by
  have hb' : BooksInv (b.withSources p.sources) := hb.of_docs rfl hb.cod
  have hsound' : CashLedger.Sound (b.withSources p.sources).cash := hsound
  obtain ⟨hnothing, hfirst, hlater⟩ := hs.money hsound' hrow.billed
  have hmoney : NothingIn b' o.id ∨ MoneyBooked b' o.id base := by
    rcases h.money with hno | hyes
    · cases hpaid : salePaid o with
      | false => exact .inl (hnothing hno hpaid)
      | true => exact .inr (hfirst hno hpaid)
    · obtain ⟨hr, hc⟩ := hlater hyes
      exact .inr (hyes.congr hr hc)
  have hreceipt : receiptsOf (docsOf b' o.id) ≠ [] → salePaid o = true ∨ p.voidedPaid = true := by
    intro hne
    rcases h.money with hno | hyes
    · cases hpaid : salePaid o with
      | false => exact absurd (hnothing hno hpaid).1 hne
      | true => exact .inl rfl
    · rw [(hlater hyes).1] at hne
      exact h.receiptPaid hne
  have hsum := fun k => hs.figures k
  cases hdead : o.status.isDead with
  | true =>
      have hnone := (hs.dead hb' hdead).2
      refine ⟨fun hne => absurd hnone hne, hreceipt, fun _ hne => absurd hnone hne,
        fun inv hinv => ?_, fun k => ?_, hmoney⟩
      · rw [hnone] at hinv
        cases hinv
      · rw [if_pos hnone, hsum k, figures_dead (b := b.withSources p.sources) hrow
          ⟨h.openLive, h.receiptPaid, h.online, h.drawn, h.figures, h.money⟩ hdead hhint k]
        exact add_neg_cancel _
  | false =>
      by_cases hp : o.status = .pending
      · have hdocs := hs.pending hp
        refine ⟨?_, hreceipt, ?_, ?_, ?_, hmoney⟩
        all_goals rw [hdocs]
        · exact h.openLive
        · exact h.online
        · exact h.drawn
        · exact h.figures
      have hlive := live_of_not_dead hdead hp
      have hone := (hs.live hb' hlive).2
      have hnil : uncredited (docsOf b' o.id) ≠ [] := by
        intro hc
        rw [hc] at hone
        cases hone
      refine ⟨fun _ => .inl hlive, hreceipt, fun hm _ => ?_, fun inv hinv => ?_, fun k => ?_, hmoney⟩
      · have hpaid : o.paymentStatus ≠ .unpaid := by
          have haw := hrow.online hlive
          simpa [awaitingPayment, Order.billed_method hrow.billed, hm] using haw
        have hsale := salePaid_of_paid hlive hpaid
        rcases hmoney with hno | ⟨r, hr, -⟩
        · rcases h.money with hold | hold
          · exact absurd hno (fun hn => hn.not_booked (hfirst hold hsale))
          · exact absurd hno fun hn => hn.not_booked (hold.congr (hlater hold).1 (hlater hold).2)
        · rw [hr]
          exact List.cons_ne_nil _ _
      · rw [hs.docsOf_self] at hinv
        rcases mem_uncredited_append hinv with hold | ⟨hnew, hkind⟩
        · exact h.drawn inv hold
        · refine numbered_forall (fun paper d hnum hp hk => ?_) hs.papers
            (new_invoice_drawn hlive) inv hnew hkind
          rw [hnum] at hk ⊢
          have hdrawn := hp hk
          exact ⟨hdrawn.kind, hdrawn.lines, hdrawn.discount, hdrawn.shippingFee,
            hdrawn.shippingCost, hdrawn.gatewayFee⟩
      · rw [if_neg hnil, hsum k, figures_live hlive k]
        show ((docsOf b o.id).map (docFigure k)).sum + _ = _
        rw [h.figures k]
        show _ + (if uncredited (docsOf b o.id) = [] then _ else _) = _
        by_cases hu : uncredited (docsOf b o.id) = []
        · rw [if_pos hu, if_pos hu, zero_add]
          rfl
        · rw [if_neg hu, if_neg hu, add_zero]

end sync

/-! ### Schedules -/

structure ScheduleInv (orderId : OrderId) (base : Order) (s : ScheduleState) : Prop where
  books : BooksInv s.books
  sound : CashLedger.Sound s.books.cash
  hints : ∀ hint ∈ s.hints, ∀ credit, hint.credit = some credit → credit.courierLoss = 0
  row : ∃ o, s.past.orderRow orderId = some o ∧ RowClean s.past base o ∧
    DrawnClean s.books s.past orderId base o

theorem pastChange_ok {orderId : OrderId} {p p' : OrderPast} {c : OrderChange} {hint : SyncHint}
    (h : pastChange orderId p c = some (p', hint)) :
    ∃ o row, p.orderRow orderId = some o ∧ c.row o = .ok (row, hint) ∧
      p' = p.after p'.sources o row ∧ p'.orderRow orderId = some row ∧
      p'.sources.categories = p.sources.categories := by
  unfold pastChange at h
  obtain ⟨o, ho, h⟩ := Option.bind_eq_some_iff.mp h
  obtain ⟨⟨sources, hint'⟩, happly, h⟩ := Option.bind_eq_some_iff.mp h
  obtain ⟨row, hrow, h⟩ := Option.bind_eq_some_iff.mp h
  obtain ⟨rfl, rfl⟩ := Prod.mk.inj (Option.some.inj h)
  obtain ⟨o', row', payments, hl, hchange, -, rfl⟩ :=
    OrderChange.apply_ok (Result.toOption_some.mp happly)
  obtain rfl := Option.some.inj (ho.symm.trans hl)
  have hrow' := lookup_modify_row ho (Order.billed_id (OrderChange.row_billed hchange))
  obtain rfl := Option.some.inj (hrow.symm.trans hrow')
  exact ⟨o, row, ho, hchange, rfl, hrow, rfl⟩

/-- A clean change keeps the invariant. -/
theorem ScheduleInv.change {orderId : OrderId} {base : Order} {s s' : ScheduleState}
    {c : OrderChange} (h : ScheduleInv orderId base s) (hclean : cleanChange orderId s.past c)
    (hstep : scheduleStep orderId s (.change c) = some s') :
    ScheduleInv orderId base s' ∧ pastStep orderId s.past c = some s'.past := by
  obtain ⟨⟨p', hint⟩, hpast, h'⟩ := Option.bind_eq_some_iff.mp hstep
  obtain rfl := Option.some.inj h'
  obtain ⟨o, row, ho, hchange, hafter, hrow, hcat⟩ := pastChange_ok hpast
  obtain ⟨o', ho', hclean₀, hdrawn⟩ := h.row
  obtain rfl := Option.some.inj (ho.symm.trans ho')
  have hpast' : pastStep orderId s.past c = some p' := by rw [pastStep, hpast]; rfl
  obtain ⟨hvoid, hfee⟩ := hclean o ho p' hpast' row hrow
  obtain ⟨hrowClean, hhint⟩ := RowClean.change p'.sources hclean₀ hchange hvoid
  have hdrawn' := hdrawn.change hclean₀ hchange hcat hfee
  refine ⟨⟨h.books, h.sound, fun x hx => ?_, row, hrow, ?_, ?_⟩, hpast'⟩
  · rcases List.mem_append.mp hx with hx | hx
    · exact h.hints x hx
    · rw [List.mem_singleton.mp hx]
      exact hhint
  · show RowClean p' base row
    rw [hafter]
    exact hrowClean
  · show DrawnClean s.books p' orderId base row
    rw [hafter]
    exact hdrawn'

/-- Everything a run of the issuer did in a schedule. -/
theorem scheduleSync_ok {orderId : OrderId} {s s' : ScheduleState} {event : Option ℕ}
    {now : Instant} (hstep : scheduleStep orderId s (.sync event now) = some s') :
    ∃ hint books r, (hint = {} ∨ hint ∈ s.hints) ∧
      syncIn (s.books.withSources s.past.sources) orderId hint now = .ok (books, r) ∧
      s' = { s with books } := by
  obtain ⟨hint, hhint, h⟩ := Option.bind_eq_some_iff.mp hstep
  obtain ⟨⟨books, r⟩, hsync, h⟩ := Option.bind_eq_some_iff.mp h
  obtain rfl := Option.some.inj h
  refine ⟨hint, books, r, ?_, Result.toOption_some.mp hsync, rfl⟩
  cases event with
  | none => exact .inl (Option.some.inj hhint).symm
  | some i => exact .inr (List.mem_of_getElem? hhint)

/-- A run of the issuer keeps the invariant, and leaves the invoices up to date. -/
theorem ScheduleInv.sync {orderId : OrderId} {base : Order} {s s' : ScheduleState}
    {event : Option ℕ} {now : Instant} (h : ScheduleInv orderId base s)
    (hstep : scheduleStep orderId s (.sync event now) = some s') :
    ScheduleInv orderId base s' ∧ s'.past = s.past ∧
      ∀ o, s.past.orderRow orderId = some o → UpToDate s'.books o ∧
        (salePaid o = true → MoneyBooked s'.books orderId base) := by
  obtain ⟨hint, books, r, hhint, hsync, rfl⟩ := scheduleSync_ok hstep
  obtain ⟨o, ho, hrow, hdrawn⟩ := h.row
  have hcredit : ∀ credit, hint.credit = some credit → credit.courierLoss = 0 := by
    rcases hhint with rfl | hmem
    · intro credit hc
      cases hc
    · exact h.hints hint hmem
  have hid : o.id = orderId := Rows.key_of_lookup ho
  have hbooks : BooksInv (s.books.withSources s.past.sources) := h.books.of_docs rfl h.books.cod
  have hsound : CashLedger.Sound (s.books.withSources s.past.sources).cash := h.sound
  obtain ⟨hinv, hup⟩ := syncIn_inv hbooks hsync
  rcases syncIn_ok hsync with ⟨hnone, -⟩ | ⟨order, ds, hfound, hs⟩
  · exact absurd (ho.symm.trans hnone) (by simp)
  obtain rfl := Option.some.inj (hfound.symm.trans ho)
  have hdrawn' : DrawnClean books s.past orderId base order := by
    rw [← hid] at hdrawn ⊢
    exact hdrawn.sync h.books h.sound hrow hcredit hs
  refine ⟨⟨hinv, hs.sound hsound, h.hints, order, ho, hrow, hdrawn'⟩, rfl, fun o' ho' => ?_⟩
  obtain rfl := Option.some.inj (ho.symm.trans ho')
  refine ⟨(hup order hfound).2, fun hpaid => ?_⟩
  obtain ⟨-, hfirst, hlater⟩ := hs.money hsound hrow.billed
  rw [hid] at hfirst hlater
  rcases hdrawn.money with hno | hyes
  · exact hfirst hno hpaid
  · exact hyes.congr (hlater hyes).1 (hlater hyes).2

theorem changesOf_change {c : OrderChange} {rest : List ScheduleAction} :
    changesOf (.change c :: rest) = c :: changesOf rest := rfl

theorem changesOf_sync {event : Option ℕ} {now : Instant} {rest : List ScheduleAction} :
    changesOf (.sync event now :: rest) = changesOf rest := rfl

/-- **Every schedule of a clean history keeps the invariant**, and goes through the history. -/
theorem schedule_inv {orderId : OrderId} {base : Order} :
    ∀ (as : List ScheduleAction) (s t : ScheduleState), ScheduleInv orderId base s →
      Machine.GuardedRun (pastStep orderId) (cleanChange orderId) s.past (changesOf as) →
      Machine.runFrom (scheduleStep orderId) s as = some t →
      ScheduleInv orderId base t ∧
        Machine.runFrom (pastStep orderId) s.past (changesOf as) = some t.past := by
  intro as
  induction as with
  | nil =>
      intro s t h _ hrun
      obtain rfl := Option.some.inj hrun
      exact ⟨h, rfl⟩
  | cons a rest ih =>
      intro s t h hclean hrun
      obtain ⟨s', hstep, hrest⟩ := Machine.runFrom_cons hrun
      cases a with
      | change c =>
          rw [changesOf_change] at hclean ⊢
          obtain ⟨hinv, hpast⟩ := h.change hclean.1 hstep
          rw [Machine.runFrom_cons_of_step hpast]
          exact ih s' t hinv (hclean.2 _ hpast) hrest
      | sync event now =>
          rw [changesOf_sync] at hclean ⊢
          obtain ⟨hinv, hpast, -⟩ := h.sync hstep
          rw [← hpast] at hclean ⊢
          exact ih s' t hinv hclean hrest

/-! ### What the last row says -/

/-- The effect that the last row of a clean history calls for. -/
def rowEffect (p : OrderPast) (o : Order) : BooksEffect :=
  { uncredited := if o.status.isLive then 1 else 0,
    receipts := if salePaid o then 1 else 0,
    cod := if salePaid o && !o.paymentMethod.isPrepaid then [round2 o.grandTotal] else [],
    figures := allFigures.map fun k =>
      if o.status.isLive then docFigure k (snapshotBase p.sources o .invoice 0) else 0 }

/-- **After a last run the papers say what the last row calls for.** -/
theorem effect_eq_rowEffect {orderId : OrderId} {base o : Order} {s s' : ScheduleState}
    {event : Option ℕ} {now : Instant} (h : ScheduleInv orderId base s)
    (hstep : scheduleStep orderId s (.sync event now) = some s')
    (ho : s.past.orderRow orderId = some o) (hend : CleanEnd orderId s.past) :
    effectOf s'.books orderId = rowEffect s.past o := by
  obtain ⟨hinv, hpast, hrun⟩ := h.sync hstep
  obtain ⟨hup, hbooked⟩ := hrun o ho
  obtain ⟨o', ho', hrow, hdrawn⟩ := hinv.row
  rw [hpast] at ho' hrow hdrawn
  obtain rfl := Option.some.inj (ho.symm.trans ho')
  obtain ⟨hpending, hvoided⟩ := hend o ho
  have hid : o.id = orderId := Rows.key_of_lookup ho
  rw [← hid] at hbooked hdrawn ⊢
  have hmethod := Order.billed_method hrow.billed
  have htotal := Order.billed_total hrow.billed
  have hnothing : salePaid o = false → NothingIn s'.books o.id := by
    intro hno
    rcases hdrawn.money with hn | ⟨r, hr, -⟩
    · exact hn
    · rcases hdrawn.receiptPaid (by rw [hr]; exact List.cons_ne_nil _ _) with hs | hv
      · rw [hno] at hs
        cases hs
      · rw [salePaid_of_paid (hvoided hv) (hrow.voidedPaid hv)] at hno
        cases hno
  have hopen : o.status.isLive = false → uncredited (docsOf s'.books o.id) = [] := by
    intro hno
    cases hdead : o.status.isDead with
    | true => exact hup.dead hdead
    | false =>
        by_contra hne
        rcases hdrawn.openLive hne with hl | hv
        · rw [hno] at hl
          cases hl
        · rw [live_of_not_dead hdead (hpending hv)] at hno
          cases hno
  have huncredited : (uncredited (docsOf s'.books o.id)).length =
      if o.status.isLive then 1 else 0 := by
    cases hlive : o.status.isLive with
    | true => exact hup.live hlive
    | false =>
        rw [hopen hlive]
        rfl
  have hfigures : ∀ k, (pnlFor (docsOf s'.books o.id)).figure k =
      if o.status.isLive then docFigure k (snapshotBase s.past.sources o .invoice 0) else 0 := by
    intro k
    rw [pnlFor_figure, hdrawn.figures k]
    cases hlive : o.status.isLive with
    | true =>
        rw [if_neg, if_pos rfl]
        intro hnil
        rw [hnil, hlive] at huncredited
        cases huncredited
    | false =>
        rw [if_pos (hopen hlive)]
        rfl
  have hreceipts : (receiptsOf (docsOf s'.books o.id)).length = if salePaid o then 1 else 0 := by
    cases hpaid : salePaid o with
    | true =>
        obtain ⟨r, hr, -⟩ := hbooked hpaid
        rw [hr]
        rfl
    | false =>
        rw [(hnothing hpaid).1]
        rfl
  have hcod : (codIn s'.books o.id).map (·.amount) =
      if salePaid o && !o.paymentMethod.isPrepaid then [round2 o.grandTotal] else [] := by
    cases hpaid : salePaid o with
    | true =>
        obtain ⟨r, -, -, hpre, hpost⟩ := hbooked hpaid
        rw [← hmethod] at hpre hpost
        cases hp : o.paymentMethod.isPrepaid with
        | true =>
            rw [hpre hp]
            rfl
        | false =>
            obtain ⟨e, he, hamount⟩ := hpost hp
            rw [he, List.map_singleton, hamount, htotal]
            rfl
    | false =>
        rw [(hnothing hpaid).2]
        rfl
  have hall : allFigures.map (pnlFor (docsOf s'.books o.id)).figure = allFigures.map fun k =>
      if o.status.isLive then docFigure k (snapshotBase s.past.sources o .invoice 0) else 0 :=
    List.map_congr_left fun k _ => hfigures k
  rw [effectOf, rowEffect, huncredited, hreceipts, hcod, hall]

/-- An order that was just placed: pending, without papers, cash or events. -/
structure FreshOrder (orderId : OrderId) (s : ScheduleState) : Prop where
  books : BooksInv s.books
  sound : CashLedger.Sound s.books.cash
  row : ∃ o, s.past.orderRow orderId = some o ∧ o.status = .pending ∧ o.courierLoss = 0
  noPapers : docsOf s.books orderId = []
  noCod : codIn s.books orderId = []
  past : s.past.voidedLive = false ∧ s.past.voidedPaid = false
  noEvents : s.hints = []

theorem FreshOrder.inv {orderId : OrderId} {s : ScheduleState} (h : FreshOrder orderId s) :
    ∃ base, ScheduleInv orderId base s := by
  obtain ⟨o, ho, hpending, hloss⟩ := h.row
  have hnone : uncredited (docsOf s.books orderId) = [] := by
    rw [h.noPapers]
    rfl
  have hreceipts : receiptsOf (docsOf s.books orderId) = [] := by
    rw [h.noPapers]
    rfl
  refine ⟨o, h.books, h.sound, ?_, o, ho, ⟨rfl, hloss, ?_, ?_, ?_, ?_⟩, ⟨?_, ?_, ?_, ?_, ?_, ?_⟩⟩
  · rw [h.noEvents]
    intro hint hmem
    cases hmem
  · rw [hpending]
    intro hdead
    cases hdead
  · rw [hpending]
    intro hlive
    cases hlive
  · rw [hpending]
    intro hdel
    cases hdel
  · rw [h.past.2]
    intro hv
    cases hv
  · exact fun hne => absurd hnone hne
  · exact fun hne => absurd hreceipts hne
  · exact fun _ hne => absurd hnone hne
  · rw [hnone]
    intro inv hinv
    cases hinv
  · intro k
    rw [if_pos hnone, h.noPapers]
    rfl
  · exact .inl ⟨hreceipts, h.noCod⟩

/--
**Two schedules of one clean history that both end with a run of the issuer leave papers
with the same accounting effect.**
-/
theorem papers_converge (orderId : OrderId) (s₀ s t : ScheduleState)
    (as bs : List ScheduleAction) (e₁ e₂ : Option ℕ) (n₁ n₂ : Instant) (h : FreshOrder orderId s₀)
    (hsame : changesOf as = changesOf bs)
    (hclean : Machine.GuardedRun (pastStep orderId) (cleanChange orderId) s₀.past (changesOf as))
    (has : Machine.runFrom (scheduleStep orderId) s₀ (as ++ [.sync e₁ n₁]) = some s)
    (hbs : Machine.runFrom (scheduleStep orderId) s₀ (bs ++ [.sync e₂ n₂]) = some t)
    (hend : CleanEnd orderId s.past) :
    effectOf s.books orderId = effectOf t.books orderId := by
  obtain ⟨base, hinv₀⟩ := h.inv
  obtain ⟨s₁, hs₁, hs⟩ := Machine.runFrom_append has
  obtain ⟨t₁, ht₁, ht⟩ := Machine.runFrom_append hbs
  obtain ⟨hinvS, hpastS⟩ := schedule_inv as s₀ s₁ hinv₀ hclean hs₁
  obtain ⟨hinvT, hpastT⟩ := schedule_inv bs s₀ t₁ hinv₀ (hsame ▸ hclean) ht₁
  have hpast : s₁.past = t₁.past := by
    rw [hsame, hpastT] at hpastS
    exact (Option.some.inj hpastS).symm
  obtain ⟨s', hs', hnilS⟩ := Machine.runFrom_cons hs
  obtain ⟨t', ht', hnilT⟩ := Machine.runFrom_cons ht
  obtain rfl := Option.some.inj hnilS
  obtain rfl := Option.some.inj hnilT
  obtain ⟨o, ho, -⟩ := hinvS.row
  have hend' : CleanEnd orderId s₁.past := by
    rw [← (hinvS.sync hs').2.1]
    exact hend
  rw [effect_eq_rowEffect hinvS hs' ho hend',
    effect_eq_rowEffect hinvT ht' (hpast ▸ ho) (hpast ▸ hend'), hpast]

/-! ### Two histories of a COD order -/

/-- A COD order of 560, just placed. -/
def codOrderPlaced : ScheduleState :=
  { past := { sources := { orders :=
      [{ id := 1, orderNo := "CLO-2042", paymentMethod := .cod, itemsSubtotal := 500,
         shippingFee := 60, grandTotal := 560, courierCost := 50,
         items := [{ kind := .product, productId := some 3, quantity := 2, unitPrice := 250,
                     unitCost := some 150, lineTotal := 500 }] }] } } }

theorem codOrderPlaced_fresh : FreshOrder 1 codOrderPlaced := by
  refine ⟨Blank.inv ⟨rfl, rfl⟩, ?_, ⟨_, rfl, rfl, rfl⟩, rfl, rfl, ⟨rfl, rfl⟩, rfl⟩
  intro r hr
  cases hr

/-- Cancelled before the courier came, brought back, delivered. -/
def secondThoughts : List OrderChange :=
  [.transition { toStatus := .confirmed } .staff 1,
   .transition { toStatus := .cancelled, credit := some ⟨"মত বদলেছেন", 0⟩ } .staff 2,
   .reopen { reason := "আবার নেবেন", toStatus := some .confirmed } .staff 3,
   .transition { toStatus := .delivered } .staff 4]

/-- Books kept after every change and books caught up at the end say the same. -/
theorem papers_converge_secondThoughts : ∃ s t,
    Machine.runFrom (scheduleStep 1) codOrderPlaced
      (syncEach 5 secondThoughts ++ [.sync none 6]) = some s ∧
    Machine.runFrom (scheduleStep 1) codOrderPlaced
      (secondThoughts.map .change ++ [.sync none 6]) = some t ∧
    effectOf s.books 1 = effectOf t.books 1 := by
  have hruns : (Machine.runFrom (scheduleStep 1) codOrderPlaced
      (syncEach 5 secondThoughts ++ [.sync none 6])).any (fun s => CleanEnd 1 s.past) = true ∧
      (Machine.runFrom (scheduleStep 1) codOrderPlaced
        (secondThoughts.map .change ++ [.sync none 6])).isSome = true := by
    decide +kernel
  obtain ⟨s, hs, hend⟩ := (Option.any_eq_true _ _).mp hruns.1
  obtain ⟨t, ht⟩ := Option.isSome_iff_exists.mp hruns.2
  refine ⟨s, t, hs, ht, ?_⟩
  exact papers_converge 1 codOrderPlaced s t (syncEach 5 secondThoughts)
    (secondThoughts.map .change) none none 6 6 codOrderPlaced_fresh rfl (by decide +kernel) hs ht
    (of_decide_eq_true hend)

/-- Handed to the courier, then cancelled: the courier keeps its fee and loses a book. -/
def lostParcel : List OrderChange :=
  [.transition { toStatus := .confirmed } .staff 1,
   .transition { toStatus := .handedToCourier } .staff 2,
   .transition { toStatus := .cancelled, credit := some ⟨"পার্সেল হারিয়েছে", 40⟩ } .staff 3]

/-- Books caught up at the end miss the courier's cost and loss of the lost parcel. -/
theorem papers_diverge_lostParcel : FreshOrder 1 codOrderPlaced ∧ ∃ s t,
    Machine.runFrom (scheduleStep 1) codOrderPlaced (syncEach 5 lostParcel) = some s ∧
    Machine.runFrom (scheduleStep 1) codOrderPlaced
      (lostParcel.map .change ++ [.sync (some 2) 5]) = some t ∧
    changesOf (syncEach 5 lostParcel) =
      changesOf (lostParcel.map .change ++ [.sync (some 2) 5]) ∧
    effectOf s.books 1 ≠ effectOf t.books 1 := by
  have hruns : (Machine.runFrom (scheduleStep 1) codOrderPlaced (syncEach 5 lostParcel)).any
      (fun s => (Machine.runFrom (scheduleStep 1) codOrderPlaced
        (lostParcel.map .change ++ [.sync (some 2) 5])).any fun t =>
          effectOf s.books 1 ≠ effectOf t.books 1) = true := by
    decide +kernel
  obtain ⟨s, hs, hrest⟩ := (Option.any_eq_true _ _).mp hruns
  obtain ⟨t, ht, hne⟩ := (Option.any_eq_true _ _).mp hrest
  exact ⟨codOrderPlaced_fresh, s, t, hs, ht, rfl, of_decide_eq_true hne⟩

end BookHouse
