/-
What an invoice and its credit note do to the profit report.

A report is the sum of what each paper adds to it, so the pair can be looked at on its own,
wherever the two stand among the papers.  Both carry the same lines, so both are counted or
neither is; and what is not taken back, the courier and the loss, is only there if they are.
-/
import BookHouse.Finance.Pnl
import BookHouse.Proofs.Convergence

namespace BookHouse

open DocumentIssuer

/-! ### Reports add up -/

namespace Pnl

@[ext] theorem ext {p q : Pnl} (hfigure : ∀ k, p.figure k = q.figure k)
    (hinvoices : p.invoices = q.invoices) (hcredits : p.credits = q.credits)
    (hskipped : p.skipped = q.skipped) : p = q := by
  have hsales := hfigure .sales
  have hcoupon := hfigure .coupon
  have hcogs := hfigure .cogs
  have hshipIn := hfigure .shipIn
  have hcourier := hfigure .courier
  have hgatewayFee := hfigure .gatewayFee
  have hloss := hfigure .courierLoss
  cases p
  cases q
  simp_all [figure]

/-- The component-wise sum. -/
instance : Add Pnl where
  add p q :=
    { sales := p.sales + q.sales, coupon := p.coupon + q.coupon, cogs := p.cogs + q.cogs,
      shipIn := p.shipIn + q.shipIn, courier := p.courier + q.courier,
      gatewayFee := p.gatewayFee + q.gatewayFee, courierLoss := p.courierLoss + q.courierLoss,
      invoices := p.invoices + q.invoices, credits := p.credits + q.credits,
      skipped := p.skipped + q.skipped }

instance : Zero Pnl := ⟨{}⟩

variable {p q : Pnl} {k : Figure}

@[simp] theorem figure_zero : (0 : Pnl).figure k = 0 := by cases k <;> rfl

@[simp] theorem figure_plus : (p + q).figure k = p.figure k + q.figure k := by cases k <;> rfl

@[simp] theorem invoices_zero : (0 : Pnl).invoices = 0 := rfl

@[simp] theorem credits_zero : (0 : Pnl).credits = 0 := rfl

@[simp] theorem skipped_zero : (0 : Pnl).skipped = 0 := rfl

@[simp] theorem invoices_plus : (p + q).invoices = p.invoices + q.invoices := rfl

@[simp] theorem credits_plus : (p + q).credits = p.credits + q.credits := rfl

@[simp] theorem skipped_plus : (p + q).skipped = p.skipped + q.skipped := rfl

instance : AddCommMonoid Pnl where
  add_assoc p q r := by
    ext k
    · simp [add_assoc]
    · simp [Nat.add_assoc]
    · simp [Nat.add_assoc]
    · simp [Nat.add_assoc]
  zero_add p := by ext k <;> simp
  add_zero p := by ext k <;> simp
  add_comm p q := by
    ext k
    · simp [add_comm]
    · simp [Nat.add_comm]
    · simp [Nat.add_comm]
    · simp [Nat.add_comm]
  nsmul := nsmulRec

end Pnl

/-- What one paper adds to the report. -/
def paperPnl (doc : FinancialDocument) : Pnl := Pnl.add {} doc

theorem Pnl.add_eq (p : Pnl) (doc : FinancialDocument) : p.add doc = p + paperPnl doc := by
  ext k
  · rw [Pnl.figure_add, Pnl.figure_plus]
    rfl
  all_goals
    unfold paperPnl Pnl.add
    by_cases hr : doc.kind = .receipt
    · simp [hr]
    by_cases hc : doc.kind = .creditNote
    · cases hk : (lineMoney doc.lines).known <;> simp [hc, hk]
    · cases hk : (lineMoney doc.lines).known <;> simp [hr, hc, hk]

/-- **A report is the sum of what its papers add.** -/
theorem pnlFor_eq_sum (docs : List FinancialDocument) :
    pnlFor docs = (docs.map paperPnl).sum := by
  have hfold : ∀ (docs : List FinancialDocument) (p : Pnl),
      docs.foldl Pnl.add p = p + (docs.map paperPnl).sum := by
    intro docs
    induction docs with
    | nil => intro p; simp
    | cons d rest ih =>
        intro p
        rw [List.foldl_cons, ih, Pnl.add_eq, List.map_cons, List.sum_cons, add_assoc]
  have hzero := hfold docs 0
  rw [zero_add] at hzero
  exact hzero

theorem pnlFor_append (docs docs' : List FinancialDocument) :
    pnlFor (docs ++ docs') = pnlFor docs + pnlFor docs' := by
  simp only [pnlFor_eq_sum, List.map_append, List.sum_append]

/-- The order of the papers does not matter. -/
theorem pnlFor_perm {docs docs' : List FinancialDocument} (h : docs.Perm docs') :
    pnlFor docs = pnlFor docs' := by
  rw [pnlFor_eq_sum, pnlFor_eq_sum]
  exact (h.map paperPnl).sum_eq

/-! ### The pair -/

/-- A paper with a full cost snapshot. -/
def FinancialDocument.counted (d : FinancialDocument) : Bool := (lineMoney d.lines).known

/-- What the report says after an invoice and its credit note came to the papers. -/
structure Cancelled (before after : Pnl) (invoice note : FinancialDocument) (receipted : Prop) :
    Prop where
  sales : after.sales = before.sales
  coupon : after.coupon = before.coupon
  cogs : after.cogs = before.cogs
  shipIn : after.shipIn = before.shipIn
  courier : after.courier = before.courier +
    if invoice.counted && !note.reverseCourier then invoice.shippingCost else 0
  courierLoss : after.courierLoss = before.courierLoss +
    if invoice.counted then note.courierLoss.getD 0 else 0
  gatewayFee : invoice.gatewayFee = 0 ∨ receipted → after.gatewayFee = before.gatewayFee
  invoices : after.invoices = before.invoices + 1
  credits : after.credits = before.credits + 1
  skipped : after.skipped = before.skipped + if invoice.counted then 0 else 2

/-- A note that takes back what its invoice billed, and its fee if there was a receipt. -/
structure TakesBack (note invoice : FinancialDocument) (receipted : Prop) : Prop where
  kind : note.kind = .creditNote
  ofInvoice : invoice.kind = .invoice
  credits : note.creditsDocId = some invoice.id
  repeats : Repeats note invoice
  fee : receipted → note.gatewayFee = invoice.gatewayFee
  noFee : ¬receipted → note.gatewayFee = 0
  loss : ∃ loss, note.courierLoss = some loss ∧ 0 ≤ loss

theorem TakesBack.cancelled {note invoice : FinancialDocument} {receipted : Prop}
    (h : TakesBack note invoice receipted) {docs all : List FinancialDocument}
    (hall : all.Perm (invoice :: note :: docs)) :
    Cancelled (pnlFor docs) (pnlFor all) invoice note receipted := by
  have hsum : pnlFor all = pnlFor docs + (paperPnl invoice + paperPnl note) := by
    rw [pnlFor_perm hall, pnlFor_eq_sum, pnlFor_eq_sum, List.map_cons, List.map_cons,
      List.sum_cons, List.sum_cons, ← add_assoc, add_comm]
  have hfigure : ∀ k, (pnlFor all).figure k =
      (pnlFor docs).figure k + (docFigure k invoice + docFigure k note) := by
    intro k
    rw [hsum, Pnl.figure_plus, Pnl.figure_plus]
    rfl
  have hpair : ∀ k, docFigure k invoice + docFigure k note = match k with
      | .courier => if invoice.counted && !note.reverseCourier then invoice.shippingCost else 0
      | .courierLoss => if invoice.counted then note.courierLoss.getD 0 else 0
      | .gatewayFee => if invoice.counted then invoice.gatewayFee - note.gatewayFee else 0
      | _ => 0 := by
    intro k
    unfold docFigure Pnl.add FinancialDocument.counted
    rw [h.kind, h.ofInvoice, h.repeats.lines, h.repeats.discount, h.repeats.shippingFee,
      h.repeats.shippingCost]
    cases hk : (lineMoney invoice.lines).known
    · cases k <;> simp [hk, Pnl.figure]
    · cases note.reverseCourier <;> cases k <;> simp [hk, Pnl.figure, sub_eq_add_neg]
  have hsame : ∀ k, docFigure k invoice + docFigure k note = 0 →
      (pnlFor all).figure k = (pnlFor docs).figure k := by
    intro k hk
    rw [hfigure, hk, add_zero]
  have hcounts : (paperPnl invoice).invoices + (paperPnl note).invoices = 1 ∧
      (paperPnl invoice).credits + (paperPnl note).credits = 1 ∧
      (paperPnl invoice).skipped + (paperPnl note).skipped = if invoice.counted then 0 else 2 := by
    unfold paperPnl Pnl.add FinancialDocument.counted
    rw [h.kind, h.ofInvoice, h.repeats.lines]
    cases hk : (lineMoney invoice.lines).known <;> simp [hk]
  refine ⟨hsame .sales (hpair _), hsame .coupon (hpair _), hsame .cogs (hpair _),
    hsame .shipIn (hpair _), ?_, ?_, fun hfee => hsame .gatewayFee ?_, ?_, ?_, ?_⟩
  · exact (hfigure .courier).trans (congrArg _ (hpair _))
  · exact (hfigure .courierLoss).trans (congrArg _ (hpair _))
  · rw [hpair]
    have hequal : note.gatewayFee = invoice.gatewayFee := by
      by_cases hr : receipted
      · exact h.fee hr
      · rw [h.noFee hr, hfee.resolve_right hr]
    simp [hequal]
  · rw [hsum, Pnl.invoices_plus, Pnl.invoices_plus, hcounts.1]
  · rw [hsum, Pnl.credits_plus, Pnl.credits_plus, hcounts.2.1]
  · rw [hsum, Pnl.skipped_plus, Pnl.skipped_plus, hcounts.2.2]

/-- The credit note of a run of the issuer takes its invoice back. -/
theorem creditNote_takesBack {b : Books} {order : Order} {hint : SyncHint} {now : Instant}
    {plan : BooksPlan} : ∀ p ∈ plannedPapers b order hint plan now, p.kind = .creditNote →
      ∃ invoice ∈ docsOf b order.id,
        TakesBack p invoice (∃ d ∈ docsOf b order.id, d.kind = .receipt) := by
  intro p hp hkind
  unfold plannedPapers at hp
  rcases List.mem_append.mp hp with hfirst | hcredit
  · rcases List.mem_append.mp hfirst with hinvoice | hreceipt
    · split at hinvoice
      · obtain rfl := List.mem_singleton.mp hinvoice
        cases hkind
      · cases hinvoice
    · split at hreceipt
      · obtain rfl := List.mem_singleton.mp hreceipt
        cases hkind
      · cases hreceipt
  · split at hcredit
    · rename_i credit invoice _ hlive
      obtain rfl := List.mem_singleton.mp hcredit
      obtain ⟨hmem, hinvoice, -⟩ := mem_uncredited.mp (mem_uncredited_of_liveInvoice hlive)
      have hreceipt : (papersOf b order.id).any (·.kind = .receipt) = true ↔
          ∃ d ∈ docsOf b order.id, d.kind = .receipt := by
        rw [List.any_eq_true]
        simp only [decide_eq_true_eq]
        exact exists_congr fun d => and_congr_left fun _ => (papersOf_perm b order.id).mem_iff
      refine ⟨invoice, hmem, rfl, hinvoice, rfl, ⟨rfl, rfl, rfl, rfl, rfl, rfl, rfl⟩,
        fun hr => ?_, fun hr => ?_, _, rfl, ?_⟩
      · exact if_pos (hreceipt.mpr hr)
      · exact if_neg fun hc => hr (hreceipt.mp hc)
      · split
        · exact le_refl 0
        · rename_i hloss
          exact not_lt.mp hloss
    · cases hcredit

theorem TakesBack.of_numbered {p d invoice : FinancialDocument} {receipted : Prop}
    (hnum : Numbered p d) (h : TakesBack p invoice receipted) : TakesBack d invoice receipted := by
  rw [hnum]
  exact ⟨h.kind, h.ofInvoice, h.credits, ⟨h.repeats.1, h.repeats.2, h.repeats.3, h.repeats.4,
    h.repeats.5, h.repeats.6, h.repeats.7⟩, h.fee, h.noFee, h.loss⟩

/-- **A credit note that the issuer writes cancels its invoice in the report, and reports of
two lists of papers add up.** -/
theorem credit_cancels (b b' : Books) (orderId : OrderId) (hint : SyncHint) (now : Instant)
    (r : SyncResult) (h : syncIn b orderId hint now = .ok (b', r)) :
    (∃ new, b'.docs = b.docs ++ new ∧ ∀ note ∈ new, note.kind = .creditNote →
      ∃ invoice ∈ docsOf b orderId, note.creditsDocId = some invoice.id ∧
        ∀ docs all : List FinancialDocument, all.Perm (invoice :: note :: docs) →
          Cancelled (pnlFor docs) (pnlFor all) invoice note
            (∃ d ∈ docsOf b orderId, d.kind = .receipt)) ∧
    ∀ docs docs', pnlFor (docs ++ docs') = pnlFor docs + pnlFor docs' := by
  refine ⟨?_, pnlFor_append⟩
  rcases syncIn_ok h with ⟨-, rfl⟩ | ⟨order, ds, hrow, hsynced⟩
  · exact ⟨[], (List.append_nil _).symm, fun _ hmem => by cases hmem⟩
  obtain rfl : order.id = orderId := Rows.key_of_lookup hrow
  refine ⟨ds, hsynced.docs, fun note hmem hkind => ?_⟩
  obtain ⟨p, hp, hnum⟩ : ∃ p ∈ plannedPapers b order hint (planOf b order hint) now,
      Numbered p note := by
    obtain ⟨n, hn, hget⟩ := List.mem_iff_getElem.mp hmem
    have hlength := hsynced.papers.length_eq
    exact ⟨_, List.getElem_mem (hlength ▸ hn), hget ▸ hsynced.papers.get (hlength ▸ hn) hn⟩
  have hpkind : p.kind = .creditNote := by
    rw [hnum] at hkind
    exact hkind
  obtain ⟨invoice, hinvoice, htakes⟩ := creditNote_takesBack p hp hpkind
  have htakes' := htakes.of_numbered hnum
  exact ⟨invoice, hinvoice, htakes'.credits, fun docs all hall => htakes'.cancelled hall⟩

/-- An invoice of 560, of which 60 for the delivery, that cost the shop 50. -/
def deliveredInvoice (unitCost : Option Money) : FinancialDocument where
  id := 0
  docNo := "INV-1"
  kind := .invoice
  orderId := 1
  customerName := ""
  customerPhone := ""
  address := ""
  paymentLabel := ""
  lines := [{ kind := .product, id := some 3, title := "বই", sectionCode := "book",
              categoryName := none, qty := 2, unitPrice := 250, unitCost, discount := 0,
              lineTotal := 500 }]
  subtotal := 500
  couponCode := none
  discount := 0
  shippingFee := 60
  shippingCost := 50
  gatewayFee := 0
  taxTotal := 0
  total := 560
  issuedAt := 0

/-- The order came back and cost the shop another 40. -/
def returnedOrder (unitCost : Option Money) : Books where
  orders := [{ id := 1, status := .returned, paymentMethod := .cod, grandTotal := 560,
               courierCost := 50, courierLoss := 40 }]
  docs := [deliveredInvoice unitCost]

theorem credit_cancels_returnedOrder : ∃ b' r,
    syncIn (returnedOrder (some 150)) 1 {} 5 = .ok (b', r) ∧
      (∃ new, b'.docs = (returnedOrder (some 150)).docs ++ new ∧
        ∀ note ∈ new, note.kind = .creditNote →
          ∃ invoice ∈ docsOf (returnedOrder (some 150)) 1, note.creditsDocId = some invoice.id ∧
            ∀ docs all : List FinancialDocument, all.Perm (invoice :: note :: docs) →
              Cancelled (pnlFor docs) (pnlFor all) invoice note
                (∃ d ∈ docsOf (returnedOrder (some 150)) 1, d.kind = .receipt)) ∧
      ∀ docs docs', pnlFor (docs ++ docs') = pnlFor docs + pnlFor docs' := by
  have hruns : (syncIn (returnedOrder (some 150)) 1 {} 5).toBool = true := by decide +kernel
  cases h : syncIn (returnedOrder (some 150)) 1 {} 5 with
  | error fault =>
      rw [h] at hruns
      cases hruns
  | ok r => exact ⟨r.1, r.2, rfl, credit_cancels _ _ 1 {} 5 r.2 h⟩

/-- **A pair whose costs are not known leaves the courier out as well.** -/
theorem skipped_pair_leaves_courier : ¬ ∀ (b b' : Books) (orderId : OrderId) (hint : SyncHint)
    (now : Instant) (r : SyncResult), syncIn b orderId hint now = .ok (b', r) →
      ∀ note ∈ b'.docs, note ∉ b.docs → note.kind = .creditNote →
        ∀ invoice ∈ docsOf b orderId, note.creditsDocId = some invoice.id →
          ∀ docs all : List FinancialDocument, all.Perm (invoice :: note :: docs) →
            (pnlFor all).courier = (pnlFor docs).courier +
              (if note.reverseCourier then 0 else invoice.shippingCost) ∧
            (pnlFor all).courierLoss = (pnlFor docs).courierLoss + note.courierLoss.getD 0 := by
  intro hall
  have hruns : (syncIn (returnedOrder none) 1 {} 5).toOption.any (fun r => r.1.docs.any fun note =>
      decide (note ∉ (returnedOrder none).docs) && (decide (note.kind = .creditNote) &&
        (decide (note.creditsDocId = some 0) && (!note.reverseCourier &&
          decide ((pnlFor [deliveredInvoice none, note]).courier = 0))))) = true := by
    decide +kernel
  cases h : syncIn (returnedOrder none) 1 {} 5 with
  | error fault =>
      rw [h] at hruns
      cases hruns
  | ok r =>
      rw [h] at hruns
      obtain ⟨note, hmem, hnote⟩ := List.any_eq_true.mp hruns
      simp only [Bool.and_eq_true, decide_eq_true_eq, Bool.not_eq_true'] at hnote
      obtain ⟨hnew, hkind, hcredits, hkeeps, hcourier⟩ := hnote
      have hclaim := (hall _ r.1 1 {} 5 r.2 h note hmem hnew hkind (deliveredInvoice none)
        (by decide +kernel) hcredits [] [deliveredInvoice none, note] (.refl _)).1
      rw [hcourier, hkeeps] at hclaim
      exact absurd hclaim (by decide +kernel)

end BookHouse
