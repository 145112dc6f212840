/-
The papers of an order stay straight whatever the schedule.

`PapersOk` is what holds of the papers of one order: one uncredited invoice at most,
credit notes that each repeat and credit their own invoice, one receipt at most.  It is
kept by appending an invoice when none is uncredited, a receipt when there is none, and
a credit note for the uncredited invoice, and a run of the issuer is a sequence of such
appends: `plannedPapers_live` and its siblings say which.
-/
import BookHouse.Finance.BooksMachine
import BookHouse.Proofs.Cashbook

namespace BookHouse

open DocumentIssuer

/-! ### The papers of one order -/

/-- A credit note bills back what the invoice billed. -/
structure Repeats (note invoice : FinancialDocument) : Prop where
  lines : note.lines = invoice.lines
  subtotal : note.subtotal = invoice.subtotal
  discount : note.discount = invoice.discount
  shippingFee : note.shippingFee = invoice.shippingFee
  shippingCost : note.shippingCost = invoice.shippingCost
  taxTotal : note.taxTotal = invoice.taxTotal
  total : note.total = invoice.total

structure PapersOk (ds : List FinancialDocument) : Prop where
  ids : (ds.map (·.id)).Nodup
  oneLive : (uncredited ds).length ≤ 1
  credits : ∀ n ∈ ds, n.kind = .creditNote →
    ∃ inv ∈ ds, inv.kind = .invoice ∧ n.creditsDocId = some inv.id ∧ Repeats n inv
  distinct : (credited ds).Nodup
  oneReceipt : (receiptsOf ds).length ≤ 1

section lists

variable {ds : List FinancialDocument} {d : FinancialDocument}

theorem mem_credited {i : DocId} :
    i ∈ credited ds ↔ ∃ n ∈ ds, n.kind = .creditNote ∧ n.creditsDocId = some i := by
  rw [credited, List.mem_filterMap]
  constructor
  · rintro ⟨n, hn, h⟩
    split at h
    · exact ⟨n, hn, ‹_›, h⟩
    · cases h
  · rintro ⟨n, hn, hk, hi⟩
    exact ⟨n, hn, by rw [if_pos hk, hi]⟩

theorem mem_uncredited {x : FinancialDocument} :
    x ∈ uncredited ds ↔ x ∈ ds ∧ x.kind = .invoice ∧ x.id ∉ credited ds := by
  simp [uncredited]

theorem credited_append_of_ne (hd : d.kind ≠ .creditNote) :
    credited (ds ++ [d]) = credited ds := by
  simp [credited, hd]

theorem credited_append_credit {i : DocId} (hd : d.kind = .creditNote)
    (hi : d.creditsDocId = some i) : credited (ds ++ [d]) = credited ds ++ [i] := by
  simp [credited, hd, hi]

theorem uncredited_append_receipt (hd : d.kind = .receipt) :
    uncredited (ds ++ [d]) = uncredited ds := by
  have hne : d.kind ≠ .creditNote := by simp [hd]
  rw [uncredited, credited_append_of_ne hne, List.filter_append, uncredited]
  simp [hd]

theorem uncredited_append_invoice (hd : d.kind = .invoice) (hnew : d.id ∉ credited ds) :
    uncredited (ds ++ [d]) = uncredited ds ++ [d] := by
  have hne : d.kind ≠ .creditNote := by simp [hd]
  rw [uncredited, credited_append_of_ne hne, List.filter_append, uncredited]
  simp [hd, hnew]

theorem uncredited_append_credit {i : DocId} (hd : d.kind = .creditNote)
    (hi : d.creditsDocId = some i) :
    uncredited (ds ++ [d]) = (uncredited ds).filter (·.id ≠ i) := by
  rw [uncredited, credited_append_credit hd hi, List.filter_append, uncredited, List.filter_filter]
  have hlast : [d].filter (fun x => x.kind = .invoice && x.id ∉ credited ds ++ [i]) = [] := by
    simp [hd]
  rw [hlast, List.append_nil]
  refine List.filter_congr fun x _ => ?_
  by_cases hx : x.id = i <;> simp [hx]

namespace PapersOk

theorem nil : PapersOk [] :=
  ⟨by simp, by simp [uncredited], by simp, by simp [credited], by simp [receiptsOf]⟩

/-- A fresh id is not credited yet. -/
theorem fresh (h : PapersOk ds) (hid : d.id ∉ ds.map (·.id)) : d.id ∉ credited ds := by
  intro hc
  obtain ⟨n, hn, hk, hi⟩ := mem_credited.mp hc
  obtain ⟨inv, hinv, -, hcred, -⟩ := h.credits n hn hk
  have hsame : inv.id = d.id := Option.some.inj (hcred.symm.trans hi)
  exact hid (hsame ▸ List.mem_map_of_mem hinv)

theorem ids_append (h : PapersOk ds) (hid : d.id ∉ ds.map (·.id)) :
    ((ds ++ [d]).map (·.id)).Nodup := by
  rw [List.map_append, List.map_singleton]
  exact List.nodup_append.mpr ⟨h.ids, by simp, by
    intro a ha x hx hax
    rw [List.mem_singleton] at hx
    exact hid (hx ▸ hax ▸ ha)⟩

theorem credits_append (h : PapersOk ds)
    (hd : d.kind = .creditNote →
      ∃ inv ∈ ds, inv.kind = .invoice ∧ d.creditsDocId = some inv.id ∧ Repeats d inv) :
    ∀ n ∈ ds ++ [d], n.kind = .creditNote →
      ∃ inv ∈ ds ++ [d], inv.kind = .invoice ∧ n.creditsDocId = some inv.id ∧ Repeats n inv := by
  intro n hn hk
  rw [List.mem_append, List.mem_singleton] at hn
  rcases hn with hn | rfl
  · obtain ⟨inv, hinv, hrest⟩ := h.credits n hn hk
    exact ⟨inv, List.mem_append_left _ hinv, hrest⟩
  · obtain ⟨inv, hinv, hrest⟩ := hd hk
    exact ⟨inv, List.mem_append_left _ hinv, hrest⟩

theorem append_invoice (h : PapersOk ds) (hid : d.id ∉ ds.map (·.id)) (hd : d.kind = .invoice)
    (hnone : uncredited ds = []) : PapersOk (ds ++ [d]) ∧ uncredited (ds ++ [d]) = [d] := by
  have hlive : uncredited (ds ++ [d]) = [d] := by
    rw [uncredited_append_invoice hd (h.fresh hid), hnone, List.nil_append]
  refine ⟨⟨h.ids_append hid, by simp [hlive], h.credits_append (by simp [hd]), ?_, ?_⟩, hlive⟩
  · rw [credited_append_of_ne (by simp [hd])]
    exact h.distinct
  · simpa [receiptsOf, hd] using h.oneReceipt

theorem append_receipt (h : PapersOk ds) (hid : d.id ∉ ds.map (·.id)) (hd : d.kind = .receipt)
    (hnone : receiptsOf ds = []) : PapersOk (ds ++ [d]) := by
  refine ⟨h.ids_append hid, ?_, h.credits_append (by simp [hd]), ?_, ?_⟩
  · rw [uncredited_append_receipt hd]
    exact h.oneLive
  · rw [credited_append_of_ne (by simp [hd])]
    exact h.distinct
  · have hone : receiptsOf (ds ++ [d]) = receiptsOf ds ++ [d] := by simp [receiptsOf, hd]
    rw [hone, hnone]
    simp

theorem append_credit {inv : FinancialDocument} (h : PapersOk ds) (hid : d.id ∉ ds.map (·.id))
    (hd : d.kind = .creditNote) (hinv : inv ∈ uncredited ds) (hi : d.creditsDocId = some inv.id)
    (hrep : Repeats d inv) : PapersOk (ds ++ [d]) ∧ uncredited (ds ++ [d]) = [] := by
  obtain ⟨hmem, hkind, hnot⟩ := mem_uncredited.mp hinv
  have hone : uncredited ds = [inv] := by
    obtain ⟨a, ha⟩ := List.length_eq_one_iff.mp
      (le_antisymm h.oneLive (List.length_pos_of_mem hinv))
    rw [ha] at hinv ⊢
    rw [List.mem_singleton.mp hinv]
  have hlive : uncredited (ds ++ [d]) = [] := by
    rw [uncredited_append_credit hd hi, hone]
    simp
  refine ⟨⟨h.ids_append hid, by simp [hlive], h.credits_append fun _ => ⟨inv, hmem, hkind, hi, hrep⟩,
    ?_, ?_⟩, hlive⟩
  · rw [credited_append_credit hd hi]
    exact List.nodup_append.mpr ⟨h.distinct, by simp, by
      intro a ha x hx hax
      rw [List.mem_singleton] at hx
      exact hnot (hx ▸ hax ▸ ha)⟩
  · simpa [receiptsOf, hd] using h.oneReceipt

end PapersOk

end lists

/-! ### What a run of the issuer writes -/

/-- A written paper is the planned one under its id and number. -/
def Numbered (paper doc : FinancialDocument) : Prop :=
  doc = { paper with id := doc.id, docNo := doc.docNo }

theorem issue_ok {b b' : Books} {paper doc : FinancialDocument}
    (h : issue b paper = .ok (b', doc)) :
    Numbered paper doc ∧ doc.id = b.docs.length ∧
      b' = { b with docs := b.docs ++ [doc], counters := b'.counters } := by
  unfold issue at h
  simp only at h
  split at h
  · cases h
  obtain ⟨rfl, rfl⟩ := Prod.mk.inj (Except.ok.inj h)
  exact ⟨rfl, rfl, rfl⟩

/-- Writing a list of papers appends them, numbered, under the next ids. -/
theorem issueAll_ok : ∀ (papers : List FinancialDocument) {b b' : Books}
    {ds : List FinancialDocument}, issueAll b papers = .ok (b', ds) →
    List.Forall₂ Numbered papers ds ∧ ds.map (·.id) = List.range' b.docs.length ds.length ∧
      b' = { b with docs := b.docs ++ ds, counters := b'.counters } := by
  intro papers
  induction papers with
  | nil =>
      intro b b' ds h
      obtain ⟨rfl, rfl⟩ := Prod.mk.inj (Except.ok.inj h)
      exact ⟨.nil, rfl, by simp⟩
  | cons paper rest ih =>
      intro b b' ds h
      obtain ⟨⟨b₁, doc⟩, h₁, h⟩ := Result.bind_ok.mp h
      obtain ⟨⟨b₂, docs⟩, h₂, h⟩ := Result.bind_ok.mp h
      obtain ⟨rfl, rfl⟩ := Prod.mk.inj (Except.ok.inj h)
      obtain ⟨hnum, hid, hb₁⟩ := issue_ok h₁
      obtain ⟨hnums, hids, hb₂⟩ := ih h₂
      refine ⟨.cons hnum hnums, ?_, ?_⟩
      · rw [List.map_cons, hids, hid, List.length_cons, List.range'_succ, hb₁]
        simp
      · rw [hb₂, hb₁]
        simp

/-- The plan of a run on an order's row. -/
def planOf (b : Books) (order : Order) (hint : SyncHint) : BooksPlan :=
  planBooks (booksState b order) hint.fromStatus

/-- What a run that found the order's row did. -/
structure Synced (b b' : Books) (order : Order) (hint : SyncHint) (now : Instant)
    (ds : List FinancialDocument) : Prop where
  papers : List.Forall₂ Numbered (plannedPapers b order hint (planOf b order hint) now) ds
  ids : ds.map (·.id) = List.range' b.docs.length ds.length
  docs : b'.docs = b.docs ++ ds
  sources : b'.toPaperSources = b.toPaperSources
  cashIn : (planOf b order hint).codCashIn = true →
    CashLedger.post b.cash (codEntry order now) = .ok b'.cash
  noCash : (planOf b order hint).codCashIn = false → b'.cash = b.cash

theorem plannedPapers_of_isEmpty {b : Books} {order : Order} {hint : SyncHint} {now : Instant}
    {plan : BooksPlan} (h : plan.isEmpty) : plannedPapers b order hint plan now = [] := by
  simp only [BooksPlan.isEmpty, Bool.and_eq_true, Bool.not_eq_true', Option.isNone_iff_eq_none] at h
  simp [plannedPapers, h.1.1.1, h.1.1.2, h.1.2]

/-- **Everything a run of the issuer did.** -/
theorem syncIn_ok {b b' : Books} {orderId : OrderId} {hint : SyncHint} {now : Instant}
    {r : SyncResult} (h : syncIn b orderId hint now = .ok (b', r)) :
    (Rows.lookup Order.id orderId b.orders = none ∧ b' = b) ∨
      ∃ order ds, Rows.lookup Order.id orderId b.orders = some order ∧
        Synced b b' order hint now ds := by
  unfold syncIn at h
  cases hl : Rows.lookup Order.id orderId b.orders with
  | none =>
      simp only [hl] at h
      exact .inl ⟨rfl, (Prod.mk.inj (Except.ok.inj h)).1.symm⟩
  | some order =>
      simp only [hl] at h
      refine .inr ⟨order, ?_⟩
      split at h
      · rename_i hempty
        obtain rfl := (Prod.mk.inj (Except.ok.inj h)).1
        refine ⟨[], rfl, ?_, rfl, (List.append_nil _).symm, rfl, ?_, fun _ => rfl⟩
        · rw [planOf, plannedPapers_of_isEmpty hempty]
          exact .nil
        · intro hcod
          simp only [BooksPlan.isEmpty, Bool.and_eq_true, Bool.not_eq_true'] at hempty
          rw [planOf, hempty.2] at hcod
          cases hcod
      · obtain ⟨⟨b₁, ds⟩, h₁, h⟩ := Result.bind_ok.mp h
        obtain ⟨cash, hcash, h⟩ := Result.bind_ok.mp h
        obtain rfl := (Prod.mk.inj (Except.ok.inj h)).1
        obtain ⟨hnums, hids, hb₁⟩ := issueAll_ok _ h₁
        have hsame : b₁.cash = b.cash := by rw [hb₁]
        refine ⟨ds, rfl, hnums, hids, by rw [hb₁], by rw [hb₁], ?_, ?_⟩
        · intro hcod
          rw [planOf] at hcod
          rw [bookCashIn, if_pos hcod] at hcash
          rw [← hsame]
          exact hcash
        · intro hcod
          rw [planOf] at hcod
          rw [bookCashIn, if_neg (by simp [hcod])] at hcash
          rw [← hsame]
          exact (Except.ok.inj hcash).symm

theorem syncIn_shipments {b b' : Books} {orderId : OrderId} {hint : SyncHint} {now : Instant}
    {r : SyncResult} (h : syncIn b orderId hint now = .ok (b', r)) : b'.shipments = b.shipments := by
  unfold syncIn at h
  split at h
  · rw [(Prod.mk.inj (Except.ok.inj h)).1]
  simp only at h
  split at h
  · rw [(Prod.mk.inj (Except.ok.inj h)).1]
  obtain ⟨⟨b₁, ds⟩, h₁, h⟩ := Result.bind_ok.mp h
  obtain ⟨cash, -, h⟩ := Result.bind_ok.mp h
  obtain rfl := (Prod.mk.inj (Except.ok.inj h)).1
  show b₁.shipments = b.shipments
  rw [(issueAll_ok _ h₁).2.2]

/-! ### What a plan calls for -/

section plans

variable {b : Books} {order : Order} {hint : SyncHint} {now : Instant}

theorem papersOf_perm (b : Books) (o : OrderId) : (papersOf b o).Perm (docsOf b o) :=
  List.perm_insertionSort _ _

theorem mem_credited_papersOf {o : OrderId} {i : DocId} :
    i ∈ credited (papersOf b o) ↔ i ∈ credited (docsOf b o) :=
  ((papersOf_perm b o).filterMap _).mem_iff

/-- The live invoice the issuer finds is an uncredited one. -/
theorem mem_uncredited_of_liveInvoice {o : OrderId} {inv : FinancialDocument}
    (h : liveInvoice (papersOf b o) = some inv) : inv ∈ uncredited (docsOf b o) := by
  have hmem : inv ∈ papersOf b o := List.mem_reverse.mp (List.mem_of_find?_eq_some h)
  have hprop := List.find?_some h
  simp only [Bool.and_eq_true, decide_eq_true_eq] at hprop
  refine mem_uncredited.mpr ⟨(papersOf_perm b o).mem_iff.mp hmem, hprop.1, ?_⟩
  intro hc
  exact hprop.2 (mem_credited_papersOf.mpr hc)

/-- The issuer finds no live invoice exactly when none is uncredited. -/
theorem liveInvoice_eq_none {o : OrderId} :
    liveInvoice (papersOf b o) = none ↔ uncredited (docsOf b o) = [] := by
  constructor
  · intro h
    rw [liveInvoice, List.find?_eq_none] at h
    rw [List.eq_nil_iff_forall_not_mem]
    intro x hx
    obtain ⟨hmem, hk, hnot⟩ := mem_uncredited.mp hx
    refine h x (List.mem_reverse.mpr ((papersOf_perm b o).mem_iff.mpr hmem)) ?_
    simp only [hk, Bool.and_eq_true, decide_eq_true_eq]
    exact ⟨trivial, fun hc => hnot (mem_credited_papersOf.mp hc)⟩
  · intro h
    cases hl : liveInvoice (papersOf b o) with
    | none => rfl
    | some inv =>
        have := mem_uncredited_of_liveInvoice hl
        rw [h] at this
        cases this

theorem receipt_papersOf {o : OrderId} :
    (papersOf b o).any (·.kind = .receipt) = false ↔ receiptsOf (docsOf b o) = [] := by
  rw [List.any_eq_false, receiptsOf, List.filter_eq_nil_iff]
  constructor
  · intro h x hx
    exact h x ((papersOf_perm b o).mem_iff.mpr hx)
  · intro h x hx
    exact h x ((papersOf_perm b o).mem_iff.mp hx)

/-- A receipt is due: the order's money is in and there is no receipt yet. -/
def receiptDue (b : Books) (order : Order) : Bool :=
  !(papersOf b order.id).any (·.kind = .receipt) &&
    moneyIn order.paymentMethod order.status (order.paymentStatus ≠ .unpaid)

/-- A live order gets its invoice, and its receipt once the money is in. -/
theorem plannedPapers_live (h : order.status.isLive) :
    plannedPapers b order hint (planOf b order hint) now =
      (if (liveInvoice (papersOf b order.id)).isSome then []
        else [snapshotBase b.toPaperSources order .invoice now]) ++
      if receiptDue b order then [snapshotBase b.toPaperSources order .receipt now] else [] := by
  have hdead : order.status.isDead = false := by
    cases hs : order.status <;> simp_all [OrderStatus.isLive, OrderStatus.isDead]
  have hcredit : (planOf b order hint).credit = none := by
    simp [planOf, planBooks, booksState, hdead]
  have hinv : (planOf b order hint).invoice = !(liveInvoice (papersOf b order.id)).isSome := by
    simp [planOf, planBooks, booksState, h]
  have hrec : (planOf b order hint).receipt = receiptDue b order := by
    cases hl : liveInvoice (papersOf b order.id) <;>
      simp [planOf, planBooks, booksState, h, receiptDue, hl]
  rw [plannedPapers, hcredit, hinv, hrec]
  cases (liveInvoice (papersOf b order.id)).isSome <;> simp

/-- A cancelled or returned order gets a credit note for the invoice still open. -/
theorem plannedPapers_dead (h : order.status.isDead) :
    plannedPapers b order hint (planOf b order hint) now =
      match liveInvoice (papersOf b order.id) with
      | none => []
      | some inv => [creditNote order hint ((papersOf b order.id).any (·.kind = .receipt)) inv
          ⟨reverseCourier order.status (order.cancelledFrom.orElse fun _ => hint.fromStatus)⟩ now] := by
  have hlive : order.status.isLive = false := by
    cases hs : order.status <;> simp_all [OrderStatus.isLive, OrderStatus.isDead]
  have hinv : (planOf b order hint).invoice = false := by
    simp [planOf, planBooks, booksState, hlive]
  have hrec : (planOf b order hint).receipt = false := by
    simp [planOf, planBooks, booksState, hlive]
  rw [plannedPapers, hinv, hrec]
  cases hl : liveInvoice (papersOf b order.id) with
  | none => cases (planOf b order hint).credit <;> simp
  | some inv => simp [planOf, planBooks, booksState, h, hl]

/-- A pending order gets nothing. -/
theorem plannedPapers_pending (h : order.status = .pending) :
    plannedPapers b order hint (planOf b order hint) now = [] := by
  have hempty : (planOf b order hint).isEmpty := by
    simp [planOf, planBooks, booksState, h, BooksPlan.isEmpty, OrderStatus.isLive, OrderStatus.isDead]
  exact plannedPapers_of_isEmpty hempty

end plans

end BookHouse
