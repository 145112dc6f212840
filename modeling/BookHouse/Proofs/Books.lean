/-
The papers invariant over whole schedules.

`BooksInv` is what holds between any two calls, of every order at once.  A run of the
issuer keeps it by the appends of `Proofs.Papers`; the COD settlement keeps it because it
books an order's COD only where it finds none; a reversal only takes live entries away;
and nothing else the shop does writes papers or COD money.
-/
import BookHouse.Proofs.Papers

namespace BookHouse

open DocumentIssuer

structure BooksInv (b : Books) : Prop where
  ids : b.docs.map (·.id) = List.range b.docs.length
  papers : ∀ o, PapersOk (docsOf b o)
  cod : ∀ o, (CashLedger.live b.cash (codMatch o)).length ≤ 1

/-- The invoices of an order after its books were brought up to date. -/
structure UpToDate (b : Books) (order : Order) : Prop where
  live : order.status.isLive → (uncredited (docsOf b order.id)).length = 1
  dead : order.status.isDead → uncredited (docsOf b order.id) = []

section synced

variable {b b' : Books} {order : Order} {hint : SyncHint} {now : Instant}
  {ds : List FinancialDocument}

theorem BooksInv.id_lt (h : BooksInv b) {o : OrderId} : ∀ d ∈ docsOf b o, d.id < b.docs.length := by
  intro d hd
  have hmem : d.id ∈ b.docs.map (·.id) := List.mem_map_of_mem (List.mem_of_mem_filter hd)
  rw [h.ids] at hmem
  exact List.mem_range.mp hmem

/-- The next ids are not taken. -/
theorem BooksInv.fresh (h : BooksInv b) {o : OrderId} {i : DocId} (hi : b.docs.length ≤ i) :
    i ∉ (docsOf b o).map (·.id) := by
  intro hmem
  obtain ⟨x, hx, rfl⟩ := List.mem_map.mp hmem
  exact absurd (h.id_lt x hx) (not_lt.mpr hi)

theorem planned_orderId : ∀ p ∈ plannedPapers b order hint (planOf b order hint) now,
    p.orderId = order.id := by
  intro p hp
  simp only [plannedPapers, List.mem_append] at hp
  rcases hp with (hp | hp) | hp
  · split at hp <;> simp_all [snapshotBase]
  · split at hp <;> simp_all [snapshotBase]
  · split at hp
    · rename_i credit inv hcredit hl
      have hinv := (mem_uncredited.mp (mem_uncredited_of_liveInvoice hl)).1
      have ho : inv.orderId = order.id := by simpa [docsOf] using (List.mem_filter.mp hinv).2
      rw [List.mem_singleton.mp hp]
      exact ho
    · cases hp

theorem numbered_forall {ps : List FinancialDocument} {P : FinancialDocument → Prop}
    (hP : ∀ p d, Numbered p d → P p → P d) (h : List.Forall₂ Numbered ps ds)
    (hps : ∀ p ∈ ps, P p) : ∀ d ∈ ds, P d := by
  induction h with
  | nil => intro d hd; cases hd
  | cons hnum _ ih =>
      intro d hd
      rcases List.mem_cons.mp hd with rfl | hd
      · exact hP _ _ hnum (hps _ (List.mem_cons_self ..))
      · exact ih (fun p hp => hps p (List.mem_cons_of_mem _ hp)) d hd

theorem numbered_append {ps qs : List FinancialDocument}
    (h : List.Forall₂ Numbered (ps ++ qs) ds) :
    ∃ ds₁ ds₂, ds = ds₁ ++ ds₂ ∧ List.Forall₂ Numbered ps ds₁ ∧ List.Forall₂ Numbered qs ds₂ := by
  induction ps generalizing ds with
  | nil => exact ⟨[], ds, rfl, .nil, h⟩
  | cons p rest ih =>
      cases h with
      | @cons _ d _ _ hd hrest =>
          obtain ⟨ds₁, ds₂, rfl, h₁, h₂⟩ := ih hrest
          exact ⟨d :: ds₁, ds₂, rfl, .cons hd h₁, h₂⟩

theorem Synced.orderId (h : Synced b b' order hint now ds) : ∀ d ∈ ds, d.orderId = order.id :=
  numbered_forall (fun p d hnum hp => by rw [hnum]; exact hp) h.papers planned_orderId

theorem Synced.docsOf_self (h : Synced b b' order hint now ds) :
    docsOf b' order.id = docsOf b order.id ++ ds := by
  rw [docsOf, h.docs, List.filter_append, docsOf]
  congr 1
  exact List.filter_eq_self.mpr fun d hd => by simpa using h.orderId d hd

theorem Synced.docsOf_other (h : Synced b b' order hint now ds) {o : OrderId}
    (ho : o ≠ order.id) : docsOf b' o = docsOf b o := by
  rw [docsOf, h.docs, List.filter_append, docsOf]
  have hnone : ds.filter (fun d => decide (d.orderId = o)) = [] := by
    rw [List.filter_eq_nil_iff]
    intro d hd
    simpa [h.orderId d hd] using fun hc => ho hc.symm
  rw [hnone, List.append_nil]

theorem Synced.ids_range (hb : BooksInv b) (h : Synced b b' order hint now ds) :
    b'.docs.map (·.id) = List.range b'.docs.length := by
  rw [h.docs, List.map_append, hb.ids, h.ids, List.length_append, List.range_eq_range',
    List.range_eq_range', ← List.range'_append]
  simp

/-- The invoice part of a run on a live order. -/
theorem PapersOk.invoiced (hb : BooksInv b)
    (hnum : List.Forall₂ Numbered
      (if (liveInvoice (papersOf b order.id)).isSome then []
        else [snapshotBase b.toPaperSources order .invoice now]) ds)
    (hids : ∀ d ∈ ds, b.docs.length ≤ d.id) :
    PapersOk (docsOf b order.id ++ ds) ∧
      (uncredited (docsOf b order.id ++ ds)).length = 1 ∧
      receiptsOf (docsOf b order.id ++ ds) = receiptsOf (docsOf b order.id) := by
  have hok := hb.papers order.id
  cases hl : liveInvoice (papersOf b order.id) with
  | some inv =>
      simp only [hl, Option.isSome_some, if_true] at hnum
      cases hnum
      rw [List.append_nil]
      have hpos := List.length_pos_of_mem (mem_uncredited_of_liveInvoice hl)
      exact ⟨hok, le_antisymm hok.oneLive hpos, rfl⟩
  | none =>
      simp only [hl, Option.isSome_none, Bool.false_eq_true, if_false] at hnum
      cases hnum with
      | @cons p d _ _ hd hrest =>
          cases hrest
          have hkind : d.kind = .invoice := by rw [hd]; rfl
          have hfresh := hb.fresh (o := order.id) (hids d (List.mem_singleton.mpr rfl))
          obtain ⟨hnew, hlive⟩ := hok.append_invoice hfresh hkind (liveInvoice_eq_none.mp hl)
          refine ⟨hnew, by rw [hlive]; rfl, ?_⟩
          simp [receiptsOf, hkind]

/-- The receipt part of a run on a live order. -/
theorem PapersOk.receipted {before : List FinancialDocument}
    (hok : PapersOk before) (hrec : receiptsOf before = receiptsOf (docsOf b order.id))
    (hbelow : ∀ d ∈ ds, d.id ∉ before.map (·.id))
    (hnum : List.Forall₂ Numbered
      (if receiptDue b order then [snapshotBase b.toPaperSources order .receipt now] else []) ds) :
    PapersOk (before ++ ds) ∧ uncredited (before ++ ds) = uncredited before := by
  cases hdue : receiptDue b order with
  | false =>
      simp only [hdue, Bool.false_eq_true, if_false] at hnum
      cases hnum
      rw [List.append_nil]
      exact ⟨hok, rfl⟩
  | true =>
      simp only [hdue, if_true] at hnum
      cases hnum with
      | @cons p d _ _ hd hrest =>
          cases hrest
          have hkind : d.kind = .receipt := by rw [hd]; rfl
          have hnone : receiptsOf before = [] := by
            rw [hrec, ← receipt_papersOf]
            simp only [receiptDue, Bool.and_eq_true, Bool.not_eq_true'] at hdue
            exact hdue.1
          refine ⟨hok.append_receipt (hbelow d (List.mem_singleton.mpr rfl)) hkind hnone, ?_⟩
          exact uncredited_append_receipt hkind

theorem Synced.live (hb : BooksInv b) (h : Synced b b' order hint now ds)
    (hlive : order.status.isLive) :
    PapersOk (docsOf b' order.id) ∧ (uncredited (docsOf b' order.id)).length = 1 := by
  have hnums := h.papers
  rw [plannedPapers_live hlive] at hnums
  obtain ⟨ds₁, ds₂, rfl, h₁, h₂⟩ := numbered_append hnums
  have hids : ∀ d ∈ ds₁ ++ ds₂, b.docs.length ≤ d.id := by
    intro d hd
    have hmem : d.id ∈ (ds₁ ++ ds₂).map (·.id) := List.mem_map_of_mem hd
    rw [h.ids, List.mem_range'_1] at hmem
    exact hmem.1
  obtain ⟨hok, hone, hrec⟩ := PapersOk.invoiced hb h₁ fun d hd => hids d (List.mem_append_left _ hd)
  have hnodup : ((ds₁ ++ ds₂).map (·.id)).Nodup := h.ids ▸ List.nodup_range'
  have hbelow : ∀ d ∈ ds₂, d.id ∉ (docsOf b order.id ++ ds₁).map (·.id) := by
    intro d hd hmem
    rw [List.map_append, List.mem_append] at hmem
    rcases hmem with hmem | hmem
    · exact hb.fresh (hids d (List.mem_append_right _ hd)) hmem
    · rw [List.map_append, List.nodup_append] at hnodup
      exact hnodup.2.2 _ hmem _ (List.mem_map_of_mem hd) rfl
  obtain ⟨hok', hsame⟩ := PapersOk.receipted hok hrec hbelow h₂
  rw [h.docsOf_self, ← List.append_assoc]
  exact ⟨hok', by rw [hsame, hone]⟩

theorem Synced.dead (hb : BooksInv b) (h : Synced b b' order hint now ds)
    (hdead : order.status.isDead) :
    PapersOk (docsOf b' order.id) ∧ uncredited (docsOf b' order.id) = [] := by
  have hnums := h.papers
  rw [plannedPapers_dead hdead] at hnums
  rw [h.docsOf_self]
  cases hl : liveInvoice (papersOf b order.id) with
  | none =>
      simp only [hl] at hnums
      cases hnums
      rw [List.append_nil]
      exact ⟨hb.papers order.id, liveInvoice_eq_none.mp hl⟩
  | some inv =>
      simp only [hl] at hnums
      cases hnums with
      | @cons p d _ _ hd hrest =>
          cases hrest
          have hid : d.id = b.docs.length := by simpa using h.ids
          refine (hb.papers order.id).append_credit (hb.fresh hid.ge) (by rw [hd]; rfl)
            (mem_uncredited_of_liveInvoice hl) (by rw [hd]; rfl) ?_
          rw [hd]
          exact ⟨rfl, rfl, rfl, rfl, rfl, rfl, rfl⟩

theorem Synced.pending (h : Synced b b' order hint now ds) (hp : order.status = .pending) :
    docsOf b' order.id = docsOf b order.id := by
  have hnums := h.papers
  rw [plannedPapers_pending hp] at hnums
  cases hnums
  rw [h.docsOf_self, List.append_nil]

end synced

/-! ### COD money -/

section cod

variable {b b' : Books}

theorem codMatch_holds {o : OrderId} {e : PostEntry} {id : EntryId} {acc : AccountId} :
    (codMatch o).holds (e.row id acc) =
      (e.orderId = some o && e.kind = .codRemittance && e.direction = .in_) := by
  rw [Bool.eq_iff_iff, CashLedger.holds_iff]
  simp [codMatch, PostEntry.row, and_assoc]

/-- A posting is COD money of one order at most; the others' is as before. -/
theorem post_cod {c c' : Cashbook} {e : PostEntry} {o : OrderId} (h : CashLedger.post c e = .ok c')
    (hold : (CashLedger.live c (codMatch o)).length ≤ 1)
    (hnone : e.orderId = some o → e.kind = .codRemittance →
      CashLedger.live c (codMatch o) = []) :
    (CashLedger.live c' (codMatch o)).length ≤ 1 := by
  by_cases hcod : e.orderId = some o ∧ e.kind = .codRemittance
  · have hle := CashLedger.live_post_le (m := codMatch o) h
    rw [hnone hcod.1 hcod.2] at hle
    exact hle
  · refine le_trans (CashLedger.live_post_not_more (.inr ?_) h) hold
    intro id acc
    rw [codMatch_holds]
    by_contra hc
    simp only [Bool.not_eq_false, Bool.and_eq_true, decide_eq_true_eq] at hc
    exact hcod hc.1

/-- One live COD entry of an order at most. -/
def OneCod (c : Cashbook) : Prop := ∀ o, (CashLedger.live c (codMatch o)).length ≤ 1

theorem OneCod.of_entries {c c' : Cashbook} (h : OneCod c) (he : c'.entries = c.entries) :
    OneCod c' := by
  intro o
  rw [CashLedger.live, he]
  exact h o

/-- A posting of another kind keeps it. -/
theorem OneCod.post {c c' : Cashbook} {e : PostEntry} (h : OneCod c)
    (he : e.orderId = none ∨ e.kind ≠ .codRemittance) (hpost : CashLedger.post c e = .ok c') :
    OneCod c' := by
  intro o
  refine post_cod hpost (h o) fun ho hk => ?_
  rcases he with he | he
  · rw [he] at ho
    cases ho
  · exact absurd hk he

theorem OneCod.bookCod {c c' : Cashbook} {orderNo : OrderId → String} {now : Instant}
    {s : Shipment} (h : OneCod c) (hb : CashbookService.bookCod orderNo now c s = .ok c') :
    OneCod c' := by
  unfold CashbookService.bookCod at hb
  split at hb
  · obtain rfl := Except.ok.inj hb
    exact h
  · rename_i hnot
    intro o
    refine post_cod hb (h o) fun ho _ => ?_
    obtain rfl : s.orderId = o := Option.some.inj ho
    exact CashLedger.has_eq_false.mp (by simpa using hnot)

theorem OneCod.moveReceived {c c' : Cashbook} {cash dest : CashAccount} {received : Money}
    {memo : String} {group : ℕ} {now : Instant} (h : OneCod c)
    (hm : CashbookService.moveReceived c cash dest received memo group now = .ok c') :
    OneCod c' := by
  unfold CashbookService.moveReceived at hm
  split at hm
  · obtain rfl := Except.ok.inj hm
    exact h
  · obtain ⟨c₁, h₁, h₂⟩ := Result.bind_ok.mp hm
    exact (h.post (.inl rfl) h₁).post (.inl rfl) h₂

theorem OneCod.bookDeducted {c c' : Cashbook} {cash : CashAccount} {deducted : Money}
    {memo : String} {now : Instant} (h : OneCod c)
    (hm : CashbookService.bookDeducted c cash deducted memo now = .ok c') : OneCod c' := by
  unfold CashbookService.bookDeducted at hm
  split at hm
  · exact h.post (.inl rfl) hm
  · obtain rfl := Except.ok.inj hm
    exact h

/-- The COD settlement writes no papers and books an order's COD once. -/
theorem codRemittance_inv {dto : CodRemittanceDto} {group : ℕ} {now : Instant}
    (h : OneCod b.cash) (hr : CashbookService.codRemittance b dto group now = .ok b') :
    OneCod b'.cash ∧ b'.docs = b.docs := by
  obtain ⟨⟨c₁, dest⟩, hacc, hr⟩ := Result.bind_ok.mp hr
  have h₁ : OneCod c₁ := h.of_entries (CashLedger.account_entries hacc)
  simp only at hr
  split at hr
  · obtain ⟨c₂, hpost, hr⟩ := Result.bind_ok.mp hr
    obtain rfl := Except.ok.inj hr
    exact ⟨h₁.post (.inl rfl) hpost, rfl⟩
  split at hr
  · cases hr
  split at hr
  · cases hr
  split at hr
  · cases hr
  obtain ⟨c₂, hbook, hr⟩ := Result.bind_ok.mp hr
  obtain ⟨⟨c₃, cash⟩, hcash, hr⟩ := Result.bind_ok.mp hr
  obtain ⟨c₄, hmove, hr⟩ := Result.bind_ok.mp hr
  obtain ⟨c₅, hded, hr⟩ := Result.bind_ok.mp hr
  obtain rfl := Except.ok.inj hr
  refine ⟨?_, rfl⟩
  have h₂ : OneCod c₂ := Result.foldlM_rel (R := fun s t => OneCod s → OneCod t) (fun _ hs => hs)
    (fun _ _ _ hst htu hs => htu (hst hs)) (fun s a t hst hs => hs.bookCod hst) _ _ _ hbook h₁
  have h₃ : OneCod c₃ := h₂.of_entries (CashLedger.account_entries hcash)
  exact (h₃.moveReceived hmove).bookDeducted hded

/-- A run of the issuer books an order's COD only where there is none. -/
theorem Synced.oneCod {order : Order} {hint : SyncHint} {now : Instant}
    {ds : List FinancialDocument} (h : OneCod b.cash) (hs : Synced b b' order hint now ds) :
    OneCod b'.cash := by
  cases hcod : (planOf b order hint).codCashIn with
  | false =>
      rw [hs.noCash hcod]
      exact h
  | true =>
      intro o
      refine post_cod (hs.cashIn hcod) (h o) fun ho _ => ?_
      obtain rfl : order.id = o := Option.some.inj ho
      simp only [planOf, planBooks, booksState, Bool.and_eq_true, Bool.not_eq_true'] at hcod
      exact CashLedger.has_eq_false.mp hcod.2

end cod

/-! ### Every schedule -/

/-- **A run of the issuer keeps the invariant and leaves the order's invoices up to date.** -/
theorem syncIn_inv {b b' : Books} {orderId : OrderId} {hint : SyncHint} {now : Instant}
    {r : SyncResult} (h : BooksInv b) (hs : syncIn b orderId hint now = .ok (b', r)) :
    BooksInv b' ∧ ∀ order, Rows.lookup Order.id orderId b.orders = some order →
      b'.orders = b.orders ∧ UpToDate b' order := by
  rcases syncIn_ok hs with ⟨hnone, rfl⟩ | ⟨order, ds, hl, hsync⟩
  · exact ⟨h, fun order ho => by rw [hnone] at ho; cases ho⟩
  have hself : PapersOk (docsOf b' order.id) ∧ UpToDate b' order := by
    cases hstatus : order.status with
    | pending =>
        rw [hsync.pending hstatus]
        refine ⟨h.papers order.id, ⟨fun hc => ?_, fun hc => ?_⟩⟩
        · rw [hstatus] at hc
          cases hc
        · rw [hstatus] at hc
          cases hc
    | confirmed | processing | handedToCourier | outForDelivery | delivered =>
        have hlive := hsync.live h (by rw [hstatus]; rfl)
        refine ⟨hlive.1, ⟨fun _ => hlive.2, fun hc => ?_⟩⟩
        rw [hstatus] at hc
        cases hc
    | cancelled | returned =>
        have hdead := hsync.dead h (by rw [hstatus]; rfl)
        refine ⟨hdead.1, ⟨fun hc => ?_, fun _ => hdead.2⟩⟩
        rw [hstatus] at hc
        cases hc
  refine ⟨⟨hsync.ids_range h, fun o => ?_, hsync.oneCod h.cod⟩, fun order' ho => ?_⟩
  · by_cases ho : o = order.id
    · rw [ho]
      exact hself.1
    · rw [hsync.docsOf_other ho]
      exact h.papers o
  · obtain rfl := Option.some.inj (hl.symm.trans ho)
    exact ⟨by rw [hsync.sources], hself.2⟩

theorem BooksInv.of_docs {b b' : Books} (h : BooksInv b) (hd : b'.docs = b.docs)
    (hc : OneCod b'.cash) : BooksInv b' := by
  refine ⟨by rw [hd]; exact h.ids, fun o => ?_, hc⟩
  rw [docsOf, hd]
  exact h.papers o

theorem booksStep_inv {b b' : Books} {a : BooksAction} (h : BooksInv b)
    (hstep : booksStep b a = some b') : BooksInv b' := by
  have hcall : a.call b = .ok b' := by
    cases a with
    | post e =>
        simp only [booksStep] at hstep
        split at hstep
        · exact Result.toOption_some.mp hstep
        · cases hstep
    | _ => exact Result.toOption_some.mp hstep
  cases a with
  | change sources accounts counters shipments =>
      obtain rfl := Except.ok.inj hcall
      exact h.of_docs rfl fun o => h.cod o
  | sync orderId hint now =>
      obtain ⟨⟨b₁, r⟩, hs, rfl⟩ := Result.map_ok.mp hcall
      exact (syncIn_inv h hs).1
  | codRemittance dto group now =>
      obtain ⟨hcod, hdocs⟩ := codRemittance_inv h.cod hcall
      exact h.of_docs hdocs hcod
  | reverse id reason group now =>
      obtain ⟨c, hrev, rfl⟩ := Result.map_ok.mp hcall
      exact h.of_docs rfl fun o => (CashbookService.reverse_live_le hrev).trans (h.cod o)
  | post e =>
      obtain ⟨c, hpost, rfl⟩ := Result.map_ok.mp hcall
      have hother : BooksAction.otherFlow e := by
        simp only [booksStep] at hstep
        split at hstep
        · assumption
        · cases hstep
      simp only [BooksAction.otherFlow, Bool.and_eq_true, decide_eq_true_eq] at hother
      exact h.of_docs rfl (OneCod.post h.cod (.inr hother.1) hpost)

/-- Books in which nothing has been written yet. -/
structure Blank (b : Books) : Prop where
  docs : b.docs = []
  entries : b.cash.entries = []

theorem Blank.inv {b : Books} (h : Blank b) : BooksInv b := by
  refine ⟨by rw [h.docs]; rfl, fun o => ?_, fun o => ?_⟩
  · rw [docsOf, h.docs]
    exact PapersOk.nil
  · rw [CashLedger.live, h.entries]
    simp

/-- What the books of one order always say. -/
structure BooksStraight (b : Books) (orderId : OrderId) : Prop where
  /-- the invoices, credit notes and receipts -/
  papers : PapersOk (docsOf b orderId)
  oneCod : (CashLedger.live b.cash (codMatch orderId)).length ≤ 1
  /-- right after a successful run of the issuer the invoices fit the order's status -/
  synced : ∀ hint now b' r order, syncIn b orderId hint now = .ok (b', r) →
    Rows.lookup Order.id orderId b'.orders = some order → UpToDate b' order

/-- **The books of every order are straight in every state of every schedule.** -/
theorem books_straight (b₀ b : Books) (as : List BooksAction) (h : Blank b₀)
    (hrun : Machine.runFrom booksStep b₀ as = some b) (orderId : OrderId) :
    BooksStraight b orderId := by
  have hinv : BooksInv b :=
    Machine.runFrom_invariant (fun _ _ _ hi hs => booksStep_inv hi hs) as b₀ b h.inv hrun
  refine ⟨hinv.papers orderId, hinv.cod orderId, fun hint now b' r order hs hl => ?_⟩
  have hrows : b'.orders = b.orders := by
    rcases syncIn_ok hs with ⟨-, rfl⟩ | ⟨_, _, -, hsync⟩
    · rfl
    · rw [hsync.sources]
  exact ((syncIn_inv hinv hs).2 order (hrows ▸ hl)).2

/-! ### A sale that comes back -/

/-- A COD order is confirmed, delivered and returned; two events are late, one is repeated. -/
def returnedSale : List BooksAction :=
  let row (status : OrderStatus) : PaperSources :=
    { orders := [{ id := 1, orderNo := "CLO-2042", paymentMethod := .cod, status,
                   itemsSubtotal := 500, shippingFee := 60, grandTotal := 560,
                   courierCost := 50, cancelReason := some "ফেরত" }] }
  [.change (row .confirmed) [] [] [], .sync 1 {} 1, .change (row .delivered) [] [] [],
   .sync 1 { fromStatus := some .pending } 2, .sync 1 {} 3, .change (row .returned) [] [] [],
   .sync 1 { fromStatus := some .delivered, credit := some ⟨"ফেরত", 40⟩ } 4]

/-- The books are straight after the sale came back. -/
theorem books_straight_returnedSale :
    ∃ b, Machine.runFrom booksStep {} returnedSale = some b ∧ b.docs.length = 3 ∧
      BooksStraight b 1 := by
  have hruns : (Machine.runFrom booksStep {} returnedSale).map (·.docs.length) = some 3 := by
    decide +kernel
  obtain ⟨b, hb, hlen⟩ := Option.map_eq_some_iff.mp hruns
  exact ⟨b, hb, hlen, books_straight {} b returnedSale ⟨rfl, rfl⟩ hb 1⟩

end BookHouse
