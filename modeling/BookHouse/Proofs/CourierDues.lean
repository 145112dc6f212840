/-
What the courier is owed for an order comes to its courier cost, and a payment settles it.

The invoice freezes the courier cost and a credit note takes it back only when the parcel
never left, so once an order was handed over its papers say what it cost.  A payment takes
the cost as it stands, and there is at most one live payment.  Both are the same amount as
long as nobody changes the bill of an order that has papers.
-/
import BookHouse.Proofs.CodSettlement

namespace BookHouse

open DocumentIssuer CourierDesk

/-! ### An order's share -/

/-- What the papers of an order say its courier cost. -/
def courierAccrued (b : Books) (i : OrderId) : Money :=
  ((docsOf b i).map (·.courierAccrual)).sum

/-- What was paid the courier for an order. -/
def courierPaidFor (entries : List CashTransaction) (i : OrderId) : Money :=
  ((entries.filter (·.orderId = some i)).map (·.courierPaid)).sum

/-- What an order adds to the payable of `payables`, before it is cut off at zero. -/
def courierShare (b : Books) (i : OrderId) : Money :=
  courierAccrued b i - courierPaidFor b.cash.entries i

/-- The payments of an order's courier that count. -/
def courierPayments (c : Cashbook) (i : OrderId) : List CashTransaction :=
  CashLedger.live c (CashbookService.courierMatch i)

/-- The order was handed to the courier, and possibly voided after that. -/
def Order.wentOut (o : Order) : Bool :=
  o.status.isShipped || (o.status.isDead && o.cancelledFrom.any (·.isShipped))

structure CourierSettles (b : Books) (o : Order) : Prop where
  due : courierPayments b.cash o.id = [] → courierShare b o.id = o.courierCost
  paid : courierPayments b.cash o.id ≠ [] → courierShare b o.id = 0

/-- The shipments of an order come to what it already says, or it has no papers. -/
def keepsCost (b : Books) (rows : List Shipment) (o : Order) : Bool :=
  (docsOf b o.id).isEmpty || (ShipmentsService.courierBill rows o.id).all (· = o.courierCost)

/-- An assignment or update of shipments leaves the bill of an order with papers. -/
def DuesAction.keepsBill (s : CourierDesk) : DuesAction → Bool
  | .assign dto now =>
      (Rows.lookup Order.id dto.orderId s.orders).all fun o =>
        (ShipmentsService.findCourier s.tables dto.courier).all fun courier =>
          keepsCost s.books (ShipmentsService.assignedRows s.tables o courier dto now) o
  | .update id dto now =>
      (Rows.lookup Shipment.id id s.books.shipments).all fun cur =>
        (Rows.lookup Order.id cur.orderId s.orders).all fun o =>
          keepsCost s.books
            (Rows.modify Shipment.id id (ShipmentsService.updated dto now) s.books.shipments) o
  | _ => true

/-! ### Payments of the courier -/

structure CourierCash (c : Cashbook) : Prop where
  kept : CashLedger.Kept c
  /-- a payment goes out and is no transfer -/
  single : ∀ e ∈ c.entries, e.kind = .courierPayment → e.reversesId = none →
    e.direction = .out ∧ e.transferGroupId = none
  one : ∀ i, (courierPayments c i).length ≤ 1
  paid : ∀ i, courierPaidFor c.entries i =
    CashLedger.liveSum (CashbookService.courierMatch i).holds c.entries

section cash

variable {c c' : Cashbook} {e : PostEntry} {i : OrderId}

theorem courierMatch_holds {x : CashTransaction} :
    (CashbookService.courierMatch i).holds x =
      (x.orderId = some i && x.kind = .courierPayment && x.direction = .out) := by
  rw [Bool.eq_iff_iff, CashLedger.holds_iff]
  simp [CashbookService.courierMatch, and_assoc]

theorem courierPaidFor_append {entries : List CashTransaction} {x : CashTransaction} :
    courierPaidFor (entries ++ [x]) i =
      courierPaidFor entries i + if x.orderId = some i then x.courierPaid else 0 := by
  rw [courierPaidFor, List.filter_append, List.map_append, List.sum_append, courierPaidFor]
  congr 1
  by_cases hx : x.orderId = some i <;> simp [hx]

namespace CourierCash

/-- A posting of something else. -/
theorem other (h : CourierCash c) (hk : e.kind ≠ .courierPayment) (hr : e.reversesId = none)
    (hpost : CashLedger.post c e = .ok c') :
    CourierCash c' ∧ ∀ i, courierPayments c' i = courierPayments c i := by
  have hsame : ∀ i, courierPayments c' i = courierPayments c i := by
    intro i
    refine CashLedger.live_post_other h.kept.sound hr (fun id acc => ?_) hpost
    rw [courierMatch_holds]
    simp [PostEntry.row, hk]
  obtain ⟨-, acc, hent⟩ := CashLedger.post_ok hpost
  refine ⟨⟨h.kept.post (by simp [hr]) hpost, ?_, fun i => hsame i ▸ h.one i, fun i => ?_⟩, hsame⟩
  · intro x hx hkx hrx
    rw [hent, List.mem_append, List.mem_singleton] at hx
    rcases hx with hx | rfl
    · exact h.single x hx hkx hrx
    · exact absurd hkx hk
  · have hsum : CashLedger.liveSum (CashbookService.courierMatch i).holds c'.entries =
        CashLedger.liveSum (CashbookService.courierMatch i).holds c.entries :=
      congrArg (fun l => (l.map (·.amount)).sum) (hsame i)
    rw [hsum, ← h.paid i, hent, courierPaidFor_append]
    have hzero : (e.row c.entries.length acc).courierPaid = 0 := by
      simp [CashTransaction.courierPaid, PostEntry.row, hk]
    rw [hzero, ite_self, add_zero]

/-- A payment where there was none is the only one. -/
theorem pay {order : Order} {amount : Money} (h : CourierCash c)
    (hnone : CashLedger.has c (CashbookService.courierMatch order.id) = false)
    (he : CourierEntry order amount e) (hpost : CashLedger.post c e = .ok c') :
    CourierCash c' ∧ (∀ x ∈ courierPayments c' order.id, x.amount = round2 amount) ∧
      ∀ i, i ≠ order.id → courierPayments c' i = courierPayments c i := by
  have hlive := fun i => CashLedger.live_post (m := CashbookService.courierMatch i) h.kept.sound
    he.original hpost
  have hholds : ∀ i id acc, (CashbookService.courierMatch i).holds (e.row id acc) =
      decide (order.id = i) := by
    intro i id acc
    rw [courierMatch_holds]
    simp [PostEntry.row, he.orderId, he.kind, he.direction]
  have hother : ∀ i, i ≠ order.id → courierPayments c' i = courierPayments c i := by
    intro i hi
    obtain ⟨acc, hl⟩ := hlive i
    rw [courierPayments, hl, hholds, if_neg (by simpa using fun hc => hi hc.symm), List.append_nil]
    rfl
  obtain ⟨acc, hl⟩ := hlive order.id
  rw [hholds, if_pos (by simp), CashLedger.has_eq_false.mp hnone, List.nil_append] at hl
  obtain ⟨-, acc', hent⟩ := CashLedger.post_ok hpost
  refine ⟨⟨h.kept.post (by simp [he.original]) hpost, ?_, fun i => ?_, fun i => ?_⟩, ?_, hother⟩
  · intro x hx hkx hrx
    rw [hent, List.mem_append, List.mem_singleton] at hx
    rcases hx with hx | rfl
    · exact h.single x hx hkx hrx
    · exact ⟨he.direction, he.single⟩
  · by_cases hi : i = order.id
    · rw [hi, courierPayments, hl]
      exact le_refl _
    · rw [hother i hi]
      exact h.one i
  · have hfresh : ∀ y ∈ c.entries, y.reversesId ≠ some (e.row c.entries.length acc').id := by
      intro y hy hc
      exact absurd (h.kept.sound y hy _ hc) (lt_irrefl _)
    rw [hent, courierPaidFor_append, h.paid i,
      CashLedger.liveSum_append (r := e.row c.entries.length acc') he.original hfresh, hholds]
    congr 1
    by_cases hi : order.id = i
    · have hmine : (e.row c.entries.length acc').orderId = some i := he.orderId.trans (congrArg _ hi)
      rw [if_pos hmine, if_pos (decide_eq_true hi)]
      simp [CashTransaction.courierPaid, PostEntry.row, he.kind, he.direction]
    · have hnot : (e.row c.entries.length acc').orderId ≠ some i := by
        intro hc
        exact hi (Option.some.inj (he.orderId.symm.trans hc))
      rw [if_neg hnot, if_neg (by simpa using hi)]
  · intro x hx
    rw [courierPayments, hl, List.mem_singleton] at hx
    rw [hx]
    exact congrArg round2 he.amount

/-- A payment that is reversed counts no longer. -/
theorem reverse {id : EntryId} {reason : String} {group : ℕ} {now : Instant} (h : CourierCash c)
    (hkind : (Rows.lookup CashTransaction.id id c.entries).any (·.kind = .courierPayment))
    (hrev : CashbookService.reverse c id reason group now = .ok c') :
    CourierCash c' ∧ (∀ i, ∀ x ∈ courierPayments c' i, x ∈ courierPayments c i) ∧
      ∀ x ∈ c'.entries, ∀ i, x.orderId = some i → ∃ y ∈ c.entries, y.orderId = some i := by
  obtain ⟨orig, hok, hfold⟩ := CashbookService.reverse_ok hrev
  have hk : orig.kind = .courierPayment := by
    rw [hok.found] at hkind
    simpa using hkind
  have horig := Rows.mem_of_lookup hok.found
  obtain ⟨hout, hsingle⟩ := h.single orig horig hk hok.original
  simp only [CashbookService.legs, hsingle] at hfold
  obtain ⟨c₁, hleg, hnil⟩ := Result.foldlM_cons_ok.mp hfold
  obtain rfl := Result.foldlM_nil_ok.mp hnil
  unfold CashbookService.reverseLeg at hleg
  split at hleg
  · cases hleg
  obtain ⟨hent, -⟩ := CashLedger.post_onto rfl hleg
  have hsub : ∀ i, ∀ x ∈ courierPayments c₁ i, x ∈ courierPayments c i := by
    intro i x hx
    obtain ⟨hmem, hholds, hlive⟩ := CashLedger.mem_live.mp hx
    rw [hent] at hmem hlive
    rw [CashLedger.isLive_append, Bool.and_eq_true] at hlive
    rcases List.mem_append.mp hmem with hmem | hmem
    · exact CashLedger.mem_live.mpr ⟨hmem, hholds, hlive.1⟩
    · have hdead := hlive.1
      rw [List.mem_singleton.mp hmem] at hdead
      simp [CashLedger.isLive, PostEntry.row] at hdead
  have hlive : CashLedger.isLive c.entries orig := by
    simp only [CashLedger.isLive, Bool.and_eq_true, Option.isNone_iff_eq_none, Bool.not_eq_true',
      List.any_eq_false, decide_eq_true_eq]
    exact ⟨hok.original, hok.unreversed⟩
  refine ⟨⟨h.kept.post ?_ hleg, ?_, fun i => ?_, fun i => ?_⟩, hsub, ?_⟩
  · intro i hi
    obtain rfl : orig.id = i := Option.some.inj hi
    exact h.kept.id_lt horig
  · intro x hx hkx hrx
    rw [hent, List.mem_append, List.mem_singleton] at hx
    rcases hx with hx | rfl
    · exact h.single x hx hkx hrx
    · cases hrx
  · exact (CashbookService.reverse_live_le hrev).trans (h.one i)
  · rw [hent, courierPaidFor_append, h.paid i,
      CashLedger.liveSum_reverse h.kept.nodup horig hlive rfl, courierMatch_holds, sub_eq_add_neg]
    congr 1
    have hamount : round2 orig.amount = orig.amount := h.kept.places orig horig
    by_cases hi : orig.orderId = some i
    · simp [CashTransaction.courierPaid, PostEntry.row, CashbookService.opposite, hi, hk, hout, hamount]
    · simp [PostEntry.row, hi]
  · intro x hx i hi
    rw [hent, List.mem_append, List.mem_singleton] at hx
    rcases hx with hx | rfl
    · exact ⟨x, hx, hi⟩
    · exact ⟨orig, horig, hi⟩

end CourierCash

end cash

/-! ### The papers of one order -/

/-- What papers and payments say of an order, before its papers are brought up to date. -/
structure Due (b : Books) (o : Order) : Prop where
  places : Paisa o.courierCost
  pending : o.status = .pending → docsOf b o.id = [] ∧ courierPayments b.cash o.id = []
  live : o.status.isLive →
    (docsOf b o.id = [] ∧ courierPayments b.cash o.id = []) ∨
      (uncredited (docsOf b o.id) ≠ [] ∧ courierAccrued b o.id = o.courierCost)
  /-- an order that was voided after the hand-over keeps its courier cost -/
  dead : o.status.isDead → ∃ origin, o.cancelledFrom = some origin ∧
    (origin = .pending → docsOf b o.id = []) ∧ (origin ≠ .pending → docsOf b o.id ≠ []) ∧
      (origin.isShipped → courierAccrued b o.id = o.courierCost)
  payments : docsOf b o.id ≠ [] → ∀ e ∈ courierPayments b.cash o.id, e.amount = o.courierCost

section due

variable {b b' : Books} {o row : Order} {hint : SyncHint} {now : Instant}
  {ds : List FinancialDocument}

/-- The parts of an order that its courier's bill depends on. -/
theorem Due.of_same (h : Due b o) (hid : row.id = o.id) (hcost : row.courierCost = o.courierCost)
    (hstatus : row.status = o.status) (horigin : row.cancelledFrom = o.cancelledFrom) : Due b row := by
  refine ⟨by rw [hcost]; exact h.places, ?_, ?_, ?_, ?_⟩
  · rw [hstatus, hid]
    exact h.pending
  · rw [hstatus, hid, hcost]
    exact h.live
  · rw [hstatus, hid, hcost, horigin]
    exact h.dead
  · rw [hid, hcost]
    exact h.payments

/-- Other books that say the same of the order. -/
theorem Due.of_books (h : Due b o) (hdocs : docsOf b' o.id = docsOf b o.id)
    (hcash : ∀ e ∈ courierPayments b'.cash o.id, e ∈ courierPayments b.cash o.id) : Due b' o := by
  have hnil : courierPayments b.cash o.id = [] → courierPayments b'.cash o.id = [] := by
    intro hnone
    refine List.eq_nil_iff_forall_not_mem.mpr fun e he => ?_
    simpa [hnone] using hcash e he
  have haccrued : courierAccrued b' o.id = courierAccrued b o.id := by
    rw [courierAccrued, hdocs, courierAccrued]
  refine ⟨h.places, ?_, ?_, ?_, ?_⟩
  · intro hp
    rw [hdocs]
    exact ⟨(h.pending hp).1, hnil (h.pending hp).2⟩
  · intro hl
    rw [hdocs, haccrued]
    exact (h.live hl).imp_left fun hnone => ⟨hnone.1, hnil hnone.2⟩
  · rw [hdocs, haccrued]
    exact h.dead
  · rw [hdocs]
    exact fun hne e he => h.payments hne e (hcash e he)

/-- **A change of the row, other than a reopen.** -/
theorem Due.changed (h : Due b o) (hup : UpToDate b o) (hbilled : row.billed = o.billed)
    (hmove : StatusMove o row hint) (hclosed : o.status.isDead → row.status.isDead) : Due b row := by
  have hid : row.id = o.id := Order.billed_id hbilled
  have hcost : row.courierCost = o.courierCost :=
    have hc : row.billed.courierCost = o.billed.courierCost := congrArg _ hbilled
    hc
  have hlive : o.status.isDead = false → o.status ≠ .pending →
      uncredited (docsOf b o.id) ≠ [] ∧ courierAccrued b o.id = o.courierCost := by
    intro hopen hne
    have hl : o.status.isLive := by
      cases hs : o.status <;> simp_all [OrderStatus.isLive, OrderStatus.isDead]
    refine (h.live hl).resolve_left fun hnone => ?_
    have hone := hup.live hl
    rw [hnone.1] at hone
    cases hone
  have hdocs : uncredited (docsOf b o.id) ≠ [] → docsOf b o.id ≠ [] := by
    intro hne hnil
    rw [hnil] at hne
    exact hne rfl
  have hpayments : docsOf b row.id ≠ [] → ∀ e ∈ courierPayments b.cash row.id,
      e.amount = row.courierCost := by
    rw [hid, hcost]
    exact h.payments
  have hplaces : Paisa row.courierCost := by
    rw [hcost]
    exact h.places
  cases hmove with
  | stay status origin loss credit => exact h.of_same hid hcost status origin
  | forward openOrder live loss credit =>
      refine ⟨hplaces, ?_, fun _ => ?_, ?_, hpayments⟩
      · intro hp
        rw [hp] at live
        cases live
      · rw [hid, hcost]
        by_cases hp : o.status = .pending
        · exact .inl (h.pending hp)
        · exact .inr (hlive openOrder hp)
      · intro hd
        cases hs : row.status <;> simp_all [OrderStatus.isLive, OrderStatus.isDead]
  | void openOrder dead origin pending credit =>
      refine ⟨hplaces, ?_, ?_, fun _ => ⟨o.status, origin, ?_, ?_, ?_⟩, hpayments⟩
      · intro hp
        rw [hp] at dead
        cases dead
      · intro hl
        cases hs : row.status <;> simp_all [OrderStatus.isLive, OrderStatus.isDead]
      · rw [hid]
        exact fun hp => (h.pending hp).1
      · rw [hid]
        exact fun hne => hdocs (hlive openOrder hne).1
      · rw [hid, hcost]
        intro hshipped
        refine (hlive openOrder fun hp => ?_).2
        rw [hp] at hshipped
        cases hshipped
  | reopen dead target loss credit =>
      have hdead := hclosed dead
      rcases target with ht | ht
      · rw [ht] at hdead
        cases hdead
      · rw [ht] at hdead
        cases hdead

/-- The bill of an order without papers may change, and that of another may not. -/
theorem Due.rebilled {bill : Money} (h : Due b o) (hplaces : Paisa bill)
    (hkeeps : docsOf b o.id = [] ∨ bill = o.courierCost) :
    UpToDate b o → Due b { o with courierCost := bill } := by
  intro hup
  rcases hkeeps with hnil | rfl
  · refine ⟨hplaces, h.pending, fun hl => ?_, fun hd => ?_, fun hne => absurd hnil hne⟩
    · have hone := hup.live hl
      rw [hnil] at hone
      cases hone
    · obtain ⟨origin, horigin, hpending, hother, -⟩ := h.dead hd
      refine ⟨origin, horigin, hpending, hother, fun hshipped => ?_⟩
      have hne : origin ≠ .pending := by
        intro hp
        rw [hp] at hshipped
        cases hshipped
      exact absurd hnil (hother hne)
  · exact h

theorem courierAccrual_numbered {p d : FinancialDocument} (h : Numbered p d) :
    d.courierAccrual = p.courierAccrual := by
  rw [h]
  rfl

theorem accrual_numbered {ps : List FinancialDocument} (h : List.Forall₂ Numbered ps ds) :
    (ds.map (·.courierAccrual)).sum = (ps.map (·.courierAccrual)).sum := by
  induction h with
  | nil => rfl
  | cons hd _ ih => rw [List.map_cons, List.sum_cons, List.map_cons, List.sum_cons, ih,
      courierAccrual_numbered hd]

theorem courierAccrued_synced (hs : Synced b b' row hint now ds) :
    courierAccrued b' row.id = courierAccrued b row.id +
      ((plannedPapers b row hint (planOf b row hint) now).map (·.courierAccrual)).sum := by
  rw [courierAccrued, hs.docsOf_self, List.map_append, List.sum_append, accrual_numbered hs.papers]
  rfl

/-- **The issuer freezes the courier cost once, and takes it back unless the parcel left.** -/
theorem Due.synced (h : Due b row) (hb : BooksInv b) (hs : Synced b b' row hint now ds)
    (hcash : courierPayments b'.cash row.id = courierPayments b.cash row.id) : Due b' row := by
  have haccrued := courierAccrued_synced hs
  refine ⟨h.places, fun hp => ?_, fun hl => .inr ?_, fun hd => ?_, ?_⟩
  · rw [hs.pending hp, hcash]
    exact h.pending hp
  · refine ⟨fun hnil => ?_, ?_⟩
    · have hone := (hs.live hb hl).2
      rw [hnil] at hone
      cases hone
    rw [haccrued, plannedPapers_live hl, List.map_append, List.sum_append]
    have hreceipt : ((if receiptDue b row then [snapshotBase b.toPaperSources row .receipt now]
        else []).map (·.courierAccrual)).sum = 0 := by
      split
      · simp [FinancialDocument.courierAccrual, snapshotBase]
      · rfl
    rw [hreceipt, add_zero]
    rcases h.live hl with ⟨hnil, -⟩ | ⟨hne, hcost⟩
    · -- the first run on a live order: the invoice is drawn from the row
      have hnone : liveInvoice (papersOf b row.id) = none := liveInvoice_eq_none.mpr (by rw [hnil]; rfl)
      rw [hnone, courierAccrued, hnil]
      simp [FinancialDocument.courierAccrual, snapshotBase]
    · cases hinv : liveInvoice (papersOf b row.id) with
      | none => exact absurd (liveInvoice_eq_none.mp hinv) hne
      | some inv => simp [hcost]
  · obtain ⟨origin, horigin, hpending, hother, hshipped⟩ := h.dead hd
    refine ⟨origin, horigin, fun hp => ?_, fun hne hnil => ?_, fun hout => ?_⟩
    · have hnil := hpending hp
      have hnone : liveInvoice (papersOf b row.id) = none := liveInvoice_eq_none.mpr (by rw [hnil]; rfl)
      have hpapers := hs.papers
      rw [plannedPapers_dead hd, hnone] at hpapers
      cases hpapers
      rw [hs.docsOf_self, hnil, List.append_nil]
    · rw [hs.docsOf_self] at hnil
      exact hother hne (List.append_eq_nil_iff.mp hnil).1
    · rw [haccrued, plannedPapers_dead hd, hshipped hout]
      cases hinv : liveInvoice (papersOf b row.id) with
      | none => simp
      | some inv =>
          have hkeeps : reverseCourier row.status (row.cancelledFrom.orElse fun _ => hint.fromStatus) =
              false := by
            simp [reverseCourier, horigin, hout]
          rw [hkeeps]
          simp [FinancialDocument.courierAccrual, creditNote]
  · rw [hcash]
    intro hne e he
    by_cases hnil : docsOf b row.id = []
    · -- papers of an order that had none: it just became live, and nothing was paid
      by_cases hl : row.status.isLive
      · rcases h.live hl with ⟨-, hnone⟩ | ⟨hun, -⟩
        · simp [hnone] at he
        · rw [hnil] at hun
          exact absurd rfl hun
      · by_cases hp : row.status = .pending
        · rw [hs.pending hp] at hne
          exact absurd hnil hne
        · have hd : row.status.isDead := by
            cases hst : row.status <;> simp_all [OrderStatus.isLive, OrderStatus.isDead]
          have hnone : liveInvoice (papersOf b row.id) = none :=
            liveInvoice_eq_none.mpr (by rw [hnil]; rfl)
          have hpapers := hs.papers
          rw [plannedPapers_dead hd, hnone] at hpapers
          cases hpapers
          rw [hs.docsOf_self, hnil] at hne
          exact absurd rfl hne
    · exact h.payments hnil e he

/-- What papers and payments say of an order that went out. -/
theorem Due.settles (h : Due b o) (hup : UpToDate b o) (hcash : CourierCash b.cash)
    (hout : o.wentOut) : CourierSettles b o := by
  have hpapers : docsOf b o.id ≠ [] ∧ courierAccrued b o.id = o.courierCost := by
    simp only [Order.wentOut, Bool.or_eq_true, Bool.and_eq_true] at hout
    rcases hout with hshipped | ⟨hd, horigin⟩
    · have hl : o.status.isLive := by
        cases hs : o.status <;> simp_all [OrderStatus.isLive, OrderStatus.isShipped]
      have hone := hup.live hl
      have hne : uncredited (docsOf b o.id) ≠ [] := by
        intro hnil
        rw [hnil] at hone
        cases hone
      refine ⟨fun hnil => hne (by rw [hnil]; rfl), ?_⟩
      rcases h.live hl with ⟨hnil, -⟩ | ⟨-, hcost⟩
      · rw [hnil] at hne
        exact absurd rfl hne
      · exact hcost
    · obtain ⟨origin, ho, -, hother, hcost⟩ := h.dead hd
      rw [ho] at horigin
      have hshipped : origin.isShipped := horigin
      refine ⟨hother fun hp => ?_, hcost hshipped⟩
      rw [hp] at hshipped
      cases hshipped
  obtain ⟨hdocs, haccrued⟩ := hpapers
  have hsum : courierPaidFor b.cash.entries o.id =
      ((courierPayments b.cash o.id).map (·.amount)).sum := hcash.paid o.id
  refine ⟨fun hnone => ?_, fun hne => ?_⟩
  · rw [courierShare, haccrued, hsum, hnone]
    simp
  · obtain ⟨e, he⟩ := List.length_eq_one_iff.mp
      (le_antisymm (hcash.one o.id) (List.length_pos_iff.mpr hne))
    have hamount := h.payments hdocs e (by rw [he]; exact List.mem_singleton_self e)
    rw [courierShare, haccrued, hsum, he]
    simp [hamount]

end due

/-! ### Every order of the desk -/

structure DuesRows (s : CourierDesk) : Prop where
  ids : s.orders.map (·.id) = List.range s.orders.length
  books : BooksInv s.books
  cash : CourierCash s.books.cash
  docsOf : ∀ d ∈ s.books.docs, d.orderId < s.orders.length
  entriesOf : ∀ e ∈ s.books.cash.entries, ∀ i, e.orderId = some i → i < s.orders.length
  charged : ∀ r ∈ s.books.shipments, r.Charged
  dues : ∀ o ∈ s.orders, Due s.books o

structure DuesInv (s : CourierDesk) : Prop extends DuesRows s where
  upToDate : ∀ o ∈ s.orders, UpToDate s.books o

section desk

variable {s s' : CourierDesk} {now : Instant}

theorem UpToDate.of_docs {b b' : Books} {o : Order} (h : UpToDate b o)
    (hdocs : BookHouse.docsOf b' o.id = BookHouse.docsOf b o.id) : UpToDate b' o := by
  refine ⟨?_, ?_⟩
  · rw [hdocs]
    exact h.live
  · rw [hdocs]
    exact h.dead

theorem DuesRows.the (h : DuesRows s) {i : OrderId} {o x : Order}
    (hl : Rows.lookup Order.id i s.orders = some o) (hx : x ∈ s.orders) (hid : x.id = i) : x = o := by
  have hnd : (s.orders.map (·.id)).Nodup := by
    rw [h.ids]
    exact List.nodup_range
  exact List.inj_on_of_nodup_map hnd hx (Rows.mem_of_lookup hl)
    (hid.trans (Rows.key_of_lookup hl).symm)

/-- Books that have the same papers say the same of every order. -/
theorem docsOf_same {b b' : Books} (h : b'.docs = b.docs) (i : OrderId) :
    BookHouse.docsOf b' i = BookHouse.docsOf b i := by
  rw [BookHouse.docsOf, h, BookHouse.docsOf]

/-- **A run of the issuer brings the order's papers up to date, and leaves the others'.** -/
theorem DuesRows.synced {i : OrderId} {hint : SyncHint} (h : DuesRows s)
    (hup : ∀ o ∈ s.orders, o.id ≠ i → UpToDate s.books o) (hs : s.sync i hint now = some s') :
    DuesInv s' := by
  obtain ⟨hsame, r, hsync⟩ := sync_ok hs
  have hcurrent : BooksInv s.shop.current := h.books.of_docs rfl h.books.cod
  obtain ⟨hinv, hself⟩ := syncIn_inv hcurrent hsync
  rcases syncIn_ok hsync with ⟨hnone, hb⟩ | ⟨order, ds, hl, hd⟩
  · -- no such order
    have hbooks : s'.books.docs = s.books.docs ∧ s'.books.cash = s.books.cash := by
      rw [hb]
      exact ⟨rfl, rfl⟩
    have hmiss : ∀ o ∈ s.orders, o.id ≠ i := by
      intro o ho hid
      have hfound : (Rows.lookup Order.id i s.orders).isSome :=
        Rows.lookup_isSome.mpr (List.mem_map.mpr ⟨o, ho, hid⟩)
      rw [show Rows.lookup Order.id i s.orders = none from hnone] at hfound
      cases hfound
    refine ⟨⟨?_, hinv, hbooks.2 ▸ h.cash, ?_, ?_, ?_, fun o ho => ?_⟩, fun o ho => ?_⟩
    · rw [hsame.orders]
      exact h.ids
    · rw [hbooks.1, hsame.orders]
      exact h.docsOf
    · rw [hbooks.2, hsame.orders]
      exact h.entriesOf
    · rw [hsame.shipments]
      exact h.charged
    · rw [hsame.orders] at ho
      exact (h.dues o ho).of_books (docsOf_same hbooks.1 _) fun e he => by rwa [hbooks.2] at he
    · rw [hsame.orders] at ho
      exact (hup o ho (hmiss o ho)).of_docs (docsOf_same hbooks.1 _)
  have horder : order ∈ s.orders := Rows.mem_of_lookup hl
  have hid : order.id = i := Rows.key_of_lookup hl
  have hcash : CourierCash s'.books.cash ∧
      (∀ j, courierPayments s'.books.cash j = courierPayments s.books.cash j) ∧
      ∀ e ∈ s'.books.cash.entries, ∀ j, e.orderId = some j → j < s.orders.length := by
    cases hcod : (planOf s.shop.current order hint).codCashIn with
    | false =>
        have hsamecash : s'.books.cash = s.books.cash := hd.noCash hcod
        rw [hsamecash]
        exact ⟨h.cash, fun _ => rfl, h.entriesOf⟩
    | true =>
        have hpost : CashLedger.post s.books.cash (codEntry order now) = .ok s'.books.cash :=
          hd.cashIn hcod
        obtain ⟨hc, hpayments⟩ := h.cash.other (by simp [codEntry]) rfl hpost
        refine ⟨hc, hpayments, fun e he j hj => ?_⟩
        obtain ⟨-, acc, hent⟩ := CashLedger.post_ok hpost
        rw [hent, List.mem_append, List.mem_singleton] at he
        rcases he with he | rfl
        · exact h.entriesOf e he j hj
        · obtain rfl : order.id = j := Option.some.inj hj
          have hmem : order.id ∈ s.orders.map (·.id) := List.mem_map_of_mem horder
          rw [h.ids] at hmem
          exact List.mem_range.mp hmem
  obtain ⟨hcash, hpayments, hentries⟩ := hcash
  have hthe : ∀ o ∈ s.orders, o.id = order.id → o = order := fun o ho heq =>
    h.the hl ho (heq.trans hid)
  refine ⟨⟨?_, hinv, hcash, ?_, ?_, ?_, fun o ho => ?_⟩, fun o ho => ?_⟩
  · rw [hsame.orders]
    exact h.ids
  · rw [hsame.orders]
    intro d hdoc
    rw [hd.docs, List.mem_append] at hdoc
    rcases hdoc with hold | hnew
    · exact h.docsOf d hold
    · rw [hd.orderId d hnew]
      have hmem : order.id ∈ s.orders.map (·.id) := List.mem_map_of_mem horder
      rw [h.ids] at hmem
      exact List.mem_range.mp hmem
  · rw [hsame.orders]
    exact hentries
  · rw [hsame.shipments]
    exact h.charged
  · rw [hsame.orders] at ho
    by_cases hmine : o.id = order.id
    · rw [hthe o ho hmine]
      have hdue : Due s.shop.current order :=
        (h.dues order horder).of_books (docsOf_same rfl _) fun _ he => he
      exact hdue.synced hcurrent hd (hpayments _)
    · refine (h.dues o ho).of_books (hd.docsOf_other hmine) fun e he => ?_
      rwa [hpayments] at he
  · rw [hsame.orders] at ho
    by_cases hmine : o.id = order.id
    · rw [hthe o ho hmine]
      exact (hself order hl).2
    · exact (hup o ho fun hc => hmine (hc.trans hid.symm)).of_docs (hd.docsOf_other hmine)

/-- Books that the call before the issuer's run left alone. -/
theorem DuesRows.rows (h : DuesInv s) (hdocs : s'.books.docs = s.books.docs)
    (hcash : s'.books.cash = s.books.cash) (hids : s'.orders.map (·.id) = List.range s'.orders.length)
    (hlength : s.orders.length ≤ s'.orders.length) (hcharged : ∀ r ∈ s'.books.shipments, r.Charged)
    (hdues : ∀ o ∈ s'.orders, Due s.books o) : DuesRows s' := by
  refine ⟨hids, h.books.of_docs hdocs (hcash ▸ h.books.cod), hcash ▸ h.cash, ?_, ?_, hcharged,
    fun o ho => ?_⟩
  · rw [hdocs]
    exact fun d hd => (h.docsOf d hd).trans_le hlength
  · rw [hcash]
    exact fun e he i hi => (h.entriesOf e he i hi).trans_le hlength
  · exact (hdues o ho).of_books (docsOf_same hdocs _) fun e he => by rwa [hcash] at he

theorem DuesInv.placed {req : ZonedOrder} {o : Order} (h : DuesInv s) (hp : CourierDesk.Placed s req o s')
    (hlive : docsOf s.books o.id = [] ∧ courierPayments s.books.cash o.id = []) : DuesRows s' := by
  refine DuesRows.rows h (by rw [hp.books]) (by rw [hp.books]) ?_ ?_ ?_ fun x hx => ?_
  · rw [hp.orders, List.map_append, h.ids, List.map_singleton, hp.id, List.length_append,
      List.length_singleton, List.range_succ]
  · rw [hp.orders, List.length_append]
    exact Nat.le_add_right _ _
  · rw [hp.books]
    exact h.charged
  · rw [hp.orders, List.mem_append, List.mem_singleton] at hx
    rcases hx with hx | rfl
    · exact h.dues x hx
    · refine ⟨?_, fun _ => hlive, fun hl => ?_, fun hd => ?_, fun hne => absurd hlive.1 hne⟩
      · rw [hp.cost, ← req.zoneCost]
        exact round2_paisa _
      · rw [hp.status] at hl
        cases hl
      · rw [hp.status] at hd
        cases hd

/-- An order that is not there yet has no papers and no payments. -/
theorem DuesInv.fresh (h : DuesInv s) : docsOf s.books s.orders.length = [] ∧
    courierPayments s.books.cash s.orders.length = [] := by
  constructor
  · refine List.filter_eq_nil_iff.mpr fun d hd hc => ?_
    have hlt := h.docsOf d hd
    rw [of_decide_eq_true hc] at hlt
    exact lt_irrefl _ hlt
  · refine List.filter_eq_nil_iff.mpr fun e he hc => ?_
    rw [courierMatch_holds] at hc
    simp only [Bool.and_eq_true, decide_eq_true_eq] at hc
    exact lt_irrefl _ (h.entriesOf e he _ hc.1.1.1)

theorem DuesInv.changed {i : OrderId} {c : OrderChange} {hint : SyncHint} {o row : Order}
    (h : DuesInv s) (hc : Changed s i c hint o row s') (hclosed : c.reopens = false) :
    DuesRows s' ∧ ∀ x ∈ s'.orders, x.id ≠ i → UpToDate s'.books x := by
  have ho := Rows.mem_of_lookup hc.found
  have hbilled := OrderChange.row_billed hc.moved
  have hid : row.id = o.id := Order.billed_id hbilled
  have hrow : Due s.books row := by
    refine (h.dues o ho).changed (h.upToDate o ho) hbilled (OrderChange.row_move hc.moved) ?_
    exact OrderChange.row_stays_dead hc.moved hclosed
  refine ⟨DuesRows.rows h hc.docs hc.cash ?_ ?_ ?_ ?_, ?_⟩
  · rw [hc.orders, Rows.length_modify, ← h.ids]
    refine Rows.map_modify_of_mem fun x hx hxi => ?_
    rw [h.the hc.found hx hxi]
    exact hid
  · rw [hc.orders, Rows.length_modify]
  · rw [hc.shipments]
    exact h.charged
  · rw [hc.orders]
    exact Rows.forall_modify h.dues fun _ _ => hrow
  · intro x hx hne
    rw [hc.orders] at hx
    obtain ⟨y, hy, rfl⟩ := List.mem_map.mp hx
    by_cases hyi : y.id = i
    · rw [if_pos hyi] at hne
      exact absurd (hid.trans (Rows.key_of_lookup hc.found)) hne
    · rw [if_neg hyi]
      exact (h.upToDate y hy).of_docs (docsOf_same hc.docs _)

theorem DuesInv.billed {i : OrderId} {rows : List Shipment} (h : DuesInv s)
    (hb : Billed s i rows s') (hrows : ∀ r ∈ rows, r.Charged)
    (hkeeps : ∀ o ∈ s.orders, o.id = i → keepsCost s.books rows o = true) :
    DuesRows s' ∧ ∀ x ∈ s'.orders, x.id ≠ i → UpToDate s'.books x := by
  have hcases : s'.orders = s.orders ∨ ∃ bill, ShipmentsService.courierBill rows i = some bill ∧
      s'.orders = Rows.modify Order.id i (fun o => { o with courierCost := bill }) s.orders := by
    have horders := hb.orders
    cases hbill : ShipmentsService.courierBill rows i with
    | none =>
        rw [hbill] at horders
        exact .inl horders
    | some bill =>
        rw [hbill] at horders
        exact .inr ⟨bill, rfl, horders⟩
  have hcharged : ∀ r ∈ s'.books.shipments, r.Charged := by
    rw [hb.shipments]
    exact hrows
  rcases hcases with horders | ⟨bill, hbill, horders⟩
  · refine ⟨DuesRows.rows h hb.docs hb.cash ?_ ?_ hcharged ?_, ?_⟩
    · rw [horders]
      exact h.ids
    · rw [horders]
    · rw [horders]
      exact h.dues
    · rw [horders]
      exact fun x hx _ => (h.upToDate x hx).of_docs (docsOf_same hb.docs _)
  · refine ⟨DuesRows.rows h hb.docs hb.cash ?_ ?_ hcharged ?_, ?_⟩
    · rw [horders, Rows.length_modify, ← h.ids]
      exact Rows.map_modify fun _ => rfl
    · rw [horders, Rows.length_modify]
    · rw [horders]
      intro x hx
      obtain ⟨y, hy, rfl⟩ := List.mem_map.mp hx
      by_cases hyi : y.id = i
      · rw [if_pos hyi]
        have hk := hkeeps y hy hyi
        rw [keepsCost, hyi, hbill] at hk
        simp only [Option.all_some, Bool.or_eq_true, List.isEmpty_iff, decide_eq_true_eq] at hk
        exact (h.dues y hy).rebilled (ShipmentsService.bill_paisa hrows hbill) (hyi ▸ hk)
          (h.upToDate y hy)
      · rw [if_neg hyi]
        exact h.dues y hy
    · intro x hx hne
      rw [horders] at hx
      obtain ⟨y, hy, rfl⟩ := List.mem_map.mp hx
      by_cases hyi : y.id = i
      · rw [if_pos hyi] at hne
        exact absurd hyi hne
      · rw [if_neg hyi]
        exact (h.upToDate y hy).of_docs (docsOf_same hb.docs _)

/-- A call that only posts to the cashbook. -/
theorem DuesInv.posted (h : DuesInv s) (hsame : SameRows s s') (hdocs : s'.books.docs = s.books.docs)
    (hone : OneCod s'.books.cash) (hcash : CourierCash s'.books.cash)
    (hentries : ∀ e ∈ s'.books.cash.entries, ∀ i, e.orderId = some i → i < s.orders.length)
    (hdues : ∀ o ∈ s.orders, Due s'.books o) : DuesInv s' := by
  refine ⟨⟨?_, h.books.of_docs hdocs hone, hcash, ?_, ?_, ?_, ?_⟩, ?_⟩
  · rw [hsame.orders]
    exact h.ids
  · rw [hdocs, hsame.orders]
    exact h.docsOf
  · rw [hsame.orders]
    exact hentries
  · rw [hsame.shipments]
    exact h.charged
  · rw [hsame.orders]
    exact hdues
  · rw [hsame.orders]
    exact fun o ho => (h.upToDate o ho).of_docs (docsOf_same hdocs _)

theorem DuesInv.payed {dto : CourierPaymentDto} (h : DuesInv s) (hamount : dto.amount = none)
    (hs : s.courierPayment dto now = some s') : DuesInv s' := by
  obtain ⟨order, e, hl, hpending, hnone, he, hpost, hsame, hdocs⟩ := courierPayment_ok hs
  have ho := Rows.mem_of_lookup hl
  rw [hamount, Option.getD_none] at he
  obtain ⟨hcash, hmine, hothers⟩ := h.cash.pay hnone he hpost
  have hplaces : round2 order.courierCost = order.courierCost :=
    round2_of_paisa (h.dues order ho).places
  refine h.posted hsame hdocs (OneCod.post h.books.cod (.inr (by rw [he.kind]; decide)) hpost) hcash
    ?_ fun o hmem => ?_
  · intro x hx i hi
    obtain ⟨-, acc, hent⟩ := CashLedger.post_ok hpost
    rw [hent, List.mem_append, List.mem_singleton] at hx
    rcases hx with hx | rfl
    · exact h.entriesOf x hx i hi
    · obtain rfl : order.id = i := Option.some.inj (he.orderId.symm.trans hi)
      have hid : order.id ∈ s.orders.map (·.id) := List.mem_map_of_mem ho
      rw [h.ids] at hid
      exact List.mem_range.mp hid
  · have hdocsOf := docsOf_same hdocs o.id
    by_cases hid : o.id = order.id
    · have heq : o = order := h.the hl hmem (hid.trans (Rows.key_of_lookup hl))
      obtain rfl := heq
      have hdue := h.dues o hmem
      have hacc : courierAccrued s'.books o.id = courierAccrued s.books o.id := by
        rw [courierAccrued, hdocsOf, courierAccrued]
      refine ⟨hdue.places, fun hp => absurd hp hpending, fun hlive => ?_, ?_, fun _ x hx => ?_⟩
      · rw [hdocsOf, hacc]
        refine .inr ((hdue.live hlive).resolve_left fun hnil => ?_)
        have hone := (h.upToDate o hmem).live hlive
        rw [hnil.1] at hone
        cases hone
      · rw [hdocsOf, hacc]
        exact hdue.dead
      · rw [hmine x hx, hplaces]
    · refine (h.dues o hmem).of_books hdocsOf fun x hx => ?_
      rwa [hothers _ hid] at hx

theorem DuesInv.reversed {id : EntryId} {reason : String} {group : ℕ} (h : DuesInv s)
    (hkind : s.isCourierPayment id) (hs : s.reverse id reason group now = some s') : DuesInv s' := by
  obtain ⟨hrev, hsame, hdocs⟩ := CourierDesk.reverse_ok hs
  obtain ⟨hcash, hsub, horders⟩ := h.cash.reverse hkind hrev
  refine h.posted hsame hdocs (fun o => (CashbookService.reverse_live_le hrev).trans (h.books.cod o))
    hcash ?_ fun o ho => (h.dues o ho).of_books (docsOf_same hdocs _) (hsub o.id)
  intro x hx i hi
  obtain ⟨y, hy, ho⟩ := horders x hx i hi
  exact h.entriesOf y hy i ho

/-! ### Every run -/

theorem duesStep_inv {a : DuesAction} (h : DuesInv s) (hok : a.keepsBill s = true)
    (hstep : duesStep s a = some s') : DuesInv s' := by
  cases a with
  | place req now =>
      obtain ⟨s₁, hplace, hsync⟩ := Option.bind_eq_some_iff.mp hstep
      obtain ⟨o, hp⟩ := place_ok hplace
      refine (h.placed hp (hp.id ▸ h.fresh)).synced (fun x hx hne => ?_) hsync
      rw [hp.orders, List.mem_append, List.mem_singleton] at hx
      rcases hx with hx | rfl
      · exact (h.upToDate x hx).of_docs (docsOf_same (by rw [hp.books]) _)
      · exact absurd hp.id hne
  | change orderId c now =>
      simp only [duesStep] at hstep
      split at hstep
      · cases hstep
      rename_i hclosed
      obtain ⟨⟨s₁, hint⟩, hchange, hsync⟩ := Option.bind_eq_some_iff.mp hstep
      obtain ⟨o, row, hc⟩ := change_ok hchange
      obtain ⟨hrows, hup⟩ := h.changed hc ((Bool.not_eq_true _).mp hclosed)
      exact hrows.synced hup hsync
  | assign dto now =>
      obtain ⟨s₁, hassign, hsync⟩ := Option.bind_eq_some_iff.mp hstep
      obtain ⟨order, courier, hl, hcourier, -, -, hb⟩ := assign_ok hassign
      have hid := Rows.key_of_lookup hl
      obtain ⟨hrows, hup⟩ := h.billed hb (ShipmentsService.charged_assigned h.charged)
        fun o ho heq => by
          obtain rfl := h.the hl ho (heq.trans hid)
          simpa [DuesAction.keepsBill, hl, hcourier] using hok
      exact hrows.synced (hid ▸ hup) hsync
  | update id dto now =>
      obtain ⟨cur, hl, hstep⟩ := Option.bind_eq_some_iff.mp hstep
      obtain ⟨s₁, hupdate, hsync⟩ := Option.bind_eq_some_iff.mp hstep
      obtain ⟨cur', hl', hb⟩ := update_ok hupdate
      obtain rfl := Option.some.inj (hl.symm.trans hl')
      obtain ⟨hrows, hup⟩ := h.billed hb (ShipmentsService.charged_updated (t := s.tables) h.charged)
        fun o ho heq => by
          have hnd : (s.orders.map (·.id)).Nodup := by
            rw [h.ids]
            exact List.nodup_range
          have hlo := Rows.lookup_of_mem hnd ho
          rw [heq] at hlo
          simpa [DuesAction.keepsBill, hl, hlo] using hok
      exact hrows.synced hup hsync
  | pay orderId accountId memo occurredAt now => exact h.payed rfl hstep
  | reverse id reason group now =>
      simp only [duesStep] at hstep
      split at hstep
      · rename_i hkind
        exact h.reversed hkind hstep
      · cases hstep
  | settings couriers zones =>
      obtain rfl := Option.some.inj hstep
      exact ⟨⟨h.ids, h.books, h.cash, h.docsOf, h.entriesOf, h.charged, h.dues⟩, h.upToDate⟩

/-- A desk that nothing was sold or shipped at yet. -/
structure CourierDesk.Opening (s : CourierDesk) : Prop where
  shop : s.shop.New
  shipments : s.books.shipments = []

theorem CourierDesk.Opening.duesInv (h : s.Opening) : DuesInv s := by
  have horders : s.orders = [] := h.shop.orders
  have hdocs : s.books.docs = [] := h.shop.books.docs
  have hentries : s.books.cash.entries = [] := h.shop.books.entries
  have hcash : CourierCash s.books.cash := by
    refine ⟨.nil hentries, by simp [hentries], ?_, ?_⟩
    · simp [courierPayments, CashLedger.live, hentries]
    · simp [courierPaidFor, CashLedger.liveSum, hentries]
  exact ⟨⟨by simp [horders], h.shop.books.inv, hcash, by simp [hdocs], by simp [hentries],
    by simp [h.shipments], by simp [horders]⟩, by simp [horders]⟩

end desk

/-- **The courier's due settles**, in every run that leaves the bill of orders with papers. -/
theorem courier_due_settles (s t : CourierDesk) (as : List DuesAction) (hs : s.Opening)
    (hguard : Machine.GuardedRun duesStep (fun s a => a.keepsBill s = true) s as)
    (hrun : Machine.runFrom duesStep s as = some t) :
    ∀ o ∈ t.orders, o.wentOut → CourierSettles t.books o := by
  have ht : DuesInv t := Machine.guarded_invariant
    (fun _ _ _ hi ha hstep => duesStep_inv hi ha hstep) as s t hs.duesInv hguard hrun
  intro o ho hout
  exact (ht.dues o ho).settles (ht.upToDate o ho) ht.cash hout

/-! ### A charge that is known too late -/

/-- A desk with a courier, a zone and a till. -/
def dueDesk : CourierDesk where
  shop :=
    { store := { products := [{ id := 1, title := "পথের পাঁচালী", price := 500, stockOnHand := 3 }] },
      books := { cash := { accounts := [{ id := 0, code := "cash", name := "ক্যাশ" }] } } }
  couriers := [{ id := 0, code := "pathao", name := "Pathao" }]
  zones := codDesk.zones

/-- A book of 500; the zone's courier charges 50. -/
def dueOrder : ZonedOrder := codOrder

/-- Confirmed, given to a courier at a charge and handed over. -/
def sentAt (charge : Option Charge) : List DuesAction :=
  [.place dueOrder 0, .change 0 (.transition { toStatus := .confirmed } .staff 1) 1,
   .assign { orderId := 0, courier := .code "pathao", deliveryCharge := charge } 2,
   .change 0 (.transition { toStatus := .handedToCourier } .staff 3) 3]

def eighty : Charge where
  amount := 80
  nonneg := by decide +kernel
  places := by decide +kernel

theorem dueDesk_opening : dueDesk.Opening := ⟨⟨rfl, rfl, rfl⟩, rfl⟩

/-- At the zone's charge the due is 50, and after the payment it is zero. -/
theorem courier_due_settles_zone : ∃ t o,
    Machine.runFrom duesStep dueDesk (sentAt none ++ [.pay 0 0 none (some 4) 4]) = some t ∧
    o ∈ t.orders ∧ o.status = .handedToCourier ∧ courierPayments t.books.cash o.id ≠ [] ∧
    CourierSettles t.books o := by
  have hguard : Machine.GuardedRun duesStep (fun s a => a.keepsBill s = true) dueDesk
      (sentAt none ++ [.pay 0 0 none (some 4) 4]) := by
    decide +kernel
  have hruns : (Machine.runFrom duesStep dueDesk (sentAt none ++ [.pay 0 0 none (some 4) 4])).any
      (fun t => t.orders.any fun o => decide (o.status = .handedToCourier) &&
        !(courierPayments t.books.cash o.id).isEmpty) = true := by
    decide +kernel
  obtain ⟨t, ht, hany⟩ := (Option.any_eq_true _ _).mp hruns
  obtain ⟨o, ho, hvalues⟩ := List.any_eq_true.mp hany
  simp only [Bool.and_eq_true, decide_eq_true_eq, Bool.not_eq_true', List.isEmpty_eq_false_iff]
    at hvalues
  exact ⟨t, o, ht, ho, hvalues.1, hvalues.2,
    courier_due_settles dueDesk t _ dueDesk_opening hguard ht o ho (by rw [Order.wentOut, hvalues.1]; rfl)⟩

/-- A charge of 80 reaches the order and not its invoice: 50 is due of a cost of 80, and paying
the 80 leaves a due of −30. -/
theorem charge_after_invoice : dueDesk.Opening ∧
    (∃ t o, Machine.runFrom duesStep dueDesk (sentAt (some eighty)) = some t ∧ o ∈ t.orders ∧
      o.status = .handedToCourier ∧ courierPayments t.books.cash o.id = [] ∧ o.courierCost = 80 ∧
      courierShare t.books o.id = 50 ∧ ¬ CourierSettles t.books o) ∧
    ∃ t o, Machine.runFrom duesStep dueDesk (sentAt (some eighty) ++ [.pay 0 0 none (some 4) 4]) =
        some t ∧ o ∈ t.orders ∧ courierPayments t.books.cash o.id ≠ [] ∧
      courierShare t.books o.id = -30 ∧ ¬ CourierSettles t.books o := by
  have hdue : (Machine.runFrom duesStep dueDesk (sentAt (some eighty))).any (fun t =>
      t.orders.any fun o => decide (o.status = .handedToCourier) &&
        decide (courierPayments t.books.cash o.id = []) && decide (o.courierCost = 80) &&
          decide (courierShare t.books o.id = 50)) = true := by
    decide +kernel
  have hpaid : (Machine.runFrom duesStep dueDesk
      (sentAt (some eighty) ++ [.pay 0 0 none (some 4) 4])).any (fun t => t.orders.any fun o =>
        !decide (courierPayments t.books.cash o.id = []) &&
          decide (courierShare t.books o.id = -30)) = true := by
    decide +kernel
  refine ⟨dueDesk_opening, ?_, ?_⟩
  · obtain ⟨t, ht, hany⟩ := (Option.any_eq_true _ _).mp hdue
    obtain ⟨o, ho, hvalues⟩ := List.any_eq_true.mp hany
    simp only [Bool.and_eq_true, decide_eq_true_eq] at hvalues
    obtain ⟨⟨⟨hstatus, hnone⟩, hcost⟩, hshare⟩ := hvalues
    refine ⟨t, o, ht, ho, hstatus, hnone, hcost, hshare, fun h => ?_⟩
    have heq := h.due hnone
    rw [hshare, hcost] at heq
    norm_num at heq
  · obtain ⟨t, ht, hany⟩ := (Option.any_eq_true _ _).mp hpaid
    obtain ⟨o, ho, hvalues⟩ := List.any_eq_true.mp hany
    simp only [Bool.and_eq_true, Bool.not_eq_true', decide_eq_true_eq, decide_eq_false_iff_not]
      at hvalues
    refine ⟨t, o, ht, ho, hvalues.1, hvalues.2, fun h => ?_⟩
    have heq := h.paid hvalues.1
    rw [hvalues.2] at heq
    norm_num at heq

end BookHouse
