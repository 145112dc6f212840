/-
One run of the issuer is enough, and when it can go wrong.

Everything a run writes is numbered afresh, so papers are never refused; the only thing
that can be is the posting of the COD collection, whose amount has to be positive and
whose account has to be open.  A total of zero taka is a total an order can have, so there
are orders whose books a run can never bring up to date.  A run that does complete leaves
nothing to plan, whatever the next run is told.
-/
import BookHouse.Proofs.Ledger
import BookHouse.Proofs.Numbers
import BookHouse.Proofs.Reports
import BookHouse.Proofs.Sales

namespace BookHouse

open DocumentIssuer

/-! ### Numbers are always fresh -/

/-- The counter that the next number of a scope is taken from. -/
def nextOf (counters : List DocumentCounter) (scope : CounterScope) : DocumentCounter :=
  (Rows.lookup DocumentCounter.scope scope counters).getD scope.fresh

theorem nextOf_next (counters : List DocumentCounter) (scope : CounterScope) :
    nextOf (nextNumber counters scope).2 scope = (nextOf counters scope).after 1 := by
  rw [nextOf, (CounterDesk.nextNumber_eq counters scope rfl).2]
  rfl

theorem nextOf_next_other (counters : List DocumentCounter) {scope other : CounterScope}
    (h : other ≠ scope) : nextOf (nextNumber counters scope).2 other = nextOf counters other := by
  have hkey : ∀ c : DocumentCounter,
      { c with nextValue := c.nextValue + 1 }.scope = c.scope := fun _ => rfl
  have hfresh : scope.fresh.scope = scope := by cases scope <;> rfl
  rw [nextOf, nextNumber, Rows.lookup_modify_ne hkey h]
  split
  · rfl
  · rw [Rows.lookup, List.find?_append, nextOf, Rows.lookup]
    have hskip : [scope.fresh].find? (fun r => decide (r.scope = other)) = none := by
      simp [hfresh, Ne.symm h]
    rw [hskip, Option.or_none]

/-- Numbers of two kinds of papers differ in their first letters. -/
theorem padNo_scope {kind kind' : DocumentKind} {n m w w' : ℕ}
    (h : padNo (counterScope kind).fresh.pfx n w = padNo (counterScope kind').fresh.pfx m w') :
    kind = kind' := by
  obtain ⟨digits, hn, -⟩ := ofDigitChars_padNo (counterScope kind).fresh.pfx n w
  obtain ⟨digits', hm, -⟩ := ofDigitChars_padNo (counterScope kind').fresh.pfx m w'
  have hlist := congrArg (fun s : String => s.toList.take 3) h
  simp only [hn, hm] at hlist
  cases kind <;> cases kind' <;> first | rfl | (simp [counterScope, CounterScope.fresh] at hlist)

/-- Every number given so far is one its counter has passed. -/
structure Numberable (b : Books) : Prop where
  texts : ∀ scope, (nextOf b.counters scope).pfx = scope.fresh.pfx ∧
    (nextOf b.counters scope).padding = scope.fresh.padding
  passed : ∀ d ∈ b.docs, ∃ n < (nextOf b.counters (counterScope d.kind)).nextValue,
    d.docNo = padNo (counterScope d.kind).fresh.pfx n (counterScope d.kind).fresh.padding

theorem Numberable.congr {b b' : Books} (h : Numberable b) (hd : b'.docs = b.docs)
    (hc : b'.counters = b.counters) : Numberable b' := by
  refine ⟨?_, ?_⟩
  · rw [hc]
    exact h.texts
  · rw [hd, hc]
    exact h.passed

theorem issue_eq (b : Books) (paper : FinancialDocument) : issue b paper =
    let number := nextNumber b.counters (counterScope paper.kind)
    let doc := { paper with id := b.docs.length, docNo := number.1 }
    if b.docs.any (·.docNo = number.1) then .error (.unique "financial_documents_doc_no_key")
    else .ok ({ b with docs := b.docs ++ [doc], counters := number.2 }, doc) := rfl

/-- **A paper can always be issued.** -/
theorem Numberable.issue {b : Books} (h : Numberable b) (paper : FinancialDocument) :
    ∃ b' doc, issue b paper = .ok (b', doc) ∧ Numberable b' ∧ b'.cash = b.cash ∧
      b'.toPaperSources = b.toPaperSources := by
  have hnumber := (CounterDesk.nextNumber_eq b.counters (counterScope paper.kind) rfl).1
  obtain ⟨hpfx, hpad⟩ := h.texts (counterScope paper.kind)
  have hfresh : ∀ d ∈ b.docs, d.docNo ≠ (nextNumber b.counters (counterScope paper.kind)).1 := by
    intro d hd hsame
    obtain ⟨n, hn, htext⟩ := h.passed d hd
    rw [hnumber, show (Rows.lookup DocumentCounter.scope (counterScope paper.kind) b.counters).getD _ =
      nextOf b.counters (counterScope paper.kind) from rfl, hpfx, hpad, htext] at hsame
    have hkind := padNo_scope hsame
    rw [hkind] at hsame hn
    exact absurd (padNo_injective _ _ hsame) hn.ne
  have hany : ¬ b.docs.any (fun d =>
      decide (d.docNo = (nextNumber b.counters (counterScope paper.kind)).1)) = true := by
    simpa using hfresh
  refine ⟨_, _, (issue_eq b paper).trans (if_neg hany), ⟨fun scope => ?_, fun d hd => ?_⟩, rfl, rfl⟩
  · by_cases hs : scope = counterScope paper.kind
    · rw [hs, nextOf_next]
      exact ⟨hpfx, hpad⟩
    · rw [nextOf_next_other _ hs]
      exact h.texts scope
  · rcases List.mem_append.mp hd with hold | hnew
    · obtain ⟨n, hn, htext⟩ := h.passed d hold
      refine ⟨n, ?_, htext⟩
      by_cases hs : counterScope d.kind = counterScope paper.kind
      · rw [hs, nextOf_next]
        exact Nat.lt_succ_of_lt (hs ▸ hn)
      · rw [nextOf_next_other _ hs]
        exact hn
    · rw [List.mem_singleton.mp hnew]
      refine ⟨(nextOf b.counters (counterScope paper.kind)).nextValue, ?_, ?_⟩
      · rw [nextOf_next]
        exact Nat.lt_succ_self _
      · rw [← hpfx, ← hpad]
        exact hnumber

theorem Numberable.issueAll : ∀ (papers : List FinancialDocument) {b : Books}, Numberable b →
    ∃ b' ds, issueAll b papers = .ok (b', ds) ∧ Numberable b' ∧ b'.cash = b.cash ∧
      b'.toPaperSources = b.toPaperSources := by
  intro papers
  induction papers with
  | nil => intro b h; exact ⟨b, [], rfl, h, rfl, rfl⟩
  | cons paper rest ih =>
      intro b h
      obtain ⟨b₁, doc, h₁, hn₁, hcash₁, hsrc₁⟩ := h.issue paper
      obtain ⟨b₂, ds, h₂, hn₂, hcash₂, hsrc₂⟩ := ih hn₁
      refine ⟨b₂, doc :: ds, ?_, hn₂, hcash₂.trans hcash₁, hsrc₂.trans hsrc₁⟩
      rw [DocumentIssuer.issueAll, h₁]
      show (DocumentIssuer.issueAll b₁ rest >>= _) = _
      rw [h₂]
      rfl

/-! ### The one posting -/

/-- The COD collection is due: a live COD or cash order with its money in or receipted, and
nothing booked. -/
def codDue (b : Books) (o : Order) : Bool :=
  !o.paymentMethod.isPrepaid && o.status.isLive &&
    (salePaid o || !(receiptsOf (docsOf b o.id)).isEmpty) && (codIn b o.id).isEmpty

/-- The `cash` account takes entries; it is opened on first use. -/
def cashOpen (c : Cashbook) : Bool :=
  (Rows.lookup CashAccount.code SystemAccountCode.cash.code c.accounts).all (·.isActive)

theorem post_cash_iff {c : Cashbook} {e : PostEntry} (hacc : e.account = .accountCode .cash)
    (hrev : e.reversesId = none) :
    (∃ c', CashLedger.post c e = .ok c') ↔ 0 < round2 e.amount ∧ cashOpen c = true := by
  unfold CashLedger.post
  by_cases hpos : round2 e.amount ≤ 0
  · simp [hpos]
  rw [if_neg hpos, hacc, hrev]
  have hamount : 0 < round2 e.amount := not_le.mp hpos
  unfold CashLedger.account cashOpen
  cases hl : Rows.lookup CashAccount.code SystemAccountCode.cash.code c.accounts with
  | none => simp [hl, hamount]
  | some acc =>
      cases ha : acc.isActive with
      | true => simp [hl, ha, hamount]
      | false => simp [hl, ha]

section sync

variable {b b' : Books} {orderId : OrderId} {o : Order} {hint : SyncHint} {now : Instant}

/-- **A run is refused only where the COD collection is due and cannot be posted.** -/
theorem sync_ok_iff (hn : Numberable b) (hl : Rows.lookup Order.id orderId b.orders = some o) :
    (∃ b' r, syncIn b orderId hint now = .ok (b', r)) ↔
      (codDue b o = true → 0 < round2 o.grandTotal ∧ cashOpen b.cash = true) := by
  have hdue : (planBooks (booksState b o) hint.fromStatus).codCashIn = codDue b o := codCashIn_eq
  have hpost := post_cash_iff (c := b.cash) (e := codEntry o now) rfl rfl
  unfold syncIn
  simp only [hl]
  split
  · rename_i hempty
    simp only [BooksPlan.isEmpty, Bool.and_eq_true, Bool.not_eq_true', hdue] at hempty
    simp [hempty.2]
  · obtain ⟨b₁, ds, hall, -, hcash, -⟩ := hn.issueAll
      (plannedPapers b o hint (planBooks (booksState b o) hint.fromStatus) now)
    rw [hall]
    simp only [bind, Except.bind, hcash, bookCashIn, hdue]
    cases codDue b o with
    | false => simp [pure, Except.pure]
    | true =>
        rw [if_pos rfl, show (true = true → _) = _ from propext (forall_prop_of_true rfl)]
        rw [show (codEntry o now).amount = o.grandTotal from rfl] at hpost
        rw [← hpost]
        cases CashLedger.post b.cash (codEntry o now) with
        | error failure => simp
        | ok c => simp [pure, Except.pure]

theorem Numberable.sync {r : SyncResult} (hn : Numberable b)
    (h : syncIn b orderId hint now = .ok (b', r)) : Numberable b' := by
  unfold syncIn at h
  cases hl : Rows.lookup Order.id orderId b.orders with
  | none =>
      simp only [hl] at h
      obtain rfl := (Prod.mk.inj (Except.ok.inj h)).1
      exact hn
  | some o =>
      simp only [hl] at h
      split at h
      · obtain rfl := (Prod.mk.inj (Except.ok.inj h)).1
        exact hn
      · obtain ⟨⟨b₁, ds⟩, h₁, h⟩ := Result.bind_ok.mp h
        obtain ⟨cash, -, h⟩ := Result.bind_ok.mp h
        obtain rfl := (Prod.mk.inj (Except.ok.inj h)).1
        obtain ⟨b₂, ds₂, h₂, hn₂, -⟩ := hn.issueAll
          (plannedPapers b o hint (planBooks (booksState b o) hint.fromStatus) now)
        obtain ⟨rfl, -⟩ := Prod.mk.inj (Except.ok.inj (h₁.symm.trans h₂))
        exact hn₂.congr rfl rfl

/-- **What a run leaves behind needs nothing more, whatever the next run is told.** -/
theorem Synced.exhausted {ds : List FinancialDocument}
    (hsound : CashLedger.Sound b.cash) (hs : Synced b b' o hint now ds) (hup : UpToDate b' o)
    (hint' : SyncHint) : (planOf b' o hint').isEmpty = true := by
  obtain ⟨happ, hrec⟩ := hs.receipts
  have hcod := hs.cod hsound
  have hreceipted : salePaid o = true → receiptsOf (docsOf b' o.id) ≠ [] := by
    intro hpaid hnone
    rw [happ, List.append_eq_nil_iff] at hnone
    rw [hpaid, hnone.1] at hrec
    simp [hnone.2] at hrec
  have hkept : receiptsOf (docsOf b' o.id) ≠ [] → salePaid o = true ∨
      receiptsOf (docsOf b o.id) ≠ [] := by
    intro hsome
    by_cases hpaid : salePaid o = true
    · exact .inl hpaid
    · rw [happ] at hsome
      simp only [hpaid, Bool.false_and, Bool.false_eq_true, if_false] at hrec
      rw [hrec, List.append_nil] at hsome
      exact .inr hsome
  have hcash : (planOf b' o hint').codCashIn = false := by
    rw [codCashIn_eq]
    by_contra hdue
    simp only [Bool.not_eq_false, Bool.and_eq_true, Bool.or_eq_true, Bool.not_eq_true',
      List.isEmpty_iff, List.isEmpty_eq_false_iff] at hdue
    obtain ⟨⟨⟨hmethod, hlive⟩, hmoney⟩, hnone⟩ := hdue
    have hbefore : salePaid o = true ∨ receiptsOf (docsOf b o.id) ≠ [] := by
      rcases hmoney with hpaid | hsome
      · exact .inl hpaid
      · exact hkept hsome
    split at hcod
    · obtain ⟨e, he, -⟩ := hcod
      rw [hnone] at he
      simp at he
    · rename_i hplan
      rw [codCashIn_eq, ← hcod, hnone] at hplan
      refine hplan ?_
      simp only [hmethod, hlive, Bool.not_false, Bool.true_and, List.isEmpty_nil, Bool.and_true,
        Bool.or_eq_true, Bool.not_eq_true', List.isEmpty_eq_false_iff]
      exact hbefore
  have hany : (papersOf b' o.id).any (·.kind = .receipt) = false → salePaid o = false := by
    intro hno
    by_contra hpaid
    exact hreceipted (by simpa using hpaid) (receipt_papersOf.mp hno)
  have hlive : o.status.isLive = true → (liveInvoice (papersOf b' o.id)).isSome = true := by
    intro hl
    have hone := hup.live hl
    by_contra hno
    have hnil := liveInvoice_eq_none.mp (Option.not_isSome_iff_eq_none.mp hno)
    rw [hnil] at hone
    simp at hone
  have hdead : o.status.isDead = true → liveInvoice (papersOf b' o.id) = none := fun hd =>
    liveInvoice_eq_none.mpr (hup.dead hd)
  have hinvoice : (planOf b' o hint').invoice = false := by
    cases hl : o.status.isLive with
    | true => simp [planOf, planBooks, booksState, hlive hl]
    | false => simp [planOf, planBooks, booksState, hl]
  have hreceipt : (planOf b' o hint').receipt = false := by
    by_contra hdue
    simp only [planOf, planBooks, booksState, Bool.not_eq_false, Bool.and_eq_true,
      Bool.not_eq_true'] at hdue
    obtain ⟨⟨⟨hl, -⟩, hno⟩, hmoney⟩ := hdue
    have hpaid : salePaid o = true := by
      rw [salePaid, hl, hmoney]
      rfl
    rw [hany hno] at hpaid
    cases hpaid
  have hcredit : (planOf b' o hint').credit = none := by
    cases hd : o.status.isDead with
    | true => simp [planOf, planBooks, booksState, hdead hd]
    | false => simp [planOf, planBooks, booksState, hd]
  simp [BooksPlan.isEmpty, hinvoice, hreceipt, hcredit, hcash]

end sync

/-! ### Every run of the shop -/

/-- What the books of a shop keep besides the orders' money. -/
structure BooksKept (s : ShopState) : Prop where
  shop : ShopInv s
  cash : CashLedger.Kept s.books.cash
  numbers : Numberable s.books

theorem booksStep_numbers {b b' : Books} {a : BooksAction} (h : Numberable b)
    (hchange : ∀ sources accounts counters shipments,
      a ≠ .change sources accounts counters shipments)
    (hstep : booksStep b a = some b') : Numberable b' := by
  cases a with
  | change sources accounts counters shipments =>
      exact (hchange sources accounts counters shipments rfl).elim
  | sync orderId hint now =>
      obtain ⟨⟨b₁, r⟩, hs, rfl⟩ := Result.map_ok.mp (Result.toOption_some.mp hstep)
      exact h.sync hs
  | codRemittance dto group now =>
      obtain ⟨-, hdocs, hcounters⟩ := CashbookService.codRemittance_keeps (I := fun _ => True)
        (fun _ _ _ _ => trivial) (fun _ _ _ _ _ _ _ => trivial) (Result.toOption_some.mp hstep) trivial
      exact h.congr hdocs hcounters
  | reverse id reason group now =>
      obtain ⟨c, -, rfl⟩ := Result.map_ok.mp (Result.toOption_some.mp hstep)
      exact h.congr rfl rfl
  | post e =>
      simp only [booksStep] at hstep
      split at hstep
      · obtain ⟨c, -, rfl⟩ := Result.map_ok.mp (Result.toOption_some.mp hstep)
        exact h.congr rfl rfl
      · cases hstep

theorem shopStep_kept {s s' : ShopState} {a : ShopAction} (h : BooksKept s)
    (hstep : shopStep s a = some s') : BooksKept s' := by
  refine ⟨shopStep_inv h.shop hstep, ?_, ?_⟩
  all_goals
    cases a with
    | place req now =>
        obtain ⟨r, -, rfl⟩ := Option.map_eq_some_iff.mp hstep
        first | exact h.cash | exact h.numbers
    | change orderId c =>
        obtain ⟨r, -, rfl⟩ := Option.map_eq_some_iff.mp hstep
        first | exact h.cash | exact h.numbers.congr rfl rfl
    | stampCost orderId productId used =>
        obtain rfl := Option.some.inj hstep
        first | exact h.cash | exact h.numbers
    | courierCost orderId cost =>
        obtain rfl := Option.some.inj hstep
        first | exact h.cash | exact h.numbers
    | books a =>
        cases a with
        | change sources accounts counters shipments => cases hstep
        | sync | codRemittance | reverse | post =>
            obtain ⟨books, hb, rfl⟩ := Option.map_eq_some_iff.mp hstep
            first
            | exact booksStep_kept (b := s.current) h.cash hb
            | exact booksStep_numbers (b := s.current) (h.numbers.congr rfl rfl)
                (fun _ _ _ _ hc => by cases hc) hb
    | other store sources accounts shipments =>
        simp only [shopStep] at hstep
        split at hstep
        · obtain rfl := Option.some.inj hstep
          first | exact h.cash.of_entries rfl | exact h.numbers.congr rfl rfl
        · cases hstep

/-- A shop whose papers nobody numbered yet. -/
structure ShopState.Unnumbered (s : ShopState) : Prop extends s.New where
  counters : s.books.counters = []

theorem ShopState.Unnumbered.kept {s : ShopState} (h : s.Unnumbered) : BooksKept s := by
  refine ⟨h.inv, .nil h.books.entries, ⟨fun scope => ?_, by simp [h.books.docs]⟩⟩
  rw [h.counters]
  exact ⟨rfl, rfl⟩

/-- A run completes, what it leaves plans nothing, and the next run changes nothing. -/
def ReachesFixpoint (b : Books) (o : Order) (hint : SyncHint) (now : Instant) : Prop :=
  ∃ b' r, syncIn b o.id hint now = .ok (b', r) ∧
    (∀ hint' : SyncHint, (planBooks (booksState b' o) hint'.fromStatus).isEmpty = true) ∧
    ∀ hint' now', syncIn b' o.id hint' now' = .ok (b', {})

/-- **One run reaches the fixpoint, except where a COD collection is due that the ledger would
not take: a total of zero, or a `cash` account that is switched off.** -/
theorem sync_fixpoint_iff (s t : ShopState) (as : List ShopAction) (h : s.Unnumbered)
    (hrun : Machine.runFrom shopStep s as = some t) (o : Order)
    (ho : Rows.lookup Order.id o.id t.store.orders = some o) (hint : SyncHint) (now : Instant) :
    ReachesFixpoint t.current o hint now ↔
      (codDue t.current o = true → 0 < o.grandTotal ∧ cashOpen t.books.cash = true) := by
  have hkept : BooksKept t :=
    Machine.runFrom_invariant (fun _ _ _ hi hs => shopStep_kept hi hs) as s t h.kept hrun
  have hn : Numberable t.current := hkept.numbers.congr rfl rfl
  have hbooks : BooksInv t.current := hkept.shop.books.of_docs rfl hkept.shop.books.cod
  have hsound : CashLedger.Sound t.current.cash := hkept.cash.sound
  have hround : round2 o.grandTotal = o.grandTotal :=
    round2_of_paisa (hkept.shop.orders o (Rows.mem_of_lookup ho)).places
  have hok : (∃ b' r, syncIn t.current o.id hint now = .ok (b', r)) ↔
      (codDue t.current o = true → 0 < round2 o.grandTotal ∧ cashOpen t.current.cash = true) :=
    sync_ok_iff hn ho
  rw [hround] at hok
  constructor
  · rintro ⟨b', r, hsync, -⟩
    exact hok.mp ⟨b', r, hsync⟩
  · intro hcond
    obtain ⟨b', r, hsync⟩ := hok.mpr hcond
    obtain ⟨-, hup⟩ := syncIn_inv hbooks hsync
    obtain ⟨hrows, hup⟩ := hup o ho
    have hempty : ∀ hint' : SyncHint,
        (planBooks (booksState b' o) hint'.fromStatus).isEmpty = true := by
      intro hint'
      rcases syncIn_ok hsync with ⟨hnone, -⟩ | ⟨o', ds, ho', hs⟩
      · exact absurd (hnone.symm.trans ho) (by simp)
      · obtain rfl := Option.some.inj (ho'.symm.trans ho)
        exact hs.exhausted hsound hup hint'
    refine ⟨b', r, hsync, hempty, fun hint' now' => ?_⟩
    have ho' : Rows.lookup Order.id o.id b'.orders = some o := hrows ▸ ho
    unfold syncIn
    simp only [ho', if_pos (hempty hint')]

/-! ### An order for nothing -/

/-- A stall that gives a book away: the coupon covers it, and it is delivered for free. -/
def giftStall : ShopState where
  store := { products := [{ id := 1, title := "পথের পাঁচালী", price := 200, stockOnHand := 3 }],
             coupons := [{ id := 1, code := "GIFT", type := .fixed, value := 200 }] }

def giftOrder : CatalogueOrder where
  phone := some "+8801700000000"
  lines := [.product { id := 1, unitPrice := 200, listPrice := 200, unitCost := some 120,
                       freeShipping := true } 1]
  couponCode := some "GIFT"
  zone := { id := 1, code := "dhaka", nameBn := "ঢাকা", fee := 60, courierCost := 50 }
  paymentMethod := .cod
  prices := by decide +kernel

/-- The gift is placed and delivered. -/
def giftDelivered : List ShopAction :=
  [.place giftOrder 0, .change 0 (.transition { toStatus := .confirmed } .staff 1),
   .books (.sync 0 {} 1), .change 0 (.transition { toStatus := .delivered } .staff 2)]

theorem giftStall_unnumbered : giftStall.Unnumbered := ⟨⟨rfl, rfl, rfl⟩, rfl⟩

/-- A delivered sale of 200 is brought up to date in one run. -/
theorem sync_fixpoint_iff_paidFor : ∃ t o,
    Machine.runFrom shopStep giftStall
      [.place { giftOrder with couponCode := none, prices := giftOrder.prices } 0,
       .change 0 (.transition { toStatus := .delivered } .staff 2)] = some t ∧
    Rows.lookup Order.id o.id t.store.orders = some o ∧ o.grandTotal = 200 ∧
    ReachesFixpoint t.current o {} 3 := by
  have hruns : (Machine.runFrom shopStep giftStall
      [.place { giftOrder with couponCode := none, prices := giftOrder.prices } 0,
       .change 0 (.transition { toStatus := .delivered } .staff 2)]).any (fun t =>
        t.store.orders.any fun o => Rows.lookup Order.id o.id t.store.orders = some o &&
          o.grandTotal = 200 && cashOpen t.books.cash) = true := by
    decide +kernel
  obtain ⟨t, ht, hany⟩ := (Option.any_eq_true _ _).mp hruns
  obtain ⟨o, -, ho⟩ := List.any_eq_true.mp hany
  simp only [Bool.and_eq_true, decide_eq_true_eq] at ho
  obtain ⟨⟨hl, htotal⟩, hopen⟩ := ho
  refine ⟨t, o, ht, hl, htotal, ?_⟩
  exact (sync_fixpoint_iff giftStall t _ giftStall_unnumbered ht o hl {} 3).mpr fun _ =>
    ⟨by rw [htotal]; norm_num, hopen⟩

/-- The books of the delivered gift are never brought up to date: its COD is a posting of
zero taka. -/
theorem gift_never_synced : giftStall.Unnumbered ∧ ∃ t o,
    Machine.runFrom shopStep giftStall giftDelivered = some t ∧
    Rows.lookup Order.id o.id t.store.orders = some o ∧ o.grandTotal = 0 ∧
    syncIn t.current o.id {} 3 =
      .error (.rule "cash.amount_invalid" "টাকার পরিমাণ শূন্যের বেশি দিন") ∧
    ¬ ReachesFixpoint t.current o {} 3 := by
  have hruns : (Machine.runFrom shopStep giftStall giftDelivered).any (fun t =>
      t.store.orders.any fun o => Rows.lookup Order.id o.id t.store.orders = some o &&
        o.grandTotal = 0 && decide (syncIn t.current o.id {} 3 =
          .error (.rule "cash.amount_invalid" "টাকার পরিমাণ শূন্যের বেশি দিন"))) = true := by
    decide +kernel
  obtain ⟨t, ht, hany⟩ := (Option.any_eq_true _ _).mp hruns
  obtain ⟨o, -, ho⟩ := List.any_eq_true.mp hany
  simp only [Bool.and_eq_true, decide_eq_true_eq] at ho
  obtain ⟨⟨hl, htotal⟩, herr⟩ := ho
  refine ⟨giftStall_unnumbered, t, o, ht, hl, htotal, herr, ?_⟩
  rintro ⟨b', r, hok, -⟩
  rw [herr] at hok
  cases hok

end BookHouse
