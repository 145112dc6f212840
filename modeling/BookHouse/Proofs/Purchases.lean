/-
Supplier bills match the cashbook.

A bill keeps the amount paid, the cashbook keeps the payments.  `Booked` says that the two
agree on every bill, and each call keeps it: a payment adds one live entry and the same
amount to the bill (`pay_booked`), a reversal takes one live entry out and the same amount
off the bill (`undoLeg_booked`).  Since the entries of a bill are positive and add up to
what it says, neither clamp has anything to do.
-/
import BookHouse.Finance.Purchasing
import BookHouse.Proofs.Cashbook
import BookHouse.Proofs.Money

namespace BookHouse

open Rounding

/-- The supplier payments of a bill. -/
def paysFor (id : PurchaseId) (e : CashTransaction) : Bool :=
  e.purchaseId = some id && e.kind = .purchasePayment && e.direction = .out

/-- What the live payments of a bill come to. -/
def PurchaseDesk.paidOn (s : PurchaseDesk) (id : PurchaseId) : Money :=
  CashLedger.liveSum (paysFor id) s.cash.entries

/-- A bill that adds up and says what the cashbook says. -/
structure Purchase.Agrees (s : PurchaseDesk) (p : Purchase) : Prop where
  amountPaid : p.amountPaid = s.paidOn p.id
  paid_nonneg : 0 ≤ p.amountPaid
  paid_le : p.amountPaid ≤ p.total
  total : p.total = p.subtotal + p.otherCharges
  subtotal : p.subtotal = (p.items.map (·.lineTotal)).sum
  lineTotal : ∀ i ∈ p.items, i.lineTotal = i.quantity * i.unitCost
  paymentStatus : p.paymentStatus = settlementStatus p.total p.amountPaid

/-- The desk before its first bill and its first cashbook entry. -/
structure PurchaseDesk.Opening (s : PurchaseDesk) : Prop where
  purchases : s.purchases = []
  entries : s.cash.entries = []

/-- What every state of a run keeps. -/
structure PurchaseDesk.Booked (s : PurchaseDesk) : Prop where
  ids : s.cash.entries.map (·.id) = List.range s.cash.entries.length
  sound : CashLedger.Sound s.cash
  positive : ∀ e ∈ s.cash.entries, 0 < e.amount
  numbered : s.purchases.map (·.id) = List.range s.purchases.length
  /-- an entry of a bill names a bill that is there, and pays it unless it is a reversal -/
  payments : ∀ e ∈ s.cash.entries, ∀ id, e.purchaseId = some id → id < s.purchases.length ∧
    e.kind = .purchasePayment ∧ (e.reversesId = none → e.direction = .out)
  bills : ∀ p ∈ s.purchases, p.Agrees s

namespace PurchaseDesk

variable {s s' : PurchaseDesk} {p : Purchase} {clamps : Clamps}

theorem Opening.booked (h : s.Opening) : s.Booked where
  ids := by rw [h.entries]; rfl
  sound := by intro r hr; simp [h.entries] at hr
  positive := by intro e he; simp [h.entries] at he
  numbered := by rw [h.purchases]; rfl
  payments := by intro e he; simp [h.entries] at he
  bills := by intro p hp; simp [h.purchases] at hp

theorem Booked.nodup (h : s.Booked) : (s.purchases.map (·.id)).Nodup := by
  rw [h.numbered]
  exact List.nodup_range

theorem Booked.entries_nodup (h : s.Booked) : (s.cash.entries.map (·.id)).Nodup := by
  rw [h.ids]
  exact List.nodup_range

/-- The next entry's id is not one that something reverses. -/
theorem Booked.fresh (h : s.Booked) :
    ∀ y ∈ s.cash.entries, y.reversesId ≠ some s.cash.entries.length := by
  intro y hy hrev
  exact absurd (h.sound y hy _ hrev) (lt_irrefl _)

theorem paidOn_nonneg (h : s.Booked) (id : PurchaseId) : 0 ≤ s.paidOn id :=
  CashLedger.liveSum_nonneg h.positive

/-! ### One more entry -/

/-- What a new entry must be, given the bills that are there with it. -/
structure Entry (s s' : PurchaseDesk) (r : CashTransaction) : Prop where
  id : r.id = s.cash.entries.length
  reverses : ∀ i, r.reversesId = some i → i < s.cash.entries.length
  positive : 0 < r.amount
  payment : ∀ id, r.purchaseId = some id → id < s'.purchases.length ∧ r.kind = .purchasePayment ∧
    (r.reversesId = none → r.direction = .out)

/-- A new bill, or the same ones: the bills are still numbered in order. -/
structure Renumbered (s s' : PurchaseDesk) : Prop where
  numbered : s'.purchases.map (·.id) = List.range s'.purchases.length
  length : s.purchases.length ≤ s'.purchases.length

theorem Booked.renumbered (h : s.Booked) (hlen : s'.purchases.map (·.id) = s.purchases.map (·.id)) :
    Renumbered s s' := by
  have hl : s'.purchases.length = s.purchases.length := by
    have := congrArg List.length hlen
    simpa using this
  exact ⟨by rw [hlen, h.numbered, hl], hl.ge⟩

/-- The cashbook gains an entry and the bills stay numbered: what is left are the bills. -/
theorem Booked.append (h : s.Booked) {r : CashTransaction} (hr : Entry s s' r)
    (hcash : s'.cash.entries = s.cash.entries ++ [r]) (hnum : Renumbered s s')
    (hbills : ∀ p ∈ s'.purchases, p.Agrees s') : s'.Booked where
  ids := by
    rw [hcash, List.map_append, h.ids, List.length_append, List.length_singleton,
      List.range_succ, List.map_singleton, hr.id]
  sound := by
    intro e he i hi
    rw [hcash] at he ⊢
    rw [List.length_append, List.length_singleton]
    rcases List.mem_append.mp he with hold | hnew
    · exact Nat.lt_succ_of_lt (h.sound e hold i hi)
    · obtain rfl := List.mem_singleton.mp hnew
      exact Nat.lt_succ_of_lt (hr.reverses i hi)
  positive := by
    intro e he
    rw [hcash] at he
    rcases List.mem_append.mp he with hold | hnew
    · exact h.positive e hold
    · obtain rfl := List.mem_singleton.mp hnew
      exact hr.positive
  numbered := hnum.numbered
  payments := by
    intro e he id hid
    rw [hcash] at he
    rcases List.mem_append.mp he with hold | hnew
    · obtain ⟨hlt, hrest⟩ := h.payments e hold id hid
      exact ⟨hlt.trans_le hnum.length, hrest⟩
    · obtain rfl := List.mem_singleton.mp hnew
      exact hr.payment id hid
  bills := hbills

/-- The bills move with the cashbook: one bill and its payments change by the same amount. -/
theorem Booked.moved (h : s.Booked) (hlook : Rows.lookup Purchase.id p.id s.purchases = some p)
    {d : Money} (hpaid : ∀ id, s'.paidOn id = s.paidOn id + if id = p.id then d else 0)
    (h0 : 0 ≤ p.amountPaid + d) (hle : p.amountPaid + d ≤ p.total)
    (hpurchases : s'.purchases =
      Rows.modify Purchase.id p.id (Purchase.settle p.total (p.amountPaid + d)) s.purchases) :
    ∀ q ∈ s'.purchases, q.Agrees s' := by
  intro q hq
  rw [hpurchases] at hq
  have hp : p.Agrees s := h.bills p (Rows.mem_of_lookup hlook)
  rcases Rows.mem_modify h.nodup hlook hq with rfl | ⟨hmem, hne⟩
  · refine ⟨?_, h0, hle, hp.total, hp.subtotal, hp.lineTotal, rfl⟩
    simp only [Purchase.settle, hpaid, if_pos, hp.amountPaid]
  · have hold := h.bills q hmem
    have hsame : s'.paidOn q.id = s.paidOn q.id := by rw [hpaid, if_neg hne, add_zero]
    exact { hold with amountPaid := by rw [hsame]; exact hold.amountPaid }

/-- Nothing moved: every bill says what it said. -/
theorem Booked.unmoved (h : s.Booked) (hpaid : ∀ id, s'.paidOn id = s.paidOn id)
    (hpurchases : s'.purchases = s.purchases) : ∀ q ∈ s'.purchases, q.Agrees s' := by
  intro q hq
  rw [hpurchases] at hq
  have hold := h.bills q hq
  exact { hold with amountPaid := by rw [hpaid]; exact hold.amountPaid }

/-- Anything else may change. -/
theorem Booked.congr (h : s.Booked) (hcash : s'.cash.entries = s.cash.entries)
    (hpurchases : s'.purchases = s.purchases) : s'.Booked where
  ids := by rw [hcash]; exact h.ids
  sound := by intro r hr i hi; rw [hcash] at hr ⊢; exact h.sound r hr i hi
  positive := by rw [hcash]; exact h.positive
  numbered := by rw [hpurchases]; exact h.numbered
  payments := by rw [hcash, hpurchases]; exact h.payments
  bills := h.unmoved (fun id => by rw [paidOn, hcash, paidOn]) hpurchases

end PurchaseDesk

/-! ### What the calls do -/

namespace PurchasesService

variable {s s' : PurchaseDesk} {p : Purchase} {clamps : Clamps}

theorem ids_settle (id : PurchaseId) (total paid : Money) (purchases : List Purchase) :
    (Rows.modify Purchase.id id (Purchase.settle total paid) purchases).map (·.id) =
      purchases.map (·.id) :=
  Rows.map_modify fun _ => rfl

theorem setPaid_ok {paid : Money} (h : setPaid s p paid = .ok s') :
    s' = { s with
      purchases := Rows.modify Purchase.id p.id (Purchase.settle p.total paid) s.purchases } := by
  obtain ⟨-, -, rfl⟩ := Result.map_ok.mp h
  rfl

theorem postPayment_ok {id : PurchaseId} {account : AccountId} {amount : Money} {memo : String}
    {at_ : Instant} (h : postPayment s id account amount memo at_ = .ok s') :
    ∃ cash, s' = { s with cash } ∧ 0 < round2 amount ∧ ∃ acc,
      cash.entries = s.cash.entries ++
        [{ id := s.cash.entries.length, accountId := acc, direction := .out,
           kind := .purchasePayment, amount := round2 amount, memo := sliceTo 500 memo,
           purchaseId := some id, occurredAt := at_ }] := by
  obtain ⟨cash, hpost, rfl⟩ := Result.map_ok.mp h
  obtain ⟨hpos, acc, hent⟩ := CashLedger.post_ok hpost
  exact ⟨cash, rfl, hpos, acc, hent⟩

/-- A payment is one more live entry of its bill and of no other. -/
theorem liveSum_payment (hs : s.Booked) {id : PurchaseId} {amount : Money}
    (hamount : round2 amount = amount) {account : AccountId} {memo : String} {at_ : Instant}
    (j : PurchaseId) :
    CashLedger.liveSum (paysFor j) (s.cash.entries ++
        [{ id := s.cash.entries.length, accountId := account, direction := .out,
           kind := .purchasePayment, amount := round2 amount, memo := memo,
           purchaseId := some id, occurredAt := at_ }]) =
      s.paidOn j + if j = id then amount else 0 := by
  rw [CashLedger.liveSum_append rfl hs.fresh, PurchaseDesk.paidOn, hamount]
  by_cases hj : j = id
  · simp [paysFor, hj]
  · have hne : ¬ id = j := fun h => hj h.symm
    simp [paysFor, hj, hne]

/-! ### `create` -/

theorem insertPurchase_ok (h : insertPurchase s p = .ok s') :
    p.check = .ok () ∧ (∀ i ∈ p.items, i.check = .ok ()) ∧
      s' = { s with purchases := s.purchases ++ [p] } := by
  obtain ⟨⟨⟩, hcheck, h⟩ := Result.bind_ok.mp h
  obtain ⟨⟨⟩, hitems, h⟩ := Result.bind_ok.mp h
  refine ⟨hcheck, Result.forM_ok p.items hitems, ?_⟩
  split at h
  · cases h
  · exact (Result.pure_ok.mp h).symm

theorem receiveLines_ok {lines : List PricedLine} {id : PurchaseId} {now : Instant}
    (h : receiveLines s lines id now = .ok s') : ∃ store, s' = { s with store } := by
  obtain ⟨store, -, rfl⟩ := Result.map_ok.mp h
  exact ⟨store, rfl⟩

/-- The bill that `create` wrote, before stock and payment. -/
structure Created (s : PurchaseDesk) (paid : Money) (p : Purchase) : Prop where
  id : p.id = s.purchases.length
  amountPaid : p.amountPaid = paid
  check : p.check = .ok ()
  subtotal : p.subtotal = (p.items.map (·.lineTotal)).sum
  lineTotal : ∀ i ∈ p.items, i.lineTotal = i.quantity * i.unitCost
  paymentStatus : p.paymentStatus = settlementStatus p.total p.amountPaid

theorem purchaseCheck_ok (h : p.check = .ok ()) :
    p.total = p.subtotal + p.otherCharges ∧ 0 ≤ p.amountPaid ∧ p.amountPaid ≤ p.total := by
  unfold Purchase.check at h
  split at h
  · cases h
  rename_i hamounts
  split at h
  · cases h
  rename_i hpaid
  simp only [ne_eq, Bool.or_eq_true, decide_eq_true_eq, not_or, not_lt, not_not] at hamounts hpaid
  exact ⟨hamounts.2, hpaid⟩

theorem itemCheck_ok {i : PurchaseItem} (h : i.check = .ok ()) :
    i.lineTotal = i.quantity * i.unitCost := by
  unfold PurchaseItem.check at h
  split at h
  · cases h
  split at h
  · cases h
  rename_i hcost
  simp only [ne_eq, Bool.or_eq_true, decide_eq_true_eq, not_or, not_lt, not_not] at hcost
  exact hcost.2

/-- The total of a bill has two places. -/
theorem total_places (lines : List PurchaseLineInput) (charges : Money) :
    round2 (purchaseTotals lines charges).total = (purchaseTotals lines charges).total := by
  refine toPlaces_of_hasPlaces (HasPlaces.add (HasPlaces.sum ?_) toPlaces_hasPlaces)
  intro x hx
  obtain ⟨priced, hpriced, rfl⟩ := List.mem_map.mp hx
  obtain ⟨l, -, rfl⟩ := List.mem_map.mp hpriced
  exact toPlaces_hasPlaces.mul_int l.quantity

/-- What is paid with a bill has two places. -/
theorem paidNow_places (payment : Option PayNowDto) {total : Money} (h : round2 total = total) :
    round2 (paidNow payment total) = paidNow payment total := by
  cases payment with
  | none => exact toPlaces_of_hasPlaces HasPlaces.zero
  | some pay =>
      obtain ⟨account, amount⟩ := pay
      cases amount with
      | none => exact h
      | some a => exact a.places

theorem newPurchase_created {dto : CreatePurchaseDto} {number : String}
    {lines : List PurchaseLineInput} {charges paid : Money} {at_ : Instant}
    (hp : newPurchase s dto number (purchaseTotals lines charges) paid at_ = p)
    (hcheck : p.check = .ok ()) (hitems : ∀ i ∈ p.items, i.check = .ok ()) :
    Created s paid p := by
  subst hp
  refine ⟨rfl, rfl, hcheck, ?_, fun i hi => itemCheck_ok (hitems i hi), rfl⟩
  simp only [newPurchase, purchaseTotals, List.map_map]
  rfl

/-- Everything a successful `create` did: one bill, and its payment when something was paid. -/
theorem create_ok {dto : CreatePurchaseDto} {now : Instant} (h : create s dto now = .ok s') :
    ∃ paid p store, Created s paid p ∧ round2 paid = paid ∧
      (s' = { s with store, purchases := s.purchases ++ [p] } ∧ paid = 0 ∨
        ∃ account memo at_, postPayment { s with store, purchases := s.purchases ++ [p] }
          p.id account paid memo at_ = .ok s') := by
  obtain ⟨at_, -, h⟩ := Result.bind_ok.mp h
  simp only at h
  split at h
  · cases h
  split at h
  · cases h
  split at h
  · cases h
  obtain ⟨s₂, hins, h⟩ := Result.bind_ok.mp h
  obtain ⟨s₃, hrec, h⟩ := Result.bind_ok.mp h
  obtain ⟨hcheck, hitems, rfl⟩ := insertPurchase_ok hins
  obtain ⟨store, rfl⟩ := receiveLines_ok hrec
  have hplaces := paidNow_places dto.payment
    (total_places (mergePurchaseLines dto.lines) (dto.otherCharges.getD 0))
  generalize hpaid : paidNow dto.payment _ = paid at hplaces hcheck hitems h
  have hcreated := newPurchase_created rfl hcheck hitems
  refine ⟨paid, _, store, hcreated, hplaces, ?_⟩
  split at h
  · rename_i hpay
    exact .inl ⟨(Result.pure_ok.mp h).symm, by rw [← hpaid, hpay]; rfl⟩
  · split at h
    · exact .inr ⟨_, _, _, h⟩
    · rename_i hzero
      have hnonneg := (purchaseCheck_ok hcheck).2.1
      exact .inl ⟨(Result.pure_ok.mp h).symm, le_antisymm (not_lt.mp hzero) hnonneg⟩

/-- A new bill agrees with a cashbook that has just its first payment for it. -/
theorem Created.agrees {paid : Money} (h : Created s paid p) (hpaid : s'.paidOn p.id = paid) :
    p.Agrees s' := by
  obtain ⟨htotal, hnonneg, hle⟩ := purchaseCheck_ok h.check
  refine ⟨?_, ?_, ?_, htotal, h.subtotal, h.lineTotal, h.paymentStatus⟩
  · rw [hpaid, h.amountPaid]
  · exact hnonneg
  · exact hle

/-- Nobody has paid a bill that is not there yet. -/
theorem paidOn_fresh (hs : s.Booked) : s.paidOn s.purchases.length = 0 := by
  have hnone : (s.cash.entries.filter fun e =>
      paysFor s.purchases.length e && CashLedger.isLive s.cash.entries e) = [] := by
    refine List.filter_eq_nil_iff.mpr fun e he hc => ?_
    simp only [paysFor, Bool.and_eq_true, decide_eq_true_eq] at hc
    exact absurd (hs.payments e he _ hc.1.1.1).1 (lt_irrefl _)
  rw [PurchaseDesk.paidOn, CashLedger.liveSum, hnone]
  rfl

/-- With the bill, before anything is posted for it. -/
theorem Created.numbered {paid : Money} (h : Created s paid p) (hs : s.Booked) :
    (s.purchases ++ [p]).map (·.id) = List.range (s.purchases ++ [p]).length := by
  rw [List.map_append, hs.numbered, List.length_append, List.length_singleton, List.range_succ,
    List.map_singleton, h.id]

/-- The bills after `create`, whether or not something was paid. -/
theorem Created.bills {paid : Money} (h : Created s paid p) (hs : s.Booked)
    (hpaid : ∀ id, s'.paidOn id = s.paidOn id + if id = p.id then paid else 0)
    (hpurchases : s'.purchases = s.purchases ++ [p]) : ∀ q ∈ s'.purchases, q.Agrees s' := by
  intro q hq
  rw [hpurchases] at hq
  rcases List.mem_append.mp hq with hold | hnew
  · have hne : q.id ≠ p.id := by
      have hlt : q.id < s.purchases.length := by
        have hmem : q.id ∈ s.purchases.map (·.id) := List.mem_map_of_mem hold
        rw [hs.numbered] at hmem
        exact List.mem_range.mp hmem
      rw [h.id]
      exact hlt.ne
    have hsame : s'.paidOn q.id = s.paidOn q.id := by rw [hpaid, if_neg hne, add_zero]
    exact { hs.bills q hold with amountPaid := by rw [hsame]; exact (hs.bills q hold).amountPaid }
  · obtain rfl := List.mem_singleton.mp hnew
    refine h.agrees ?_
    rw [hpaid, if_pos rfl, h.id, paidOn_fresh hs, zero_add]

theorem create_booked {dto : CreatePurchaseDto} {now : Instant} (hs : s.Booked)
    (h : create s dto now = .ok s') : s'.Booked := by
  obtain ⟨paid, p, store, hp, hplaces, hend⟩ := create_ok h
  have hlen : s.purchases.length ≤ (s.purchases ++ [p]).length := by simp
  rcases hend with ⟨rfl, hzero⟩ | ⟨account, memo, at_, hpost⟩
  · refine ⟨hs.ids, hs.sound, hs.positive, hp.numbered hs, ?_, ?_⟩
    · intro e he id hid
      obtain ⟨hlt, hrest⟩ := hs.payments e he id hid
      exact ⟨hlt.trans_le hlen, hrest⟩
    · refine hp.bills hs (fun id => ?_) rfl
      rw [hzero, ite_self, add_zero]
      rfl
  · obtain ⟨cash, rfl, hpos, acc, hent⟩ := postPayment_ok hpost
    refine hs.append ⟨rfl, fun i hi => by simp at hi, hpos, ?_⟩ hent ⟨hp.numbered hs, hlen⟩
      (hp.bills hs (fun id => ?_) rfl)
    · intro id hid
      obtain rfl := Option.some.inj hid
      exact ⟨by rw [hp.id]; simp, rfl, fun _ => rfl⟩
    · rw [PurchaseDesk.paidOn, hent, liveSum_payment hs hplaces]

/-! ### `pay` -/

theorem checkPayment_ok {total paid amount : Money} (h : checkPayment total paid amount = .ok ()) :
    0 < amount ∧ paid + amount ≤ total := by
  unfold checkPayment at h
  split at h
  · cases h
  rename_i hpos
  split at h
  · cases h
  rename_i hdue
  split at h
  · cases h
  rename_i hle
  have hpos := not_le.mp hpos
  have hle := not_lt.mp hle
  unfold outstanding at hle hdue
  split at hle
  · exact absurd (hpos.trans_le hle) (lt_irrefl _)
  · exact ⟨hpos, by linarith⟩

/-- Everything a successful `pay` did. -/
theorem pay_ok {id : PurchaseId} {dto : PurchasePaymentDto} {now : Instant}
    (h : pay clamps s id dto now = .ok s') :
    ∃ p s₁, Rows.lookup Purchase.id p.id s.purchases = some p ∧ 0 < dto.amount.value ∧
      p.amountPaid + dto.amount.value ≤ p.total ∧
      setPaid s p (clamps.pay (p.amountPaid + dto.amount.value) p.total) = .ok s₁ ∧
      ∃ account memo at_, postPayment s₁ p.id account dto.amount.value memo at_ = .ok s' := by
  obtain ⟨at_, -, h⟩ := Result.bind_ok.mp h
  cases hlook : Rows.lookup Purchase.id id s.purchases with
  | none => simp [hlook] at h
  | some p =>
      simp only [hlook] at h
      obtain rfl := Rows.key_of_lookup hlook
      split at h
      · cases h
      obtain ⟨⟨⟩, hcheck, h⟩ := Result.bind_ok.mp h
      obtain ⟨s₁, hset, h⟩ := Result.bind_ok.mp h
      obtain ⟨hpos, hle⟩ := checkPayment_ok hcheck
      exact ⟨p, s₁, hlook, hpos, hle, hset, _, _, _, h⟩

/-- The smaller of the new amount and the total is the new amount: the check saw to it. -/
theorem pay_clamp (s : PurchaseDesk) (id : PurchaseId) (dto : PurchasePaymentDto) (now : Instant) :
    pay Clamps.code s id dto now = pay Clamps.off s id dto now := by
  unfold pay
  cases when_ dto.occurredAt now with
  | error failure => rfl
  | ok at_ =>
      simp only [bind, Except.bind]
      cases Rows.lookup Purchase.id id s.purchases with
      | none => rfl
      | some p =>
          simp only
          split
          · rfl
          cases hcheck : checkPayment p.total p.amountPaid dto.amount.value with
          | error failure => rfl
          | ok u =>
              have hmin : Clamps.code.pay (p.amountPaid + dto.amount.value) p.total =
                  Clamps.off.pay (p.amountPaid + dto.amount.value) p.total :=
                min_eq_left (checkPayment_ok hcheck).2
              rw [hmin]

theorem pay_booked {id : PurchaseId} {dto : PurchasePaymentDto} {now : Instant} (hs : s.Booked)
    (h : pay Clamps.code s id dto now = .ok s') : s'.Booked := by
  rw [pay_clamp] at h
  obtain ⟨p, s₁, hlook, hpos, hle, hset, account, memo, at_, hpost⟩ := pay_ok h
  obtain rfl := setPaid_ok hset
  obtain ⟨cash, rfl, hround, acc, hent⟩ := postPayment_ok hpost
  have hp := hs.bills p (Rows.mem_of_lookup hlook)
  have hkeys := ids_settle p.id p.total (p.amountPaid + dto.amount.value) s.purchases
  have hnum : PurchaseDesk.Renumbered s { s with cash, purchases := _ } := hs.renumbered hkeys
  refine hs.append ⟨rfl, fun i hi => by simp at hi, hround, ?_⟩ hent hnum
    (hs.moved hlook (fun j => ?_) ?_ hle rfl)
  · intro j hj
    obtain rfl := Option.some.inj hj
    have hmem : p.id ∈ s.purchases.map (·.id) := List.mem_map_of_mem (Rows.mem_of_lookup hlook)
    rw [hs.numbered] at hmem
    exact ⟨(List.mem_range.mp hmem).trans_le hnum.length, rfl, fun _ => rfl⟩
  · rw [PurchaseDesk.paidOn, hent]
    exact liveSum_payment hs dto.amount.places j
  · exact add_nonneg hp.paid_nonneg hpos.le

end PurchasesService

/-! ### Reversals -/

namespace CashbookService

open PurchaseDesk

variable {s s' : PurchaseDesk} {p : Purchase} {clamps : Clamps} {leg : CashTransaction}

/-- A leg that could be turned around was still live, and is not any more. -/
theorem reverseLeg_row {reason : String} {group : Option ℕ} {now : Instant} {b b' : Cashbook}
    (hleg : leg.reversesId = none) (h : reverseLeg reason group now b leg = .ok b') :
    CashLedger.isLive b.entries leg ∧ ∃ r : CashTransaction, b'.entries = b.entries ++ [r] ∧
      r.id = b.entries.length ∧ r.reversesId = some leg.id ∧ 0 < r.amount ∧
      r.purchaseId = leg.purchaseId ∧ r.kind = leg.kind := by
  unfold reverseLeg at h
  split at h
  · cases h
  rename_i hnot
  obtain ⟨hpos, acc, hent⟩ := CashLedger.post_ok h
  refine ⟨?_, _, hent, rfl, rfl, hpos, rfl, rfl⟩
  rw [CashLedger.isLive, hleg]
  simpa using hnot

/-- The payment of a leg is part of what its bill says was paid. -/
theorem amount_le_paid (hs : s.Booked) (hmem : leg ∈ s.cash.entries)
    (hlive : CashLedger.isLive s.cash.entries leg) (hp : p.Agrees s) (hpays : paysFor p.id leg) :
    leg.amount ≤ p.amountPaid := by
  rw [hp.amountPaid]
  exact CashLedger.le_liveSum hs.positive hmem hlive hpays

/-- A payment that stays between zero and the total is not clamped. -/
theorem unpay_clamp {paid total : Money} (h0 : 0 ≤ paid) (hle : paid ≤ total) :
    Clamps.code.unpay paid total = paid := by
  simp only [Clamps.code]
  rw [if_neg (not_lt.mpr h0), if_neg (not_lt.mpr hle)]

/-- What a leg of a bill takes off it. -/
theorem unpaid_of_payment (hs : s.Booked) (hmem : leg ∈ s.cash.entries)
    (hleg : leg.reversesId = none) {id : PurchaseId} (hid : leg.purchaseId = some id) :
    unpaid leg = some (id, leg.amount) ∧ paysFor id leg := by
  obtain ⟨-, hkind, hdir⟩ := hs.payments leg hmem id hid
  constructor
  · simp [unpaid, hkind, hid, hdir hleg]
  · simp [paysFor, hkind, hid, hdir hleg]

/-- A leg of no bill takes nothing off any. -/
theorem unpaid_of_other (hid : leg.purchaseId = none) : unpaid leg = none := by
  unfold unpaid
  split
  · rw [hid]
    rfl
  · rfl

/-- What is left of a leg once its opposite is in the cashbook. -/
theorem undoLeg_eq {reason : String} {group : Option ℕ} {now : Instant} {cash : Cashbook}
    (hrev : reverseLeg reason group now s.cash leg = .ok cash) :
    undoLeg clamps reason group now s leg =
      ((unpaid leg).map fun u => unpayPurchase clamps { s with cash } u.1 u.2).getD
        (.ok { s with cash }) := by
  unfold undoLeg
  rw [hrev]
  cases unpaid leg with
  | none => rfl
  | some u => rfl

/-- The entry that turns a leg around is one that the cashbook may gain. -/
theorem reversal_entry (hs : s.Booked) (hmem : leg ∈ s.cash.entries) {r : CashTransaction}
    (hrid : r.id = s.cash.entries.length) (hrrev : r.reversesId = some leg.id)
    (hrpos : 0 < r.amount) (hpurchase : r.purchaseId = leg.purchaseId) (hkind : r.kind = leg.kind)
    (hlen : s.purchases.length ≤ s'.purchases.length) : Entry s s' r where
  id := hrid
  reverses := by
    intro i hi
    rw [hrrev] at hi
    obtain rfl := Option.some.inj hi
    have hid : leg.id ∈ s.cash.entries.map (·.id) := List.mem_map_of_mem hmem
    rw [hs.ids] at hid
    exact List.mem_range.mp hid
  positive := hrpos
  payment := by
    intro id hid
    rw [hpurchase] at hid
    obtain ⟨hlt, hpay, -⟩ := hs.payments leg hmem id hid
    refine ⟨hlt.trans_le hlen, hkind.trans hpay, fun hnone => ?_⟩
    rw [hrrev] at hnone
    cases hnone

/-- A bill that an entry names is there. -/
theorem lookup_bill (hs : s.Booked) (hmem : leg ∈ s.cash.entries) {id : PurchaseId}
    (hid : leg.purchaseId = some id) :
    ∃ p, p.id = id ∧ Rows.lookup Purchase.id id s.purchases = some p := by
  have hin : id ∈ s.purchases.map (·.id) := by
    rw [hs.numbered]
    exact List.mem_range.mpr (hs.payments leg hmem id hid).1
  obtain ⟨p, hp⟩ := Option.isSome_iff_exists.mp (Rows.lookup_isSome.mpr hin)
  exact ⟨p, Rows.key_of_lookup hp, hp⟩

/-- One leg: the clamps do nothing, and cashbook and bills agree again. -/
theorem undoLeg_booked {reason : String} {group : Option ℕ} {now : Instant} (hs : s.Booked)
    (hmem : leg ∈ s.cash.entries) (hleg : leg.reversesId = none) :
    undoLeg Clamps.code reason group now s leg = undoLeg Clamps.off reason group now s leg ∧
      ∀ s', undoLeg Clamps.code reason group now s leg = .ok s' →
        s'.Booked ∧ s.cash.entries ⊆ s'.cash.entries := by
  cases hrev : reverseLeg reason group now s.cash leg with
  | error failure =>
      refine ⟨by simp [undoLeg, hrev, bind, Except.bind], fun s' h => ?_⟩
      simp [undoLeg, hrev, bind, Except.bind] at h
  | ok cash =>
      obtain ⟨hlive, r, hent, hrid, hrrev, hrpos, hpurchase, hkind⟩ := reverseLeg_row hleg hrev
      have hgrow : s.cash.entries ⊆ cash.entries := by
        rw [hent]
        exact List.subset_append_left _ _
      have hsum : ∀ id, CashLedger.liveSum (paysFor id) cash.entries =
          s.paidOn id - if paysFor id leg then leg.amount else 0 := by
        intro id
        rw [hent, CashLedger.liveSum_reverse hs.entries_nodup hmem hlive hrrev, paidOn]
      rw [undoLeg_eq hrev, undoLeg_eq hrev]
      cases hid : leg.purchaseId with
      | none =>
          rw [unpaid_of_other hid]
          refine ⟨rfl, fun s' h => ?_⟩
          obtain rfl := Except.ok.inj h
          refine ⟨hs.append (reversal_entry hs hmem hrid hrrev hrpos hpurchase hkind le_rfl) hent
            ⟨hs.numbered, le_rfl⟩ (hs.unmoved (fun id => ?_) rfl), hgrow⟩
          rw [paidOn, hsum]
          simp [paysFor, hid]
      | some id =>
          obtain ⟨hunpaid, hpays⟩ := unpaid_of_payment hs hmem hleg hid
          obtain ⟨p, rfl, hlook⟩ := lookup_bill hs hmem hid
          have hp := hs.bills p (Rows.mem_of_lookup hlook)
          have hle := amount_le_paid hs hmem hlive hp hpays
          have hpos := hs.positive leg hmem
          have hclamp : Clamps.code.unpay (p.amountPaid - leg.amount) p.total =
              p.amountPaid - leg.amount :=
            unpay_clamp (sub_nonneg.mpr hle) (by linarith [hp.paid_le])
          have hset : ∀ clamps, unpayPurchase clamps { s with cash } p.id leg.amount =
              PurchasesService.setPaid { s with cash } p
                (clamps.unpay (p.amountPaid - leg.amount) p.total) := by
            intro clamps
            simp only [unpayPurchase, hlook]
          simp only [hunpaid, Option.map_some, Option.getD_some, hset, hclamp]
          refine ⟨rfl, fun s' h => ?_⟩
          obtain rfl := PurchasesService.setPaid_ok h
          have hnum : PurchaseDesk.Renumbered s { s with cash, purchases := _ } := hs.renumbered
            (PurchasesService.ids_settle p.id p.total (p.amountPaid - leg.amount) s.purchases)
          refine ⟨hs.append (reversal_entry hs hmem hrid hrrev hrpos hpurchase hkind hnum.length)
            hent hnum (hs.moved hlook (d := -leg.amount) (fun j => ?_) ?_ ?_ ?_), hgrow⟩
          · rw [paidOn, hsum]
            by_cases hj : j = p.id
            · subst hj
              rw [if_pos hpays, if_pos rfl]
              ring
            · have hother : paysFor j leg = false := by
                have hne : ¬ p.id = j := fun h => hj h.symm
                simp [paysFor, hid, hne]
              simp [hother, hj]
          · linarith
          · linarith [hp.paid_le]
          · rw [← sub_eq_add_neg]

/-- A whole reversal: leg after leg, with the clamps as without them. -/
theorem undoLegs_booked {reason : String} {group : Option ℕ} {now : Instant} :
    ∀ (legs : List CashTransaction) (s : PurchaseDesk), s.Booked →
      (∀ leg ∈ legs, leg ∈ s.cash.entries ∧ leg.reversesId = none) →
      legs.foldlM (undoLeg Clamps.code reason group now) s =
          legs.foldlM (undoLeg Clamps.off reason group now) s ∧
        ∀ s', legs.foldlM (undoLeg Clamps.code reason group now) s = .ok s' → s'.Booked := by
  intro legs
  induction legs with
  | nil =>
      intro s hs _
      refine ⟨rfl, fun s' h => ?_⟩
      obtain rfl := Result.foldlM_nil_ok.mp h
      exact hs
  | cons leg rest ih =>
      intro s hs hlegs
      obtain ⟨hmem, hleg⟩ := hlegs leg (by simp)
      obtain ⟨hsame, hnext⟩ := undoLeg_booked hs hmem hleg
      rw [List.foldlM_cons, List.foldlM_cons, ← hsame]
      cases hundo : undoLeg Clamps.code reason group now s leg with
      | error failure =>
          refine ⟨rfl, fun s' h => ?_⟩
          cases h
      | ok s₁ =>
          obtain ⟨hs₁, hgrow⟩ := hnext s₁ hundo
          exact ih s₁ hs₁ fun l hl => ⟨hgrow (hlegs l (by simp [hl])).1, (hlegs l (by simp [hl])).2⟩

theorem legs_mem {orig : CashTransaction} {b : Cashbook} (hmem : orig ∈ b.entries)
    (hrev : orig.reversesId = none) :
    ∀ leg ∈ legs b orig, leg ∈ b.entries ∧ leg.reversesId = none := by
  intro leg hleg
  unfold legs at hleg
  split at hleg
  · simp only [List.mem_filter, Bool.and_eq_true, decide_eq_true_eq,
      Option.isNone_iff_eq_none] at hleg
    exact ⟨hleg.1, hleg.2.2⟩
  · obtain rfl := List.mem_singleton.mp hleg
    exact ⟨hmem, hrev⟩

theorem undo_booked {id : EntryId} {reason : String} {group : ℕ} {now : Instant} (hs : s.Booked) :
    undo Clamps.code s id reason group now = undo Clamps.off s id reason group now ∧
      ∀ s', undo Clamps.code s id reason group now = .ok s' → s'.Booked := by
  unfold undo
  cases hlook : Rows.lookup CashTransaction.id id s.cash.entries with
  | none => exact ⟨rfl, fun s' h => by cases h⟩
  | some orig =>
      simp only
      split
      · exact ⟨rfl, fun s' h => by cases h⟩
      rename_i hrev
      split
      · exact ⟨rfl, fun s' h => by cases h⟩
      split
      · exact ⟨rfl, fun s' h => by cases h⟩
      have hnone : orig.reversesId = none := by
        simpa using hrev
      exact undoLegs_booked _ s hs (legs_mem (Rows.mem_of_lookup hlook) hnone)

theorem unpayPurchase_cash {id : PurchaseId} {amount : Money}
    (h : unpayPurchase clamps s id amount = .ok s') : s'.cash = s.cash := by
  unfold unpayPurchase at h
  split at h
  · obtain rfl := Except.ok.inj h
    rfl
  · rw [PurchasesService.setPaid_ok h]

theorem undoLeg_cash {reason : String} {group : Option ℕ} {now : Instant}
    (h : undoLeg clamps reason group now s leg = .ok s') :
    reverseLeg reason group now s.cash leg = .ok s'.cash := by
  obtain ⟨cash, hrev, h⟩ := Result.bind_ok.mp h
  rw [hrev]
  split at h
  · rw [← Result.pure_ok.mp h]
  · rw [unpayPurchase_cash h]

/-- On the cashbook alone, a reversal is the reversal of the cashbook. -/
theorem undo_cash {id : EntryId} {reason : String} {group : ℕ} {now : Instant}
    (h : undo clamps s id reason group now = .ok s') :
    reverse s.cash id reason group now = .ok s'.cash := by
  have hlegs : ∀ (g : Option ℕ) (l : List CashTransaction) (s s' : PurchaseDesk),
      l.foldlM (undoLeg clamps reason g now) s = .ok s' →
        l.foldlM (reverseLeg reason g now) s.cash = .ok s'.cash := by
    intro g l
    induction l with
    | nil =>
        intro s s' h
        rw [Result.foldlM_nil_ok.mp h]
        rfl
    | cons leg rest ih =>
        intro s s' h
        obtain ⟨s₁, hleg, hrest⟩ := Result.foldlM_cons_ok.mp h
        exact Result.foldlM_cons_ok.mpr ⟨s₁.cash, undoLeg_cash hleg, ih s₁ s' hrest⟩
  unfold undo at h
  unfold reverse
  simp only at h ⊢
  cases hlook : Rows.lookup CashTransaction.id id s.cash.entries with
  | none => simp [hlook] at h
  | some orig =>
      simp only [hlook] at h ⊢
      split at h
      · cases h
      rename_i h1
      split at h
      · cases h
      rename_i h2
      split at h
      · cases h
      rename_i h3
      rw [if_neg h1, if_neg h2, if_neg h3]
      exact hlegs _ _ s s' h

end CashbookService

/-! ### Runs -/

namespace PurchaseDesk

variable {s s' t : PurchaseDesk}

/-- A posting of another flow pays no bill. -/
theorem post_booked {e : PostEntry} (hs : s.Booked) (he : PurchaseAction.otherFlow e)
    {cash : Cashbook} (h : CashLedger.post s.cash e = .ok cash) : { s with cash }.Booked := by
  simp only [PurchaseAction.otherFlow, Bool.and_eq_true, Option.isNone_iff_eq_none] at he
  obtain ⟨hpos, acc, hent⟩ := CashLedger.post_ok h
  refine hs.append ⟨rfl, ?_, hpos, ?_⟩ hent ⟨hs.numbered, le_rfl⟩ (hs.unmoved (fun id => ?_) rfl)
  · intro i hi
    rw [PostEntry.row, he.2] at hi
    cases hi
  · intro id hid
    rw [PostEntry.row, he.1] at hid
    cases hid
  · rw [paidOn, hent, CashLedger.liveSum_append he.2 hs.fresh, paidOn]
    simp [paysFor, PostEntry.row, he.1]

/-- The clamps change no call's outcome. -/
theorem step_clamps (hs : s.Booked) (a : PurchaseAction) :
    purchaseStep Clamps.code s a = purchaseStep Clamps.off s a := by
  cases a with
  | create dto now => rfl
  | pay id dto now =>
      have hcall : PurchasesService.pay Clamps.code s id dto now =
          PurchasesService.pay Clamps.off s id dto now := PurchasesService.pay_clamp s id dto now
      simp only [purchaseStep, PurchaseAction.call, hcall]
  | reverse id reason group now =>
      have hcall : CashbookService.undo Clamps.code s id reason group now =
          CashbookService.undo Clamps.off s id reason group now :=
        (CashbookService.undo_booked hs).1
      simp only [purchaseStep, PurchaseAction.call, hcall]
  | post e => rfl
  | change store suppliers accounts => rfl

/-- Every call keeps the bills and the cashbook in agreement. -/
theorem step_booked {a : PurchaseAction} (hs : s.Booked)
    (h : purchaseStep Clamps.code s a = some s') : s'.Booked := by
  cases a with
  | create dto now => exact PurchasesService.create_booked hs (Result.toOption_some.mp h)
  | pay id dto now => exact PurchasesService.pay_booked hs (Result.toOption_some.mp h)
  | reverse id reason group now =>
      exact (CashbookService.undo_booked hs).2 s' (Result.toOption_some.mp h)
  | post e =>
      simp only [purchaseStep] at h
      split at h
      · rename_i he
        obtain ⟨cash, hpost, rfl⟩ := Result.map_ok.mp (Result.toOption_some.mp h)
        exact post_booked hs he hpost
      · cases h
  | change store suppliers accounts =>
      obtain rfl := Option.some.inj h
      exact hs.congr rfl rfl

theorem run_booked (as : List PurchaseAction) (hs : s.Opening)
    (hrun : Machine.runFrom (purchaseStep Clamps.code) s as = some t) : t.Booked :=
  Machine.runFrom_invariant (fun _ _ _ hi h => step_booked hi h) as s t hs.booked hrun

/-- **Whatever was bought, paid and reversed, every bill says what the cashbook says, and no
clamp has anything to do.** -/
theorem bills_match_cashbook (s t : PurchaseDesk) (as : List PurchaseAction) (hs : s.Opening)
    (hrun : Machine.runFrom (purchaseStep Clamps.code) s as = some t) :
    (∀ p ∈ t.purchases, p.Agrees t) ∧
      ∀ a, purchaseStep Clamps.code t a = purchaseStep Clamps.off t a :=
  ⟨(run_booked as hs hrun).bills, step_clamps (run_booked as hs hrun)⟩

/-- A desk with one supplier, one book and one account. -/
def supplied : PurchaseDesk where
  store := { products := [{ id := 7, title := "বই" }] }
  suppliers := [{ id := 1, name := "পাঞ্জেরী পাবলিকেশন্স" }]
  cash := { accounts := [{ id := 0, code := "cash", name := "ক্যাশ" }] }

/-- A bill of 910 with 300 paid at once. -/
def restockBill : CreatePurchaseDto where
  supplierId := 1
  purchasedAt := some 1000
  lines := [{ productId := 7, quantity := 3, unitCost := 200 },
    { productId := 7, quantity := 2, unitCost := 180 }]
  otherCharges := some 10
  payment := some { accountId := 0, amount := some ⟨300, by decide +kernel⟩ }

/-- The rest is paid, and then the first payment is taken back. -/
def paidAndReversed : List PurchaseAction :=
  [.create restockBill 1000,
   .pay 0 { accountId := 0, amount := ⟨610, by decide +kernel⟩, occurredAt := some 2000 } 2000,
   .reverse 0 "ভুল খাত" 0 3000]

theorem bills_match_cashbook_run : ∃ t,
    Machine.runFrom (purchaseStep Clamps.code) supplied paidAndReversed = some t ∧
      t.purchases.map (fun p => (p.total, p.amountPaid, p.paymentStatus)) =
        [(910, 610, .partial_)] ∧
      (∀ p ∈ t.purchases, p.Agrees t) ∧
      ∀ a, purchaseStep Clamps.code t a = purchaseStep Clamps.off t a := by
  have hruns : (Machine.runFrom (purchaseStep Clamps.code) supplied paidAndReversed).any
      (fun t => t.purchases.map (fun p => (p.total, p.amountPaid, p.paymentStatus)) =
        [(910, 610, .partial_)]) = true := by
    decide +kernel
  obtain ⟨t, ht, hend⟩ := (Option.any_eq_true _ _).mp hruns
  exact ⟨t, ht, of_decide_eq_true hend,
    bills_match_cashbook supplied t paidAndReversed ⟨rfl, rfl⟩ ht⟩

end PurchaseDesk

end BookHouse
