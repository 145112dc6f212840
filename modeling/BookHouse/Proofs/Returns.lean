/-
A return undoes a shipment, batch by batch.

The shelf may hold copies the batches know nothing about, and anybody may count copies away
in between, so nothing is said of how the batches add up.  What carries the argument is that
an order's own calls keep, for each batch, what the batch has left plus what the order has
out of it (`LotStep`), while the calls of all others leave the order's takings alone.  A
shipment starts with nothing out and a return ends with nothing out: so the return puts into
each batch what the shipment took from it.
-/
import BookHouse.Lib.Machine
import BookHouse.InventoryDesk
import BookHouse.Proofs.Batches

namespace BookHouse

open Tally (Entry count)
open Machine

namespace Store

/-- The copies that one batch has left. -/
def lotQty (s : Store) (id : LotId) : ℤ :=
  ((Rows.lookup StockLot.id id s.lots).map (·.qtyLeft)).getD 0

/-- What an order recorded as taken. -/
def takings (s : Store) (o : OrderId) : List StockLotConsumption :=
  s.consumptions.filter fun c => c.orderId = o

/-- The copies that an order took of one batch and did not give back. -/
def outOf (s : Store) (o : OrderId) (id : LotId) : ℤ :=
  (s.consumptions.map fun c => if c.orderId = o ∧ c.lotId = id then c.qty - c.returned else 0).sum

variable {s t : Store} {o : OrderId}

private theorem sum_takings (s : Store) (o : OrderId) (c : StockLotConsumption → Prop)
    [DecidablePred c] (g : StockLotConsumption → ℤ) :
    (s.consumptions.map fun x => if x.orderId = o ∧ c x then g x else 0).sum =
      ((s.takings o).map fun x => if c x then g x else 0).sum := by
  unfold takings
  induction s.consumptions with
  | nil => rfl
  | cons a rest ih =>
      rw [List.map_cons, List.sum_cons, ih]
      by_cases ha : a.orderId = o
      · simp [ha]
      · simp [ha]

/-- What is out depends on the order's own takings only. -/
theorem outstanding_of_takings (h : t.takings o = s.takings o) (p : ProductId) :
    t.outstanding o p = s.outstanding o p := by
  unfold outstanding
  rw [sum_takings, sum_takings, h]

theorem outOf_of_takings (h : t.takings o = s.takings o) (id : LotId) :
    t.outOf o id = s.outOf o id := by
  unfold outOf
  rw [sum_takings, sum_takings, h]

end Store

namespace Batched

variable {s : Store} {o : OrderId}

theorem outstanding_nonneg (h : Batched s) (o : OrderId) (p : ProductId) :
    0 ≤ s.outstanding o p := by
  refine List.sum_nonneg fun x hx => ?_
  obtain ⟨c, hc, rfl⟩ := List.mem_map.mp hx
  have hused := h.used c hc
  split
  · omega
  · exact le_refl 0

/-- An order with no copies out has none out of any batch. -/
theorem outOf_zero (h : Batched s) (hout : ∀ p, s.outstanding o p = 0) (id : LotId) :
    s.outOf o id = 0 := by
  refine List.sum_eq_zero fun x hx => ?_
  obtain ⟨c, hc, rfl⟩ := List.mem_map.mp hx
  by_cases ho : c.orderId = o
  · have hmem : c.qty - c.returned ∈ s.consumptions.map fun x =>
        if x.orderId = o ∧ x.productId = c.productId then x.qty - x.returned else 0 :=
      List.mem_map.mpr ⟨c, hc, if_pos ⟨ho, rfl⟩⟩
    have hle : c.qty - c.returned ≤ s.outstanding o c.productId := by
      refine List.single_le_sum (fun x hx => ?_) _ hmem
      obtain ⟨y, hy, rfl⟩ := List.mem_map.mp hx
      have hused := h.used y hy
      split
      · omega
      · exact le_refl 0
    have hused := h.used c hc
    rw [hout] at hle
    split
    · omega
    · rfl
  · rw [if_neg fun e => ho e.1]

/-- Nothing is out of a batch that does not exist, and nothing is left of it. -/
theorem outOf_new (h : Batched s) (o : OrderId) {id : LotId} (hid : s.lots.length ≤ id) :
    s.outOf o id = 0 := by
  refine List.sum_eq_zero fun x hx => ?_
  obtain ⟨c, hc, rfl⟩ := List.mem_map.mp hx
  obtain ⟨l, hl, hlot, -⟩ := h.source c hc
  have hlt := h.lot_lt hl
  rw [if_neg]
  rintro ⟨-, heq⟩
  rw [hlot, heq] at hlt
  exact absurd hlt (Nat.not_lt.mpr hid)

theorem lotQty_new (h : Batched s) {id : LotId} (hid : s.lots.length ≤ id) : s.lotQty id = 0 := by
  have hnone : Rows.lookup StockLot.id id s.lots = none := by
    by_contra hne
    obtain ⟨l, hl⟩ := Option.ne_none_iff_exists'.mp hne
    have hlt := h.lot_lt (Rows.mem_of_lookup hl)
    rw [Rows.key_of_lookup hl] at hlt
    exact absurd hlt (Nat.not_lt.mpr hid)
  rw [Store.lotQty, hnone]
  rfl

end Batched

/--
What a call does to batches and takings: the takings of other orders stay as they are, and
for the order it serves, what each batch has left and what the order has out of it add up to
the same as before.
-/
structure LotStep (o : Option OrderId) (s t : Store) : Prop where
  batched : Batched t
  grows : s.lots.length ≤ t.lots.length
  products : t.products.map Product.id = s.products.map Product.id
  others : ∀ i, o ≠ some i → t.takings i = s.takings i
  own : ∀ i, o = some i → ∀ id < s.lots.length,
    t.lotQty id + t.outOf i id = s.lotQty id + s.outOf i id

namespace LotStep

variable {s t u : Store} {o : Option OrderId}

theorem refl (h : Batched s) : LotStep o s s :=
  ⟨h, le_refl _, rfl, fun _ _ => rfl, fun _ _ _ _ => rfl⟩

theorem trans (h : LotStep o s t) (h' : LotStep o t u) : LotStep o s u := by
  refine ⟨h'.batched, h.grows.trans h'.grows, h'.products.trans h.products, fun i hi => ?_,
    fun i hi id hid => ?_⟩
  · rw [h'.others i hi, h.others i hi]
  · rw [h'.own i hi id (hid.trans_le h.grows), h.own i hi id hid]

/-- A call that writes no takings and leaves the batches what they have. -/
theorem of_lots (h : Batched t) (hgrows : s.lots.length ≤ t.lots.length)
    (hproducts : t.products.map Product.id = s.products.map Product.id)
    (hc : t.consumptions = s.consumptions)
    (hqty : ∀ id < s.lots.length, t.lotQty id = s.lotQty id) : LotStep o s t := by
  have htakings : ∀ i, t.takings i = s.takings i := by
    intro i
    rw [Store.takings, hc, Store.takings]
  refine ⟨h, hgrows, hproducts, fun i _ => htakings i, fun i _ id hid => ?_⟩
  rw [hqty id hid, Store.outOf_of_takings (htakings i)]

theorem of_tables (h : Batched s) (hl : t.lots = s.lots) (hc : t.consumptions = s.consumptions)
    (hproducts : t.products.map Product.id = s.products.map Product.id) : LotStep o s t := by
  have hbatched := (BatchMove.of_tables (p := 0) (o := none) h hl hc).batched
  refine of_lots hbatched (by rw [hl]) hproducts hc fun id _ => ?_
  rw [Store.lotQty, hl, Store.lotQty]

theorem knows_iff (h : LotStep o s t) (p : ProductId) : t.knows p ↔ s.knows p := by
  rw [Store.knows, h.products, Store.knows]

/-- The order is not served: what it has out is what it had out. -/
theorem outstanding_other (h : LotStep o s t) {i : OrderId} (hi : o ≠ some i) (p : ProductId) :
    t.outstanding i p = s.outstanding i p :=
  Store.outstanding_of_takings (h.others i hi) p

end LotStep

namespace Inventory

/-! ### The rounds of the loops -/

section rounds

variable {s : Store} {o : Option OrderId} {p : ProductId} {now : Instant} {lot : StockLot} {k : ℤ}

theorem lotQty_takeRound (h : Batched s) (hlot : lot ∈ s.lots) (id : LotId) :
    (takeRound o p now lot k s).lotQty id = s.lotQty id - if id = lot.id then k else 0 := by
  let less (l : StockLot) : StockLot := { l with qtyLeft := l.qtyLeft - k }
  have hless : ∀ l, (less l).id = l.id := fun _ => rfl
  show ((Rows.lookup StockLot.id id (Rows.modify StockLot.id lot.id less s.lots)).map
    (·.qtyLeft)).getD 0 = _
  unfold Store.lotQty
  by_cases hid : id = lot.id
  · rw [hid, Rows.lookup_modify_self hless, Rows.lookup_of_mem h.nodupLots hlot, if_pos rfl]
    rfl
  · rw [Rows.lookup_modify_ne hless hid, if_neg hid, sub_zero]

theorem takeRound_step (h : Batched s) (hlot : lot ∈ s.lots) (hp : lot.productId = p)
    (h0 : 0 ≤ k) (hk : k ≤ lot.qtyLeft) : LotStep o s (takeRound o p now lot k s) := by
  refine ⟨(takeRound_move h hlot hp h0 hk).batched, ?_, rfl, fun i hi => ?_, fun i hi id _ => ?_⟩
  · exact (Rows.length_modify).ge
  · cases o with
    | none => rfl
    | some j =>
        have hne : ¬j = i := fun e => hi (congrArg some e)
        simp [takeRound, Store.takings, hne]
  · rw [lotQty_takeRound h hlot]
    subst hi
    by_cases hid : id = lot.id
    · simp [takeRound, Store.outOf, hid]
    · have hid' : ¬lot.id = id := fun e => hid e.symm
      simp [takeRound, Store.outOf, hid, hid']

variable {u : StockLotConsumption} {back : ℤ} {i : OrderId}

theorem lotQty_backRound (h : Batched s) (hu : u ∈ s.consumptions)
    (hback : back ≤ u.qty - u.returned) (id : LotId) :
    (backRound u back s).lotQty id = s.lotQty id + if id = u.lotId then back else 0 := by
  obtain ⟨lot, hlot, hid, -⟩ := h.source u hu
  have hl := Rows.lookup_of_mem h.nodupLots hlot
  have hclamp := h.clamp_eq hu hlot hid hback
  rw [hid] at hl
  let more (l : StockLot) : StockLot := { l with qtyLeft := min (l.qtyLeft + back) l.qtyIn }
  have hmore : ∀ l, (more l).id = l.id := fun _ => rfl
  show ((Rows.lookup StockLot.id id (Rows.modify StockLot.id u.lotId more s.lots)).map
    (·.qtyLeft)).getD 0 = _
  unfold Store.lotQty
  by_cases hid' : id = u.lotId
  · rw [hid', Rows.lookup_modify_self hmore, hl, if_pos rfl]
    exact hclamp
  · rw [Rows.lookup_modify_ne hmore hid', if_neg hid', add_zero]

theorem backRound_step (h : Batched s) (hu : u ∈ s.consumptions) (ho : u.orderId = i)
    (hp : u.productId = p) (h0 : 0 ≤ back) (hback : back ≤ u.qty - u.returned) :
    LotStep (some i) s (backRound u back s) := by
  have hlu := Rows.lookup_of_mem h.nodupUses hu
  have huses : (backRound u back s).consumptions = Rows.modify StockLotConsumption.id u.id
      (fun c => { c with returned := c.returned + back }) s.consumptions := rfl
  refine ⟨(backRound_move h hu ho hp h0 hback).batched, ?_, rfl, fun j hj => ?_,
    fun j hj id _ => ?_⟩
  · exact (Rows.length_modify).ge
  · -- the takings of another order are not this one
    unfold Store.takings
    rw [huses]
    refine Rows.filter_modify_out fun c hc hid => ?_
    have hcu : c = u := Option.some.inj ((Rows.lookup_of_mem h.nodupUses hc).symm.trans (hid ▸ hlu))
    have hne : ¬u.orderId = j := fun e => hj (congrArg some (ho.symm.trans e))
    rw [hcu]
    exact ⟨decide_eq_false hne, decide_eq_false hne⟩
  · obtain rfl := Option.some.inj hj
    rw [lotQty_backRound h hu hback]
    unfold Store.outOf
    rw [huses, Rows.sum_modify h.nodupUses hlu]
    by_cases hid : id = u.lotId
    · simp only [ho, hid, and_self, if_true]
      ring
    · have hid' : ¬u.lotId = id := fun e => hid e.symm
      simp [hid, hid']

end rounds

/-! ### The operations on batches -/

section operations

variable {s t : Store} {o : Option OrderId} {p : ProductId} {qty : ℤ} {ctx : StockContext}
  {now : Instant}

theorem refreshCost_step (h : Batched s) (p : ProductId) : LotStep o s (refreshCost s p) := by
  have hids := (sameStock_refreshCost s p).products
  unfold refreshCost at hids ⊢
  split at hids
  · exact LotStep.refl h
  · exact LotStep.of_tables h rfl rfl hids

theorem lots_refreshCost (s : Store) (p : ProductId) :
    (refreshCost s p).lots.length = s.lots.length := by
  unfold refreshCost
  split
  · rfl
  · rfl

/-- **What is consumed comes from the batches as far as they go.** -/
theorem consume_step (h : Batched s) (h0 : 0 ≤ qty) :
    LotStep o s (consume s p qty o now).1 ∧
      (consume s p qty o now).1.lots.length = s.lots.length ∧ ∃ k, 0 ≤ k ∧ k ≤ qty ∧
      (qty ≤ s.lotLeft p → k = qty) ∧ BatchMove s (consume s p qty o now).1 p o k := by
  obtain ⟨hnonneg, hle, hdone, hstep, hmove, hlength⟩ :=
    takeFrom_rel
      (R := fun k s t => LotStep o s t ∧ BatchMove s t p o k ∧ t.lots.length = s.lots.length)
      (fun _ h => ⟨LotStep.refl h, BatchMove.refl h, rfl⟩)
      (fun _ _ _ _ _ h h' => ⟨h.1.trans h'.1, h.2.1.trans h'.2.1, h'.2.2.trans h.2.2⟩)
      (fun s lot k h hlot hp h0 hk =>
        ⟨(takeRound_step h hlot hp h0 hk : LotStep o s (takeRound o p now lot k s)),
          takeRound_move h hlot hp h0 hk, Rows.length_modify⟩)
      (openLots s p) qty s [] h (nodup_openLots h p) (fun l hl => mem_openLots hl) h0
  rw [sum_openLots h] at hdone
  have hrefresh := hmove.trans (refreshCost_move hmove.batched p p o)
  rw [add_zero] at hrefresh
  refine ⟨hstep.trans (refreshCost_step hmove.batched p), ?_, _, sub_nonneg.mpr hle, by omega,
    fun hsuff => ?_, hrefresh⟩
  · exact (lots_refreshCost _ p).trans hlength
  · rw [hdone hsuff, sub_zero]

theorem createLot_step {source : LotSource} {cost price : Option Money}
    {purchase : Option PurchaseId} {at_ : Option Instant} (h : Batched s)
    (hlot : createLot s p source qty cost price purchase at_ now = .ok t) : LotStep o s t := by
  have hbatched := (createLot_move h hlot).batched
  unfold createLot at hlot
  split at hlot
  · cases hlot
  split at hlot
  · cases hlot
  obtain rfl := Except.ok.inj hlot
  refine LotStep.of_lots hbatched (by simp) rfl rfl fun id hid => ?_
  have hmem : id ∈ s.lots.map StockLot.id := h.lotIds ▸ List.mem_range.mpr hid
  obtain ⟨l, hl⟩ := Option.isSome_iff_exists.mp (Rows.lookup_isSome.mpr hmem)
  unfold Store.lotQty
  rw [Rows.lookup_append_of_some hl, hl]

/-- What an order has out comes back to its batches as far as there are copies. -/
theorem returnToLots_step {i : OrderId} (h : Batched s) (h0 : 0 ≤ qty) :
    (returnToLots s p qty (some i)).2 = qty - min qty (s.outstanding i p) ∧
      LotStep (some i) s (returnToLots s p qty (some i)).1 ∧
      BatchMove s (returnToLots s p qty (some i)).1 p (some i) (-min qty (s.outstanding i p)) ∧
      (returnToLots s p qty (some i)).1.lots.length = s.lots.length := by
  have hmem : ∀ u ∈ consumptionsOf s i p, u ∈ s.consumptions ∧ u.orderId = i ∧
      u.productId = p := by
    intro u hu
    have hin := List.mem_filter.mp ((List.perm_insertionSort _ _).mem_iff.mp hu)
    have hcond := Bool.and_eq_true_iff.mp hin.2
    exact ⟨hin.1, of_decide_eq_true hcond.1, of_decide_eq_true hcond.2⟩
  have hnd : ((consumptionsOf s i p).map StockLotConsumption.id).Nodup := by
    unfold consumptionsOf
    rw [((List.perm_insertionSort _ _).map StockLotConsumption.id).nodup_iff]
    exact h.nodupUses.sublist (List.filter_sublist.map StockLotConsumption.id)
  have hrel := giveBack_rel
    (R := fun k s t => LotStep (some i) s t ∧ BatchMove s t p (some i) (-k) ∧
      t.lots.length = s.lots.length)
    (fun _ h => ⟨LotStep.refl h, by rw [neg_zero]; exact BatchMove.refl h, rfl⟩)
    (fun _ _ _ _ _ h h' =>
      ⟨h.1.trans h'.1, by rw [neg_add]; exact h.2.1.trans h'.2.1, h'.2.2.trans h.2.2⟩)
    (fun _ _ _ h hu ho hp h0 hk => ⟨backRound_step h hu ho hp h0 hk,
      backRound_move h hu ho hp h0 hk, Rows.length_modify⟩)
    (consumptionsOf s i p) qty s h hnd hmem h0
  rw [sum_consumptionsOf] at hrel
  exact hrel

/-- **What comes back goes to the order's batches first, and into a new one for the rest.** -/
theorem unconsume_step (h : Batched s) (h0 : 0 ≤ qty) (hcall : unconsume s p qty ctx = .ok t) :
    LotStep ctx.orderId s t ∧ ∀ i, ctx.orderId = some i →
      (∀ q, t.outstanding i q = s.outstanding i q -
        if q = p then min qty (s.outstanding i p) else 0) ∧
      (qty ≤ s.outstanding i p → t.lots.length = s.lots.length) := by
  obtain ⟨u, hu, rfl⟩ := Result.map_ok.mp hcall
  have hout : ∀ (b : Batched u) i q, (refreshCost u p).outstanding i q = u.outstanding i q := by
    intro b i q
    rw [(refreshCost_move b p p none).out, ite_self, add_zero]
  rw [lots_refreshCost]
  cases ho : ctx.orderId with
  | none =>
      rw [ho] at hu
      refine ⟨?_, fun i hi => nomatch hi⟩
      split at hu
      · have hlot := createLot_step (o := none) h hu
        exact hlot.trans (refreshCost_step hlot.batched p)
      · obtain rfl := Except.ok.inj hu
        exact refreshCost_step h p
  | some i =>
      rw [ho] at hu
      obtain ⟨hleft, hstep, hmove, hsame⟩ := returnToLots_step (p := p) (i := i) h h0
      have hgave : ∀ q, (returnToLots s p qty (some i)).1.outstanding i q =
          s.outstanding i q - if q = p then min qty (s.outstanding i p) else 0 := by
        intro q
        rw [hmove.out]
        by_cases hq : q = p
        · simp only [hq, and_self, if_true]
          ring
        · simp [hq]
      split at hu
      · rename_i hpos
        have hmade := createLot_move hstep.batched hu
        have hlot := createLot_step (o := some i) hstep.batched hu
        refine ⟨(hstep.trans hlot).trans (refreshCost_step hlot.batched p), fun j hj => ?_⟩
        obtain rfl := Option.some.inj hj
        refine ⟨fun q => ?_, fun hle => absurd hpos ?_⟩
        · rw [hout hmade.batched, hmade.out, if_neg (by simp), add_zero, hgave]
        · rw [hleft, min_eq_left hle, sub_self]
          exact lt_irrefl 0
      · obtain rfl := Except.ok.inj hu
        refine ⟨hstep.trans (refreshCost_step hstep.batched p), fun j hj => ?_⟩
        obtain rfl := Option.some.inj hj
        exact ⟨fun q => by rw [hout hstep.batched, hgave], fun _ => hsame⟩

end operations

end Inventory

/-! ### Lines of an order -/

/-- The lines leave the shelf, and the batches as far as they go. -/
structure Ships (o : Option OrderId) (s : Store) (lines : List StockLine) (t : Store) : Prop where
  step : LotStep o s t
  lots : t.lots.length = s.lots.length
  onHand : ∀ p, t.onHand p = s.onHand p + -1 * count p lines
  took : ∀ p, ∃ k, 0 ≤ k ∧ k ≤ count p lines ∧ (count p lines ≤ s.lotLeft p → k = count p lines) ∧
    t.lotLeft p = s.lotLeft p - k ∧ ∀ i, o = some i → t.outstanding i p = s.outstanding i p + k

/-- The lines come back to the shelf, and what the order has out of the batches to them. -/
structure Unships (o : Option OrderId) (s : Store) (lines : List StockLine) (t : Store) :
    Prop where
  step : LotStep o s t
  onHand : ∀ p, t.onHand p = s.onHand p + 1 * count p lines
  gave : ∀ i, o = some i → ∀ p,
    t.outstanding i p = s.outstanding i p - min (count p lines) (s.outstanding i p)
  /-- no batch is opened for copies that have one -/
  kept : ∀ i, o = some i → (∀ p, count p lines ≤ s.outstanding i p) →
    t.lots.length = s.lots.length

section lines

variable {s t u : Store} {o : Option OrderId} {lines rest : List StockLine} {l : StockLine}
  {ctx : StockContext} {clamp : ℤ → ℤ}

theorem count_singleton (p : ProductId) (l : StockLine) :
    count p [l] = if l.key = p then l.qty else 0 := by
  simp

theorem Ships.nil (h : Batched s) : Ships o s [] s := by
  refine ⟨LotStep.refl h, rfl, fun p => ?_,
    fun p => ⟨0, le_refl 0, le_refl 0, fun _ => rfl, ?_, ?_⟩⟩
  · simp
  · rw [sub_zero]
  · intro i _
    rw [add_zero]

theorem Ships.append (hpos : 0 ≤ l.qty) (hrest : ∀ x ∈ rest, 0 ≤ x.qty) (h : Ships o s [l] u)
    (h' : Ships o u rest t) : Ships o s (l :: rest) t := by
  refine ⟨h.step.trans h'.step, h'.lots.trans h.lots, fun p => ?_, fun p => ?_⟩
  · have hcount : count p (l :: rest) = count p [l] + count p rest := by simp
    rw [h'.onHand, h.onHand, hcount]
    ring
  · obtain ⟨k, hk, hle, hall, hleft, hout⟩ := h.took p
    obtain ⟨k', hk', hle', hall', hleft', hout'⟩ := h'.took p
    have hcount : count p (l :: rest) = count p [l] + count p rest := by simp
    have hnonneg := Tally.count_nonneg hrest p
    have hnonneg' : 0 ≤ count p [l] :=
      Tally.count_nonneg (fun x hx => by rw [List.mem_singleton.mp hx]; exact hpos) p
    refine ⟨k + k', by omega, by omega, fun hsuff => ?_, ?_, fun i hi => ?_⟩
    · have hk₁ := hall (by omega)
      have hk₂ := hall' (by omega)
      omega
    · rw [hleft', hleft]
      ring
    · rw [hout' i hi, hout i hi]
      ring

/-- Writing neither batches nor counts changes nothing of it. -/
theorem Ships.then_same (h : Ships o s lines u) (hsame : SameStock u t) (hl : t.lots = u.lots)
    (hc : t.consumptions = u.consumptions) : Ships o s lines t := by
  refine ⟨h.step.trans (.of_tables h.step.batched hl hc hsame.products), by rw [hl, h.lots],
    fun p => by rw [hsame.onHand, h.onHand], fun p => ?_⟩
  have htables := BatchMove.of_tables (p := p) (o := none) h.step.batched hl hc
  obtain ⟨k, hk, hle, hall, hleft, hout⟩ := h.took p
  refine ⟨k, hk, hle, hall, ?_, fun j hj => ?_⟩
  · rw [htables.left, ite_self, sub_zero, hleft]
  · rw [htables.out, ite_self, add_zero, hout j hj]

theorem Unships.nil (h : Batched s) : Unships o s [] s := by
  refine ⟨LotStep.refl h, fun p => ?_, fun i _ p => ?_, fun _ _ _ => rfl⟩
  · simp
  · have hnonneg := h.outstanding_nonneg i p
    rw [Tally.count_nil, min_eq_left hnonneg, sub_zero]

theorem Unships.append (hs : Batched s) (hpos : 0 ≤ l.qty) (hrest : ∀ x ∈ rest, 0 ≤ x.qty)
    (h : Unships o s [l] u) (h' : Unships o u rest t) : Unships o s (l :: rest) t := by
  have hcount : ∀ p, count p (l :: rest) = count p [l] + count p rest := by simp
  have hnonneg : ∀ p, 0 ≤ count p [l] := fun p =>
    Tally.count_nonneg (fun x hx => by rw [List.mem_singleton.mp hx]; exact hpos) p
  refine ⟨h.step.trans h'.step, fun p => ?_, fun i hi p => ?_, fun i hi hall => ?_⟩
  · rw [h'.onHand, h.onHand, hcount]
    ring
  · have hout := hs.outstanding_nonneg i p
    have hline := hnonneg p
    have hlines := Tally.count_nonneg hrest p
    rw [h'.gave i hi, h.gave i hi, hcount]
    omega
  · have hline : ∀ p, count p [l] ≤ s.outstanding i p := by
      intro p
      have hp := hall p
      have hlines := Tally.count_nonneg hrest p
      rw [hcount] at hp
      omega
    rw [h'.kept i hi fun p => ?_, h.kept i hi hline]
    have hp := hall p
    rw [h.gave i hi, min_eq_left (hline p)]
    rw [hcount] at hp
    omega

/-- A loop over positive lines, for any relation its rounds keep and that adds up over lines. -/
theorem foldlM_lines {σ : Type} {π : σ → Store} {g : σ → StockLine → Except Failure σ}
    {R : Store → List StockLine → Store → Prop} (hnil : ∀ s, Batched s → R s [] s)
    (hbatched : ∀ s l t, R s [l] t → Batched t)
    (happend : ∀ s u t l rest, Batched s → 0 < l.qty → (∀ x ∈ rest, 0 < x.qty) → R s [l] u →
      R u rest t → R s (l :: rest) t)
    (hround : ∀ x l y, Batched (π x) → 0 < l.qty → g x l = .ok y → R (π x) [l] (π y)) :
    ∀ (m : List StockLine) (x y : σ), (∀ l ∈ m, 0 < l.qty) → Batched (π x) →
      m.foldlM g x = .ok y → R (π x) m (π y) := by
  intro m
  induction m with
  | nil =>
      intro x y _ hs h
      obtain rfl := Result.foldlM_nil_ok.mp h
      exact hnil _ hs
  | cons l rest ih =>
      intro x y hpos hs h
      obtain ⟨z, hz, hrest⟩ := Result.foldlM_cons_ok.mp h
      have hl := hpos l (by simp)
      have hr : ∀ x ∈ rest, 0 < x.qty := fun x hx => hpos x (by simp [hx])
      have hline := hround x l z hs hl hz
      exact happend _ _ _ _ _ hs hl hr hline (ih z y hr (hbatched _ _ _ hline) hrest)

namespace Inventory

/-- An update of a product with its movement: the batches stay, the shelf moves by the line. -/
theorem step_of_update {cond : Product → Bool} {f : Product → Product} {p' : Product}
    {type : StockMovementType} {dOn dRes : ℤ} {cost : Option Money} {id : ProductId}
    (hs : Batched s) (hu : updateProduct s id cond f = .ok (some (p', u)))
    (hlog : log u p' type dOn dRes ctx cost = .ok t) (hf : ∀ r, (f r).id = r.id) :
    LotStep o s t := by
  obtain ⟨hlots, huses⟩ := lots_of_update hu hlog
  obtain ⟨p, -, -, -, rfl⟩ := updateProduct_some hu
  obtain ⟨m, -, -, -, rfl⟩ := log_ok hlog
  exact LotStep.of_tables hs hlots huses (Rows.map_modify hf)

theorem onHand_of_update {cond : Product → Bool} {f : Product → Product} {p' : Product}
    {type : StockMovementType} {dOn dRes a : ℤ} {cost : Option Money}
    (hu : updateProduct s l.key cond f = .ok (some (p', u)))
    (hlog : log u p' type dOn dRes ctx cost = .ok t) (hf : ∀ r, (f r).id = r.id)
    (hqty : ∀ r, (f r).stockOnHand = r.stockOnHand + a * l.qty) (p : ProductId) :
    t.onHand p = s.onHand p + a * count p [l] := by
  obtain ⟨r, hr, -, -, rfl⟩ := updateProduct_some hu
  obtain ⟨m, -, -, -, rfl⟩ := log_ok hlog
  exact column_modify hr hf (hqty r) p

theorem reserveLine_step (hs : Batched s) (h : reserveLine ctx s l = .ok t) : LotStep o s t := by
  obtain ⟨updated, hu, h⟩ := Result.bind_ok.mp h
  cases updated with
  | none =>
      dsimp only at h
      split at h
      · cases h
      · cases h
  | some r => exact step_of_update hs hu h fun _ => rfl

theorem releaseLine_step (hs : Batched s) (h : releaseLine clamp ctx s l = .ok t) :
    LotStep o s t := by
  obtain ⟨updated, hu, h⟩ := Result.bind_ok.mp h
  cases updated with
  | none =>
      obtain rfl := Except.ok.inj h
      exact LotStep.refl hs
  | some r => exact step_of_update hs hu h fun _ => rfl

/-- **A line that goes out is taken from the batches as far as they go.** -/
theorem fulfillLine_ships {r r' : Store × List LowStockHit} (hs : Batched r.1) (hpos : 0 < l.qty)
    (h : fulfillLine clamp ctx r l = .ok r') : Ships ctx.orderId r.1 [l] r'.1 := by
  obtain ⟨updated, hu, h⟩ := Result.bind_ok.mp h
  cases updated with
  | none => cases h
  | some x =>
      obtain ⟨v, hlog, h⟩ := Result.bind_ok.mp h
      have hupdate : LotStep ctx.orderId r.1 v := step_of_update hs hu hlog fun _ => rfl
      have honHand := onHand_of_update (a := -1) hu hlog (fun _ => rfl) fun q => by ring
      obtain ⟨hlots, huses⟩ := lots_of_update hu hlog
      have hbase := BatchMove.of_tables (p := l.key) (o := ctx.orderId) hs hlots huses
      obtain ⟨hstep, hlength, k, hk, hle, hall, hmove⟩ :=
        (consume_step hupdate.batched hpos.le :
          LotStep ctx.orderId v (consume v l.key l.qty ctx.orderId ctx.now).1 ∧ _)
      have hused := sameStock_consume v l.key l.qty ctx.orderId ctx.now
      have hships : Ships ctx.orderId r.1 [l] (consume v l.key l.qty ctx.orderId ctx.now).1 := by
        refine ⟨hupdate.trans hstep, by rw [hlength, hlots], fun p => ?_, fun p => ?_⟩
        · rw [hused.onHand, honHand]
        · have hleft : v.lotLeft p = r.1.lotLeft p := by rw [hbase.left, ite_self, sub_zero]
          have hout : ∀ i, v.outstanding i p = r.1.outstanding i p := by
            intro i
            rw [hbase.out, ite_self, add_zero]
          by_cases hp : p = l.key
          · subst hp
            refine ⟨k, hk, by simpa using hle, fun hsuff => ?_, ?_, fun i hi => ?_⟩
            · simp only [Tally.count_cons, if_true, Tally.count_nil, add_zero] at hsuff ⊢
              exact hall (hleft ▸ hsuff)
            · rw [hmove.left, if_pos rfl, hleft]
            · rw [hmove.out, if_pos ⟨hi, rfl⟩, hout]
          · have hne : ¬l.key = p := fun e => hp e.symm
            have hcount : count p [l] = 0 := by simp [hne]
            refine ⟨0, le_refl 0, hcount.ge, fun _ => hcount.symm, ?_, fun i hi => ?_⟩
            · rw [hmove.left, if_neg hp, hleft]
            · rw [hmove.out, if_neg fun e => hp e.2, hout]
      obtain rfl := Except.ok.inj h
      dsimp only
      split
      · exact hships
      · rename_i i hi
        have hstamp := stampOrderCost_lots (consume v l.key l.qty ctx.orderId ctx.now).1 i l.key
          (consume v l.key l.qty ctx.orderId ctx.now).2
        have hsame := sameStock_stampOrderCost (consume v l.key l.qty ctx.orderId ctx.now).1 i l.key
          (consume v l.key l.qty ctx.orderId ctx.now).2
        exact hships.then_same hsame hstamp.1 hstamp.2

/-- **A line that comes back goes to the order's batches as far as it has copies out.** -/
theorem restockLine_unships (hs : Batched s) (hpos : 0 < l.qty)
    (h : restockLine ctx s l = .ok t) :
    LotStep ctx.orderId s t ∧ (s.knows l.key → Unships ctx.orderId s [l] t) := by
  obtain ⟨updated, hu, h⟩ := Result.bind_ok.mp h
  cases updated with
  | none =>
      obtain rfl := Except.ok.inj h
      refine ⟨LotStep.refl hs, fun hk => ?_⟩
      obtain ⟨p, hp⟩ := Option.isSome_iff_exists.mp (Rows.lookup_isSome.mpr hk)
      exact absurd (updateProduct_none hu p hp) (by simp)
  | some r =>
      obtain ⟨v, hlog, h⟩ := Result.bind_ok.mp h
      have hupdate : LotStep ctx.orderId s v := step_of_update hs hu hlog fun _ => rfl
      have honHand := onHand_of_update (a := 1) hu hlog (fun _ => rfl) fun q => by ring
      obtain ⟨hlots, huses⟩ := lots_of_update hu hlog
      have hout : ∀ i p, v.outstanding i p = s.outstanding i p := by
        intro i p
        rw [Store.outstanding, huses, Store.outstanding]
      obtain ⟨hstep, hback⟩ := unconsume_step hupdate.batched hpos.le h
      have hsame := sameStock_unconsume h
      refine ⟨hupdate.trans hstep, fun _ => ⟨hupdate.trans hstep, fun p => ?_, fun i hi p => ?_,
        fun i hi hall => ?_⟩⟩
      · rw [hsame.onHand, honHand]
      · rw [(hback i hi).1, hout, hout]
        by_cases hp : p = l.key
        · simp [hp]
        · have hne : ¬l.key = p := fun e => hp e.symm
          have hnonneg := hs.outstanding_nonneg i p
          rw [if_neg hp, count_singleton, if_neg hne, min_eq_left hnonneg]
      · have hle := hall l.key
        rw [count_singleton, if_pos rfl] at hle
        rw [(hback i hi).2 (by rw [hout]; exact hle), hlots]

theorem reserve_step (hs : Batched s) (h : reserve s lines ctx = .ok t) : LotStep o s t := by
  obtain ⟨m, hm, h⟩ := Result.bind_ok.mp h
  exact foldlM_lines (π := fun s => s) (R := fun s _ t => LotStep o s t)
    (fun _ hs => LotStep.refl hs) (fun _ _ _ h => h.batched)
    (fun _ _ _ _ _ _ _ _ h h' => h.trans h') (fun _ _ _ hs _ hr => reserveLine_step hs hr)
    m s t (merge_pos hm) hs h

theorem release_step (hs : Batched s) (h : release clamp s lines ctx = .ok t) :
    LotStep o s t := by
  obtain ⟨m, hm, h⟩ := Result.bind_ok.mp h
  exact foldlM_lines (π := fun s => s) (R := fun s _ t => LotStep o s t)
    (fun _ hs => LotStep.refl hs) (fun _ _ _ h => h.batched)
    (fun _ _ _ _ _ _ _ _ h h' => h.trans h') (fun _ _ _ hs _ hr => releaseLine_step hs hr)
    m s t (merge_pos hm) hs h

theorem knows_fulfillLine {r r' : Store × List LowStockHit}
    (h : fulfillLine clamp ctx r l = .ok r') : r.1.knows l.key := by
  obtain ⟨updated, hu, h⟩ := Result.bind_ok.mp h
  cases updated with
  | none => cases h
  | some x =>
      obtain ⟨p, hp, -, -, -⟩ := updateProduct_some hu
      exact Rows.lookup_isSome.mp (Option.isSome_of_eq_some hp)

/-- **A shipment takes its lines from the shelf, and from the batches as far as they go.** -/
theorem fulfill_ships {low : List LowStockHit} (hs : Batched s)
    (h : fulfill clamp s lines ctx = .ok (t, low)) :
    Ships ctx.orderId s lines t ∧ ∀ l ∈ lines, s.knows l.key := by
  obtain ⟨m, hm, h⟩ := Result.bind_ok.mp h
  obtain ⟨-, -, hcount, -, hkeys⟩ := merge_ok hm
  have hall : Ships ctx.orderId s m t ∧ ∀ l ∈ m, s.knows l.key := by
    refine foldlM_lines (π := Prod.fst)
      (R := fun s lines t => Ships ctx.orderId s lines t ∧ ∀ l ∈ lines, s.knows l.key)
      (fun _ hs => ⟨Ships.nil hs, fun l hl => by simp at hl⟩) (fun _ _ _ h => h.1.step.batched)
      (fun s u t l rest hs hpos hrest h h' => ?_) (fun x l y hs hpos hr => ?_)
      m (s, []) (t, low) (merge_pos hm) hs h
    · refine ⟨h.1.append hpos.le (fun x hx => (hrest x hx).le) h'.1, fun x hx => ?_⟩
      rcases List.mem_cons.mp hx with rfl | hx
      · exact h.2 x (by simp)
      · exact (h.1.step.knows_iff _).mp (h'.2 x hx)
    · refine ⟨fulfillLine_ships hs hpos hr, fun x hx => ?_⟩
      rw [List.mem_singleton.mp hx]
      exact knows_fulfillLine hr
  refine ⟨⟨hall.1.step, hall.1.lots, fun p => ?_, fun p => ?_⟩, fun l hl => ?_⟩
  · rw [hall.1.onHand, hcount]
  · rw [← hcount]
    exact hall.1.took p
  · obtain ⟨x, hx, hkey⟩ := List.mem_map.mp ((hkeys l.key).mpr (List.mem_map_of_mem hl))
    exact hkey ▸ hall.2 x hx

theorem restock_pos (h : restock s lines ctx = .ok t) : ∀ l ∈ lines, 0 < l.qty := by
  obtain ⟨m, hm, -⟩ := Result.bind_ok.mp h
  exact (merge_ok hm).1

/-- **A return brings its lines back, to the order's batches as far as they are missing.** -/
theorem restock_unships (hs : Batched s) (h : restock s lines ctx = .ok t) :
    LotStep ctx.orderId s t ∧
      ((∀ l ∈ lines, s.knows l.key) → Unships ctx.orderId s lines t) := by
  obtain ⟨m, hm, h⟩ := Result.bind_ok.mp h
  obtain ⟨-, -, hcount, -, hkeys⟩ := merge_ok hm
  obtain ⟨hstep, hall⟩ := foldlM_lines (π := fun s => s)
    (R := fun s lines t => LotStep ctx.orderId s t ∧
      ((∀ l ∈ lines, s.knows l.key) → Unships ctx.orderId s lines t))
    (fun _ hs => ⟨LotStep.refl hs, fun _ => Unships.nil hs⟩) (fun _ _ _ h => h.1.batched)
    (fun s u t l rest hs hpos hrest h h' => ⟨h.1.trans h'.1, fun hk => by
      have hline := h.2 fun x hx => hk x (by simp [List.mem_singleton.mp hx])
      have hlines := h'.2 fun x hx => (h.1.knows_iff _).mpr (hk x (by simp [hx]))
      exact hline.append hs hpos.le (fun x hx => (hrest x hx).le) hlines⟩)
    (fun x l y hs hpos hr => ⟨(restockLine_unships hs hpos hr).1, fun hk =>
      (restockLine_unships hs hpos hr).2 (hk l (by simp))⟩)
    m s t (merge_pos hm) hs h
  refine ⟨hstep, fun hk => ?_⟩
  have hback : Unships ctx.orderId s m t := by
    refine hall fun l hl => ?_
    obtain ⟨x, hx, hkey⟩ := List.mem_map.mp ((hkeys l.key).mp (List.mem_map_of_mem hl))
    exact hkey ▸ hk x hx
  refine ⟨hstep, fun p => ?_, fun i hi p => ?_, fun i hi hle => hback.kept i hi fun p => ?_⟩
  · rw [hback.onHand, hcount]
  · rw [hback.gave i hi, hcount]
  · rw [hcount]
    exact hle p

/-! ### Receipts and corrections -/

variable {p : ProductId} {qty : ℤ}

theorem addBatch_step {batch : Batch} (hs : Batched s)
    (h : addBatch s p qty batch ctx = .ok t) : LotStep o s t := by
  unfold addBatch at h
  split at h
  · cases h
  cases hl : Rows.lookup Product.id p s.products with
  | none => simp [hl] at h
  | some cur =>
      simp only [hl] at h
      obtain ⟨updated, hu, h⟩ := Result.bind_ok.mp h
      cases updated with
      | none => cases h
      | some r =>
          obtain ⟨v, hlog, h⟩ := Result.bind_ok.mp h
          obtain ⟨w, hlot, hret⟩ := Result.bind_ok.mp h
          obtain rfl := Except.ok.inj hret
          have hupdate : LotStep o s v := step_of_update hs hu hlog fun _ => rfl
          have hnew : LotStep o v w := createLot_step hupdate.batched hlot
          exact (hupdate.trans hnew).trans (refreshCost_step hnew.batched p)

/-- Copies that are counted away leave the batches, and nobody has them. -/
theorem setOnHand_step {onHand : ℤ} {type : Option StockMovementType} (hs : Batched s)
    (h : setOnHand s p onHand ctx type = .ok t) : LotStep none s t := by
  unfold setOnHand at h
  split at h
  · cases h
  cases hl : Rows.lookup Product.id p s.products with
  | none => simp [hl] at h
  | some cur =>
      simp only [hl] at h
      split at h
      · obtain rfl := Except.ok.inj h
        exact LotStep.refl hs
      split at h
      · cases h
      obtain ⟨updated, hu, h⟩ := Result.bind_ok.mp h
      cases updated with
      | none => cases h
      | some r =>
          obtain ⟨v, hlog, h⟩ := Result.bind_ok.mp h
          obtain ⟨w, hlot, rfl⟩ := Result.map_ok.mp h
          have hupdate : LotStep none s v := step_of_update hs hu hlog fun _ => rfl
          have hmove : LotStep none v w := by
            split at hlot
            · exact createLot_step hupdate.batched hlot
            · obtain rfl := Except.ok.inj hlot
              exact (consume_step hupdate.batched (by omega)).1
          exact (hupdate.trans hmove).trans (refreshCost_step hmove.batched p)

end Inventory

end lines

/-! ### Runs of the service -/

section runs

variable {s t : Store} {a : ShelfAction} {o : OrderId}

/-- **Every committed call keeps the books of the order it serves, and nobody else's change.** -/
theorem shelfStep_lot (hs : Batched s) (h : shelfStep s a = some t) : LotStep a.order? s t := by
  cases a with
  | reserve lines ctx => exact Inventory.reserve_step hs (Result.toOption_some.mp h)
  | release lines ctx => exact Inventory.release_step hs (Result.toOption_some.mp h)
  | fulfill lines ctx =>
      obtain ⟨⟨t', low⟩, hr, rfl⟩ := Result.map_ok.mp (Result.toOption_some.mp h)
      exact (Inventory.fulfill_ships hs hr).1.step
  | restock lines ctx => exact (Inventory.restock_unships hs (Result.toOption_some.mp h)).1
  | receive p qty cost ctx => exact Inventory.addBatch_step hs (Result.toOption_some.mp h)
  | addBatch p qty batch ctx => exact Inventory.addBatch_step hs (Result.toOption_some.mp h)
  | setOnHand p onHand ctx type => exact Inventory.setOnHand_step hs (Result.toOption_some.mp h)
  | elsewhere t' =>
      by_cases hsame : shelfUntouched s t'
      · have ht : t = t' := by simpa [shelfStep, hsame] using h.symm
        simp only [shelfUntouched, Bool.and_eq_true, decide_eq_true_eq] at hsame
        obtain ⟨⟨hlots, huses⟩, hproducts⟩ := hsame
        have hids := congrArg (List.map Prod.fst) hproducts
        rw [List.map_map, List.map_map] at hids
        rw [ht]
        exact LotStep.of_tables hs hlots huses hids
      · simp [shelfStep, hsame] at h

/-- What the calls of others leave of an order: its takings, and every product. -/
structure LeftAlone (o : OrderId) (s t : Store) : Prop where
  batched : Batched t
  grows : s.lots.length ≤ t.lots.length
  takings : t.takings o = s.takings o
  knows : ∀ p, t.knows p ↔ s.knows p

theorem others_leave : ∀ (as : List ShelfAction) (s t : Store), Batched s →
    (∀ a ∈ as, a.order? ≠ some o) → runFrom shelfStep s as = some t → LeftAlone o s t := by
  intro as
  induction as with
  | nil =>
      intro s t hs _ h
      obtain rfl := Option.some.inj h
      exact ⟨hs, le_refl _, rfl, fun _ => Iff.rfl⟩
  | cons a rest ih =>
      intro s t hs hothers h
      obtain ⟨u, hu, hrest⟩ := runFrom_cons h
      have hstep := shelfStep_lot hs hu
      have hgo := ih u t hstep.batched (fun x hx => hothers x (by simp [hx])) hrest
      have hout := hstep.others o (hothers a (by simp))
      exact ⟨hgo.batched, hstep.grows.trans hgo.grows, hgo.takings.trans hout,
        fun p => (hgo.knows p).trans (hstep.knows_iff p)⟩

/-- The tables are well formed and the order has nothing out. -/
structure AtHome (o : OrderId) (s : Store) : Prop where
  batched : Batched s
  nothing : ∀ p, s.outstanding o p = 0

/-- One round trip of an order: its lines go out, others do what they do, the lines return. -/
structure RoundTrip (o : OrderId) (lines : List StockLine) (s s₁ s₂ s₃ : Store) : Prop where
  out : Ships (some o) s lines s₁
  between : LeftAlone o s₁ s₂
  back : Unships (some o) s₂ lines s₃

/-- The calls of a round trip make one. -/
theorem roundTrip_of_calls {lines : List StockLine} {ctx ctx' : StockContext} {s s₁ s₂ s₃ : Store}
    {between : List ShelfAction} {low : List LowStockHit} (hs : Batched s)
    (ho : ctx.orderId = some o) (ho' : ctx'.orderId = some o)
    (hout : Inventory.fulfill clampZero s lines ctx = .ok (s₁, low))
    (hothers : ∀ a ∈ between, a.order? ≠ some o)
    (hbetween : runFrom shelfStep s₁ between = some s₂)
    (hback : Inventory.restock s₂ lines ctx' = .ok s₃) : RoundTrip o lines s s₁ s₂ s₃ := by
  obtain ⟨hships, hknown⟩ := Inventory.fulfill_ships hs hout
  have halone := others_leave between s₁ s₂ hships.step.batched hothers hbetween
  have hunships := (Inventory.restock_unships halone.batched hback).2 fun l hl =>
    (halone.knows _).mpr ((hships.step.knows_iff _).mpr (hknown l hl))
  exact ⟨ho ▸ hships, halone, ho' ▸ hunships⟩

namespace RoundTrip

variable {lines : List StockLine} {s₁ s₂ s₃ : Store}

/-- Before the return the order has out no more than its lines. -/
theorem out_le (h : RoundTrip o lines s s₁ s₂ s₃) (hs : AtHome o s) (p : ProductId) :
    s₂.outstanding o p ≤ count p lines := by
  obtain ⟨k, -, hle, -, -, hout⟩ := h.out.took p
  rw [Store.outstanding_of_takings h.between.takings, hout o rfl, hs.nothing, zero_add]
  exact hle

/-- **A round trip ends where it started: with nothing out.** -/
theorem home (h : RoundTrip o lines s s₁ s₂ s₃) (hs : AtHome o s) : AtHome o s₃ := by
  refine ⟨h.back.step.batched, fun p => ?_⟩
  rw [h.back.gave o rfl, min_eq_right (h.out_le hs p), sub_self]

end RoundTrip

/-- **An order whose calls come in round trips is at home between them.** -/
theorem home_of_roundTrips {as : List ShelfAction} (htrips : RoundTrips o as) :
    ∀ s t : Store, AtHome o s → runFrom shelfStep s as = some t → AtHome o t := by
  induction htrips with
  | nil =>
      intro s t hs h
      obtain rfl := Option.some.inj h
      exact hs
  | others ha _ ih =>
      intro s t hs h
      obtain ⟨u, hu, hrest⟩ := runFrom_cons h
      have hstep := shelfStep_lot hs.batched hu
      refine ih u t ⟨hstep.batched, fun p => ?_⟩ hrest
      rw [hstep.outstanding_other ha, hs.nothing]
  | trip ho hb ho' _ ih =>
      intro s t hs h
      obtain ⟨s₁, hout, h⟩ := runFrom_cons h
      obtain ⟨s₂, hbetween, h⟩ := runFrom_append h
      obtain ⟨s₃, hback, hrest⟩ := runFrom_cons h
      obtain ⟨⟨t', low⟩, hr, rfl⟩ := Result.map_ok.mp (Result.toOption_some.mp hout)
      have htrip := roundTrip_of_calls hs.batched ho ho' hr hb hbetween
        (Result.toOption_some.mp hback)
      exact ih s₃ t (htrip.home hs) hrest

/-! ### The return undoes the shipment -/

/-- The batches as the shop opens: none has more than came in, and nobody has taken any. -/
structure OpeningBatches (s : Store) : Prop where
  ids : s.lots.map StockLot.id = List.range s.lots.length
  left : ∀ l ∈ s.lots, 0 ≤ l.qtyLeft ∧ l.qtyLeft ≤ l.qtyIn
  untouched : s.consumptions = []

theorem OpeningBatches.home (h : OpeningBatches s) (o : OrderId) : AtHome o s := by
  have hno : ∀ c, c ∉ s.consumptions := by
    intro c hc
    rw [h.untouched] at hc
    cases hc
  refine ⟨⟨h.ids, ?_, fun l hl => (h.left l hl).1, fun l hl => ?_, fun c hc => absurd hc (hno c),
    fun c hc => absurd hc (hno c)⟩, fun p => ?_⟩
  · rw [h.untouched]
    rfl
  · have hused : s.lotUsed l.id = 0 := by
      rw [Store.lotUsed, h.untouched]
      rfl
    rw [hused, add_zero]
    exact (h.left l hl).2
  · rw [Store.outstanding, h.untouched]
    rfl

/-- What the return of an order's lines, from `s₂` to `s₃`, owes their shipment from `s` to `s₁`. -/
structure Undone (o : OrderId) (lines : List StockLine) (s s₁ s₂ s₃ : Store) : Prop where
  /-- each batch gets what the shipment took from it, and no other batch gets anything -/
  lots : ∀ id < s₂.lots.length, s₃.lotQty id = s₂.lotQty id + (s.lotQty id - s₁.lotQty id)
  /-- no batch is opened when the batches covered the shipment -/
  same : (∀ p, count p lines ≤ s.lotLeft p) →
    s₃.lots.map StockLot.id = s₂.lots.map StockLot.id
  shipped : ∀ p, s₁.onHand p = s.onHand p - count p lines
  shelved : ∀ p, s₃.onHand p = s₂.onHand p + count p lines
  /-- a second return of the same lines finds nothing missing from any batch -/
  again : ∀ (others : List ShelfAction) (s₄ s₅ : Store) (ctx : StockContext),
    (∀ a ∈ others, a.order? ≠ some o) → runFrom shelfStep s₃ others = some s₄ →
    ctx.orderId = some o → Inventory.restock s₄ lines ctx = .ok s₅ →
    ∀ id < s₄.lots.length, s₅.lotQty id = s₄.lotQty id

namespace RoundTrip

variable {lines : List StockLine} {s₁ s₂ s₃ : Store}

/-- After the shipment the order has out of each batch what the shipment took from it. -/
theorem taken (h : RoundTrip o lines s s₁ s₂ s₃) (hs : AtHome o s) (id : LotId) :
    s₂.outOf o id = s.lotQty id - s₁.lotQty id := by
  rw [Store.outOf_of_takings h.between.takings]
  by_cases hid : id < s.lots.length
  · have hown := h.out.step.own o rfl id hid
    rw [hs.batched.outOf_zero hs.nothing, add_zero] at hown
    omega
  · have hnew := Nat.not_lt.mp hid
    have hnew₁ : s₁.lots.length ≤ id := h.out.lots ▸ hnew
    rw [h.out.step.batched.outOf_new o hnew₁, hs.batched.lotQty_new hnew,
      h.out.step.batched.lotQty_new hnew₁, sub_self]

/-- **The return of a round trip undoes its shipment.** -/
theorem undone (h : RoundTrip o lines s s₁ s₂ s₃) (hs : AtHome o s)
    (hknown : ∀ l ∈ lines, s₃.knows l.key) : Undone o lines s s₁ s₂ s₃ := by
  have hhome := h.home hs
  refine ⟨fun id hid => ?_, fun hcover => ?_, fun p => ?_, fun p => ?_,
    fun others s₄ s₅ ctx hothers hrun ho hback id hid => ?_⟩
  · have hown := h.back.step.own o rfl id hid
    rw [hhome.batched.outOf_zero hhome.nothing, add_zero, h.taken hs] at hown
    exact hown
  · have hall : ∀ p, count p lines ≤ s₂.outstanding o p := by
      intro p
      obtain ⟨k, -, -, htaken, -, hout⟩ := h.out.took p
      rw [Store.outstanding_of_takings h.between.takings, hout o rfl, hs.nothing, zero_add,
        htaken (hcover p)]
    rw [h.back.step.batched.lotIds, h.between.batched.lotIds, h.back.kept o rfl hall]
  · rw [h.out.onHand]
    ring
  · rw [h.back.onHand]
    ring
  · have halone := others_leave others s₃ s₄ hhome.batched hothers hrun
    have hnothing : ∀ p, s₄.outstanding o p = 0 := fun p => by
      rw [Store.outstanding_of_takings halone.takings, hhome.nothing]
    obtain ⟨-, hunships⟩ := Inventory.restock_unships halone.batched hback
    have hagain := hunships fun l hl => (halone.knows _).mpr (hknown l hl)
    rw [ho] at hagain
    have hnothing₅ : ∀ p, s₅.outstanding o p = 0 := by
      intro p
      have hnonneg := hagain.step.batched.outstanding_nonneg o p
      rw [hagain.gave o rfl, hnothing] at hnonneg ⊢
      have hcap : min (count p lines) 0 ≤ 0 := min_le_right _ _
      have hzero : 0 ≤ count p lines :=
        Tally.count_nonneg (fun l hl => (Inventory.restock_pos hback l hl).le) p
      rw [min_eq_right hzero, sub_zero]
    have hown := hagain.step.own o rfl id hid
    rwa [hagain.step.batched.outOf_zero hnothing₅, halone.batched.outOf_zero hnothing, add_zero,
      add_zero] at hown

end RoundTrip

end runs

/--
**Returning an order undoes its shipment, batch by batch**, however often it went out and
came back before, and whatever others did while it was out.
-/
theorem return_undoes_shipment (o : OrderId) (lines : List StockLine) (ctx ctx' : StockContext)
    (before between : List ShelfAction) (s₀ s s₁ s₂ s₃ : Store) (low : List LowStockHit)
    (hopen : OpeningBatches s₀) (htrips : RoundTrips o before)
    (hbefore : runFrom shelfStep s₀ before = some s) (ho : ctx.orderId = some o)
    (hout : Inventory.fulfill clampZero s lines ctx = .ok (s₁, low))
    (hothers : ∀ a ∈ between, a.order? ≠ some o)
    (hbetween : runFrom shelfStep s₁ between = some s₂) (ho' : ctx'.orderId = some o)
    (hback : Inventory.restock s₂ lines ctx' = .ok s₃) : Undone o lines s s₁ s₂ s₃ := by
  have hs := home_of_roundTrips htrips s₀ s (hopen.home o) hbefore
  have htrip := roundTrip_of_calls hs.batched ho ho' hout hothers hbetween hback
  refine htrip.undone hs fun l hl => ?_
  rw [htrip.back.step.knows_iff, htrip.between.knows, htrip.out.step.knows_iff]
  exact (Inventory.fulfill_ships hs.batched hout).2 l hl

/-- A shop with two batches of one book, and one copy on the shelf that no batch knows. -/
def twoBatches : Store :=
  { products := [{ id := 1, title := "ক", price := 200, stockOnHand := 6 }]
    lots := [{ id := 0, productId := 1, source := .opening, qtyIn := 2, qtyLeft := 2,
               receivedAt := 0, createdAt := 0 },
             { id := 1, productId := 1, source := .purchase, qtyIn := 3, qtyLeft := 3,
               receivedAt := 1, createdAt := 1 }] }

/-- Order 7 of four copies goes out and comes back, and goes out again for a copy less. -/
theorem return_undoes_shipment_twoBatches : ∃ s s₁ s₂ s₃, Undone 7 [⟨1, 3⟩] s s₁ s₂ s₃ := by
  let before : List ShelfAction :=
    [.fulfill [⟨1, 4⟩] { orderId := some 7, now := 2 },
     .restock [⟨1, 4⟩] { orderId := some 7, now := 3 }]
  let between : List ShelfAction :=
    [.addBatch 1 5 { source := .restock } { now := 5 }, .setOnHand 1 7 { now := 6 } none]
  have hall : ((runFrom shelfStep twoBatches before).any fun s =>
      (Inventory.fulfill clampZero s [⟨1, 3⟩] { orderId := some 7, now := 4 }).toOption.any fun r =>
        (runFrom shelfStep r.1 between).any fun s₂ =>
          (Inventory.restock s₂ [⟨1, 3⟩] { orderId := some 7, now := 7 }).toOption.isSome)
      = true := by decide +kernel
  obtain ⟨s, hbefore, hall⟩ := (Option.any_eq_true _ _).mp hall
  obtain ⟨⟨s₁, low⟩, hout, hall⟩ := (Option.any_eq_true _ _).mp hall
  obtain ⟨s₂, hbetween, hall⟩ := (Option.any_eq_true _ _).mp hall
  obtain ⟨s₃, hback⟩ := Option.isSome_iff_exists.mp hall
  have hnone : ∀ a ∈ ([] : List ShelfAction), a.order? ≠ some 7 := by simp
  have htrips : RoundTrips 7 before := .trip rfl hnone rfl .nil
  exact ⟨s, s₁, s₂, s₃, return_undoes_shipment 7 [⟨1, 3⟩] { orderId := some 7, now := 4 }
    { orderId := some 7, now := 7 } before between twoBatches s s₁ s₂ s₃ low
    ⟨rfl, by decide, rfl⟩ htrips hbefore rfl (Result.toOption_some.mp hout) (by decide) hbetween rfl
    (Result.toOption_some.mp hback)⟩

end BookHouse
