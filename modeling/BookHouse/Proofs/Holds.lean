/-
What can be reserved can be shipped, and when it cannot.

On the stock columns of one row each call is a function with a condition (`Shelf`): the
UPDATE's own WHERE and the CHECKs of the row it writes.  A hold is counted in the reserved
column until it is shipped or released, so the holds never exceed it; shipping all of them
takes their sum from the shelf.
-/
import BookHouse.Inventory.HoldMachine
import BookHouse.Proofs.Inventory

namespace BookHouse

open Machine

/-- The columns that the conditions on a product's stock read. -/
structure Shelf where
  onHand : ℤ
  reserved : ℤ
  tracked : Bool
  backorder : Bool
  deleted : Bool

def Product.shelf (p : Product) : Shelf :=
  { onHand := p.stockOnHand, reserved := p.stockReserved, tracked := p.trackInventory,
    backorder := p.allowBackorder, deleted := p.deletedAt.isSome }

namespace Shelf

/-- `products_stock_nonneg` and `products_reserved_lte_hand` -/
structure Sound (r : Shelf) : Prop where
  onHand : 0 ≤ r.onHand
  reserved : 0 ≤ r.reserved
  covered : r.backorder = false → r.reserved ≤ r.onHand

end Shelf

theorem Product.check_iff (p : Product) : p.check = .ok () ↔ p.shelf.Sound := by
  unfold Product.check
  constructor
  · intro h
    split at h
    · cases h
    rename_i hneg
    split at h
    · cases h
    rename_i hcover
    simp only [Bool.or_eq_true, decide_eq_true_eq, not_or, not_lt] at hneg
    refine ⟨hneg.1, hneg.2, fun hb => ?_⟩
    have hb' : p.allowBackorder = false := hb
    simp only [hb', Bool.not_false, Bool.true_and, decide_eq_true_eq, not_lt] at hcover
    exact hcover
  · rintro ⟨hon, hres, hcover⟩
    have hon' : ¬p.stockOnHand < 0 := not_lt.mpr hon
    have hres' : ¬p.stockReserved < 0 := not_lt.mpr hres
    rw [if_neg (by simp [hon', hres'])]
    by_cases hb : p.allowBackorder
    · simp [hb]
    · have hb' : p.allowBackorder = false := by simpa using hb
      have hle : ¬p.stockOnHand < p.stockReserved := not_lt.mpr (hcover hb')
      simp [hle]

/-- The stock columns of a product. -/
def Store.shelf (s : Store) (p : ProductId) : Option Shelf :=
  (Rows.lookup Product.id p s.products).map Product.shelf

namespace Inventory

variable {s t : Store} {p : ProductId} {q : ℤ} {ctx : StockContext} {r : Shelf}

/-! ### What leaves the stock columns alone -/

theorem shelf_of_products (h : t.products = s.products) : t.shelf p = s.shelf p := by
  rw [Store.shelf, h, Store.shelf]

theorem shelf_refreshCost (s : Store) (q p : ProductId) : (refreshCost s q).shelf p = s.shelf p := by
  unfold refreshCost
  split
  · rfl
  · refine Rows.lookup_map_congr (g := Product.shelf) ?_
    exact Rows.map_modify fun _ => rfl

theorem products_takeFrom (o : Option OrderId) (p : ProductId) (now : Instant) :
    ∀ (lots : List StockLot) (need : ℤ) (s : Store) (used : List Used),
      (takeFrom o p now lots need s used).1.products = s.products := by
  intro lots
  induction lots with
  | nil => intro need s used; rfl
  | cons lot rest ih =>
      intro need s used
      rw [takeFrom]
      split
      · rfl
      · rw [ih]

theorem products_giveBack :
    ∀ (uses : List StockLotConsumption) (left : ℤ) (s : Store),
      (giveBack uses left s).1.products = s.products := by
  intro uses
  induction uses with
  | nil => intro left s; rfl
  | cons u rest ih =>
      intro left s
      rw [giveBack]
      split
      · rfl
      · dsimp only
        split
        · exact ih left s
        · rw [ih]

theorem products_createLot {source : LotSource} {cost price : Option Money}
    {purchase : Option PurchaseId} {at_ : Option Instant} {now : Instant}
    (h : createLot s p source q cost price purchase at_ now = .ok t) : t.products = s.products := by
  unfold createLot at h
  split at h
  · cases h
  split at h
  · cases h
  obtain rfl := Except.ok.inj h
  rfl

theorem products_log {x : Product} {type : StockMovementType} {dOn dRes : ℤ}
    {cost : Option Money} (h : log s x type dOn dRes ctx cost = .ok t) :
    t.products = s.products := by
  obtain ⟨m, -, -, -, rfl⟩ := log_ok h
  rfl

theorem products_stampOrderCost (s : Store) (o : OrderId) (p : ProductId) (used : List Used) :
    (stampOrderCost s o p used).products = s.products := by
  unfold stampOrderCost
  split <;> rfl

theorem shelf_consume (s : Store) (x p : ProductId) (o : Option OrderId) (now : Instant) :
    (consume s x q o now).1.shelf p = s.shelf p := by
  have htake := products_takeFrom o x now (openLots s x) q s []
  exact (shelf_refreshCost _ x p).trans (shelf_of_products htake)

theorem shelf_unconsume {x : ProductId} (h : unconsume s x q ctx = .ok t) :
    t.shelf p = s.shelf p := by
  obtain ⟨u, hu, rfl⟩ := Result.map_ok.mp h
  have hback : (returnToLots s x q ctx.orderId).1.products = s.products := by
    cases ctx.orderId with
    | none => rfl
    | some o => exact products_giveBack _ _ _
  rw [shelf_refreshCost]
  refine shelf_of_products (Eq.trans ?_ hback)
  split at hu
  · exact products_createLot hu
  · obtain rfl := Except.ok.inj hu
    rfl

/-! ### One update of the stock columns -/

section update

variable {c : Product → Bool} {f : Product → Product} {g : Shelf → Shelf} {x : Product}

/-- An update that was made met its condition and the CHECKs. -/
theorem updateProduct_shelf (h : updateProduct s p c f = .ok (some (x, t)))
    (hid : ∀ x, (f x).id = x.id) (hf : ∀ x, (f x).shelf = g x.shelf) :
    ∃ row, Rows.lookup Product.id p s.products = some row ∧ c row ∧ x = f row ∧
      (g row.shelf).Sound ∧ t.shelf p = some (g row.shelf) := by
  unfold updateProduct at h
  cases hl : (Rows.lookup Product.id p s.products).filter c with
  | none => simp [hl] at h
  | some row =>
      rw [hl] at h
      obtain ⟨⟨⟩, hcheck, hret⟩ := Result.bind_ok.mp h
      obtain ⟨hrow, hcond⟩ := Option.filter_eq_some_iff.mp hl
      obtain ⟨rfl, rfl⟩ := Prod.mk.inj (Option.some.inj (Except.ok.inj hret))
      refine ⟨row, hrow, hcond, rfl, ?_, ?_⟩
      · rw [← hf]
        exact (Product.check_iff _).mp hcheck
      · rw [Store.shelf, Rows.lookup_modify_self hid, hrow, Option.map_some, Option.map_some, hf]

/-- An update that meets its condition and the CHECKs is made. -/
theorem updateProduct_of_sound {row : Product}
    (hrow : Rows.lookup Product.id p s.products = some row) (hcond : c row)
    (hsound : (f row).shelf.Sound) :
    updateProduct s p c f =
      .ok (some (f row, { s with products := Rows.modify Product.id p f s.products })) := by
  have hcheck := (Product.check_iff (f row)).mpr hsound
  unfold updateProduct
  rw [hrow, Option.filter_some, if_pos hcond]
  show ((f row).check >>= fun _ => _) = _
  rw [hcheck]
  rfl

/-- A movement of some units that leaves a balance is logged. -/
theorem log_of_nonneg (s : Store) (type : StockMovementType) {dOn dRes : ℤ} (ctx : StockContext)
    (hmoves : dRes ≠ 0 ∨ dOn ≠ 0) (hbalance : 0 ≤ x.stockOnHand) :
    ∃ t, log s x type dOn dRes ctx = .ok t := by
  unfold log
  rw [if_neg, if_neg (not_lt.mpr hbalance)]
  · exact ⟨_, rfl⟩
  · simp only [Bool.and_eq_true, decide_eq_true_eq]
    rintro ⟨h₁, h₂⟩
    exact hmoves.elim (fun h => h h₂) fun h => h h₁

end update

/-! ### The calls on one product -/

theorem merge_one (hq : 0 < q) : merge [⟨p, q⟩] = .ok [⟨p, q⟩] := by
  have hq' : ¬q ≤ 0 := not_le.mpr hq
  simp [merge, Tally.collect, Tally.bump, hq']

theorem merge_one_ok {m : List StockLine} (h : merge [⟨p, q⟩] = .ok m) : 0 < q ∧ m = [⟨p, q⟩] := by
  have hq := (merge_ok h).1 ⟨p, q⟩ (by simp)
  refine ⟨hq, ?_⟩
  rw [merge_one hq] at h
  exact (Except.ok.inj h).symm

/-- A loop over one line is its one round. -/
theorem lines_one_ok {σ : Type} {g : σ → StockLine → Except Failure σ} {a b : σ}
    (h : (merge [⟨p, q⟩] >>= fun m => m.foldlM g a) = .ok b) : 0 < q ∧ g a ⟨p, q⟩ = .ok b := by
  obtain ⟨m, hm, hloop⟩ := Result.bind_ok.mp h
  obtain ⟨hq, rfl⟩ := merge_one_ok hm
  obtain ⟨c, hc, hnil⟩ := Result.foldlM_cons_ok.mp hloop
  obtain rfl := Result.foldlM_nil_ok.mp hnil
  exact ⟨hq, hc⟩

theorem lines_one_of {σ : Type} {g : σ → StockLine → Except Failure σ} {a b : σ} (hq : 0 < q)
    (h : g a ⟨p, q⟩ = .ok b) : (merge [⟨p, q⟩] >>= fun m => m.foldlM g a) = .ok b := by
  refine Result.bind_ok.mpr ⟨_, merge_one hq, ?_⟩
  exact Result.foldlM_cons_ok.mpr ⟨b, h, Result.foldlM_nil_ok.mpr rfl⟩

/-- What a reservation met, and the columns it left. -/
theorem reserve_shelf (h : reserve s [⟨p, q⟩] ctx = .ok t) :
    0 < q ∧ ∃ r, s.shelf p = some r ∧ r.deleted = false ∧
      (r.tracked = false ∨ r.backorder = true ∨ q ≤ r.onHand - r.reserved) ∧
      Shelf.Sound { r with reserved := r.reserved + q } ∧
      t.shelf p = some { r with reserved := r.reserved + q } := by
  obtain ⟨hq, hline⟩ := lines_one_ok h
  refine ⟨hq, ?_⟩
  obtain ⟨updated, hu, hline⟩ := Result.bind_ok.mp hline
  cases updated with
  | none =>
      dsimp only at hline
      split at hline
      · cases hline
      · cases hline
  | some x =>
      obtain ⟨x, u⟩ := x
      obtain ⟨row, hrow, hcond, -, hsound, hshelf⟩ :=
        updateProduct_shelf (g := fun r => { r with reserved := r.reserved + q }) hu
          (fun _ => rfl) fun _ => rfl
      refine ⟨row.shelf, ?_, ?_, ?_, hsound, ?_⟩
      · rw [Store.shelf, hrow]
        rfl
      · have hdel := (Bool.and_eq_true_iff.mp hcond).1
        show row.deletedAt.isSome = false
        simpa using hdel
      · have hfree := (Bool.and_eq_true_iff.mp hcond).2
        show row.trackInventory = false ∨ row.allowBackorder = true ∨
          q ≤ row.stockOnHand - row.stockReserved
        simpa [or_assoc] using hfree
      · exact (shelf_of_products (products_log hline)).trans hshelf

/-- A reservation that meets its condition and the CHECKs is made. -/
theorem reserve_of_shelf (hq : 0 < q) (hr : s.shelf p = some r) (hdel : r.deleted = false)
    (hfree : r.tracked = false ∨ r.backorder = true ∨ q ≤ r.onHand - r.reserved)
    (hsound : Shelf.Sound { r with reserved := r.reserved + q }) :
    ∃ t, reserve s [⟨p, q⟩] ctx = .ok t := by
  obtain ⟨row, hrow, rfl⟩ := Option.map_eq_some_iff.mp hr
  let c : Product → Bool := fun x => x.deletedAt.isNone &&
    (!x.trackInventory || x.allowBackorder || q ≤ x.stockOnHand - x.stockReserved)
  have hcond : c row = true := by
    have hdel' : row.deletedAt.isSome = false := hdel
    have hfree' : row.trackInventory = false ∨ row.allowBackorder = true ∨
      q ≤ row.stockOnHand - row.stockReserved := hfree
    simpa [c, or_assoc] using And.intro hdel' hfree'
  let f : Product → Product := fun x => { x with stockReserved := x.stockReserved + q }
  have hu := updateProduct_of_sound (c := c) (f := f) hrow hcond hsound
  obtain ⟨t, ht⟩ := log_of_nonneg { s with products := Rows.modify Product.id p f s.products }
    .orderReserve (x := f row) ctx (.inl hq.ne') hsound.onHand
  exact ⟨t, lines_one_of hq (Result.bind_ok.mpr ⟨_, hu, ht⟩)⟩

/-- What a fulfilment met, and the columns it left. -/
theorem fulfill_shelf {low : List LowStockHit}
    (h : fulfill clampZero s [⟨p, q⟩] ctx = .ok (t, low)) :
    0 < q ∧ ∃ r, s.shelf p = some r ∧
      Shelf.Sound { r with onHand := r.onHand - q, reserved := clampZero (r.reserved - q) } ∧
      t.shelf p =
        some { r with onHand := r.onHand - q, reserved := clampZero (r.reserved - q) } := by
  obtain ⟨hq, hline⟩ := lines_one_ok h
  refine ⟨hq, ?_⟩
  obtain ⟨updated, hu, hline⟩ := Result.bind_ok.mp hline
  cases updated with
  | none => cases hline
  | some x =>
      obtain ⟨x, u⟩ := x
      obtain ⟨v, hlog, hret⟩ := Result.bind_ok.mp hline
      obtain ⟨row, hrow, -, -, hsound, hshelf⟩ :=
        updateProduct_shelf
          (g := fun r => { r with onHand := r.onHand - q, reserved := clampZero (r.reserved - q) })
          hu (fun _ => rfl) fun _ => rfl
      have hused : (consume v p q ctx.orderId ctx.now).1.shelf p = u.shelf p :=
        (shelf_consume v p p ctx.orderId ctx.now).trans (shelf_of_products (products_log hlog))
      refine ⟨row.shelf, ?_, hsound, ?_⟩
      · rw [Store.shelf, hrow]
        rfl
      · obtain ⟨rfl, -⟩ := Prod.mk.inj (Except.ok.inj hret)
        rw [← hshelf, ← hused]
        dsimp only
        split
        · rfl
        · exact shelf_of_products (products_stampOrderCost _ _ _ _)

/-- A fulfilment that meets its condition and the CHECKs is made. -/
theorem fulfill_of_shelf (ctx : StockContext) (hq : 0 < q) (hr : s.shelf p = some r)
    (hfree : r.backorder = true ∨ q ≤ r.onHand)
    (hsound : Shelf.Sound
      { r with onHand := r.onHand - q, reserved := clampZero (r.reserved - q) }) :
    ∃ t, fulfill clampZero s [⟨p, q⟩] ctx = .ok t := by
  obtain ⟨row, hrow, rfl⟩ := Option.map_eq_some_iff.mp hr
  let c : Product → Bool := fun x => x.allowBackorder || q ≤ x.stockOnHand
  have hcond : c row = true := by
    have hfree' : row.allowBackorder = true ∨ q ≤ row.stockOnHand := hfree
    simpa [c] using hfree'
  let f : Product → Product := fun x =>
    { x with stockOnHand := x.stockOnHand - q, stockReserved := clampZero (x.stockReserved - q),
             soldCount := x.soldCount + q }
  have hu := updateProduct_of_sound (c := c) (f := f) hrow hcond hsound
  have hne : -q ≠ 0 := by omega
  obtain ⟨t, ht⟩ := log_of_nonneg { s with products := Rows.modify Product.id p f s.products }
    .orderFulfill (x := f row) ctx (.inl hne) hsound.onHand
  have hround : ∃ r, fulfillLine clampZero ctx (s, []) ⟨p, q⟩ = .ok r :=
    ⟨_, Result.bind_ok.mpr ⟨_, hu, Result.bind_ok.mpr ⟨t, ht, rfl⟩⟩⟩
  obtain ⟨r, hr'⟩ := hround
  exact ⟨r, lines_one_of hq hr'⟩

/-- What a release left. -/
theorem release_shelf (h : release clampZero s [⟨p, q⟩] ctx = .ok t) (hr : s.shelf p = some r) :
    0 < q ∧ Shelf.Sound { r with reserved := clampZero (r.reserved - q) } ∧
      t.shelf p = some { r with reserved := clampZero (r.reserved - q) } := by
  obtain ⟨hq, hline⟩ := lines_one_ok h
  refine ⟨hq, ?_⟩
  obtain ⟨row, hrow, rfl⟩ := Option.map_eq_some_iff.mp hr
  obtain ⟨updated, hu, hline⟩ := Result.bind_ok.mp hline
  cases updated with
  | none => exact absurd (updateProduct_none hu row hrow) (by simp)
  | some x =>
      obtain ⟨x, u⟩ := x
      obtain ⟨row', hrow', -, -, hsound, hshelf⟩ :=
        updateProduct_shelf (g := fun r => { r with reserved := clampZero (r.reserved - q) }) hu
          (fun _ => rfl) fun _ => rfl
      obtain rfl := Option.some.inj (hrow.symm.trans hrow')
      exact ⟨hsound, (shelf_of_products (products_log hline)).trans hshelf⟩

/-- What a restock, a receipt and a correction leave: another on-hand count. -/
def Recounted (t : Store) (p : ProductId) (r : Shelf) : Prop :=
  ∃ n, Shelf.Sound { r with onHand := n } ∧ t.shelf p = some { r with onHand := n }

theorem restock_shelf (h : restock s [⟨p, q⟩] ctx = .ok t) (hr : s.shelf p = some r) :
    Recounted t p r := by
  obtain ⟨-, hline⟩ := lines_one_ok h
  obtain ⟨row, hrow, rfl⟩ := Option.map_eq_some_iff.mp hr
  obtain ⟨updated, hu, hline⟩ := Result.bind_ok.mp hline
  cases updated with
  | none => exact absurd (updateProduct_none hu row hrow) (by simp)
  | some x =>
      obtain ⟨x, u⟩ := x
      obtain ⟨row', hrow', -, -, hsound, hshelf⟩ :=
        updateProduct_shelf (g := fun r => { r with onHand := r.onHand + q }) hu (fun _ => rfl)
          fun _ => rfl
      obtain rfl := Option.some.inj (hrow.symm.trans hrow')
      obtain ⟨v, hlog, hline⟩ := Result.bind_ok.mp hline
      refine ⟨_, hsound, ?_⟩
      rw [shelf_unconsume hline, shelf_of_products (products_log hlog), hshelf]

theorem addBatch_shelf {batch : Batch} (h : addBatch s p q batch ctx = .ok t)
    (hr : s.shelf p = some r) : Recounted t p r := by
  obtain ⟨row, hrow, rfl⟩ := Option.map_eq_some_iff.mp hr
  unfold addBatch at h
  split at h
  · cases h
  rw [hrow] at h
  obtain ⟨updated, hu, h⟩ := Result.bind_ok.mp h
  cases updated with
  | none => cases h
  | some x =>
      obtain ⟨x, u⟩ := x
      obtain ⟨row', hrow', -, -, hsound, hshelf⟩ :=
        updateProduct_shelf (g := fun r => { r with onHand := r.onHand + q }) hu (fun _ => rfl)
          fun _ => rfl
      obtain rfl := Option.some.inj (hrow.symm.trans hrow')
      obtain ⟨v, hlog, h⟩ := Result.bind_ok.mp h
      obtain ⟨w, hlot, hret⟩ := Result.bind_ok.mp h
      obtain rfl := Except.ok.inj hret
      refine ⟨_, hsound, ?_⟩
      rw [shelf_refreshCost, shelf_of_products (products_createLot hlot),
        shelf_of_products (products_log hlog), hshelf]

theorem setOnHand_shelf {onHand : ℤ} {type : Option StockMovementType}
    (h : setOnHand s p onHand ctx type = .ok t) (hr : s.shelf p = some r) (hs : r.Sound) :
    Recounted t p r := by
  obtain ⟨row, hrow, rfl⟩ := Option.map_eq_some_iff.mp hr
  unfold setOnHand at h
  split at h
  · cases h
  rw [hrow] at h
  dsimp only at h
  split at h
  · obtain rfl := Except.ok.inj h
    exact ⟨row.shelf.onHand, hs, hr⟩
  split at h
  · cases h
  obtain ⟨updated, hu, h⟩ := Result.bind_ok.mp h
  cases updated with
  | none => cases h
  | some x =>
      obtain ⟨x, u⟩ := x
      obtain ⟨row', hrow', -, -, hsound, hshelf⟩ :=
        updateProduct_shelf (g := fun r => { r with onHand := onHand }) hu (fun _ => rfl)
          fun _ => rfl
      obtain rfl := Option.some.inj (hrow.symm.trans hrow')
      obtain ⟨v, hlog, h⟩ := Result.bind_ok.mp h
      obtain ⟨w, hlot, rfl⟩ := Result.map_ok.mp h
      refine ⟨onHand, hsound, ?_⟩
      rw [shelf_refreshCost, ← hshelf, ← shelf_of_products (products_log hlog)]
      split at hlot
      · exact shelf_of_products (products_createLot hlot)
      · obtain rfl := Except.ok.inj hlot
        exact shelf_consume v p p none ctx.now

end Inventory

/-! ### The holds of a run -/

/-- The holds are positive, and no more than the reserved column counts. -/
structure HoldInv (p : ProductId) (s : HoldState) (r : Shelf) : Prop where
  shelf : s.store.shelf p = some r
  sound : r.Sound
  positive : ∀ h ∈ s.held, 0 < h.qty
  counted : heldQty s.held ≤ r.reserved

section holds

variable {p : ProductId} {s t : HoldState} {r : Shelf}

theorem heldQty_nonneg {hs : List Hold} (h : ∀ x ∈ hs, 0 < x.qty) : 0 ≤ heldQty hs := by
  refine List.sum_nonneg fun n hn => ?_
  obtain ⟨x, hx, rfl⟩ := List.mem_map.mp hn
  exact (h x hx).le

/-- The holds without one of them. -/
theorem heldQty_eraseIdx {hs : List Hold} {i : ℕ} {h : Hold} (hi : hs[i]? = some h) :
    heldQty hs = h.qty + heldQty (hs.eraseIdx i) := by
  induction hs generalizing i with
  | nil => simp at hi
  | cons x rest ih =>
      cases i with
      | zero =>
          obtain rfl : x = h := by simpa using hi
          simp [heldQty]
      | succ k =>
          have hk : rest[k]? = some h := by simpa using hi
          have hrest := ih hk
          simp only [heldQty, List.eraseIdx_cons_succ, List.map_cons, List.sum_cons] at hrest ⊢
          omega

theorem positive_eraseIdx {hs : List Hold} {i : ℕ} (h : ∀ x ∈ hs, 0 < x.qty) :
    ∀ x ∈ hs.eraseIdx i, 0 < x.qty := fun x hx => h x (List.mem_of_mem_eraseIdx hx)

/-- A hold that is given up is still counted when the clamp is asked. -/
theorem HoldInv.clamp {i : ℕ} {h : Hold} (hinv : HoldInv p s r) (hi : s.held[i]? = some h) :
    clampZero (r.reserved - h.qty) = r.reserved - h.qty ∧
      heldQty (s.held.eraseIdx i) ≤ r.reserved - h.qty := by
  have hsum := heldQty_eraseIdx hi
  have hrest := heldQty_nonneg (positive_eraseIdx (i := i) hinv.positive)
  have hcount := hinv.counted
  refine ⟨max_eq_left ?_, ?_⟩
  · omega
  · omega

/-- **Every call keeps the holds counted.** -/
theorem holdStep_inv {a : HoldAction} (h : HoldInv p s r) (hstep : holdStep p s a = some t) :
    ∃ r', HoldInv p t r' := by
  have hcall := Result.toOption_some.mp hstep
  have hrecount : ∀ {store : Store}, Inventory.Recounted store p r →
      ∃ r', HoldInv p { s with store } r' := by
    rintro store ⟨n, hsound, hshelf⟩
    exact ⟨_, hshelf, hsound, h.positive, h.counted⟩
  cases a with
  | reserve x now =>
      obtain ⟨store, hr, rfl⟩ := Result.map_ok.mp hcall
      obtain ⟨hpos, r₁, hshelf, -, -, hsound, hafter⟩ := Inventory.reserve_shelf hr
      obtain rfl := Option.some.inj (h.shelf.symm.trans hshelf)
      refine ⟨_, hafter, hsound, fun y hy => ?_, ?_⟩
      · rcases List.mem_append.mp hy with hold | hnew
        · exact h.positive y hold
        · rw [List.mem_singleton.mp hnew]
          exact hpos
      · have hcount := h.counted
        simp only [heldQty, List.map_append, List.sum_append, List.map_cons, List.map_nil,
          List.sum_cons, List.sum_nil, add_zero] at hcount ⊢
        omega
  | release i now =>
      simp only [HoldAction.call] at hcall
      cases hi : s.held[i]? with
      | none => simp [hi] at hcall
      | some x =>
          rw [hi] at hcall
          obtain ⟨store, hr, rfl⟩ := Result.map_ok.mp hcall
          obtain ⟨-, hsound, hafter⟩ := Inventory.release_shelf hr h.shelf
          obtain ⟨hclamp, hcount⟩ := h.clamp hi
          rw [hclamp] at hsound hafter
          exact ⟨_, hafter, hsound, positive_eraseIdx h.positive, hcount⟩
  | fulfill i now =>
      simp only [HoldAction.call] at hcall
      cases hi : s.held[i]? with
      | none => simp [hi] at hcall
      | some x =>
          rw [hi] at hcall
          obtain ⟨⟨store, low⟩, hr, rfl⟩ := Result.map_ok.mp hcall
          obtain ⟨-, r₁, hshelf, hsound, hafter⟩ := Inventory.fulfill_shelf hr
          obtain rfl := Option.some.inj (h.shelf.symm.trans hshelf)
          obtain ⟨hclamp, hcount⟩ := h.clamp hi
          rw [hclamp] at hsound hafter
          exact ⟨_, hafter, hsound, positive_eraseIdx h.positive, hcount⟩
  | restock x now =>
      obtain ⟨store, hr, rfl⟩ := Result.map_ok.mp hcall
      exact hrecount (Inventory.restock_shelf hr h.shelf)
  | addBatch qty batch ctx =>
      obtain ⟨store, hr, rfl⟩ := Result.map_ok.mp hcall
      exact hrecount (Inventory.addBatch_shelf hr h.shelf)
  | setOnHand onHand ctx type =>
      obtain ⟨store, hr, rfl⟩ := Result.map_ok.mp hcall
      exact hrecount (Inventory.setOnHand_shelf hr h.shelf h.sound)

/-! ### Shipping what is held -/

/-- What shipping a list of holds leaves, and what it needs. -/
theorem shipAll_shelf {now : Instant} :
    ∀ (hs : List Hold) (s t : Store) (r : Shelf), s.shelf p = some r → r.Sound →
      shipAll p now s hs = .ok t → heldQty hs ≤ r.onHand := by
  intro hs
  induction hs with
  | nil => intro s t r _ hsound _; exact hsound.onHand
  | cons x rest ih =>
      intro s t r hr _ h
      obtain ⟨u, hu, hrest⟩ := Result.foldlM_cons_ok.mp h
      obtain ⟨⟨u', low⟩, hship, hfst⟩ := Result.map_ok.mp hu
      obtain rfl : u' = u := hfst
      obtain ⟨-, r₁, hshelf, hsound, hafter⟩ := Inventory.fulfill_shelf hship
      obtain rfl := Option.some.inj (hr.symm.trans hshelf)
      have hle : heldQty rest ≤ r.onHand - x.qty := ih u' t _ hafter hsound hrest
      simp only [heldQty, List.map_cons, List.sum_cons] at hle ⊢
      omega

/-- Holds that are counted and on the shelf can all be shipped. -/
theorem shipAll_of_shelf {now : Instant} :
    ∀ (hs : List Hold) (s : Store) (r : Shelf), s.shelf p = some r → r.Sound →
      (∀ x ∈ hs, 0 < x.qty) → heldQty hs ≤ r.reserved → heldQty hs ≤ r.onHand →
      ∃ t, shipAll p now s hs = .ok t := by
  intro hs
  induction hs with
  | nil => intro s r _ _ _ _ _; exact ⟨s, rfl⟩
  | cons x rest ih =>
      intro s r hr hsound hpos hres hon
      have hx := hpos x (by simp)
      have hrest := heldQty_nonneg fun y hy => hpos y (List.mem_cons_of_mem _ hy)
      have hsum : heldQty (x :: rest) = x.qty + heldQty rest := by simp [heldQty]
      have hclamp : clampZero (r.reserved - x.qty) = r.reserved - x.qty := by
        refine max_eq_left ?_
        omega
      have hsound' : Shelf.Sound { r with onHand := r.onHand - x.qty,
                                          reserved := clampZero (r.reserved - x.qty) } := by
        rw [hclamp]
        refine ⟨?_, ?_, fun hb => ?_⟩
        · show 0 ≤ r.onHand - x.qty
          omega
        · show 0 ≤ r.reserved - x.qty
          omega
        · have hle := hsound.covered hb
          show r.reserved - x.qty ≤ r.onHand - x.qty
          omega
      obtain ⟨⟨u, low⟩, hu⟩ := Inventory.fulfill_of_shelf (x.ctx now) hx hr
        (.inr (by omega)) hsound'
      obtain ⟨-, r₁, hshelf, -, hafter⟩ := Inventory.fulfill_shelf hu
      obtain rfl := Option.some.inj (hr.symm.trans hshelf)
      rw [hclamp] at hafter hsound'
      have hleft : heldQty rest ≤ r.reserved - x.qty := by omega
      have hshelf' : heldQty rest ≤ r.onHand - x.qty := by omega
      obtain ⟨t, ht⟩ := ih u _ hafter hsound' (fun y hy => hpos y (List.mem_cons_of_mem _ hy))
        hleft hshelf'
      exact ⟨t, Result.foldlM_cons_ok.mpr ⟨u, Result.map_ok.mpr ⟨_, hu, rfl⟩, ht⟩⟩

theorem heldShips_iff (h : HoldInv p s r) :
    HeldShips p s ↔ (r.backorder = false ∨ heldQty s.held ≤ r.onHand) := by
  constructor
  · intro hships
    obtain ⟨t, ht⟩ := hships s.held 0 (List.Perm.refl _)
    exact .inr (shipAll_shelf s.held s.store t r h.shelf h.sound ht)
  · intro hcover hs now hperm
    have hqty : heldQty hs = heldQty s.held := (hperm.map Hold.qty).sum_eq
    have hon : heldQty s.held ≤ r.onHand := by
      rcases hcover with hb | hle
      · exact h.counted.trans (h.sound.covered hb)
      · exact hle
    refine shipAll_of_shelf hs s.store r h.shelf h.sound (fun x hx => ?_) ?_ ?_
    · exact h.positive x (hperm.mem_iff.mp hx)
    · rw [hqty]
      exact h.counted
    · rw [hqty]
      exact hon

theorem reservesFreely_iff {row : Product} (h : HoldInv p s row.shelf)
    (hrow : Rows.lookup Product.id p s.store.products = some row) :
    ReservesFreely p s ↔ backordersFreely row := by
  unfold backordersFreely
  constructor
  · intro hfree
    by_cases hb : row.allowBackorder
    · rw [if_pos hb]
      obtain ⟨t, ht⟩ := hfree row hrow (by simp [hb]) ⟨0, 1⟩ 0 (by decide)
      obtain ⟨-, r, hr, hdel, -⟩ := Inventory.reserve_shelf ht
      obtain rfl := Option.some.inj (h.shelf.symm.trans hr)
      have hdel' : row.deletedAt.isSome = false := hdel
      simpa using hdel'
    · rw [if_neg hb]
      by_contra htrack
      -- one copy more than the shelf has
      have hb' : row.shelf.backorder = false := by
        show row.allowBackorder = false
        simpa using hb
      have hle : row.stockReserved ≤ row.stockOnHand := h.sound.covered hb'
      obtain ⟨t, ht⟩ := hfree row hrow (by simp [htrack])
        ⟨0, row.stockOnHand - row.stockReserved + 1⟩ 0 (by simp only; omega)
      obtain ⟨-, r, hr, -, -, hsound, -⟩ := Inventory.reserve_shelf ht
      obtain rfl := Option.some.inj (h.shelf.symm.trans hr)
      have hover : row.stockReserved + (row.stockOnHand - row.stockReserved + 1) ≤
        row.stockOnHand := hsound.covered hb'
      omega
  · intro hcond row' hrow' hflags x now hx
    obtain rfl := Option.some.inj (hrow.symm.trans hrow')
    by_cases hb : row.allowBackorder
    · rw [if_pos hb] at hcond
      have hdel : row.shelf.deleted = false := by
        show row.deletedAt.isSome = false
        simpa using hcond
      refine Inventory.reserve_of_shelf hx h.shelf hdel (.inr (.inl hb)) ⟨h.sound.onHand, ?_, ?_⟩
      · have hres := h.sound.reserved
        show 0 ≤ row.shelf.reserved + x.qty
        omega
      · intro hc
        exact absurd (hb.symm.trans hc) (by decide)
    · rw [if_neg hb] at hcond
      simp [hcond, hb] at hflags

end holds

/--
**After any run on a product, what is held can be shipped and what may be oversold can be
reserved exactly when** no back-order holds more than the shelf has, and the product is
tracked or takes back-orders.
-/
theorem holds_ship_iff (p : ProductId) (s₀ : Store) (row₀ : Product)
    (hrow : Rows.lookup Product.id p s₀.products = some row₀) (hsound : row₀.check = .ok ())
    (as : List HoldAction) (t : HoldState)
    (hrun : runFrom (holdStep p) { store := s₀ } as = some t) :
    ∃ row, Rows.lookup Product.id p t.store.products = some row ∧
      (HeldShips p t ∧ ReservesFreely p t ↔ coversHeld row t.held ∧ backordersFreely row) := by
  have hstart : ∃ r, HoldInv p { store := s₀ } r := by
    have hs := (Product.check_iff row₀).mp hsound
    refine ⟨row₀.shelf, ?_, hs, fun x hx => absurd hx (List.not_mem_nil), hs.reserved⟩
    show (Rows.lookup Product.id p s₀.products).map Product.shelf = _
    rw [hrow]
    rfl
  obtain ⟨r, hinv⟩ := runFrom_invariant (I := fun s => ∃ r, HoldInv p s r)
    (fun _ _ _ hi hs => hi.elim fun _ h => holdStep_inv h hs) as _ t hstart hrun
  obtain ⟨row, hrow', rfl⟩ := Option.map_eq_some_iff.mp hinv.shelf
  refine ⟨row, hrow', ?_⟩
  have hcovers : (row.shelf.backorder = false ∨ heldQty t.held ≤ row.shelf.onHand) ↔
      coversHeld row t.held = true := by
    simp [coversHeld, Product.shelf]
  rw [heldShips_iff hinv, reservesFreely_iff hinv hrow', hcovers]

/-- A shop with three copies of a book. -/
def threeCopies (tracked backorder : Bool) : Product :=
  { id := 1, stockOnHand := 3, trackInventory := tracked, allowBackorder := backorder }

def threeCopiesShop (tracked backorder : Bool) : Store :=
  { products := [threeCopies tracked backorder] }

/-- Two orders hold all three copies of a tracked book; a parcel goes out and comes back. -/
theorem holds_ship_iff_tracked :
    ∃ t, runFrom (holdStep 1) { store := threeCopiesShop true false }
        [.reserve ⟨7, 2⟩ 1, .reserve ⟨8, 1⟩ 2, .fulfill 0 3, .restock ⟨7, 2⟩ 4] = some t ∧
      ∃ row, Rows.lookup Product.id 1 t.store.products = some row ∧
        (HeldShips 1 t ∧ ReservesFreely 1 t ↔ coversHeld row t.held ∧ backordersFreely row) := by
  have hruns : (runFrom (holdStep 1) { store := threeCopiesShop true false }
      [.reserve ⟨7, 2⟩ 1, .reserve ⟨8, 1⟩ 2, .fulfill 0 3, .restock ⟨7, 2⟩ 4]).isSome = true := by
    decide +kernel
  obtain ⟨t, ht⟩ := Option.isSome_iff_exists.mp hruns
  exact ⟨t, ht, holds_ship_iff 1 (threeCopiesShop true false) (threeCopies true false) rfl rfl _ t ht⟩

/-- **Four copies of a book that takes back-orders are held and cannot be shipped; four copies
of an untracked book cannot be held at all.** -/
theorem held_not_shipped :
    (∃ t, runFrom (holdStep 1) { store := threeCopiesShop true true } [.reserve ⟨7, 4⟩ 1] =
        some t ∧ ¬HeldShips 1 t) ∧
      ¬ReservesFreely 1 { store := threeCopiesShop false false } := by
  constructor
  · have hruns : (runFrom (holdStep 1) { store := threeCopiesShop true true }
        [.reserve ⟨7, 4⟩ 1]).any (fun t => t.held = [⟨7, 4⟩] &&
          !(shipAll 1 2 t.store [⟨7, 4⟩]).toOption.isSome) = true := by
      decide +kernel
    obtain ⟨t, ht, hfail⟩ := Option.any_eq_true _ _ |>.mp hruns
    obtain ⟨hheld, hnone⟩ := Bool.and_eq_true_iff.mp hfail
    refine ⟨t, ht, fun hships => ?_⟩
    obtain ⟨u, hu⟩ := hships [⟨7, 4⟩] 2 (by rw [of_decide_eq_true hheld])
    rw [hu] at hnone
    exact absurd hnone (by simp [Except.toOption])
  · intro hfree
    obtain ⟨t, ht⟩ := hfree (threeCopies false false) rfl (by decide) ⟨7, 4⟩ 1 (by decide)
    have hrefused : (Inventory.reserve (threeCopiesShop false false) (Hold.lines 1 ⟨7, 4⟩)
        (Hold.ctx ⟨7, 4⟩ 1)).toOption = none := by
      decide +kernel
    have hmade := Result.toOption_some.mpr ht
    rw [hrefused] at hmade
    cases hmade

end BookHouse
