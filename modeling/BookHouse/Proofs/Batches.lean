/-
The batches on the shelf and what the orders took of them.

A batch has come in with some copies; some are left and some are out with orders, and the
two never add up to more than came in (`Batched`).  Taking copies from batches and giving
them back are loops over rows, so the effect of a round on the three sums (what is left of a
product, what an order has out, what is out of a batch) is stated once, and a loop adds up
its rounds (`BatchMove`).
-/
import BookHouse.Proofs.Inventory

namespace BookHouse

open Tally (Entry count)

namespace Store

/-- The copies of a product that its batches have left. -/
def lotLeft (s : Store) (p : ProductId) : ℤ :=
  (s.lots.map fun l => if l.productId = p then l.qtyLeft else 0).sum

/-- The copies of a product that an order took and did not give back. -/
def outstanding (s : Store) (o : OrderId) (p : ProductId) : ℤ :=
  (s.consumptions.map fun c => if c.orderId = o ∧ c.productId = p then c.qty - c.returned else 0).sum

/-- The copies of a batch that are out with orders. -/
def lotUsed (s : Store) (id : LotId) : ℤ :=
  (s.consumptions.map fun c => if c.lotId = id then c.qty - c.returned else 0).sum

end Store

/-- The tables of batches and of takings make sense. -/
structure Batched (s : Store) : Prop where
  lotIds : s.lots.map StockLot.id = List.range s.lots.length
  useIds : s.consumptions.map StockLotConsumption.id = List.range s.consumptions.length
  left : ∀ l ∈ s.lots, 0 ≤ l.qtyLeft
  room : ∀ l ∈ s.lots, l.qtyLeft + s.lotUsed l.id ≤ l.qtyIn
  used : ∀ c ∈ s.consumptions, 0 ≤ c.returned ∧ c.returned ≤ c.qty
  source : ∀ c ∈ s.consumptions, ∃ l ∈ s.lots, l.id = c.lotId ∧ l.productId = c.productId

/-- `k` copies of a product left the batches, for an order or for nobody's. -/
structure BatchMove (s t : Store) (p : ProductId) (o : Option OrderId) (k : ℤ) : Prop where
  batched : Batched t
  left : ∀ q, t.lotLeft q = s.lotLeft q - if q = p then k else 0
  out : ∀ i q, t.outstanding i q = s.outstanding i q + if o = some i ∧ q = p then k else 0

namespace Batched

variable {s : Store}

theorem nodupLots (h : Batched s) : (s.lots.map StockLot.id).Nodup := by
  rw [h.lotIds]
  exact List.nodup_range

theorem nodupUses (h : Batched s) : (s.consumptions.map StockLotConsumption.id).Nodup := by
  rw [h.useIds]
  exact List.nodup_range

theorem lot_lt (h : Batched s) {l : StockLot} (hl : l ∈ s.lots) : l.id < s.lots.length :=
  List.mem_range.mp (h.lotIds ▸ List.mem_map_of_mem hl)

/-- What one taking has out is no more than what is out of its batch. -/
theorem le_lotUsed (h : Batched s) {c : StockLotConsumption} (hc : c ∈ s.consumptions) :
    c.qty - c.returned ≤ s.lotUsed c.lotId := by
  have hmem : c.qty - c.returned ∈
      s.consumptions.map fun x => if x.lotId = c.lotId then x.qty - x.returned else 0 :=
    List.mem_map.mpr ⟨c, hc, if_pos rfl⟩
  refine List.single_le_sum (fun x hx => ?_) _ hmem
  obtain ⟨y, hy, rfl⟩ := List.mem_map.mp hx
  have hused := h.used y hy
  split
  · omega
  · exact le_refl 0

/-- Nothing is out of a batch that does not exist yet. -/
theorem lotUsed_new (h : Batched s) : s.lotUsed s.lots.length = 0 := by
  refine List.sum_eq_zero fun x hx => ?_
  obtain ⟨c, hc, rfl⟩ := List.mem_map.mp hx
  obtain ⟨l, hl, hid, -⟩ := h.source c hc
  have hlt := h.lot_lt hl
  rw [if_neg]
  intro heq
  rw [hid, heq] at hlt
  exact absurd hlt (Nat.lt_irrefl _)

/-- **The clamp of a return has nothing to do**: the batch has room for what is out of it. -/
theorem clamp_eq (h : Batched s) {c : StockLotConsumption} (hc : c ∈ s.consumptions)
    {l : StockLot} (hl : l ∈ s.lots) (hid : l.id = c.lotId) {back : ℤ}
    (hback : back ≤ c.qty - c.returned) : min (l.qtyLeft + back) l.qtyIn = l.qtyLeft + back := by
  have hroom := h.room l hl
  have hout := h.le_lotUsed hc
  rw [hid] at hroom
  omega

end Batched

namespace BatchMove

variable {s t u : Store} {p : ProductId} {o : Option OrderId} {k k' : ℤ}

theorem refl (h : Batched s) : BatchMove s s p o 0 := by
  refine ⟨h, fun q => ?_, fun i q => ?_⟩
  · rw [ite_self, sub_zero]
  · rw [ite_self, add_zero]

theorem trans (h : BatchMove s t p o k) (h' : BatchMove t u p o k') :
    BatchMove s u p o (k + k') := by
  refine ⟨h'.batched, fun q => ?_, fun i q => ?_⟩
  · rw [h'.left, h.left]
    split
    · ring
    · ring
  · rw [h'.out, h.out]
    split
    · ring
    · ring

/-- Writing other tables moves nothing. -/
theorem of_tables (h : Batched s) (hl : t.lots = s.lots) (hc : t.consumptions = s.consumptions) :
    BatchMove s t p o 0 := by
  have hused : t.lotUsed = s.lotUsed := by
    funext id
    rw [Store.lotUsed, hc, Store.lotUsed]
  refine ⟨⟨?_, ?_, ?_, ?_, ?_, ?_⟩, fun q => ?_, fun i q => ?_⟩
  · rw [hl]
    exact h.lotIds
  · rw [hc]
    exact h.useIds
  · rw [hl]
    exact h.left
  · rw [hl, hused]
    exact h.room
  · rw [hc]
    exact h.used
  · rw [hc, hl]
    exact h.source
  · rw [Store.lotLeft, hl, ite_self, sub_zero]
    rfl
  · rw [Store.outstanding, hc, ite_self, add_zero]
    rfl

end BatchMove

/-! ### Taking from a batch -/

namespace Inventory

/-- What one round of `takeFrom` writes. -/
def takeRound (o : Option OrderId) (p : ProductId) (now : Instant) (lot : StockLot) (k : ℤ)
    (s : Store) : Store :=
  { s with
    lots := Rows.modify StockLot.id lot.id (fun l => { l with qtyLeft := l.qtyLeft - k }) s.lots
    consumptions := match o with
      | none => s.consumptions
      | some o => s.consumptions ++
          [{ id := s.consumptions.length, lotId := lot.id, productId := p, orderId := o,
             qty := k, unitCost := lot.unitCost, createdAt := now }] }

theorem takeFrom_cons (o : Option OrderId) (p : ProductId) (now : Instant) (lot : StockLot)
    (rest : List StockLot) (need : ℤ) (s : Store) (used : List Used) :
    takeFrom o p now (lot :: rest) need s used =
      if need ≤ 0 then (s, need, used)
      else takeFrom o p now rest (need - min need lot.qtyLeft)
        (takeRound o p now lot (min need lot.qtyLeft) s)
        (used ++ [{ lotId := some lot.id, qty := min need lot.qtyLeft, unitCost := lot.unitCost }]) :=
  rfl

section take

variable {s t : Store} {o : Option OrderId} {p : ProductId} {now : Instant} {lot : StockLot} {k : ℤ}

theorem lotUsed_takeRound (id : LotId) : (takeRound o p now lot k s).lotUsed id =
    s.lotUsed id + if o.isSome ∧ id = lot.id then k else 0 := by
  cases o with
  | none => simp [takeRound, Store.lotUsed]
  | some o =>
      by_cases h : id = lot.id
      · simp [takeRound, Store.lotUsed, h]
      · have h' : ¬lot.id = id := fun e => h e.symm
        simp [takeRound, Store.lotUsed, h, h']

theorem takeRound_move (h : Batched s) (hlot : lot ∈ s.lots) (hp : lot.productId = p)
    (h0 : 0 ≤ k) (hk : k ≤ lot.qtyLeft) : BatchMove s (takeRound o p now lot k s) p o k := by
  have hl := Rows.lookup_of_mem h.nodupLots hlot
  have hlots : (takeRound o p now lot k s).lots =
      Rows.modify StockLot.id lot.id (fun l => { l with qtyLeft := l.qtyLeft - k }) s.lots := rfl
  have hlength : (takeRound o p now lot k s).lots.length = s.lots.length := by
    rw [hlots, Rows.modify, List.length_map]
  -- a batch after the round is the one taken from or another
  have hmem : ∀ l ∈ (takeRound o p now lot k s).lots,
      l = { lot with qtyLeft := lot.qtyLeft - k } ∨ (l ∈ s.lots ∧ l.id ≠ lot.id) :=
    fun l hl' => Rows.mem_modify h.nodupLots hl hl'
  have hkeep : ∀ l ∈ s.lots, ∃ l' ∈ (takeRound o p now lot k s).lots,
      l'.id = l.id ∧ l'.productId = l.productId := by
    intro l hl'
    refine ⟨_, List.mem_map_of_mem hl', ?_⟩
    split
    · exact ⟨rfl, rfl⟩
    · exact ⟨rfl, rfl⟩
  refine ⟨⟨?_, ?_, fun l hl' => ?_, fun l hl' => ?_, fun c hc => ?_, fun c hc => ?_⟩,
    fun q => ?_, fun i q => ?_⟩
  · have hids : (takeRound o p now lot k s).lots.map StockLot.id = s.lots.map StockLot.id :=
      Rows.map_modify fun _ => rfl
    rw [hids, hlength]
    exact h.lotIds
  · cases o with
    | none => exact h.useIds
    | some o => simp [takeRound, h.useIds, List.range_succ]
  · rcases hmem l hl' with rfl | ⟨hold, -⟩
    · show 0 ≤ lot.qtyLeft - k
      omega
    · exact h.left l hold
  · rw [lotUsed_takeRound]
    rcases hmem l hl' with rfl | ⟨hold, hne⟩
    · have hroom := h.room lot hlot
      show lot.qtyLeft - k + (s.lotUsed lot.id + _) ≤ lot.qtyIn
      split
      · omega
      · omega
    · rw [if_neg fun e => hne e.2, add_zero]
      exact h.room l hold
  · cases o with
    | none => exact h.used c hc
    | some o =>
        rcases List.mem_append.mp hc with hold | hnew
        · exact h.used c hold
        · rw [List.mem_singleton.mp hnew]
          exact ⟨le_refl 0, h0⟩
  · have hsource : (∃ l ∈ s.lots, l.id = c.lotId ∧ l.productId = c.productId) := by
      cases o with
      | none => exact h.source c hc
      | some o =>
          rcases List.mem_append.mp hc with hold | hnew
          · exact h.source c hold
          · rw [List.mem_singleton.mp hnew]
            exact ⟨lot, hlot, rfl, hp⟩
    obtain ⟨l, hl', hid, hprod⟩ := hsource
    obtain ⟨l', hl'', hid', hprod'⟩ := hkeep l hl'
    exact ⟨l', hl'', hid'.trans hid, hprod'.trans hprod⟩
  · unfold Store.lotLeft
    rw [hlots, Rows.sum_modify h.nodupLots hl]
    by_cases hq : q = p
    · simp only [hp, hq, if_true]
      ring
    · have hq' : ¬p = q := fun e => hq e.symm
      simp [hp, hq, hq']
  · cases o with
    | none => simp [takeRound, Store.outstanding]
    | some o =>
        by_cases hi : o = i ∧ q = p
        · obtain ⟨rfl, rfl⟩ := hi
          simp [takeRound, Store.outstanding]
        · have hi' : ¬(o = i ∧ p = q) := fun e => hi ⟨e.1, e.2.symm⟩
          simp [takeRound, Store.outstanding, hi, hi']

/--
Taking copies from batches in turn, for any relation that its rounds keep and that adds up:
what is not taken is left over, and it is nothing when the batches have enough.
-/
theorem takeFrom_rel {R : ℤ → Store → Store → Prop} (hrefl : ∀ s, Batched s → R 0 s s)
    (htrans : ∀ s t u j k, R j s t → R k t u → R (j + k) s u)
    (hround : ∀ s lot k, Batched s → lot ∈ s.lots → lot.productId = p → 0 ≤ k → k ≤ lot.qtyLeft →
      R k s (takeRound o p now lot k s)) :
    ∀ (lots : List StockLot) (need : ℤ) (s : Store) (used : List Used), Batched s →
      (lots.map StockLot.id).Nodup → (∀ l ∈ lots, l ∈ s.lots ∧ l.productId = p) → 0 ≤ need →
      0 ≤ (takeFrom o p now lots need s used).2.1 ∧
        (takeFrom o p now lots need s used).2.1 ≤ need ∧
        (need ≤ (lots.map StockLot.qtyLeft).sum → (takeFrom o p now lots need s used).2.1 = 0) ∧
        R (need - (takeFrom o p now lots need s used).2.1) s
          (takeFrom o p now lots need s used).1 := by
  intro lots
  induction lots with
  | nil =>
      intro need s used h _ _ h0
      have hzero : need - (takeFrom o p now [] need s used).2.1 = 0 := sub_self need
      rw [hzero]
      exact ⟨h0, le_refl _, fun hle => le_antisymm hle h0, hrefl s h⟩
  | cons lot rest ih =>
      intro need s used h hnd hin h0
      rw [List.map_cons, List.nodup_cons] at hnd
      obtain ⟨hlot, hp⟩ := hin lot (by simp)
      have hleft := h.left lot hlot
      rw [takeFrom_cons]
      split
      · have hzero : need = 0 := le_antisymm ‹_› h0
        rw [hzero]
        exact ⟨le_refl 0, le_refl 0, fun _ => rfl, hrefl s h⟩
      · have hmove : BatchMove s (takeRound o p now lot (min need lot.qtyLeft) s) p o
            (min need lot.qtyLeft) :=
          takeRound_move h hlot hp (by omega) (min_le_right _ _)
        have hin' : ∀ l ∈ rest, l ∈ (takeRound o p now lot (min need lot.qtyLeft) s).lots ∧
            l.productId = p := by
          intro l hl
          obtain ⟨hl', hp'⟩ := hin l (by simp [hl])
          have hne : l.id ≠ lot.id := fun e => hnd.1 (e ▸ List.mem_map_of_mem hl)
          refine ⟨?_, hp'⟩
          exact List.mem_map.mpr ⟨l, hl', if_neg hne⟩
        have hsum : (List.map StockLot.qtyLeft (lot :: rest)).sum =
            lot.qtyLeft + (rest.map StockLot.qtyLeft).sum := by simp
        have hrest : 0 ≤ (rest.map StockLot.qtyLeft).sum := by
          refine List.sum_nonneg fun x hx => ?_
          obtain ⟨l, hl, rfl⟩ := List.mem_map.mp hx
          exact h.left l (hin l (by simp [hl])).1
        obtain ⟨hnonneg, hle, hdone, hR⟩ :=
          ih (need - min need lot.qtyLeft) (takeRound o p now lot (min need lot.qtyLeft) s)
            (used ++ [{ lotId := some lot.id, qty := min need lot.qtyLeft,
                        unitCost := lot.unitCost }]) hmove.batched hnd.2 hin' (by omega)
        have hboth := htrans _ _ _ _ _ (hround s lot _ h hlot hp (by omega) (min_le_right _ _)) hR
        refine ⟨hnonneg, by omega, fun hsuff => hdone (by omega), ?_⟩
        rwa [← add_sub_assoc, add_sub_cancel] at hboth

/-- **Taking from batches that have enough takes it all.** -/
theorem takeFrom_move (lots : List StockLot) (need : ℤ) (s : Store) (used : List Used)
    (h : Batched s) (hnd : (lots.map StockLot.id).Nodup)
    (hin : ∀ l ∈ lots, l ∈ s.lots ∧ l.productId = p) (h0 : 0 ≤ need)
    (hle : need ≤ (lots.map StockLot.qtyLeft).sum) :
    (takeFrom o p now lots need s used).2.1 = 0 ∧
      BatchMove s (takeFrom o p now lots need s used).1 p o need := by
  obtain ⟨-, -, hdone, hmove⟩ := takeFrom_rel (R := fun k s t => BatchMove s t p o k)
    (fun _ h => BatchMove.refl h) (fun _ _ _ _ _ h h' => h.trans h')
    (fun _ _ _ h hlot hp h0 hk => takeRound_move h hlot hp h0 hk) lots need s used h hnd hin h0
  rw [hdone hle, sub_zero] at hmove
  exact ⟨hdone hle, hmove⟩

end take

/-! ### Giving back to batches -/

/-- What one round of `giveBack` writes. -/
def backRound (u : StockLotConsumption) (back : ℤ) (s : Store) : Store :=
  { s with
    consumptions := Rows.modify StockLotConsumption.id u.id
      (fun c => { c with returned := c.returned + back }) s.consumptions
    lots := Rows.modify StockLot.id u.lotId
      (fun l => { l with qtyLeft := min (l.qtyLeft + back) l.qtyIn }) s.lots }

theorem giveBack_cons (u : StockLotConsumption) (rest : List StockLotConsumption) (left : ℤ)
    (s : Store) : giveBack (u :: rest) left s =
      if left ≤ 0 then (s, left)
      else if min left (u.qty - u.returned) ≤ 0 then giveBack rest left s
      else giveBack rest (left - min left (u.qty - u.returned))
        (backRound u (min left (u.qty - u.returned)) s) := rfl

section back

variable {s t : Store} {o : OrderId} {p : ProductId} {u : StockLotConsumption} {back : ℤ}

theorem lotUsed_backRound (h : Batched s) (hu : u ∈ s.consumptions) (id : LotId) :
    (backRound u back s).lotUsed id = s.lotUsed id - if id = u.lotId then back else 0 := by
  unfold Store.lotUsed
  show ((Rows.modify StockLotConsumption.id u.id _ s.consumptions).map _).sum = _
  rw [Rows.sum_modify h.nodupUses (Rows.lookup_of_mem h.nodupUses hu)]
  by_cases hid : id = u.lotId
  · simp only [hid, if_true]
    ring
  · have hid' : ¬u.lotId = id := fun e => hid e.symm
    simp [hid, hid']

theorem backRound_move (h : Batched s) (hu : u ∈ s.consumptions) (ho : u.orderId = o)
    (hp : u.productId = p) (h0 : 0 ≤ back) (hback : back ≤ u.qty - u.returned) :
    BatchMove s (backRound u back s) p (some o) (-back) := by
  have hlu := Rows.lookup_of_mem h.nodupUses hu
  obtain ⟨lot, hlot, hid, hprod⟩ := h.source u hu
  have hl := Rows.lookup_of_mem h.nodupLots hlot
  rw [hid] at hl
  have hclamp := h.clamp_eq hu hlot hid hback
  have hlots : (backRound u back s).lots = Rows.modify StockLot.id u.lotId
      (fun l => { l with qtyLeft := min (l.qtyLeft + back) l.qtyIn }) s.lots := rfl
  have huses : (backRound u back s).consumptions = Rows.modify StockLotConsumption.id u.id
      (fun c => { c with returned := c.returned + back }) s.consumptions := rfl
  have hmem : ∀ l ∈ (backRound u back s).lots,
      l = { lot with qtyLeft := min (lot.qtyLeft + back) lot.qtyIn } ∨
        (l ∈ s.lots ∧ l.id ≠ u.lotId) := fun l hl' => Rows.mem_modify h.nodupLots hl hl'
  have husesMem : ∀ c ∈ (backRound u back s).consumptions,
      c = { u with returned := u.returned + back } ∨ (c ∈ s.consumptions ∧ c.id ≠ u.id) :=
    fun c hc => Rows.mem_modify h.nodupUses hlu hc
  have hkeep : ∀ l ∈ s.lots, ∃ l' ∈ (backRound u back s).lots,
      l'.id = l.id ∧ l'.productId = l.productId := by
    intro l hl'
    refine ⟨_, List.mem_map_of_mem hl', ?_⟩
    split
    · exact ⟨rfl, rfl⟩
    · exact ⟨rfl, rfl⟩
  refine ⟨⟨?_, ?_, fun l hl' => ?_, fun l hl' => ?_, fun c hc => ?_, fun c hc => ?_⟩,
    fun q => ?_, fun i q => ?_⟩
  · have hids : (backRound u back s).lots.map StockLot.id = s.lots.map StockLot.id :=
      Rows.map_modify fun _ => rfl
    rw [hids, hlots, Rows.modify, List.length_map]
    exact h.lotIds
  · have hids : (backRound u back s).consumptions.map StockLotConsumption.id =
        s.consumptions.map StockLotConsumption.id := Rows.map_modify fun _ => rfl
    rw [hids, huses, Rows.modify, List.length_map]
    exact h.useIds
  · rcases hmem l hl' with rfl | ⟨hold, -⟩
    · have hleft := h.left lot hlot
      show 0 ≤ min (lot.qtyLeft + back) lot.qtyIn
      omega
    · exact h.left l hold
  · rw [lotUsed_backRound h hu]
    rcases hmem l hl' with rfl | ⟨hold, hne⟩
    · have hroom := h.room lot hlot
      show min (lot.qtyLeft + back) lot.qtyIn + (s.lotUsed lot.id - _) ≤ lot.qtyIn
      rw [if_pos hid]
      omega
    · rw [if_neg hne, sub_zero]
      exact h.room l hold
  · rcases husesMem c hc with rfl | ⟨hold, -⟩
    · have hused := h.used u hu
      show 0 ≤ u.returned + back ∧ u.returned + back ≤ u.qty
      omega
    · exact h.used c hold
  · have hsource : (∃ l ∈ s.lots, l.id = c.lotId ∧ l.productId = c.productId) := by
      rcases husesMem c hc with rfl | ⟨hold, -⟩
      · exact ⟨lot, hlot, hid, hprod⟩
      · exact h.source c hold
    obtain ⟨l, hl', hlid, hlprod⟩ := hsource
    obtain ⟨l', hl'', hid', hprod'⟩ := hkeep l hl'
    exact ⟨l', hl'', hid'.trans hlid, hprod'.trans hlprod⟩
  · unfold Store.lotLeft
    rw [hlots, Rows.sum_modify h.nodupLots hl]
    by_cases hq : q = p
    · simp only [hprod, hp, hq, if_true, hclamp]
      ring
    · have hq' : ¬p = q := fun e => hq e.symm
      simp [hprod, hp, hq, hq']
  · unfold Store.outstanding
    rw [huses, Rows.sum_modify h.nodupUses hlu]
    by_cases hi : o = i ∧ q = p
    · obtain ⟨rfl, rfl⟩ := hi
      simp only [ho, hp, and_self, if_true]
      ring
    · have hi' : ¬(o = i ∧ p = q) := fun e => hi ⟨e.1, e.2.symm⟩
      simp [ho, hp, hi, hi']

/--
Giving copies back to takings in turn, for any relation that its rounds keep and that adds
up: all that is out comes back, as far as there are copies.
-/
theorem giveBack_rel {R : ℤ → Store → Store → Prop} (hrefl : ∀ s, Batched s → R 0 s s)
    (htrans : ∀ s t u j k, R j s t → R k t u → R (j + k) s u)
    (hround : ∀ s u back, Batched s → u ∈ s.consumptions → u.orderId = o → u.productId = p →
      0 ≤ back → back ≤ u.qty - u.returned → R back s (backRound u back s)) :
    ∀ (uses : List StockLotConsumption) (left : ℤ) (s : Store), Batched s →
      (uses.map StockLotConsumption.id).Nodup →
      (∀ u ∈ uses, u ∈ s.consumptions ∧ u.orderId = o ∧ u.productId = p) → 0 ≤ left →
      (giveBack uses left s).2 =
          left - min left (uses.map fun u => u.qty - u.returned).sum ∧
        R (min left (uses.map fun u => u.qty - u.returned).sum) s (giveBack uses left s).1 := by
  intro uses
  induction uses with
  | nil =>
      intro left s h _ _ h0
      have hzero : min left (List.map (fun u : StockLotConsumption => u.qty - u.returned) []).sum
          = 0 := min_eq_right h0
      rw [hzero, sub_zero]
      exact ⟨rfl, hrefl s h⟩
  | cons u rest ih =>
      intro left s h hnd hin h0
      rw [List.map_cons, List.nodup_cons] at hnd
      obtain ⟨hu, ho, hp⟩ := hin u (by simp)
      have hused := h.used u hu
      have hsum : (List.map (fun u => u.qty - u.returned) (u :: rest)).sum =
          u.qty - u.returned + (rest.map fun u => u.qty - u.returned).sum := by simp
      have hrest : 0 ≤ (rest.map fun u => u.qty - u.returned).sum := by
        refine List.sum_nonneg fun x hx => ?_
        obtain ⟨c, hc, rfl⟩ := List.mem_map.mp hx
        have hc' := h.used c (hin c (by simp [hc])).1
        omega
      rw [giveBack_cons, hsum]
      split
      · have hzero : left = 0 := le_antisymm ‹_› h0
        have hmin : min left (u.qty - u.returned + (rest.map fun u => u.qty - u.returned).sum) = 0 := by
          omega
        rw [hmin, sub_zero]
        exact ⟨rfl, hrefl s h⟩
      split
      · -- nothing of this taking is out any more
        have hout : u.qty - u.returned = 0 := by omega
        rw [hout, zero_add]
        exact ih left s h hnd.2 (fun c hc => hin c (by simp [hc])) h0
      · have hmove : BatchMove s (backRound u (min left (u.qty - u.returned)) s) p (some o)
            (-(min left (u.qty - u.returned))) :=
          backRound_move h hu ho hp (by omega) (min_le_right _ _)
        have hin' : ∀ c ∈ rest,
            c ∈ (backRound u (min left (u.qty - u.returned)) s).consumptions ∧ c.orderId = o ∧
              c.productId = p := by
          intro c hc
          obtain ⟨hc', hrest'⟩ := hin c (by simp [hc])
          have hne : c.id ≠ u.id := fun e => hnd.1 (e ▸ List.mem_map_of_mem hc)
          refine ⟨?_, hrest'⟩
          exact List.mem_map.mpr ⟨c, hc', if_neg hne⟩
        obtain ⟨hleft, hR⟩ := ih (left - min left (u.qty - u.returned)) _ hmove.batched hnd.2
          hin' (by omega)
        have hboth := htrans _ _ _ _ _ (hround s u _ h hu ho hp (by omega) (min_le_right _ _)) hR
        have hk : min left (u.qty - u.returned) + min (left - min left (u.qty - u.returned))
              (rest.map fun u => u.qty - u.returned).sum =
            min left (u.qty - u.returned + (rest.map fun u => u.qty - u.returned).sum) := by
          omega
        rw [hk] at hboth
        exact ⟨by rw [hleft]; omega, hboth⟩

/-- **Giving back no more than is out gives it all back to the batches.** -/
theorem giveBack_move (uses : List StockLotConsumption) (left : ℤ) (s : Store) (h : Batched s)
    (hnd : (uses.map StockLotConsumption.id).Nodup)
    (hin : ∀ u ∈ uses, u ∈ s.consumptions ∧ u.orderId = o ∧ u.productId = p) (h0 : 0 ≤ left)
    (hle : left ≤ (uses.map fun u => u.qty - u.returned).sum) :
    (giveBack uses left s).2 = 0 ∧ BatchMove s (giveBack uses left s).1 p (some o) (-left) := by
  obtain ⟨hleft, hmove⟩ := giveBack_rel (R := fun k s t => BatchMove s t p (some o) (-k))
    (fun _ h => by rw [neg_zero]; exact BatchMove.refl h)
    (fun _ _ _ _ _ h h' => by rw [neg_add]; exact h.trans h')
    (fun _ _ _ h hu ho hp h0 hk => backRound_move h hu ho hp h0 hk) uses left s h hnd hin h0
  rw [min_eq_left hle] at hleft hmove
  exact ⟨by rw [hleft, sub_self], hmove⟩

end back

/-! ### The operations on batches -/

section operations

variable {s t : Store} {o : Option OrderId} {p : ProductId} {qty : ℤ} {ctx : StockContext}
  {now : Instant}

theorem sum_insertionSort {α : Type} (r : α → α → Prop) [DecidableRel r] (c : α → Bool)
    (g : α → ℤ) (l : List α) : (((l.filter c).insertionSort r).map g).sum =
      (l.map fun a => if c a then g a else 0).sum := by
  rw [(((l.filter c).perm_insertionSort r).map g).sum_eq]
  induction l with
  | nil => rfl
  | cons a rest ih =>
      rw [List.filter_cons, List.map_cons, List.sum_cons, ← ih]
      by_cases h : c a = true
      · simp [h]
      · simp [h]

/-- The open batches have all that the batches have left. -/
theorem sum_openLots (h : Batched s) (p : ProductId) :
    ((openLots s p).map StockLot.qtyLeft).sum = s.lotLeft p := by
  unfold openLots Store.lotLeft
  rw [sum_insertionSort]
  refine congrArg List.sum (List.map_congr_left fun l hl => ?_)
  have hleft := h.left l hl
  by_cases hp : l.productId = p
  · by_cases hpos : 0 < l.qtyLeft
    · simp [hp, hpos]
    · have hzero : l.qtyLeft = 0 := by omega
      simp [hp, hzero]
  · simp [hp]

theorem sum_consumptionsOf (s : Store) (o : OrderId) (p : ProductId) :
    ((consumptionsOf s o p).map fun u => u.qty - u.returned).sum = s.outstanding o p := by
  unfold consumptionsOf Store.outstanding
  rw [sum_insertionSort]
  refine congrArg List.sum (List.map_congr_left fun c _ => ?_)
  by_cases ho : c.orderId = o
  · by_cases hp : c.productId = p
    · simp [ho, hp]
    · simp [ho, hp]
  · simp [ho]

theorem refreshCost_move (h : Batched s) (p q : ProductId) (o : Option OrderId) :
    BatchMove s (refreshCost s p) q o 0 := by
  unfold refreshCost
  split
  · exact .refl h
  · exact .of_tables h rfl rfl

theorem stampOrderCost_lots (s : Store) (o : OrderId) (p : ProductId) (used : List Used) :
    (stampOrderCost s o p used).lots = s.lots ∧
      (stampOrderCost s o p used).consumptions = s.consumptions := by
  unfold stampOrderCost
  split
  · exact ⟨rfl, rfl⟩
  · exact ⟨rfl, rfl⟩

theorem mem_openLots {lot : StockLot} (h : lot ∈ openLots s p) :
    lot ∈ s.lots ∧ lot.productId = p := by
  have hmem := List.mem_filter.mp ((List.perm_insertionSort _ _).mem_iff.mp h)
  have hcond := Bool.and_eq_true_iff.mp hmem.2
  exact ⟨hmem.1, of_decide_eq_true hcond.1⟩

theorem nodup_openLots (h : Batched s) (p : ProductId) :
    ((openLots s p).map StockLot.id).Nodup := by
  unfold openLots
  rw [((List.perm_insertionSort _ _).map StockLot.id).nodup_iff]
  exact h.nodupLots.sublist (List.filter_sublist.map StockLot.id)

/-- **Consuming what the shelf has takes it from the batches.** -/
theorem consume_move (h : Batched s) (h0 : 0 ≤ qty) (hle : qty ≤ s.lotLeft p) :
    BatchMove s (consume s p qty o now).1 p o qty := by
  rw [← sum_openLots h] at hle
  have hmove : BatchMove s (takeFrom o p now (openLots s p) qty s []).1 p o qty :=
    (takeFrom_move (openLots s p) qty s [] h (nodup_openLots h p) (fun l hl => mem_openLots hl) h0
      hle).2
  have hboth := hmove.trans (refreshCost_move hmove.batched p p o)
  rwa [add_zero] at hboth

theorem createLot_move {source : LotSource} {cost price : Option Money}
    {purchase : Option PurchaseId} {at_ : Option Instant} (h : Batched s)
    (hlot : createLot s p source qty cost price purchase at_ now = .ok t) :
    BatchMove s t p none (-qty) := by
  unfold createLot at hlot
  split at hlot
  · cases hlot
  rename_i hqty
  split at hlot
  · cases hlot
  obtain rfl := Except.ok.inj hlot
  refine ⟨⟨?_, h.useIds, fun l hl => ?_, fun l hl => ?_, h.used, fun c hc => ?_⟩, fun q => ?_,
    fun i q => ?_⟩
  · simp [h.lotIds, List.range_succ]
  · rcases List.mem_append.mp hl with hold | hnew
    · exact h.left l hold
    · rw [List.mem_singleton.mp hnew]
      show 0 ≤ qty
      omega
  · rcases List.mem_append.mp hl with hold | hnew
    · exact h.room l hold
    · rw [List.mem_singleton.mp hnew]
      have hnone := h.lotUsed_new
      show qty + s.lotUsed s.lots.length ≤ qty
      omega
  · obtain ⟨l, hl, hid⟩ := h.source c hc
    exact ⟨l, List.mem_append_left _ hl, hid⟩
  · by_cases hq : q = p
    · simp [Store.lotLeft, hq]
    · have hq' : ¬p = q := fun e => hq e.symm
      simp [Store.lotLeft, hq, hq']
  · simp [Store.outstanding]

/-- **What comes back of an order goes where it was taken from.** -/
theorem unconsume_move {i : OrderId} (h : Batched s) (ho : ctx.orderId = some i) (h0 : 0 ≤ qty)
    (hle : qty ≤ s.outstanding i p) (hcall : unconsume s p qty ctx = .ok t) :
    BatchMove s t p (some i) (-qty) := by
  rw [← sum_consumptionsOf] at hle
  have hmem : ∀ u ∈ consumptionsOf s i p, u ∈ s.consumptions ∧ u.orderId = i ∧
      u.productId = p := by
    intro u hu
    have hin := List.mem_filter.mp ((List.perm_insertionSort _ _).mem_iff.mp hu)
    have hcond := Bool.and_eq_true_iff.mp hin.2
    exact ⟨hin.1, of_decide_eq_true hcond.1, of_decide_eq_true hcond.2⟩
  have hnd : ((consumptionsOf s i p).map StockLotConsumption.id).Nodup := by
    unfold consumptionsOf
    rw [((List.perm_insertionSort _ _).map StockLotConsumption.id).nodup_iff]
    exact h.nodupUses.sublist (List.filter_sublist.map StockLotConsumption.id)
  obtain ⟨hdone, hmove⟩ := giveBack_move (consumptionsOf s i p) qty s h hnd hmem h0 hle
  obtain ⟨u, hu, rfl⟩ := Result.map_ok.mp hcall
  rw [ho] at hu
  have hzero : (returnToLots s p qty (some i)).2 = 0 := hdone
  rw [hzero, if_neg (by decide)] at hu
  obtain rfl := Except.ok.inj hu
  have hboth := hmove.trans (refreshCost_move hmove.batched p p (some i))
  rwa [add_zero] at hboth

end operations

end Inventory

/-! ### Lines of stock -/

/-- The batches lose `-a` times the units of the lines, to an order or to nobody. -/
structure LotLines (a : ℤ) (o : Option OrderId) (s : Store) (lines : List StockLine) (t : Store) :
    Prop where
  batched : Batched t
  left : ∀ p, t.lotLeft p = s.lotLeft p + a * count p lines
  out : ∀ i p, t.outstanding i p =
    s.outstanding i p - if o = some i then a * count p lines else 0

/-- The batches account for the shelf. -/
structure Shelved (s : Store) : Prop where
  batched : Batched s
  shelf : ∀ p, s.lotLeft p = s.onHand p

section lines

variable {s t u : Store} {a b : ℤ} {o : Option OrderId} {lines lines' : List StockLine}
  {l : StockLine} {ctx : StockContext} {clamp : ℤ → ℤ}

theorem LotLines.of_move (h : BatchMove s t l.key o (-(a * l.qty))) : LotLines a o s [l] t := by
  refine ⟨h.batched, fun p => ?_, fun i p => ?_⟩
  · rw [h.left]
    by_cases hp : p = l.key
    · simp [hp]
    · have hp' : ¬l.key = p := fun e => hp e.symm
      simp [hp, hp']
  · rw [h.out]
    by_cases hp : p = l.key
    · by_cases ho : o = some i
      · simp [hp, ho]
        ring
      · simp [ho]
    · have hp' : ¬l.key = p := fun e => hp e.symm
      simp [hp, hp']

theorem LotLines.nil (h : Batched s) : LotLines a o s [] s := by
  refine ⟨h, fun p => ?_, fun i p => ?_⟩
  · simp
  · simp

theorem LotLines.append (h : LotLines a o s lines u) (h' : LotLines a o u lines' t) :
    LotLines a o s (lines ++ lines') t := by
  refine ⟨h'.batched, fun p => ?_, fun i p => ?_⟩
  · rw [h'.left, h.left, Tally.count_append]
    ring
  · rw [h'.out, h.out, Tally.count_append]
    split
    · ring
    · ring

theorem LotLines.of_count (h : LotLines a o s lines t) (hc : ∀ p, count p lines = count p lines') :
    LotLines a o s lines' t :=
  ⟨h.batched, fun p => hc p ▸ h.left p, fun i p => hc p ▸ h.out i p⟩

/-- Writing other tables is a move of no units. -/
theorem LotLines.of_tables (h : Batched s) (hl : t.lots = s.lots)
    (hc : t.consumptions = s.consumptions) : LotLines 0 o s lines t := by
  have hmove := BatchMove.of_tables (p := 0) (o := o) h hl hc
  refine ⟨hmove.batched, fun p => ?_, fun i p => ?_⟩
  · rw [hmove.left, ite_self]
    ring
  · rw [hmove.out, ite_self]
    simp

theorem Shelved.after (h : Shelved s) (hm : Moves a b s lines t) (hl : LotLines a o s lines t) :
    Shelved t :=
  ⟨hl.batched, fun p => by rw [hl.left, hm.onHand, h.shelf]⟩

namespace Inventory

theorem log_nonneg {p : Product} {type : StockMovementType} {dOn dRes : ℤ} {cost : Option Money}
    (h : log s p type dOn dRes ctx cost = .ok t) : 0 ≤ p.stockOnHand := by
  unfold log at h
  split at h
  · cases h
  split at h
  · cases h
  · omega

/-- An update of a product and its movement leave the batches alone. -/
theorem lots_of_update {id : ProductId} {cond : Product → Bool} {f : Product → Product}
    {p' : Product} {type : StockMovementType} {dOn dRes : ℤ} {cost : Option Money}
    (hu : updateProduct s id cond f = .ok (some (p', u)))
    (hlog : log u p' type dOn dRes ctx cost = .ok t) :
    t.lots = s.lots ∧ t.consumptions = s.consumptions := by
  obtain ⟨p, -, -, -, rfl⟩ := updateProduct_some hu
  obtain ⟨m, -, -, -, rfl⟩ := log_ok hlog
  exact ⟨rfl, rfl⟩

theorem lots_reserveLine (h : reserveLine ctx s l = .ok t) :
    t.lots = s.lots ∧ t.consumptions = s.consumptions := by
  obtain ⟨updated, hu, h⟩ := Result.bind_ok.mp h
  cases updated with
  | none =>
      dsimp only at h
      split at h
      · cases h
      · cases h
  | some r => exact lots_of_update hu h

theorem lots_releaseLine (h : releaseLine clamp ctx s l = .ok t) :
    t.lots = s.lots ∧ t.consumptions = s.consumptions := by
  obtain ⟨updated, hu, h⟩ := Result.bind_ok.mp h
  cases updated with
  | none =>
      obtain rfl := Except.ok.inj h
      exact ⟨rfl, rfl⟩
  | some r => exact lots_of_update hu h

/-- **A line goes out only if the shelf has it, so its copies come from the batches.** -/
theorem fulfillLine_lots {r r' : Store × List LowStockHit} (hs : Shelved r.1) (hpos : 0 < l.qty)
    (h : fulfillLine clamp ctx r l = .ok r') : LotLines (-1) ctx.orderId r.1 [l] r'.1 := by
  obtain ⟨updated, hu, h⟩ := Result.bind_ok.mp h
  cases updated with
  | none => cases h
  | some x =>
      obtain ⟨v, hlog, h⟩ := Result.bind_ok.mp h
      obtain ⟨hlots, huses⟩ := lots_of_update hu hlog
      have hnonneg := log_nonneg hlog
      obtain ⟨p, hp, -, hp', -⟩ := updateProduct_some hu
      rw [hp'] at hnonneg
      have hon : r.1.onHand l.key = p.stockOnHand := by
        rw [Store.onHand, hp]
        rfl
      have hbase := BatchMove.of_tables (p := l.key) (o := ctx.orderId) hs.batched hlots huses
      have hle : l.qty ≤ v.lotLeft l.key := by
        have hleft := hbase.left l.key
        have hqty : 0 ≤ p.stockOnHand - l.qty := hnonneg
        rw [hleft, ite_self, sub_zero, hs.shelf, hon]
        omega
      have hused : BatchMove _ (consume _ l.key l.qty ctx.orderId ctx.now).1 l.key ctx.orderId l.qty :=
        consume_move hbase.batched hpos.le hle
      have hboth := hbase.trans hused
      have hk : 0 + l.qty = -(-1 * l.qty) := by ring
      rw [hk] at hboth
      obtain rfl := Except.ok.inj h
      refine LotLines.of_move ?_
      dsimp only
      split
      · exact hboth
      · rename_i o ho
        have hstamp := stampOrderCost_lots (consume v l.key l.qty ctx.orderId ctx.now).1 o l.key
          (consume v l.key l.qty ctx.orderId ctx.now).2
        have hall := hboth.trans (.of_tables (p := l.key) (o := ctx.orderId) hboth.batched hstamp.1
          hstamp.2)
        rwa [add_zero] at hall

/-- **A line comes back to the batches it was taken from.** -/
theorem restockLine_lots {i : OrderId} (hs : Batched s) (ho : ctx.orderId = some i)
    (hk : s.knows l.key) (hpos : 0 < l.qty) (hle : l.qty ≤ s.outstanding i l.key)
    (h : restockLine ctx s l = .ok t) : LotLines 1 ctx.orderId s [l] t := by
  obtain ⟨p, hp⟩ := Option.isSome_iff_exists.mp (Rows.lookup_isSome.mpr hk)
  obtain ⟨updated, hu, h⟩ := Result.bind_ok.mp h
  cases updated with
  | none => exact absurd (updateProduct_none hu p hp) (by simp)
  | some r =>
      obtain ⟨v, hlog, h⟩ := Result.bind_ok.mp h
      obtain ⟨hlots, huses⟩ := lots_of_update hu hlog
      have hbase := BatchMove.of_tables (p := l.key) (o := some i) hs hlots huses
      have hle' : l.qty ≤ v.outstanding i l.key := by
        rw [hbase.out, ite_self, add_zero]
        exact hle
      have hback := hbase.trans (unconsume_move hbase.batched ho hpos.le hle' h)
      rw [ho]
      refine LotLines.of_move ?_
      have hk : 0 + -l.qty = -(1 * l.qty) := by ring
      rwa [hk] at hback

/-- A loop over lines of distinct products moves their units in the batches too. -/
theorem foldlM_lots {σ : Type} {π : σ → Store} {g : σ → StockLine → Except Failure σ}
    {P : Store → StockLine → Prop}
    (hround : ∀ x l y, Shelved (π x) → P (π x) l → g x l = .ok y →
      Moves a b (π x) [l] (π y) ∧ LotLines a o (π x) [l] (π y))
    (hkeep : ∀ s l l' t, l'.key ≠ l.key → P s l → Moves a b s [l'] t → LotLines a o s [l'] t →
      P t l) :
    ∀ (m : List StockLine) (x y : σ), (m.map Entry.key).Nodup → Shelved (π x) →
      (∀ l ∈ m, P (π x) l) → m.foldlM g x = .ok y → LotLines a o (π x) m (π y) := by
  intro m
  induction m with
  | nil =>
      intro x y _ hs _ h
      obtain rfl := Result.foldlM_nil_ok.mp h
      exact .nil hs.batched
  | cons l rest ih =>
      intro x y hnd hs hok h
      rw [List.map_cons, List.nodup_cons] at hnd
      obtain ⟨z, hz, hrest⟩ := Result.foldlM_cons_ok.mp h
      obtain ⟨hmoves, hlots⟩ := hround x l z hs (hok l (by simp)) hz
      have hok' : ∀ l' ∈ rest, P (π z) l' := by
        intro l' hl'
        have hne : l.key ≠ l'.key := fun hc => hnd.1 (hc ▸ List.mem_map_of_mem hl')
        exact hkeep _ l' l _ hne (hok l' (by simp [hl'])) hmoves hlots
      exact hlots.append (ih z y hnd.2 (hs.after hmoves hlots) hok' hrest)

theorem reserve_lots (hs : Batched s) (h : reserve s lines ctx = .ok t) :
    LotLines 0 o s lines t := by
  obtain ⟨m, -, h⟩ := Result.bind_ok.mp h
  have htables := Result.foldlM_rel
    (R := fun s t : Store => t.lots = s.lots ∧ t.consumptions = s.consumptions)
    (fun _ => ⟨rfl, rfl⟩) (fun _ _ _ h h' => ⟨h'.1.trans h.1, h'.2.trans h.2⟩)
    (fun _ _ _ hr => lots_reserveLine hr) m s t h
  exact .of_tables hs htables.1 htables.2

theorem release_lots (hs : Batched s) (h : release clamp s lines ctx = .ok t) :
    LotLines 0 o s lines t := by
  obtain ⟨m, -, h⟩ := Result.bind_ok.mp h
  have htables := Result.foldlM_rel
    (R := fun s t : Store => t.lots = s.lots ∧ t.consumptions = s.consumptions)
    (fun _ => ⟨rfl, rfl⟩) (fun _ _ _ h h' => ⟨h'.1.trans h.1, h'.2.trans h.2⟩)
    (fun _ _ _ hr => lots_releaseLine hr) m s t h
  exact .of_tables hs htables.1 htables.2

/-- Merged lines are positive. -/
theorem merge_pos {m : List StockLine} (h : merge lines = .ok m) : ∀ l ∈ m, 0 < l.qty := by
  obtain ⟨hpos, -, -, hqty, hkeys⟩ := merge_ok h
  intro l hl
  obtain ⟨x, hx, hkey⟩ := List.mem_map.mp ((hkeys l.key).mp (List.mem_map_of_mem hl))
  rw [hqty l hl, ← hkey]
  exact Tally.count_pos_of_mem hpos (List.mem_map_of_mem hx)

/-- **Fulfilling takes the lines' units from the batches, for the order.** -/
theorem fulfill_lots {low : List LowStockHit} (hc : Clamps clamp) (hs : Shelved s)
    (hh : AllHeld s lines) (h : fulfill clamp s lines ctx = .ok (t, low)) :
    LotLines (-1) ctx.orderId s lines t := by
  obtain ⟨m, hm, h⟩ := Result.bind_ok.mp h
  have hheld : ∀ l ∈ m, Held s l ∧ 0 < l.qty := by
    obtain ⟨-, -, -, hqty, hkeys⟩ := merge_ok hm
    intro l hl
    obtain ⟨x, hx, hkey⟩ := List.mem_map.mp ((hkeys l.key).mp (List.mem_map_of_mem hl))
    have hx' := hh x hx
    rw [hkey] at hx'
    exact ⟨⟨hx'.1, (hqty l hl).trans_le hx'.2⟩, merge_pos hm l hl⟩
  have hlots : LotLines (-1) ctx.orderId s m t :=
    foldlM_lots (π := Prod.fst) (P := fun s l => Held s l ∧ 0 < l.qty)
      (fun _ _ _ hs hok hr => ⟨fulfillLine_moves hc hok.1 hr, fulfillLine_lots hs hok.2 hr⟩)
      (fun _ _ _ _ hne hok hr _ => ⟨held_keep hne hok.1 hr, hok.2⟩) m (s, []) (t, low)
      (merge_ok hm).2.1 hs hheld h
  exact hlots.of_count (merge_ok hm).2.2.1

/-- **Restocking gives the lines' units back to the batches they were taken from.** -/
theorem restock_lots {i : OrderId} (hs : Shelved s) (ho : ctx.orderId = some i)
    (hk : ∀ l ∈ lines, s.knows l.key) (hout : ∀ p, s.outstanding i p = count p lines)
    (h : restock s lines ctx = .ok t) : LotLines 1 ctx.orderId s lines t := by
  obtain ⟨m, hm, h⟩ := Result.bind_ok.mp h
  obtain ⟨-, hnd, hcount, hqty, hkeys⟩ := merge_ok hm
  have hready : ∀ l ∈ m, s.knows l.key ∧ 0 < l.qty ∧ l.qty ≤ s.outstanding i l.key := by
    intro l hl
    obtain ⟨x, hx, hkey⟩ := List.mem_map.mp ((hkeys l.key).mp (List.mem_map_of_mem hl))
    exact ⟨hkey ▸ hk x hx, merge_pos hm l hl, by rw [hout, hqty l hl]⟩
  have hlots : LotLines 1 ctx.orderId s m t := by
    refine foldlM_lots (π := fun s => s) (b := 0)
      (P := fun s l => s.knows l.key ∧ 0 < l.qty ∧ l.qty ≤ s.outstanding i l.key)
      (fun _ _ _ hs hok hr => ⟨restockLine_moves hok.1 hr,
        restockLine_lots hs.batched ho hok.1 hok.2.1 hok.2.2 hr⟩)
      (fun s l l' t hne hok hr hl => ⟨(hr.knows_iff _).mpr hok.1, hok.2.1, ?_⟩) m s t hnd hs hready h
    have hz : count l.key [l'] = 0 := by simp [hne]
    rw [hl.out, hz, mul_zero, ite_self, sub_zero]
    exact hok.2.2
  exact hlots.of_count hcount

/-! ### Receipts and corrections -/

variable {p : ProductId} {qty : ℤ}

/-- **A receipt is a batch more.** -/
theorem addBatch_lots {batch : Batch} (hs : Batched s)
    (h : addBatch s p qty batch ctx = .ok t) : LotLines 1 none s [⟨p, qty⟩] t := by
  unfold addBatch at h
  split at h
  · cases h
  cases hl : Rows.lookup Product.id p s.products with
  | none => simp [hl] at h
  | some cur =>
      simp only [hl] at h
      obtain ⟨updated, hu, h⟩ := Result.bind_ok.mp h
      cases updated with
      | none => cases h
      | some r =>
          obtain ⟨v, hlog, h⟩ := Result.bind_ok.mp h
          obtain ⟨w, hlot, hret⟩ := Result.bind_ok.mp h
          obtain rfl := Except.ok.inj hret
          obtain ⟨hlots, huses⟩ := lots_of_update hu hlog
          have hbase := BatchMove.of_tables (p := p) (o := none) hs hlots huses
          have hnew := hbase.trans (createLot_move hbase.batched hlot)
          have hall := hnew.trans (refreshCost_move hnew.batched p p none)
          refine LotLines.of_move (l := ⟨p, qty⟩) ?_
          have hk : 0 + -qty + 0 = -(1 * qty) := by ring
          rwa [hk] at hall

/-- **A correction makes a batch of what was found and takes from batches what is missing.** -/
theorem setOnHand_lots {onHand : ℤ} {type : Option StockMovementType} (hs : Shelved s)
    (h : setOnHand s p onHand ctx type = .ok t) :
    LotLines 1 none s [⟨p, onHand - s.onHand p⟩] t := by
  unfold setOnHand at h
  split at h
  · cases h
  rename_i hnonneg
  cases hl : Rows.lookup Product.id p s.products with
  | none => simp [hl] at h
  | some cur =>
      have hcur : s.onHand p = cur.stockOnHand := by
        rw [Store.onHand, hl]
        rfl
      simp only [hl] at h
      rw [hcur]
      split at h
      · rename_i hz
        obtain rfl := Except.ok.inj h
        refine (LotLines.nil hs.batched).of_count fun p => ?_
        simp [hz]
      split at h
      · cases h
      obtain ⟨updated, hu, h⟩ := Result.bind_ok.mp h
      cases updated with
      | none => cases h
      | some r =>
          obtain ⟨v, hlog, h⟩ := Result.bind_ok.mp h
          obtain ⟨w, hlot, rfl⟩ := Result.map_ok.mp h
          obtain ⟨hlots, huses⟩ := lots_of_update hu hlog
          have hbase := BatchMove.of_tables (p := p) (o := none) hs.batched hlots huses
          refine LotLines.of_move (l := ⟨p, onHand - cur.stockOnHand⟩) ?_
          have hmove : BatchMove s w p none (0 + -(onHand - cur.stockOnHand)) := by
            split at hlot
            · exact hbase.trans (createLot_move hbase.batched hlot)
            · rename_i hneg
              obtain rfl := Except.ok.inj hlot
              refine hbase.trans (consume_move hbase.batched (by omega) ?_)
              rw [hbase.left, ite_self, sub_zero, hs.shelf, hcur]
              omega
          have hall := hmove.trans (refreshCost_move hmove.batched p p none)
          have hk : 0 + -(onHand - cur.stockOnHand) + 0 = -(1 * (onHand - cur.stockOnHand)) := by
            ring
          rwa [hk] at hall

end Inventory

end lines

end BookHouse
