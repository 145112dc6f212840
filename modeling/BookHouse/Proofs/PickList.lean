/-
The pick list is what leaves the shelf.

Both expansions of an order, into picks and into stock lines, walk over the same lines, and
for rows as they are stored they give the same units in the same order (`lines_picksOf`).
What is left is grouping.  `Grouped` says what the groups are after any number of picks; it
is kept by each pick (`Grouped.add`), so it holds of the whole walk, and every field of the
result is read off it.
-/
import BookHouse.Orders.PickList
import BookHouse.Proofs.Stock
import BookHouse.Proofs.Quote

namespace BookHouse

open Tally (Entry count)

namespace PickList

/-! ### The two expansions -/

/-- A line as it is stored: its CHECKs hold, and only a bundle line has components. -/
structure Stored (it : OrderItem) : Prop where
  check : it.check = .ok ()
  components : it.kind = .product → it.components = []

/-- What is written of a priced line has components only for a bundle. -/
theorem toItem_components {l : QuoteLineInput} {share : Money} {eligible : Bool}
    (h : (quoteLine l share eligible).toItem.kind = .product) :
    (quoteLine l share eligible).toItem.components = [] := by
  cases l with
  | product p q => rfl
  | bundle b q => cases h

/-- The lines of an order that was placed are stored so. -/
theorem placed_stored {s t : Store} {id : OrderId} {orderNo phone : String}
    {customerId : CustomerId} {req : PlaceOrder} {input : QuoteInput} {now : Instant}
    (h : insertOrder s (newOrder id orderNo customerId phone req (calculateQuote input) now) =
      .ok t) :
    ∀ it ∈ (newOrder id orderNo customerId phone req (calculateQuote input) now).items,
      Stored it := by
  obtain ⟨-, hchecks, -⟩ := insertOrder_ok h
  intro it hit
  refine ⟨Result.forM_ok _ hchecks it hit, fun hkind => ?_⟩
  obtain ⟨l, hl, rfl⟩ := List.mem_map.mp hit
  rw [calculateQuote_lines] at hl
  obtain ⟨i, hi, rfl⟩ := List.mem_mapIdx.mp hl
  exact toItem_components hkind

def Pick.line (p : Pick) : StockLine := ⟨p.productId, p.qty⟩

/-- All that the orders take, in the order of the walk. -/
def picksOfOrders (orders : List PickOrderInput) : List Pick :=
  orders.flatMap fun o => o.items.flatMap (picksOf o.orderNo)

/-- The stock lines of the same orders. -/
def stockLines (orders : List PickOrderInput) : List StockLine :=
  orders.flatMap fun o => stockLinesOf o.items

theorem lines_picksOf {it : OrderItem} (h : it.kind = .product → it.components = [])
    (orderNo : String) : (picksOf orderNo it).map Pick.line = stockLinesOf [it] := by
  unfold picksOf stockLinesOf
  cases hkind : it.kind with
  | bundle =>
      simp only [List.flatMap_cons, List.flatMap_nil, hkind, List.nil_append, List.append_nil,
        List.map_map]
      rfl
  | product =>
      simp only [List.flatMap_cons, List.flatMap_nil, hkind, h hkind, List.map_nil,
        List.append_nil]
      cases it.productId <;> rfl

theorem lines_picks {items : List OrderItem}
    (h : ∀ it ∈ items, it.kind = .product → it.components = []) (orderNo : String) :
    (items.flatMap (picksOf orderNo)).map Pick.line = stockLinesOf items := by
  induction items with
  | nil => rfl
  | cons it rest ih =>
      have hsplit : stockLinesOf (it :: rest) = stockLinesOf [it] ++ stockLinesOf rest := by
        simp [stockLinesOf]
      rw [List.flatMap_cons, List.map_append, lines_picksOf (h it List.mem_cons_self),
        ih fun i hi => h i (List.mem_cons_of_mem _ hi), hsplit]

theorem lines_picksOfOrders {orders : List PickOrderInput}
    (h : ∀ o ∈ orders, ∀ it ∈ o.items, it.kind = .product → it.components = []) :
    (picksOfOrders orders).map Pick.line = stockLines orders := by
  unfold picksOfOrders stockLines
  rw [List.map_flatMap]
  exact List.flatMap_congr fun o ho => lines_picks (h o ho) o.orderNo

theorem orderNo_of_mem {items : List OrderItem} {orderNo : String} {p : Pick}
    (h : p ∈ items.flatMap (picksOf orderNo)) : p.orderNo = orderNo := by
  obtain ⟨it, -, hp⟩ := List.mem_flatMap.mp h
  unfold picksOf at hp
  cases hkind : it.kind with
  | bundle =>
      simp only [hkind] at hp
      obtain ⟨c, -, rfl⟩ := List.mem_map.mp hp
      rfl
  | product =>
      simp only [hkind] at hp
      cases hid : it.productId with
      | none => simp [hid] at hp
      | some id =>
          simp only [hid, List.mem_singleton] at hp
          rw [hp]

/-! ### The groups -/

variable (stock : ProductId → Option StockLevel)

/-- What a product's group says once `picks` have been added. -/
structure GroupOf (picks : List Pick) (g : PickGroup) : Prop where
  quantity : g.quantity = count g.productId (picks.map Pick.line)
  orders_nodup : g.orders.Nodup
  orders_mem : ∀ n, n ∈ g.orders ↔ ∃ p ∈ picks, p.productId = g.productId ∧ p.orderNo = n
  stockOnHand : g.stockOnHand = (stock g.productId).map (·.stockOnHand)

/-- What the groups are then. -/
structure Grouped (picks : List Pick) (map : List PickGroup) : Prop where
  nodup : (map.map (·.productId)).Nodup
  keys : ∀ k, k ∈ map.map (·.productId) ↔ k ∈ picks.map (·.productId)
  units : (map.map (·.quantity)).sum = (picks.map (·.qty)).sum
  groups : ∀ g ∈ map, GroupOf stock picks g

theorem mem_push {x y : String} {list : List String} : y ∈ push x list ↔ y = x ∨ y ∈ list := by
  unfold push
  split
  · rename_i h
    exact ⟨Or.inr, fun hy => hy.elim (fun heq => heq ▸ h) id⟩
  · rw [List.mem_append, List.mem_singleton, or_comm]

theorem nodup_push {x : String} {list : List String} (h : list.Nodup) : (push x list).Nodup := by
  unfold push
  split
  · exact h
  · rename_i hx
    exact List.nodup_append.mpr ⟨h, List.nodup_singleton x, by
      rintro a ha b hb rfl
      exact hx (List.mem_singleton.mp hb ▸ ha)⟩

/-- The groups after a pick: the product's own took it, the others are as they were. -/
theorem mem_add {p : Pick} {map : List PickGroup} (hnd : (map.map (·.productId)).Nodup)
    {g : PickGroup} (h : g ∈ add stock p map) :
    (g ∈ map ∧ g.productId ≠ p.productId) ∨
      (∃ g' ∈ map, g'.productId = p.productId ∧ g = took p g') ∨
      (p.productId ∉ map.map (·.productId) ∧ g = took p (newGroup stock p)) := by
  induction map with
  | nil => exact Or.inr (Or.inr ⟨by simp, List.mem_singleton.mp h⟩)
  | cons g' rest ih =>
      rw [List.map_cons, List.nodup_cons] at hnd
      rw [add] at h
      by_cases hid : g'.productId = p.productId
      · rw [if_pos hid] at h
        rcases List.mem_cons.mp h with rfl | hrest
        · exact Or.inr (Or.inl ⟨g', List.mem_cons_self, hid, rfl⟩)
        · refine Or.inl ⟨List.mem_cons_of_mem _ hrest, fun hc => hnd.1 ?_⟩
          rw [hid, ← hc]
          exact List.mem_map_of_mem hrest
      · rw [if_neg hid] at h
        rcases List.mem_cons.mp h with rfl | hrest
        · exact Or.inl ⟨List.mem_cons_self, hid⟩
        · rcases ih hnd.2 hrest with ⟨hg, hne⟩ | ⟨g'', hg, hsame, htook⟩ | ⟨hnot, hnew⟩
          · exact Or.inl ⟨List.mem_cons_of_mem _ hg, hne⟩
          · exact Or.inr (Or.inl ⟨g'', List.mem_cons_of_mem _ hg, hsame, htook⟩)
          · refine Or.inr (Or.inr ⟨?_, hnew⟩)
            rw [List.map_cons, List.mem_cons, not_or]
            exact ⟨fun hc => hid hc.symm, hnot⟩

theorem keys_add (p : Pick) (map : List PickGroup) (k : ProductId) :
    k ∈ (add stock p map).map (·.productId) ↔ k = p.productId ∨ k ∈ map.map (·.productId) := by
  induction map with
  | nil => simp [add, took, newGroup]
  | cons g rest ih =>
      rw [add]
      by_cases hid : g.productId = p.productId
      · rw [if_pos hid, List.map_cons, List.mem_cons, List.map_cons, List.mem_cons]
        simp only [took, hid]
        tauto
      · rw [if_neg hid, List.map_cons, List.mem_cons, ih, List.map_cons, List.mem_cons]
        tauto

theorem nodup_add (p : Pick) {map : List PickGroup} (h : (map.map (·.productId)).Nodup) :
    ((add stock p map).map (·.productId)).Nodup := by
  induction map with
  | nil => simp [add]
  | cons g rest ih =>
      rw [List.map_cons, List.nodup_cons] at h
      rw [add]
      by_cases hid : g.productId = p.productId
      · rw [if_pos hid]
        exact List.nodup_cons.mpr h
      · rw [if_neg hid, List.map_cons, List.nodup_cons, keys_add]
        exact ⟨not_or.mpr ⟨hid, h.1⟩, ih h.2⟩

theorem units_add (p : Pick) (map : List PickGroup) :
    ((add stock p map).map (·.quantity)).sum = (map.map (·.quantity)).sum + p.qty := by
  induction map with
  | nil => simp [add, took, newGroup]
  | cons g rest ih =>
      rw [add]
      by_cases hid : g.productId = p.productId
      · rw [if_pos hid, List.map_cons, List.sum_cons, List.map_cons, List.sum_cons]
        simp only [took]
        ring
      · rw [if_neg hid, List.map_cons, List.sum_cons, ih, List.map_cons, List.sum_cons]
        ring

variable {stock}

section Step

variable {picks : List Pick} {p : Pick} {g : PickGroup}

theorem count_snoc (picks : List Pick) (p : Pick) (k : ProductId) :
    count k ((picks ++ [p]).map Pick.line) =
      count k (picks.map Pick.line) + if p.productId = k then p.qty else 0 := by
  simp [Pick.line]

theorem exists_snoc {k : ProductId} {n : String} :
    (∃ q ∈ picks ++ [p], q.productId = k ∧ q.orderNo = n) ↔
      (∃ q ∈ picks, q.productId = k ∧ q.orderNo = n) ∨ p.productId = k ∧ p.orderNo = n := by
  simp only [List.mem_append, List.mem_singleton, or_and_right, exists_or, exists_eq_left]

theorem GroupOf.other (h : GroupOf stock picks g) (hne : g.productId ≠ p.productId) :
    GroupOf stock (picks ++ [p]) g := by
  refine ⟨?_, h.orders_nodup, fun n => ?_, h.stockOnHand⟩
  · rw [count_snoc, if_neg hne.symm, add_zero, h.quantity]
  · rw [exists_snoc, h.orders_mem]
    simp [hne.symm]

theorem GroupOf.took (h : GroupOf stock picks g) (hid : g.productId = p.productId) :
    GroupOf stock (picks ++ [p]) (took p g) := by
  refine ⟨?_, nodup_push h.orders_nodup, fun n => ?_, h.stockOnHand⟩
  · rw [count_snoc]
    simp only [PickList.took, hid, if_true]
    rw [h.quantity, hid]
  · rw [exists_snoc]
    simp only [PickList.took, mem_push]
    rw [h.orders_mem, hid]
    simp [eq_comm, or_comm]

/-- The product's first pick. -/
theorem GroupOf.new (hnone : ∀ q ∈ picks, q.productId ≠ p.productId) :
    GroupOf stock (picks ++ [p]) (PickList.took p (newGroup stock p)) := by
  have hzero : count p.productId (picks.map Pick.line) = 0 := by
    refine Tally.count_eq_zero fun hc => ?_
    rw [List.map_map] at hc
    obtain ⟨q, hq, heq⟩ := List.mem_map.mp hc
    exact hnone q hq heq
  have hfirst : ¬∃ q ∈ picks, q.productId = p.productId ∧ q.orderNo = p.orderNo := by
    rintro ⟨q, hq, heq, -⟩
    exact hnone q hq heq
  refine ⟨?_, nodup_push List.nodup_nil, fun n => ?_, rfl⟩
  · rw [count_snoc]
    simp [PickList.took, newGroup, hzero]
  · rw [exists_snoc]
    simp only [PickList.took, newGroup, mem_push, List.not_mem_nil, or_false, true_and]
    constructor
    · exact fun heq => Or.inr heq.symm
    · rintro (⟨q, hq, hc, -⟩ | heq)
      · exact absurd hc (hnone q hq)
      · exact heq.symm

theorem Grouped.nil : Grouped stock [] [] where
  nodup := List.nodup_nil
  keys := by simp
  units := rfl
  groups := by simp

/-- **Each pick keeps the groups.** -/
theorem Grouped.add {map : List PickGroup} (h : Grouped stock picks map) (p : Pick) :
    Grouped stock (picks ++ [p]) (add stock p map) := by
  refine ⟨nodup_add stock p h.nodup, fun k => ?_, ?_, fun g hg => ?_⟩
  · rw [keys_add, h.keys, List.map_append, List.mem_append, or_comm]
    simp
  · rw [units_add, h.units, List.map_append, List.sum_append]
    simp
  · rcases mem_add stock h.nodup hg with ⟨hold, hne⟩ | ⟨g', hg', hid, rfl⟩ | ⟨hnot, rfl⟩
    · exact (h.groups g hold).other hne
    · exact (h.groups g' hg').took hid
    · -- no pick so far is of a product without a group
      exact GroupOf.new fun q hq heq =>
        hnot ((h.keys _).mpr (heq ▸ List.mem_map_of_mem hq))

end Step

/-- **And so does the whole walk.** -/
theorem Grouped.foldl {picks : List Pick} {map : List PickGroup} (h : Grouped stock picks map)
    (more : List Pick) :
    Grouped stock (picks ++ more) (more.foldl (fun map p => PickList.add stock p map) map) := by
  induction more generalizing picks map with
  | nil => simpa using h
  | cons p rest ih =>
      have hrest := ih (h.add p)
      rwa [List.append_assoc, List.singleton_append] at hrest

/-! ### The list -/

/-- The groups before they are sorted. -/
def groupsOf (stock : ProductId → Option StockLevel) (orders : List PickOrderInput) :
    List PickGroup :=
  (picksOfOrders orders).foldl (fun map p => add stock p map) []

theorem groupsOf_grouped (orders : List PickOrderInput) :
    Grouped stock (picksOfOrders orders) (groupsOf stock orders) :=
  Grouped.nil.foldl (picksOfOrders orders)

variable {localeCompare : String → String → ℤ} {orders : List PickOrderInput}

theorem groups_perm : (buildPickList localeCompare orders stock).groups.Perm
    ((groupsOf stock orders).map withShortfall) := by
  have hwalk : orders.foldl (fun map o => o.items.foldl (fun map it =>
      (picksOf o.orderNo it).foldl (fun map p => add stock p map) map) map) [] =
        groupsOf stock orders := by
    simp only [groupsOf, picksOfOrders, List.foldl_flatMap]
  unfold buildPickList
  dsimp only
  rw [hwalk]
  exact List.perm_insertionSort _ _

theorem groups_map_perm {β : Type} (f : PickGroup → β) (hf : ∀ g, f (withShortfall g) = f g) :
    ((buildPickList localeCompare orders stock).groups.map f).Perm
      ((groupsOf stock orders).map f) := by
  have hperm : ((buildPickList localeCompare orders stock).groups.map f).Perm
      (((groupsOf stock orders).map withShortfall).map f) := groups_perm.map f
  rw [List.map_map] at hperm
  rwa [show f ∘ withShortfall = f from funext hf] at hperm

/-- A group of the list is one of the walk with its shortfall. -/
theorem mem_groups {g : PickGroup} :
    g ∈ (buildPickList localeCompare orders stock).groups ↔
      ∃ g' ∈ groupsOf stock orders, withShortfall g' = g := by
  rw [groups_perm.mem_iff, List.mem_map]

/-- The order takes units of the product. -/
def Needs (k : ProductId) (o : PickOrderInput) : Bool :=
  k ∈ (stockLinesOf o.items).map Entry.key

/-- Whether a line of the order is a pick of the product. -/
theorem exists_pick_iff (h : ∀ o ∈ orders, ∀ it ∈ o.items, Stored it) {k : ProductId}
    {n : String} : (∃ p ∈ picksOfOrders orders, p.productId = k ∧ p.orderNo = n) ↔
      ∃ o ∈ orders, Needs k o ∧ o.orderNo = n := by
  have hlines : ∀ o ∈ orders, Needs k o ↔
      ∃ p ∈ o.items.flatMap (picksOf o.orderNo), p.productId = k := by
    intro o ho
    have hline := lines_picks (fun it hit => (h o ho it hit).components) o.orderNo
    rw [Needs, decide_eq_true_eq, ← hline, List.map_map, List.mem_map]
    rfl
  constructor
  · rintro ⟨p, hp, hk, hn⟩
    obtain ⟨o, ho, hpo⟩ := List.mem_flatMap.mp hp
    exact ⟨o, ho, (hlines o ho).mpr ⟨p, hpo, hk⟩, (orderNo_of_mem hpo).symm.trans hn⟩
  · rintro ⟨o, ho, hneeds, hn⟩
    obtain ⟨p, hp, hk⟩ := (hlines o ho).mp hneeds
    exact ⟨p, List.mem_flatMap.mpr ⟨o, ho, hp⟩, hk, (orderNo_of_mem hp).trans hn⟩

/-- What the stock takes for each of the orders, and that it is the orders' lines. -/
theorem merged_orders (h : ∀ o ∈ orders, ∀ it ∈ o.items, Stored it) :
    ∃ merged, orders.mapM (fun o => Inventory.merge (stockLinesOf o.items)) = .ok merged ∧
      ∀ k, count k merged.flatten = count k (stockLines orders) := by
  induction orders with
  | nil => exact ⟨[], rfl, fun k => rfl⟩
  | cons o rest ih =>
      obtain ⟨merged, hrest, hcount⟩ := ih fun o' ho' => h o' (List.mem_cons_of_mem _ ho')
      have hpos : ∀ l ∈ stockLinesOf o.items, 0 < l.qty :=
        stockLines_pos fun it hit => (h o List.mem_cons_self it hit).check
      obtain ⟨m, hm⟩ : ∃ m, Inventory.merge (stockLinesOf o.items) = .ok m := by
        unfold Inventory.merge
        rw [if_neg]
        · exact ⟨_, rfl⟩
        · rw [List.any_eq_true]
          rintro ⟨l, hl, hle⟩
          exact absurd (hpos l hl) (not_lt.mpr (of_decide_eq_true hle))
      refine ⟨m :: merged, ?_, fun k => ?_⟩
      · rw [List.mapM_cons, hm, hrest]
        rfl
      · rw [List.flatten_cons, Tally.count_append, hcount, (Inventory.merge_ok hm).2.2.1]
        simp [stockLines]

/-- A list that says what leaves the shelf for the orders. -/
structure Leaves (orders : List PickOrderInput) (stock : ProductId → Option StockLevel)
    (list : PickList) : Prop where
  oneGroup : (list.groups.map (·.productId)).Nodup
  needed : ∀ k, k ∈ list.groups.map (·.productId) ↔ ∃ o ∈ orders, Needs k o
  /-- The units are those the stock takes for the orders, merged by product. -/
  quantity : ∃ merged, orders.mapM (fun o => Inventory.merge (stockLinesOf o.items)) = .ok merged ∧
    ∀ g ∈ list.groups, g.quantity = count g.productId merged.flatten
  byOrder : ∀ g ∈ list.groups, g.orders.Perm ((orders.filter (Needs g.productId)).map (·.orderNo))
  units : list.units = ((stockLines orders).map Entry.qty).sum
  unknown : ∀ g ∈ list.groups, stock g.productId = none → g.shortfall = 0
  shortfall : ∀ g ∈ list.groups, ∀ s, stock g.productId = some s →
    g.shortfall = max 0 (g.quantity - s.stockOnHand)
  shortCount : list.shortCount = (list.groups.filter (0 < ·.shortfall)).length

/-- **The pick list is what leaves the shelf.** -/
theorem buildPickList_leaves (localeCompare : String → String → ℤ)
    (orders : List PickOrderInput) (stock : ProductId → Option StockLevel)
    (hno : (orders.map (·.orderNo)).Nodup) (hitems : ∀ o ∈ orders, ∀ it ∈ o.items, Stored it) :
    Leaves orders stock (buildPickList localeCompare orders stock) := by
  have hgrouped : Grouped stock (picksOfOrders orders) (groupsOf stock orders) :=
    groupsOf_grouped orders
  have hlines : (picksOfOrders orders).map Pick.line = stockLines orders :=
    lines_picksOfOrders fun o ho it hit => (hitems o ho it hit).components
  obtain ⟨merged, hmerged, hcount⟩ := merged_orders hitems
  have hids : ((buildPickList localeCompare orders stock).groups.map (·.productId)).Perm
      ((groupsOf stock orders).map (·.productId)) := groups_map_perm _ fun _ => rfl
  have hunits : ((groupsOf stock orders).map (·.quantity)).sum =
      ((stockLines orders).map Entry.qty).sum := by
    rw [hgrouped.units, ← hlines, List.map_map]
    rfl
  refine ⟨hids.nodup_iff.mpr hgrouped.nodup, fun k => ?_, ⟨merged, hmerged, fun g hg => ?_⟩,
    fun g hg => ?_, ?_, fun g hg hs => ?_, fun g hg s hs => ?_, ?_⟩
  · rw [hids.mem_iff, hgrouped.keys, List.mem_map]
    constructor
    · rintro ⟨p, hp, hk⟩
      obtain ⟨o, ho, hneeds, -⟩ := (exists_pick_iff hitems).mp ⟨p, hp, hk, rfl⟩
      exact ⟨o, ho, hneeds⟩
    · rintro ⟨o, ho, hneeds⟩
      obtain ⟨p, hp, hk, -⟩ := (exists_pick_iff hitems).mpr ⟨o, ho, hneeds, rfl⟩
      exact ⟨p, hp, hk⟩
  · obtain ⟨g', hg', rfl⟩ := mem_groups.mp hg
    have hquantity := (hgrouped.groups g' hg').quantity
    rw [hlines, ← hcount] at hquantity
    exact hquantity
  · obtain ⟨g', hg', rfl⟩ := mem_groups.mp hg
    have hg := hgrouped.groups g' hg'
    have hnd : ((orders.filter (Needs g'.productId)).map (·.orderNo)).Nodup :=
      hno.sublist (List.filter_sublist.map _)
    refine (List.perm_ext_iff_of_nodup hg.orders_nodup hnd).mpr fun n => ?_
    rw [hg.orders_mem, exists_pick_iff hitems, List.mem_map]
    simp only [List.mem_filter, and_assoc]
  · rw [← hunits]
    exact (groups_map_perm _ fun _ => rfl).sum_eq
  · obtain ⟨g', hg', rfl⟩ := mem_groups.mp hg
    have hstock := (hgrouped.groups g' hg').stockOnHand
    rw [show stock g'.productId = none from hs] at hstock
    simp [withShortfall, hstock]
  · obtain ⟨g', hg', rfl⟩ := mem_groups.mp hg
    have hstock := (hgrouped.groups g' hg').stockOnHand
    rw [show stock g'.productId = some s from hs] at hstock
    simp [withShortfall, hstock]
  · exact List.countP_eq_length_filter

/-- Two copies of one book, and one more next to a pack with two of it and two of another. -/
def shelfOrders : List PickOrderInput :=
  [{ orderNo := "CLO-1", contactName := "রাফি", contactPhone := "01711111111", address := "ঢাকা",
     items := [{ kind := .product, productId := some 1, title := "বই A", quantity := 2 }] },
   { orderNo := "CLO-2", contactName := "রাফি", contactPhone := "01711111111", address := "ঢাকা",
     items :=
      [{ kind := .product, productId := some 1, title := "বই A", quantity := 1 },
       { kind := .bundle, bundleId := some 7, title := "প্যাক", quantity := 2,
         components := [{ productId := 1, title := "বই A", quantity := 2 },
           { productId := 2, title := "বই B", quantity := 2 }] }] }]

theorem buildPickList_leaves_shelf : Leaves shelfOrders
    (fun k => if k = 1 then some ⟨4, 5, some "A1"⟩ else none)
    (buildPickList (fun _ _ => 0) shelfOrders
      fun k => if k = 1 then some ⟨4, 5, some "A1"⟩ else none) := by
  refine buildPickList_leaves _ _ _ (by decide) fun o ho it hit => ?_
  have hmem : it ∈ shelfOrders.flatMap (·.items) := List.mem_flatMap.mpr ⟨o, ho, hit⟩
  simp only [shelfOrders, List.flatMap_cons, List.flatMap_nil, List.mem_append,
    List.mem_cons, List.not_mem_nil, or_false] at hmem
  rcases hmem with rfl | rfl | rfl
  · exact ⟨rfl, fun _ => rfl⟩
  · exact ⟨rfl, fun _ => rfl⟩
  · exact ⟨rfl, fun h => by cases h⟩

end PickList

end BookHouse
