/-
The rows and tables of the carts.

A cart has one line for each product and each bundle, so what it holds of something is what
that line says.  Every change of the rows is read off as a change of these quantities; taking
in a guest's cart goes by induction over the guest's lines, each of which meets the
customer's line of the same thing as it was at the start.

Keys and checks, and that a shopper has one cart, are kept by every statement (`Sound`), and
what a statement does to the carts is read off shopper by shopper: it changes one shopper's
cart (`Changed`), moves a guest's into a customer's, or ends the carts of guests whose time is
over.
-/
import BookHouse.Orders.CartDesk

namespace BookHouse

namespace CartItem

/-- `cart_items_one_target` -/
def OneTarget (i : CartItem) : Prop := i.productId.isSome = i.bundleId.isNone

variable {i g m : CartItem} {k : LineKey}

theorem isOf_iff (h : i.OneTarget) : i.isOf k = true ↔ i.key = k := by
  obtain ⟨kind, n⟩ := k
  unfold OneTarget at h
  cases hp : i.productId <;> cases hb : i.bundleId <;> cases kind <;>
    simp_all [isOf, key]

theorem same_iff (hg : g.OneTarget) (hm : m.OneTarget) : g.same m = true ↔ m.key = g.key := by
  unfold OneTarget at hg hm
  cases hgp : g.productId <;> cases hgb : g.bundleId <;> cases hmp : m.productId <;>
    cases hmb : m.bundleId <;> simp_all [same, key]

end CartItem

namespace LineKey

variable {k : LineKey} {id : CartItemId} {q : ℤ}

@[simp] theorem item_key : (k.item id q).key = k := by
  obtain ⟨kind, n⟩ := k
  cases kind <;> rfl

@[simp] theorem item_id : (k.item id q).id = id := by
  obtain ⟨kind, n⟩ := k
  cases kind <;> rfl

@[simp] theorem item_quantity : (k.item id q).quantity = q := by
  obtain ⟨kind, n⟩ := k
  cases kind <;> rfl

theorem item_oneTarget : (k.item id q).OneTarget := by
  obtain ⟨kind, n⟩ := k
  cases kind <;> rfl

end LineKey

namespace CartRow

/-- What the tables say of the lines of a cart. -/
structure Lines (c : CartRow) : Prop where
  keys : (c.items.map (·.key)).Nodup
  ids : (c.items.map (·.id)).Nodup
  target : ∀ i ∈ c.items, i.OneTarget
  range : ∀ i ∈ c.items, 1 ≤ i.quantity ∧ i.quantity ≤ 99

variable {c c' : CartRow} {i j : CartItem} {k : LineKey} {id : CartItemId} {q : ℤ}

theorem eq_of_key (h : c.Lines) (hi : i ∈ c.items) (hj : j ∈ c.items) (he : i.key = j.key) :
    i = j :=
  List.inj_on_of_nodup_map h.keys hi hj he

theorem eq_of_id (h : c.Lines) (hi : i ∈ c.items) (hj : j ∈ c.items) (he : i.id = j.id) :
    i = j :=
  List.inj_on_of_nodup_map h.ids hi hj he

/-! ### Quantities -/

theorem quantity_of_mem (h : c.Lines) (hi : i ∈ c.items) : c.quantity i.key = i.quantity := by
  unfold quantity
  cases hf : c.items.find? (·.key = i.key) with
  | none =>
      have := List.find?_eq_none.mp hf i hi
      simp at this
  | some j =>
      have hj : j ∈ c.items := List.mem_of_find?_eq_some hf
      have hkey : j.key = i.key := by simpa using List.find?_some hf
      rw [eq_of_key h hj hi hkey]
      rfl

theorem quantity_eq_zero (h : ∀ i ∈ c.items, i.key ≠ k) : c.quantity k = 0 := by
  unfold quantity
  rw [List.find?_eq_none.mpr (by simpa using h)]
  rfl

/-- A cart holds nothing of what it has no line of, and has one to ninety-nine of the rest. -/
theorem quantity_cases (h : c.Lines) (k : LineKey) :
    (c.quantity k = 0 ∧ ∀ i ∈ c.items, i.key ≠ k) ∨
      ∃ i ∈ c.items, i.key = k ∧ c.quantity k = i.quantity := by
  by_cases hk : ∃ i ∈ c.items, i.key = k
  · obtain ⟨i, hi, rfl⟩ := hk
    exact .inr ⟨i, hi, rfl, quantity_of_mem h hi⟩
  · have hnone : ∀ i ∈ c.items, i.key ≠ k := by
      intro i hi he
      exact hk ⟨i, hi, he⟩
    exact .inl ⟨quantity_eq_zero hnone, hnone⟩

theorem quantity_range (h : c.Lines) (k : LineKey) : 0 ≤ c.quantity k ∧ c.quantity k ≤ 99 := by
  rcases quantity_cases h k with ⟨h0, -⟩ | ⟨i, hi, -, hq⟩
  · omega
  · have := h.range i hi
    omega

theorem key_ne_of_quantity (h : c.Lines) (hq : c.quantity k = 0) : ∀ i ∈ c.items, i.key ≠ k := by
  intro i hi he
  have hpos := (h.range i hi).1
  have hval := quantity_of_mem h hi
  rw [he, hq] at hval
  omega

@[simp] theorem quantity_of_no_items (h : c.items = []) : c.quantity k = 0 := by
  simp [quantity, h]

theorem quantity_congr (h : c'.items = c.items) : c'.quantity k = c.quantity k := by
  simp [quantity, h]

/-- A cart with the same lines and the same coupon. -/
theorem becomes_of_items (hid : c'.id = c.id) (hcustomer : c'.customerId = c.customerId)
    (hguest : c'.guestToken = c.guestToken) (hitems : c'.items = c.items)
    {coupon : Option String} (hcoupon : c'.couponCode = coupon) :
    c.Becomes c' c.quantity coupon where
  id := hid
  customerId := hcustomer
  guestToken := hguest
  quantity _ := quantity_congr hitems
  coupon := hcoupon
  lines i hi _ := ⟨i, hitems ▸ hi, rfl, rfl⟩

/-! ### One line changes -/

theorem quantity_setItem (h : c.Lines) (hi : i ∈ c.items) (q : ℤ) (k : LineKey) :
    (c.setItem i.id q).quantity k = if k = i.key then q else c.quantity k := by
  have hsame : ∀ j ∈ c.items, (j.id = i.id ↔ j.key = i.key) := by
    intro j hj
    exact ⟨fun he => by rw [eq_of_id h hj hi he], fun he => by rw [eq_of_key h hj hi he]⟩
  unfold quantity setItem
  rw [List.find?_map]
  have hkey : ∀ j : CartItem,
      (if j.id = i.id then { j with quantity := q } else j).key = j.key := by
    intro j
    by_cases hj : j.id = i.id
    · rw [if_pos hj]
      rfl
    · rw [if_neg hj]
  have hcomp : ((fun j : CartItem => decide (j.key = k)) ∘
      fun j => if j.id = i.id then { j with quantity := q } else j) =
      fun j => decide (j.key = k) := by
    funext j
    simp only [Function.comp_apply, hkey]
  rw [hcomp]
  cases hf : c.items.find? (fun j => decide (j.key = k)) with
  | none =>
      have hne : k ≠ i.key := by
        rintro rfl
        have := List.find?_eq_none.mp hf i hi
        simp at this
      simp [hne]
  | some j =>
      have hj : j ∈ c.items := List.mem_of_find?_eq_some hf
      have hjk : j.key = k := by simpa using List.find?_some hf
      by_cases hk : k = i.key
      · have hid : j.id = i.id := (hsame j hj).mpr (hjk.trans hk)
        simp [hid, hk]
      · have hid : j.id ≠ i.id := by
          intro he
          exact hk (hjk ▸ (hsame j hj).mp he)
        simp [hid, hk]

theorem mem_setItem : j ∈ (c.setItem id q).items ↔
    ∃ i ∈ c.items, j = if i.id = id then { i with quantity := q } else i := by
  simp only [setItem, List.mem_map]
  constructor
  · rintro ⟨i, hi, rfl⟩
    exact ⟨i, hi, rfl⟩
  · rintro ⟨i, hi, rfl⟩
    exact ⟨i, hi, rfl⟩

theorem map_setItem {β : Type} (f : CartItem → β)
    (hf : ∀ i : CartItem, f { i with quantity := q } = f i) :
    (c.setItem id q).items.map f = c.items.map f := by
  simp only [setItem, List.map_map]
  apply List.map_congr_left
  intro i _
  by_cases hi : i.id = id
  · simp only [Function.comp_apply, if_pos hi, hf]
  · simp only [Function.comp_apply, if_neg hi]

theorem lines_setItem (h : c.Lines) (hq : 1 ≤ q ∧ q ≤ 99) : (c.setItem id q).Lines where
  keys := by
    rw [map_setItem (·.key) (fun _ => rfl)]
    exact h.keys
  ids := by
    rw [map_setItem (·.id) (fun _ => rfl)]
    exact h.ids
  target := by
    intro j hj
    obtain ⟨i, hi, rfl⟩ := mem_setItem.mp hj
    have := h.target i hi
    by_cases hid : i.id = id
    · rw [if_pos hid]
      exact this
    · rw [if_neg hid]
      exact this
  range := by
    intro j hj
    obtain ⟨i, hi, rfl⟩ := mem_setItem.mp hj
    by_cases hid : i.id = id
    · rw [if_pos hid]
      exact hq
    · rw [if_neg hid]
      exact h.range i hi

/-- A line that is not there is not set. -/
theorem setItem_of_not_mem (h : ∀ i ∈ c.items, i.id ≠ id) : c.setItem id q = c := by
  have hitems : (c.items.map fun i => if i.id = id then { i with quantity := q } else i) =
      c.items := by
    conv_rhs => rw [← List.map_id c.items]
    apply List.map_congr_left
    intro i hi
    simp [h i hi]
  unfold setItem
  rw [hitems]

theorem kept_setItem (id : CartItemId) (q : ℤ) (hi : i ∈ c.items) :
    ∃ j ∈ (c.setItem id q).items, j.id = i.id ∧ j.key = i.key := by
  refine ⟨_, mem_setItem.mpr ⟨i, hi, rfl⟩, ?_⟩
  by_cases hid : i.id = id
  · rw [if_pos hid]
    exact ⟨rfl, rfl⟩
  · rw [if_neg hid]
    exact ⟨rfl, rfl⟩

theorem becomes_setItem (h : c.Lines) (hi : i ∈ c.items) :
    c.Becomes (c.setItem i.id q) (fun k => if k = i.key then q else c.quantity k) c.couponCode where
  id := rfl
  customerId := rfl
  guestToken := rfl
  quantity := quantity_setItem h hi q
  coupon := rfl
  lines _ hj _ := kept_setItem _ _ hj

theorem becomes_dropItem (h : c.Lines) (hi : i ∈ c.items) :
    c.Becomes (c.dropItem i.id) (fun k => if k = i.key then 0 else c.quantity k) c.couponCode where
  id := rfl
  customerId := rfl
  guestToken := rfl
  quantity k := by
    have hmem : ∀ j, j ∈ (c.dropItem i.id).items ↔ j ∈ c.items ∧ j.id ≠ i.id := by
      intro j
      simp [dropItem]
    by_cases hk : k = i.key
    · rw [if_pos hk]
      apply quantity_eq_zero
      intro j hj he
      obtain ⟨hjc, hne⟩ := (hmem j).mp hj
      exact hne (by rw [eq_of_key h hjc hi (he.trans hk)])
    · rw [if_neg hk]
      unfold quantity dropItem
      rw [List.find?_filter, ← List.head?_filter, ← List.head?_filter]
      congr 3
      apply List.filter_congr
      intro j hj
      by_cases hjk : j.key = k
      · have hne : j.id ≠ i.id := by
          intro he
          exact hk (hjk ▸ congrArg CartItem.key (eq_of_id h hj hi he))
        simp [hjk, hne]
      · simp [hjk]
  coupon := rfl
  lines j hj hw := by
    have hne : j.key ≠ i.key := by
      intro he
      exact hw (if_pos he)
    refine ⟨j, ?_, rfl, rfl⟩
    simp only [dropItem, List.mem_filter, decide_eq_true_eq]
    exact ⟨hj, fun he => hne (congrArg CartItem.key (eq_of_id h hj hi he))⟩

theorem lines_dropItem (h : c.Lines) : (c.dropItem id).Lines where
  keys := h.keys.sublist (List.filter_sublist.map _)
  ids := h.ids.sublist (List.filter_sublist.map _)
  target i hi := h.target i (List.mem_of_mem_filter hi)
  range i hi := h.range i (List.mem_of_mem_filter hi)

theorem dropItem_of_not_mem (h : ∀ i ∈ c.items, i.id ≠ id) : c.dropItem id = c := by
  have hitems : c.items.filter (·.id ≠ id) = c.items := by
    apply List.filter_eq_self.mpr
    simpa using h
  unfold dropItem
  rw [hitems]

theorem quantity_addItem (hfresh : ∀ i ∈ c.items, i.key ≠ j.key) (k : LineKey) :
    (c.addItem j).quantity k = if k = j.key then j.quantity else c.quantity k := by
  unfold quantity addItem
  rw [List.find?_append]
  by_cases hk : k = j.key
  · subst hk
    rw [List.find?_eq_none.mpr (by simpa using hfresh)]
    simp
  · have hne : j.key ≠ k := fun he => hk he.symm
    simp [hk, hne]

theorem kept_addItem (hi : i ∈ c.items) : ∃ x ∈ (c.addItem j).items, x.id = i.id ∧ x.key = i.key :=
  ⟨i, List.mem_append_left _ hi, rfl, rfl⟩

theorem mem_addItem : i ∈ (c.addItem j).items ↔ i ∈ c.items ∨ i = j := by
  simp [addItem]

theorem lines_addItem (h : c.Lines) (hkey : ∀ i ∈ c.items, i.key ≠ j.key)
    (hid : ∀ i ∈ c.items, i.id ≠ j.id) (ht : j.OneTarget)
    (hq : 1 ≤ j.quantity ∧ j.quantity ≤ 99) : (c.addItem j).Lines where
  keys := by
    simp only [addItem, List.map_append, List.map_cons, List.map_nil]
    refine List.nodup_append.mpr ⟨h.keys, List.nodup_singleton _, ?_⟩
    intro a ha b hb
    obtain ⟨i, hi, rfl⟩ := List.mem_map.mp ha
    obtain rfl := List.mem_singleton.mp hb
    exact hkey i hi
  ids := by
    simp only [addItem, List.map_append, List.map_cons, List.map_nil]
    refine List.nodup_append.mpr ⟨h.ids, List.nodup_singleton _, ?_⟩
    intro a ha b hb
    obtain ⟨i, hi, rfl⟩ := List.mem_map.mp ha
    obtain rfl := List.mem_singleton.mp hb
    exact hid i hi
  target i hi := by
    rcases mem_addItem.mp hi with hi | rfl
    · exact h.target i hi
    · exact ht
  range i hi := by
    rcases mem_addItem.mp hi with hi | rfl
    · exact h.range i hi
    · exact hq

theorem lines_of_no_items (h : c.items = []) : c.Lines := by
  constructor <;> simp [h]

theorem lines_congr (h : c.Lines) (hitems : c'.items = c.items) : c'.Lines where
  keys := hitems ▸ h.keys
  ids := hitems ▸ h.ids
  target := hitems ▸ h.target
  range := hitems ▸ h.range

/-! ### A guest's lines -/

variable {mine guest a : CartRow} {gs : List CartItem} {n next : CartItemId} {g : CartItem}

/-- What taking in the guest's lines `gs` has made of `mine`, up to line `n`. -/
structure Taken (mine : CartRow) (next : CartItemId) (gs : List CartItem) (a : CartRow)
    (n : CartItemId) : Prop where
  id : a.id = mine.id
  customerId : a.customerId = mine.customerId
  guestToken : a.guestToken = mine.guestToken
  coupon : a.couponCode = mine.couponCode
  lines : a.Lines
  numbered : next ≤ n
  itemIds : ∀ i ∈ a.items, (∃ j ∈ mine.items, j.id = i.id) ∨ next ≤ i.id ∧ i.id < n
  kept : ∀ i ∈ mine.items, ∃ j ∈ a.items, j.id = i.id ∧ j.key = i.key
  taken : ∀ g ∈ gs, a.quantity g.key = min 99 (mine.quantity g.key + g.quantity)
  others : ∀ k, (∀ g ∈ gs, g.key ≠ k) → a.quantity k = mine.quantity k

theorem taken_nil (h : mine.Lines) : Taken mine next [] mine next where
  id := rfl
  customerId := rfl
  guestToken := rfl
  coupon := rfl
  lines := h
  numbered := le_refl _
  itemIds i hi := .inl ⟨i, hi, rfl⟩
  kept i hi := ⟨i, hi, rfl, rfl⟩
  taken g hg := by cases hg
  others _ _ := rfl

/-- One more line of the guest's. -/
theorem Taken.step (h : Taken mine next gs a n) (hmine : mine.Lines)
    (hbelow : ∀ i ∈ mine.items, i.id < next) (hg : g.OneTarget)
    (hq : 1 ≤ g.quantity ∧ g.quantity ≤ 99) (hnew : ∀ x ∈ gs, x.key ≠ g.key) :
    Taken mine next (gs ++ [g]) (takeItem mine (a, n) g).1 (takeItem mine (a, n) g).2 := by
  have hold : a.quantity g.key = mine.quantity g.key := h.others g.key hnew
  unfold takeItem
  cases hf : mine.items.find? g.same with
  | some m =>
      have hm : m ∈ mine.items := List.mem_of_find?_eq_some hf
      have hkey : m.key = g.key :=
        (CartItem.same_iff hg (hmine.target m hm)).mp (List.find?_some hf)
      have hmq : mine.quantity g.key = m.quantity := hkey ▸ quantity_of_mem hmine hm
      obtain ⟨j, hj, hjid, hjkey⟩ := h.kept m hm
      have hrange := hmine.range m hm
      have hset : ∀ k, (a.setItem m.id (min 99 (m.quantity + g.quantity))).quantity k =
          if k = g.key then min 99 (m.quantity + g.quantity) else a.quantity k := by
        intro k
        rw [← hjid, quantity_setItem h.lines hj, hjkey, hkey]
      exact
        { id := h.id
          customerId := h.customerId
          guestToken := h.guestToken
          coupon := h.coupon
          lines := lines_setItem h.lines (by omega)
          numbered := h.numbered
          itemIds := by
            intro i hi
            obtain ⟨x, hx, rfl⟩ := mem_setItem.mp hi
            have := h.itemIds x hx
            by_cases hid : x.id = m.id
            · rw [if_pos hid]
              exact this
            · rw [if_neg hid]
              exact this
          kept := by
            intro i hi
            obtain ⟨x, hx, hxid, hxkey⟩ := h.kept i hi
            obtain ⟨y, hy, hyid, hykey⟩ :=
              kept_setItem m.id (min 99 (m.quantity + g.quantity)) hx
            exact ⟨y, hy, hyid.trans hxid, hykey.trans hxkey⟩
          taken := by
            intro x hx
            rw [hset]
            rcases List.mem_append.mp hx with hx | hx
            · rw [if_neg (hnew x hx)]
              exact h.taken x hx
            · obtain rfl := List.mem_singleton.mp hx
              rw [if_pos rfl, hmq]
          others := by
            intro k hk
            have hne : k ≠ g.key := fun he => hk g (by simp) he.symm
            rw [hset, if_neg hne]
            exact h.others k fun x hx => hk x (List.mem_append_left _ hx) }
  | none =>
      have hnone : ∀ i ∈ mine.items, i.key ≠ g.key := by
        intro i hi he
        have := List.find?_eq_none.mp hf i hi
        exact this ((CartItem.same_iff hg (hmine.target i hi)).mpr he)
      have hzero : mine.quantity g.key = 0 := quantity_eq_zero hnone
      have hfresh : ∀ i ∈ a.items, i.key ≠ g.key := key_ne_of_quantity h.lines (hold.trans hzero)
      have hadd : ∀ k, (a.addItem { g with id := n }).quantity k =
          if k = g.key then g.quantity else a.quantity k := quantity_addItem hfresh
      exact
        { id := h.id
          customerId := h.customerId
          guestToken := h.guestToken
          coupon := h.coupon
          lines := by
            refine lines_addItem h.lines hfresh ?_ hg hq
            intro i hi he
            have hin : i.id = n := he
            rcases h.itemIds i hi with ⟨j, hj, hjid⟩ | ⟨-, hlt⟩
            · have hlt : n < next := by
                rw [← hin, ← hjid]
                exact hbelow j hj
              exact absurd h.numbered (not_le.mpr hlt)
            · rw [hin] at hlt
              exact absurd hlt (lt_irrefl n)
          numbered := Nat.le_succ_of_le h.numbered
          itemIds := by
            intro i hi
            have hnum := h.numbered
            rcases mem_addItem.mp hi with hi | rfl
            · rcases h.itemIds i hi with hmem | ⟨h₁, h₂⟩
              · exact .inl hmem
              · exact .inr ⟨h₁, Nat.lt_succ_of_lt h₂⟩
            · exact .inr ⟨hnum, Nat.lt_succ_self n⟩
          kept := by
            intro i hi
            obtain ⟨x, hx, hxid, hxkey⟩ := h.kept i hi
            exact ⟨x, List.mem_append_left _ hx, hxid, hxkey⟩
          taken := by
            intro x hx
            rw [hadd]
            rcases List.mem_append.mp hx with hx | hx
            · rw [if_neg (hnew x hx)]
              exact h.taken x hx
            · obtain rfl := List.mem_singleton.mp hx
              rw [if_pos rfl, hzero]
              omega
          others := by
            intro k hk
            have hne : k ≠ g.key := fun he => hk g (by simp) he.symm
            rw [hadd, if_neg hne]
            exact h.others k fun x hx => hk x (List.mem_append_left _ hx) }

/-- Line after line of the guest's. -/
theorem taken_foldl (hmine : mine.Lines) (hbelow : ∀ i ∈ mine.items, i.id < next) :
    ∀ (rest gs : List CartItem) (acc : CartRow × CartItemId), Taken mine next gs acc.1 acc.2 →
      (∀ g ∈ rest, g.OneTarget ∧ 1 ≤ g.quantity ∧ g.quantity ≤ 99) →
      ((gs ++ rest).map (·.key)).Nodup →
      Taken mine next (gs ++ rest) (rest.foldl (takeItem mine) acc).1
        (rest.foldl (takeItem mine) acc).2 := by
  intro rest
  induction rest with
  | nil =>
      intro gs acc h _ _
      simpa using h
  | cons g rest ih =>
      intro gs acc h hrest hnodup
      have hnew : ∀ x ∈ gs, x.key ≠ g.key := by
        intro x hx
        rw [List.map_append, List.nodup_append] at hnodup
        exact hnodup.2.2 x.key (List.mem_map_of_mem hx) g.key (by simp)
      have hg := hrest g (by simp)
      have hstep := h.step hmine hbelow hg.1 hg.2 hnew
      have := ih (gs ++ [g]) _ hstep (fun x hx => hrest x (by simp [hx]))
        (by rwa [List.append_assoc])
      simpa using this

/-- Taking in a guest's cart adds up what the two hold, max 99. -/
theorem take_spec (hmine : mine.Lines) (hguest : guest.Lines)
    (hbelow : ∀ i ∈ mine.items, i.id < next) :
    mine.Becomes (mine.take guest next).1
        (fun k => min 99 (mine.quantity k + guest.quantity k)) (mine.joinedCoupon guest) ∧
      (mine.take guest next).1.Lines ∧ next ≤ (mine.take guest next).2 ∧
      ∀ i ∈ (mine.take guest next).1.items,
        (∃ j ∈ mine.items, j.id = i.id) ∨ next ≤ i.id ∧ i.id < (mine.take guest next).2 := by
  have h : Taken mine next guest.items (guest.items.foldl (takeItem mine) (mine, next)).1
      (guest.items.foldl (takeItem mine) (mine, next)).2 := by
    have := taken_foldl hmine hbelow guest.items [] (mine, next) (taken_nil hmine)
      (fun g hg => ⟨hguest.target g hg, hguest.range g hg⟩) hguest.keys
    simpa using this
  have hquantity : ∀ k, (guest.items.foldl (takeItem mine) (mine, next)).1.quantity k =
      min 99 (mine.quantity k + guest.quantity k) := by
    intro k
    have hrange := quantity_range hmine k
    rcases quantity_cases hguest k with ⟨hzero, hnone⟩ | ⟨g, hg, rfl, hgq⟩
    · rw [h.others k hnone, hzero]
      omega
    · rw [h.taken g hg, hgq]
  have hitems : (mine.take guest next).1.items =
      (guest.items.foldl (takeItem mine) (mine, next)).1.items := by
    unfold take
    simp only
    by_cases hc : (mine.couponCode.all (· = "") && guest.couponCode.any (· ≠ "")) = true
    · rw [if_pos hc]
    · rw [if_neg hc]
  have hbecomes : mine.Becomes (mine.take guest next).1
      (fun k => min 99 (mine.quantity k + guest.quantity k)) (mine.joinedCoupon guest) := by
    have hlines : ∀ i ∈ mine.items, ∃ j ∈ (mine.take guest next).1.items,
        j.id = i.id ∧ j.key = i.key := by
      intro i hi
      rw [hitems]
      exact h.kept i hi
    refine ⟨?_, ?_, ?_, fun k => (quantity_congr hitems).trans (hquantity k), ?_,
      fun i hi _ => hlines i hi⟩
    all_goals
      unfold take
      by_cases hc : (mine.couponCode.all (· = "") && guest.couponCode.any (· ≠ "")) = true
    · simp only [if_pos hc, h.id]
    · simp only [if_neg hc, h.id]
    · simp only [if_pos hc, h.customerId]
    · simp only [if_neg hc, h.customerId]
    · simp only [if_pos hc, h.guestToken]
    · simp only [if_neg hc, h.guestToken]
    · simp only [if_pos hc, joinedCoupon]
    · simp only [if_neg hc, h.coupon, joinedCoupon]
  refine ⟨hbecomes, lines_congr h.lines hitems, h.numbered, ?_⟩
  intro i hi
  rw [hitems] at hi
  exact h.itemIds i hi

end CartRow

namespace CartOwner

variable {o o' : CartOwner} {c c' : CartRow}

theorem owns_congr (hc : c'.customerId = c.customerId) (hg : c'.guestToken = c.guestToken) :
    o.owns c' = o.owns c := by
  cases o <;> simp [owns, hc, hg]

/-- A cart is one shopper's. -/
theorem eq_of_owns (h : o.owns c = true) (h' : o'.owns c = true) : o = o' := by
  cases o with
  | customer id =>
      cases o' with
      | customer id' => simp_all [owns]
      | guest token => simp_all [owns]
  | guest token =>
      cases o' with
      | customer id => simp_all [owns]
      | guest token' =>
          have htext : token.text = token'.text := by simp_all [owns]
          obtain ⟨text, _, _⟩ := token
          obtain ⟨text', _, _⟩ := token'
          simp only at htext
          subst htext
          rfl

end CartOwner

namespace CartDesk

/-- What the keys and the checks of the tables say, and that a shopper has one cart. -/
structure Sound (s : CartDesk) : Prop where
  ids : ∀ c ∈ s.carts, ∀ c' ∈ s.carts, c.id = c'.id → c = c'
  next : ∀ c ∈ s.carts, c.id < s.nextCart
  /-- `carts_owner`; no cart is a customer's and a guest's -/
  owner : ∀ c ∈ s.carts, c.customerId.isSome = c.guestToken.isNone
  one : ∀ o : CartOwner, ∀ c ∈ s.carts, ∀ c' ∈ s.carts, o.owns c = true → o.owns c' = true → c = c'
  itemIds : ∀ c ∈ s.carts, ∀ c' ∈ s.carts, ∀ i ∈ c.items, ∀ i' ∈ c'.items, i.id = i'.id → c = c'
  nextItem : ∀ c ∈ s.carts, ∀ i ∈ c.items, i.id < s.nextItem
  lines : ∀ c ∈ s.carts, c.Lines

variable {s t : CartDesk} {o : CartOwner} {c : CartRow} {f : CartRow → CartRow}

/-! ### The cart of a shopper -/

theorem cart_mem (h : s.cart o = some c) : c ∈ s.carts := List.mem_of_find?_eq_some h

theorem cart_owns (h : s.cart o = some c) : o.owns c = true := List.find?_some h

theorem cart_eq_some (hs : s.Sound) : s.cart o = some c ↔ c ∈ s.carts ∧ o.owns c = true := by
  constructor
  · intro h
    exact ⟨cart_mem h, cart_owns h⟩
  · rintro ⟨hc, ho⟩
    cases hf : s.cart o with
    | none =>
        have := List.find?_eq_none.mp hf c hc
        exact absurd ho this
    | some c' => rw [hs.one o c' (cart_mem hf) c hc (cart_owns hf) ho]

theorem cart_eq_none : s.cart o = none ↔ ∀ c ∈ s.carts, o.owns c = false := by
  unfold cart
  rw [List.find?_eq_none]
  simp

theorem cart_congr (h : t.carts = s.carts) : t.cart o = s.cart o := by
  unfold cart
  rw [h]

/-- What is found of a shopper's cart, whichever is looked for first. -/
theorem findFirst_eq (hs : s.Sound) (p : CartRow → Bool) (hp : ∀ c, p c = true → o.owns c = true) :
    s.findFirst p = (s.cart o).filter p := by
  have hmem : ∀ l : List CartRow, ∀ c,
      c ∈ l.insertionSort (fun a b => b.updatedAt ≤ a.updatedAt) ↔ c ∈ l := by
    intro l c
    exact (List.perm_insertionSort _ l).mem_iff
  cases hf : s.findFirst p with
  | none =>
      have hempty : s.carts.filter p = [] := by
        have hsort : (s.carts.filter p).insertionSort (fun a b => b.updatedAt ≤ a.updatedAt) = [] :=
          List.head?_eq_none_iff.mp hf
        have hlength := congrArg List.length hsort
        rw [List.length_insertionSort] at hlength
        exact List.length_eq_zero_iff.mp hlength
      cases hc : s.cart o with
      | none => rfl
      | some c =>
          have hnot : p c = false := by
            have := List.filter_eq_nil_iff.mp hempty c (cart_mem hc)
            simpa using this
          simp [Option.filter, hnot]
  | some c =>
      have hin : c ∈ s.carts.filter p := (hmem _ c).mp (List.mem_of_head? hf)
      obtain ⟨hc, hpc⟩ := List.mem_filter.mp hin
      rw [(cart_eq_some hs).mpr ⟨hc, hp c hpc⟩]
      simp [Option.filter, hpc]

/-! ### Changes of the tables -/

/-- An edit keeps which cart it is, and whose. -/
structure Keeps (c c' : CartRow) : Prop where
  id : c'.id = c.id
  customerId : c'.customerId = c.customerId
  guestToken : c'.guestToken = c.guestToken

theorem Keeps.owns (h : Keeps c (f c)) : o.owns (f c) = o.owns c :=
  CartOwner.owns_congr h.customerId h.guestToken

/-- What is looked for by a condition that says the same of every row. -/
theorem find_congr {p q : CartRow → Bool} {l : List CartRow} (h : ∀ c ∈ l, p c = q c) :
    l.find? p = l.find? q := by
  rw [← List.head?_filter, ← List.head?_filter, List.filter_congr h]

theorem cart_edit (hf : ∀ c ∈ s.carts, Keeps c (f c)) (o : CartOwner) :
    (s.edit f).cart o = (s.cart o).map f := by
  unfold cart edit
  rw [List.find?_map, find_congr]
  intro c hc
  exact (hf c hc).owns

theorem cart_push (o : CartOwner) (c : CartRow) :
    (s.push c).cart o = (s.cart o).or (if o.owns c then some c else none) := by
  unfold cart push
  simp only [List.find?_append, List.find?_singleton]

theorem cart_filter (hs : s.Sound) (p : CartRow → Bool) (ht : t.carts = s.carts.filter p)
    (o : CartOwner) : t.cart o = (s.cart o).filter p := by
  unfold cart
  rw [ht]
  cases hc : s.carts.find? o.owns with
  | none =>
      have hnone := List.find?_eq_none.mp hc
      apply List.find?_eq_none.mpr
      intro c hm
      exact hnone c (List.mem_of_mem_filter hm)
  | some c =>
      have hmem := List.mem_of_find?_eq_some hc
      have howns := List.find?_some hc
      by_cases hp : p c = true
      · have hin : c ∈ s.carts.filter p := List.mem_filter.mpr ⟨hmem, hp⟩
        cases hf : (s.carts.filter p).find? o.owns with
        | none => exact absurd howns (List.find?_eq_none.mp hf c hin)
        | some c' =>
            have hmem' := List.mem_of_mem_filter (List.mem_of_find?_eq_some hf)
            rw [hs.one o c' hmem' c hmem (List.find?_some hf) howns]
            simp [Option.filter, hp]
      · simp only [Option.filter, hp]
        apply List.find?_eq_none.mpr
        intro c' hc' howns'
        obtain ⟨hmem', hp'⟩ := List.mem_filter.mp hc'
        rw [hs.one o c' hmem' c hmem howns' howns] at hp'
        exact hp hp'

/-- An edit whose new lines are of one cart. -/
structure Edits (s : CartDesk) (f : CartRow → CartRow) (cartId : CartId) (n : CartItemId) :
    Prop where
  keeps : ∀ c ∈ s.carts, Keeps c (f c)
  lines : ∀ c ∈ s.carts, (f c).Lines
  numbered : s.nextItem ≤ n
  itemIds : ∀ c ∈ s.carts, ∀ i ∈ (f c).items,
    (∃ j ∈ c.items, j.id = i.id) ∨ c.id = cartId ∧ s.nextItem ≤ i.id ∧ i.id < n

theorem Edits.sound {cartId : CartId} {n : CartItemId} (h : s.Edits f cartId n) (hs : s.Sound)
    (hcarts : t.carts = s.carts.map f) (hnext : t.nextCart = s.nextCart) (hn : t.nextItem = n) :
    t.Sound := by
  have hmem : ∀ c ∈ t.carts, ∃ c₀ ∈ s.carts, f c₀ = c := by
    intro c hc
    rw [hcarts] at hc
    exact List.mem_map.mp hc
  refine ⟨?_, ?_, ?_, ?_, ?_, ?_, ?_⟩
  · intro c hc c' hc' he
    obtain ⟨c₀, h₀, rfl⟩ := hmem c hc
    obtain ⟨c₁, h₁, rfl⟩ := hmem c' hc'
    rw [(h.keeps c₀ h₀).id, (h.keeps c₁ h₁).id] at he
    rw [hs.ids c₀ h₀ c₁ h₁ he]
  · intro c hc
    obtain ⟨c₀, h₀, rfl⟩ := hmem c hc
    rw [(h.keeps c₀ h₀).id, hnext]
    exact hs.next c₀ h₀
  · intro c hc
    obtain ⟨c₀, h₀, rfl⟩ := hmem c hc
    rw [(h.keeps c₀ h₀).customerId, (h.keeps c₀ h₀).guestToken]
    exact hs.owner c₀ h₀
  · intro o c hc c' hc' ho ho'
    obtain ⟨c₀, h₀, rfl⟩ := hmem c hc
    obtain ⟨c₁, h₁, rfl⟩ := hmem c' hc'
    rw [(h.keeps c₀ h₀).owns] at ho
    rw [(h.keeps c₁ h₁).owns] at ho'
    rw [hs.one o c₀ h₀ c₁ h₁ ho ho']
  · intro c hc c' hc' i hi i' hi' he
    obtain ⟨c₀, h₀, rfl⟩ := hmem c hc
    obtain ⟨c₁, h₁, rfl⟩ := hmem c' hc'
    have hsame : c₀ = c₁ := by
      rcases h.itemIds c₀ h₀ i hi with ⟨j, hj, hji⟩ | ⟨hid, hlow, -⟩
      · rcases h.itemIds c₁ h₁ i' hi' with ⟨j', hj', hji'⟩ | ⟨-, hlow, -⟩
        · exact hs.itemIds c₀ h₀ c₁ h₁ j hj j' hj' (hji.trans (he.trans hji'.symm))
        · have hlt := hs.nextItem c₀ h₀ j hj
          rw [hji, he] at hlt
          exact absurd hlow (not_le.mpr hlt)
      · rcases h.itemIds c₁ h₁ i' hi' with ⟨j', hj', hji'⟩ | ⟨hid', -, -⟩
        · have hlt := hs.nextItem c₁ h₁ j' hj'
          rw [hji', ← he] at hlt
          exact absurd hlow (not_le.mpr hlt)
        · exact hs.ids c₀ h₀ c₁ h₁ (hid.trans hid'.symm)
    rw [hsame]
  · intro c hc i hi
    obtain ⟨c₀, h₀, rfl⟩ := hmem c hc
    rw [hn]
    rcases h.itemIds c₀ h₀ i hi with ⟨j, hj, hji⟩ | ⟨-, -, hlt⟩
    · rw [← hji]
      exact lt_of_lt_of_le (hs.nextItem c₀ h₀ j hj) h.numbered
    · exact hlt
  · intro c hc
    obtain ⟨c₀, h₀, rfl⟩ := hmem c hc
    exact h.lines c₀ h₀

theorem sound_push (hs : s.Sound) (hid : c.id = s.nextCart) (hitems : c.items = [])
    (howner : c.customerId.isSome = c.guestToken.isNone)
    (hnew : ∀ o : CartOwner, o.owns c = true → s.cart o = none) : (s.push c).Sound := by
  have hmem : ∀ x ∈ (s.push c).carts, x ∈ s.carts ∨ x = c := by
    intro x hx
    simpa [push] using hx
  have hnone : ∀ x ∈ s.carts, x.id ≠ c.id := by
    intro x hx he
    have hlt := hs.next x hx
    rw [he, hid] at hlt
    exact absurd hlt (lt_irrefl _)
  have hother : ∀ o : CartOwner, ∀ x ∈ s.carts, o.owns x = true → o.owns c ≠ true := by
    intro o x hx ho hc
    rw [cart_eq_none.mp (hnew o hc) x hx] at ho
    cases ho
  refine ⟨?_, ?_, ?_, ?_, ?_, ?_, ?_⟩
  · intro x hx y hy he
    rcases hmem x hx with h₁ | h₁ <;> rcases hmem y hy with h₂ | h₂
    · exact hs.ids x h₁ y h₂ he
    · exact absurd (h₂ ▸ he) (hnone x h₁)
    · exact absurd (h₁ ▸ he.symm) (hnone y h₂)
    · rw [h₁, h₂]
  · intro x hx
    rcases hmem x hx with hx | rfl
    · exact Nat.lt_succ_of_lt (hs.next x hx)
    · rw [hid]
      exact Nat.lt_succ_self _
  · intro x hx
    rcases hmem x hx with hx | rfl
    · exact hs.owner x hx
    · exact howner
  · intro o x hx y hy ho ho'
    rcases hmem x hx with h₁ | h₁ <;> rcases hmem y hy with h₂ | h₂
    · exact hs.one o x h₁ y h₂ ho ho'
    · exact absurd (h₂ ▸ ho') (hother o x h₁ ho)
    · exact absurd (h₁ ▸ ho) (hother o y h₂ ho')
    · rw [h₁, h₂]
  · intro x hx y hy i hi j hj he
    rcases hmem x hx with hx | rfl
    · rcases hmem y hy with hy | rfl
      · exact hs.itemIds x hx y hy i hi j hj he
      · simp [hitems] at hj
    · simp [hitems] at hi
  · intro x hx i hi
    rcases hmem x hx with hx | rfl
    · exact hs.nextItem x hx i hi
    · simp [hitems] at hi
  · intro x hx
    rcases hmem x hx with hx | rfl
    · exact hs.lines x hx
    · exact CartRow.lines_of_no_items hitems

/-- Carts may go. -/
theorem sound_sub (hs : s.Sound) (hcarts : ∀ c ∈ t.carts, c ∈ s.carts)
    (hnext : t.nextCart = s.nextCart) (hn : t.nextItem = s.nextItem) : t.Sound where
  ids c hc c' hc' := hs.ids c (hcarts c hc) c' (hcarts c' hc')
  next c hc := hnext ▸ hs.next c (hcarts c hc)
  owner c hc := hs.owner c (hcarts c hc)
  one o c hc c' hc' := hs.one o c (hcarts c hc) c' (hcarts c' hc')
  itemIds c hc c' hc' := hs.itemIds c (hcarts c hc) c' (hcarts c' hc')
  nextItem c hc i hi := hn ▸ hs.nextItem c (hcarts c hc) i hi
  lines c hc := hs.lines c (hcarts c hc)

/-! ### What a statement does to the carts -/

/-- One shopper's cart has become another, and nothing else has changed. -/
structure Changed (s t : CartDesk) (o : CartOwner) (c : CartRow) : Prop where
  sound : t.Sound
  cart : t.cart = Baskets.put s.cart o c
  now : t.now = s.now
  underway : t.underway = s.underway
  history : t.history = s.history

theorem put_self {B : Baskets} (h : B o = some c) : B.put o c = B := by
  unfold Baskets.put
  rw [← h, Function.update_eq_self]

/-- An edit of one cart. -/
theorem changed_edit (hs : s.Sound) (hc : s.cart o = some c) (hf : ∀ c ∈ s.carts, Keeps c (f c))
    (hlines : (f c).Lines) {n : CartItemId} (hn : s.nextItem ≤ n)
    (hitems : ∀ i ∈ (f c).items, (∃ j ∈ c.items, j.id = i.id) ∨ s.nextItem ≤ i.id ∧ i.id < n)
    (hothers : ∀ x ∈ s.carts, x ≠ c → f x = x) :
    Changed s { s.edit f with nextItem := n } o (f c) where
  sound := by
    suffices hedits : s.Edits f c.id n from hedits.sound hs rfl rfl rfl
    refine ⟨hf, ?_, hn, ?_⟩
    · intro x hx
      by_cases he : x = c
      · rw [he]
        exact hlines
      · rw [hothers x hx he]
        exact hs.lines x hx
    · intro x hx i hi
      by_cases he : x = c
      · subst he
        rcases hitems i hi with h | h
        · exact .inl h
        · exact .inr ⟨rfl, h⟩
      · rw [hothers x hx he] at hi
        exact .inl ⟨i, hi, rfl⟩
  cart := by
    have hedit := cart_edit (s := s) hf
    funext o'
    have hcart : ({ s.edit f with nextItem := n } : CartDesk).cart o' = (s.edit f).cart o' :=
      cart_congr rfl
    rw [hcart, hedit o']
    by_cases ho : o' = o
    · subst ho
      rw [hc, Baskets.put, Function.update_self]
      rfl
    · rw [Baskets.put, Function.update_of_ne ho]
      cases hx : s.cart o' with
      | none => rfl
      | some x =>
          have hne : x ≠ c := by
            rintro rfl
            exact ho (CartOwner.eq_of_owns (cart_owns hx) (cart_owns hc))
          rw [Option.map_some, hothers x (cart_mem hx) hne]
  now := rfl
  underway := rfl
  history := rfl

/-- An update of one cart by its id. -/
theorem changed_only (hs : s.Sound) (hc : s.cart o = some c) (hf : Keeps c (f c))
    (hlines : (f c).Lines) {n : CartItemId} (hn : s.nextItem ≤ n)
    (hitems : ∀ i ∈ (f c).items, (∃ j ∈ c.items, j.id = i.id) ∨ s.nextItem ≤ i.id ∧ i.id < n) :
    Changed s { s.edit (CartRow.only c.id f) with nextItem := n } o (f c) := by
  have hself : CartRow.only c.id f c = f c := if_pos rfl
  have hother : ∀ x ∈ s.carts, x ≠ c → CartRow.only c.id f x = x := by
    intro x hx hne
    apply if_neg
    intro he
    exact hne (hs.ids x hx c (cart_mem hc) he)
  have hkeeps : ∀ x ∈ s.carts, Keeps x (CartRow.only c.id f x) := by
    intro x hx
    by_cases he : x = c
    · rw [he, hself]
      exact hf
    · rw [hother x hx he]
      exact ⟨rfl, rfl, rfl⟩
  have h := changed_edit (f := CartRow.only c.id f) hs hc hkeeps (by rwa [hself]) hn
    (by rwa [hself]) hother
  rwa [hself] at h

theorem find_id (hs : s.Sound) (hc : s.cart o = some c) : s.carts.find? (·.id = c.id) = some c := by
  cases hf : s.carts.find? (·.id = c.id) with
  | none =>
      have := List.find?_eq_none.mp hf c (cart_mem hc)
      simp at this
  | some x =>
      have hid : x.id = c.id := by simpa using List.find?_some hf
      rw [hs.ids x (List.mem_of_find?_eq_some hf) c (cart_mem hc) hid]

theorem any_id (hc : s.cart o = some c) : s.carts.any (·.id = c.id) = true := by
  simp only [List.any_eq_true, decide_eq_true_eq]
  exact ⟨c, cart_mem hc, rfl⟩

/-- The lines of a cart are in no other. -/
theorem not_mem_of_ne (hs : s.Sound) (hc : s.cart o = some c) {i : CartItem} (hi : i ∈ c.items)
    {x : CartRow} (hx : x ∈ s.carts) (hne : x ≠ c) : ∀ j ∈ x.items, j.id ≠ i.id := by
  intro j hj he
  exact hne (hs.itemIds x hx c (cart_mem hc) j hj i hi he)

theorem hasItem_of_mem (hc : s.cart o = some c) {i : CartItem} (hi : i ∈ c.items) :
    s.hasItem i.id = true := by
  simp only [hasItem, List.any_eq_true, decide_eq_true_eq]
  exact ⟨c, cart_mem hc, i, hi, rfl⟩

theorem updateItem_spec (hs : s.Sound) (hc : s.cart o = some c) {i : CartItem} (hi : i ∈ c.items)
    {q : ℤ} (hq : 1 ≤ q ∧ q ≤ 99) : (s.updateItem i.id q).1 = .ok () ∧
      Changed s (s.updateItem i.id q).2 o (c.setItem i.id q) := by
  have hrange : inRange q = true := by
    simp only [inRange, Bool.and_eq_true, decide_eq_true_eq]
    omega
  have hval : s.updateItem i.id q = (.ok (), s.edit (·.setItem i.id q)) := by
    simp [updateItem, hasItem_of_mem hc hi, hrange]
  rw [hval]
  refine ⟨rfl, ?_⟩
  exact changed_edit (f := (·.setItem i.id q)) hs hc (fun _ _ => ⟨rfl, rfl, rfl⟩)
    (CartRow.lines_setItem (hs.lines c (cart_mem hc)) hq) (le_refl _)
    (fun j hj => by
      obtain ⟨x, hx, rfl⟩ := CartRow.mem_setItem.mp hj
      refine .inl ⟨x, hx, ?_⟩
      by_cases hid : x.id = i.id
      · rw [if_pos hid]
      · rw [if_neg hid])
    fun x hx hne => CartRow.setItem_of_not_mem (not_mem_of_ne hs hc hi hx hne)

theorem deleteItem_spec (hs : s.Sound) (hc : s.cart o = some c) {i : CartItem}
    (hi : i ∈ c.items) : (s.deleteItem i.id).1 = .ok () ∧
      Changed s (s.deleteItem i.id).2 o (c.dropItem i.id) := by
  have hval : s.deleteItem i.id = (.ok (), s.edit (·.dropItem i.id)) := by
    simp [deleteItem, hasItem_of_mem hc hi]
  rw [hval]
  refine ⟨rfl, ?_⟩
  exact changed_edit (f := (·.dropItem i.id)) hs hc (fun _ _ => ⟨rfl, rfl, rfl⟩)
    (CartRow.lines_dropItem (hs.lines c (cart_mem hc))) (le_refl _)
    (fun j hj => .inl ⟨j, List.mem_of_mem_filter hj, rfl⟩)
    fun x hx hne => CartRow.dropItem_of_not_mem (not_mem_of_ne hs hc hi hx hne)

/-- A new line; the cart must have none of the same. -/
theorem createItem_spec (hs : s.Sound) (hc : s.cart o = some c) {key : LineKey} {q : ℤ}
    (hq : 1 ≤ q ∧ q ≤ 99) (hkey : ∀ i ∈ c.items, i.key ≠ key) :
    (s.createItem c.id key q).1 = .ok () ∧
      Changed s (s.createItem c.id key q).2 o (c.addItem (key.item s.nextItem q)) := by
  have hrange : inRange q = true := by
    simp only [inRange, Bool.and_eq_true, decide_eq_true_eq]
    omega
  have hlines := hs.lines c (cart_mem hc)
  have hnone : c.items.any (·.isOf key) = false := by
    rw [List.any_eq_false]
    intro i hi hof
    exact hkey i hi ((CartItem.isOf_iff (hlines.target i hi)).mp hof)
  have hval : s.createItem c.id key q = (.ok (),
      { s.edit (CartRow.only c.id (·.addItem (key.item s.nextItem q))) with
        nextItem := s.nextItem + 1 }) := by
    simp [createItem, find_id hs hc, hrange, hnone]
  rw [hval]
  refine ⟨rfl, ?_⟩
  refine changed_only (f := (·.addItem (key.item s.nextItem q))) hs hc
    ⟨rfl, rfl, rfl⟩ ?_ (Nat.le_succ _) ?_
  · refine CartRow.lines_addItem hlines (by simpa using hkey) ?_ LineKey.item_oneTarget
      (by simpa using hq)
    intro i hi he
    have hlt := hs.nextItem c (cart_mem hc) i hi
    rw [he, LineKey.item_id] at hlt
    exact absurd hlt (lt_irrefl _)
  · intro i hi
    rcases CartRow.mem_addItem.mp hi with hi | rfl
    · exact .inl ⟨i, hi, rfl⟩
    · rw [LineKey.item_id]
      exact .inr ⟨le_refl _, Nat.lt_succ_self _⟩

/-- An update of a cart that leaves its lines or drops them all. -/
theorem update_spec (hs : s.Sound) (hc : s.cart o = some c) (hf : Keeps c (f c))
    (hitems : (f c).items = c.items ∨ (f c).items = []) :
    (s.update c.id f).1 = .ok () ∧ Changed s (s.update c.id f).2 o (s.stamp f c) := by
  have hval : s.update c.id f = (.ok (), s.edit (CartRow.only c.id (s.stamp f))) := by
    simp [update, any_id hc]
  rw [hval]
  refine ⟨rfl, ?_⟩
  refine changed_only (f := s.stamp f) hs hc ⟨hf.id, hf.customerId, hf.guestToken⟩ ?_
    (le_refl _) ?_
  · rcases hitems with h | h
    · exact CartRow.lines_congr (hs.lines c (cart_mem hc)) h
    · exact CartRow.lines_of_no_items h
  · intro i hi
    rcases hitems with h | h
    · exact .inl ⟨i, h ▸ hi, rfl⟩
    · have : i ∈ (f c).items := hi
      simp [h] at this

theorem touch_spec (hs : s.Sound) (hc : s.cart o = some c) (guest : Bool) :
    (s.touch c.id guest).1 = .ok (c.touch s.now guest) ∧
      Changed s (s.touch c.id guest).2 o (c.touch s.now guest) := by
  have hval : s.touch c.id guest = (.ok (c.touch s.now guest),
      s.edit (CartRow.only c.id (·.touch s.now guest))) := by
    simp [touch, find_id hs hc]
  rw [hval]
  refine ⟨rfl, changed_only (f := (·.touch s.now guest)) hs hc ⟨rfl, rfl, rfl⟩
    (CartRow.lines_congr (hs.lines c (cart_mem hc)) rfl) (le_refl _)
    fun i hi => .inl ⟨i, hi, rfl⟩⟩

/-- A shopper without a cart gets one. -/
theorem changed_push (hs : s.Sound) (hid : c.id = s.nextCart) (hitems : c.items = [])
    (howner : c.customerId.isSome = c.guestToken.isNone) (ho : o.owns c = true)
    (hnone : s.cart o = none) : Changed s (s.push c) o c where
  sound := sound_push hs hid hitems howner fun o' ho' => by
    rw [CartOwner.eq_of_owns ho' ho]
    exact hnone
  cart := by
    funext o'
    rw [cart_push]
    by_cases he : o' = o
    · subst he
      rw [hnone, if_pos ho, Baskets.put, Function.update_self]
      rfl
    · have hnot : ¬ o'.owns c = true := fun hc => he (CartOwner.eq_of_owns hc ho)
      rw [if_neg hnot, Option.or_none, Baskets.put, Function.update_of_ne he]
  now := rfl
  underway := rfl
  history := rfl

theorem insertCart_customer (hs : s.Sound) {id : CustomerId} (hnone : s.cart (.customer id) = none)
    (token : CartToken) : (s.insertCart (some id) token).1 = .ok (s.newCart (some id) token) ∧
      Changed s (s.insertCart (some id) token).2 (.customer id) (s.newCart (some id) token) := by
  refine ⟨rfl, ?_⟩
  exact changed_push hs rfl rfl rfl (by simp [CartOwner.owns, newCart]) hnone

/-- A guest gets a token that nobody has. -/
theorem insertCart_guest (hs : s.Sound) (token : CartToken) :
    (∃ fault, s.insertCart none token = (.error fault, s)) ∨
      s.insertCart none token = (.ok (s.newCart none token), s.push (s.newCart none token)) ∧
        s.cart (.guest token) = none ∧
        Changed s (s.push (s.newCart none token)) (.guest token) (s.newCart none token) := by
  by_cases htaken : s.carts.any (·.guestToken = some token.text) = true
  · left
    refine ⟨(Failure.unique "carts_guest_token_key").fault, ?_⟩
    simp only [insertCart, newCart, Option.isSome_some, Bool.true_and]
    exact if_pos htaken
  · right
    have hnone : s.cart (.guest token) = none := by
      rw [cart_eq_none]
      intro c hc
      simp only [List.any_eq_true, decide_eq_true_eq, not_exists, not_and] at htaken
      simp [CartOwner.owns, htaken c hc]
    refine ⟨?_, hnone, ?_⟩
    · simp only [insertCart, newCart, Option.isSome_some, Bool.true_and]
      exact if_neg htaken
    · exact changed_push hs rfl rfl rfl (by simp [CartOwner.owns, newCart]) hnone

/-! ### A guest's cart goes into a customer's -/

section merge

variable {id : CustomerId} {token : CartToken} {g m : CartRow}

theorem find_guest (hs : s.Sound) :
    s.carts.find? (·.guestToken = some token.text) = s.cart (.guest token) := by
  unfold cart
  apply find_congr
  intro c hc
  have howner := hs.owner c hc
  by_cases h : c.guestToken = some token.text
  · have hnone : c.customerId.isNone = true := by
      rw [h] at howner
      simpa using howner
    simp [CartOwner.owns, h, hnone]
  · simp [CartOwner.owns, h]

theorem find_mine (hs : s.Sound) :
    s.findFirst (fun c => c.customerId = some id && c.guestToken.isNone) =
      s.cart (.customer id) := by
  rw [findFirst_eq (o := .customer id) hs]
  · cases hc : s.cart (.customer id) with
    | none => rfl
    | some c =>
        have howns : c.customerId = some id := by simpa [CartOwner.owns] using cart_owns hc
        have howner := hs.owner c (cart_mem hc)
        rw [howns] at howner
        have hnone : c.guestToken.isNone = true := howner.symm
        simp [Option.filter, howns, hnone]
  · intro c h
    simp only [Bool.and_eq_true] at h
    exact h.1

theorem merge_none (hs : s.Sound) (hg : s.cart (.guest token) = none) :
    s.merge id token = ((s.cart (.customer id)).map (·.id), s) := by
  unfold merge
  simp only [find_guest hs, find_mine hs, hg]
  rfl

/-- The lines go over, and the guest's cart goes. -/
theorem merged (hs : s.Sound) (hm : s.cart (.customer id) = some m)
    (hg : s.cart (.guest token) = some g) {t : CartDesk}
    (ht : t = { s with
      carts := (s.carts.map (CartRow.only m.id fun _ => (m.take g s.nextItem).1)).filter
        (·.id ≠ g.id)
      nextItem := (m.take g s.nextItem).2 }) :
    t.Sound ∧ t.cart =
      (Baskets.put s.cart (.customer id) (m.take g s.nextItem).1).remove (.guest token) := by
  have hmine := hs.lines m (cart_mem hm)
  obtain ⟨hbecomes, hlines, hnumbered, hitems⟩ :=
    CartRow.take_spec hmine (hs.lines g (cart_mem hg)) (hs.nextItem m (cart_mem hm))
  have hchanged := changed_only (f := fun _ => (m.take g s.nextItem).1) hs hm
    ⟨hbecomes.id, hbecomes.customerId, hbecomes.guestToken⟩ hlines hnumbered hitems
  have hcarts : t.carts = List.filter (·.id ≠ g.id)
      ({ s.edit (CartRow.only m.id fun _ => (m.take g s.nextItem).1) with
        nextItem := (m.take g s.nextItem).2 } : CartDesk).carts := by
    rw [ht]
    rfl
  refine ⟨sound_sub hchanged.sound (fun c hc => ?_) (by rw [ht]; rfl) (by rw [ht]), ?_⟩
  · rw [hcarts] at hc
    exact List.mem_of_mem_filter hc
  · funext o
    rw [cart_filter hchanged.sound _ hcarts, hchanged.cart]
    have hne : m ≠ g := by
      rintro rfl
      cases CartOwner.eq_of_owns (cart_owns hm) (cart_owns hg)
    by_cases hguest : o = .guest token
    · subst hguest
      simp [Baskets.put, Baskets.remove, hg, Option.filter]
    · rw [Baskets.remove, Function.update_of_ne hguest]
      by_cases hcustomer : o = .customer id
      · subst hcustomer
        have hid : (m.take g s.nextItem).1.id ≠ g.id := by
          rw [hbecomes.id]
          intro he
          exact hne (hs.ids m (cart_mem hm) g (cart_mem hg) he)
        simp [Baskets.put, Option.filter, hid]
      · rw [Baskets.put, Function.update_of_ne hcustomer]
        cases hc : s.cart o with
        | none => rfl
        | some c =>
            have hid : c.id ≠ g.id := by
              intro he
              have hcg := hs.ids c (cart_mem hc) g (cart_mem hg) he
              subst hcg
              exact hguest (CartOwner.eq_of_owns (cart_owns hc) (cart_owns hg))
            simp [Option.filter, hid]

theorem merge_some (id : CustomerId) (hs : s.Sound) (hg : s.cart (.guest token) = some g) :
    ∃ m next, Baskets.Mine s.cart id m ∧ m.Lines ∧ (∀ i ∈ m.items, i.id < next) ∧
      (s.merge id token).1 = some m.id ∧
      (s.merge id token).2.Sound ∧
      (s.merge id token).2.cart =
        (Baskets.put s.cart (.customer id) (m.take g next).1).remove (.guest token) ∧
      (s.merge id token).2.now = s.now ∧ (s.merge id token).2.underway = s.underway ∧
      (s.merge id token).2.history = s.history := by
  have hcustomer : g.customerId = none := by
    have := cart_owns hg
    simp only [CartOwner.owns, Bool.and_eq_true, Option.isNone_iff_eq_none] at this
    exact this.2
  have hfilter : (some g).filter (·.customerId ≠ some id) = some g := by
    simp [Option.filter, hcustomer]
  cases hm : s.cart (.customer id) with
  | some m =>
      have hval : s.merge id token = (some m.id,
          { s with
            carts := (s.carts.map (CartRow.only m.id fun _ => (m.take g s.nextItem).1)).filter
              (·.id ≠ g.id)
            nextItem := (m.take g s.nextItem).2 }) := by
        unfold merge
        simp only [find_guest hs, find_mine hs, hg, hm, hfilter]
      obtain ⟨hsound, hcart⟩ := merged hs hm hg rfl
      rw [hval]
      exact ⟨m, s.nextItem, .inl hm, hs.lines m (cart_mem hm), hs.nextItem m (cart_mem hm), rfl,
        hsound, hcart, rfl, rfl, rfl⟩
  | none =>
      have hpush := insertCart_customer hs hm token
      have hm' : (s.push (s.newCart (some id) token)).cart (.customer id) =
          some (s.newCart (some id) token) := by
        have := congrFun hpush.2.cart (.customer id)
        simpa [Baskets.put, insertCart, newCart] using this
      have hg' : (s.push (s.newCart (some id) token)).cart (.guest token) = some g := by
        have := congrFun hpush.2.cart (.guest token)
        rw [Baskets.put, Function.update_of_ne (by simp)] at this
        rw [← hg, ← this]
        rfl
      have hval : s.merge id token = (some (s.newCart (some id) token).id,
          { s.push (s.newCart (some id) token) with
            carts := ((s.push (s.newCart (some id) token)).carts.map
              (CartRow.only (s.newCart (some id) token).id fun _ =>
                ((s.newCart (some id) token).take g s.nextItem).1)).filter (·.id ≠ g.id)
            nextItem := ((s.newCart (some id) token).take g s.nextItem).2 }) := by
        unfold merge
        simp only [find_guest hs, find_mine hs, hg, hm, hfilter]
        rfl
      obtain ⟨hsound, hcart⟩ := merged (s := s.push (s.newCart (some id) token)) hpush.2.sound hm'
        hg' rfl
      rw [hval]
      refine ⟨s.newCart (some id) token, s.nextItem, .inr ⟨hm, rfl, rfl⟩,
        CartRow.lines_of_no_items rfl, (fun i hi => absurd hi (by simp [newCart])), rfl, hsound,
        ?_, rfl, rfl, rfl⟩
      refine hcart.trans ?_
      have hother : (s.push (s.newCart (some id) token)).cart =
          Baskets.put s.cart (.customer id) (s.newCart (some id) token) := hpush.2.cart
      rw [hother]
      funext o
      by_cases hguest : o = .guest token
      · simp [Baskets.remove, hguest]
      · by_cases hc : o = .customer id
        · simp [Baskets.remove, Baskets.put, hc]
          rfl
        · simp [Baskets.remove, Baskets.put, hc, hguest]

end merge

/-! ### An order is placed, and the night passes -/

/-- A guest's cart is no customer's, so the filters say the same. -/
theorem clearForOrder_eq (hs : s.Sound) : s.clearForOrder o =
    s.edit fun c => if o.owns c then s.stamp CartRow.clear c else c := by
  cases o with
  | customer id => rfl
  | guest token =>
      suffices hmap : s.carts.map (fun c => if decide (c.guestToken = some token.text) = true then
          s.stamp CartRow.clear c else c) = s.carts.map fun c =>
          if (CartOwner.guest token).owns c = true then s.stamp CartRow.clear c else c by
        exact congrArg (fun carts => { s with carts }) hmap
      apply List.map_congr_left
      intro c hc
      have howner := hs.owner c hc
      by_cases h : c.guestToken = some token.text
      · have hnone : c.customerId.isNone = true := by
          rw [h] at howner
          simpa using howner
        simp [CartOwner.owns, h, hnone]
      · simp [CartOwner.owns, h]

theorem clearForOrder_some (hs : s.Sound) (hc : s.cart o = some c) :
    Changed s (s.clearForOrder o) o (s.stamp CartRow.clear c) := by
  have howns := cart_owns hc
  have hkeeps : ∀ x ∈ s.carts, Keeps x (if o.owns x then s.stamp CartRow.clear x else x) := by
    intro x _
    by_cases h : o.owns x = true
    · rw [if_pos h]
      exact ⟨rfl, rfl, rfl⟩
    · rw [if_neg h]
      exact ⟨rfl, rfl, rfl⟩
  have h := changed_edit (f := fun c => if o.owns c then s.stamp CartRow.clear c else c)
    (n := s.nextItem) hs hc hkeeps (by rw [if_pos howns]; exact CartRow.lines_of_no_items rfl)
    (le_refl _) (by rw [if_pos howns]; exact fun i hi => absurd hi (by simp [stamp, CartRow.clear]))
    fun x hx hne => if_neg fun ho => hne (hs.one o x hx c (cart_mem hc) ho howns)
  rw [if_pos howns] at h
  rw [clearForOrder_eq hs]
  exact h

theorem clearForOrder_none (hs : s.Sound) (hc : s.cart o = none) : s.clearForOrder o = s := by
  rw [clearForOrder_eq hs]
  have hself :
      s.carts.map (fun c => if o.owns c then s.stamp CartRow.clear c else c) = s.carts := by
    conv_rhs => rw [← List.map_id s.carts]
    apply List.map_congr_left
    intro c hmem
    rw [cart_eq_none.mp hc c hmem]
    rfl
  rw [edit, hself]

theorem cart_purge (hs : s.Sound) (i : TxId) (o : CartOwner) :
    (s.purge i).cart o = (s.cart o).filter fun c => !lapsed s.now c :=
  cart_filter hs _ rfl o

theorem sound_purge (hs : s.Sound) (i : TxId) : (s.purge i).Sound :=
  sound_sub hs (fun _ hc => List.mem_of_mem_filter hc) rfl rfl

end CartDesk

end BookHouse
