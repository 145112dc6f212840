/-
Calls of different shoppers do not see each other.

Each call settles its carts: it finds the caller's cart or makes one, changes it in one
statement, and touches it, and whatever fails in between leaves the cart as the last statement
left it.  The contract of the calls then says that what is in the carts is what the answered
calls have made of them one after the other, in whatever order their statements came.
-/
import BookHouse.Proofs.CartCalls
import BookHouse.Proofs.CartQuote

namespace BookHouse

open Prog

namespace CartToken

theorem read_text (token : CartToken) : read token.text = some token :=
  dif_pos ⟨token.chars, token.long⟩

end CartToken

namespace AddCartItemDto

theorem qty_range (dto : AddCartItemDto) : 1 ≤ dto.qty ∧ dto.qty ≤ 99 := by
  unfold qty
  cases hq : dto.quantity with
  | none => simp
  | some q => exact dto.bounds q hq

end AddCartItemDto

namespace CartDesk

variable {s t u : CartDesk} {o : CartOwner} {c c' : CartRow} {B₀ B : Baskets} {v : Visit} {i : TxId}
  {since now : Instant} {asked : Option CartOwner} {wanted : LineKey → ℤ} {coupon : Option String}
  {β : Type}

/-! ### What a call has found -/

/-- The cart in hand was the caller's when the call came. -/
structure Finds (v : Visit) (asked : Option CartOwner) (o : CartOwner) (c : CartRow) : Prop where
  asked : asked = some o
  own : o ∈ v.owners
  before : v.before o = some c
  live : c.live v.arrived = true
  lines : c.Lines

/-- The caller has no cart, or its time is over. -/
def Lacks (v : Visit) (asked : Option CartOwner) (now : Instant) : Prop :=
  ∀ o, asked = some o → o ∈ v.owners ∧ ∀ c, v.before o = some c → c.live now = false

/-- The call has made the cart in hand. -/
structure Makes (v : Visit) (asked : Option CartOwner) (now : Instant) (o : CartOwner)
    (c : CartRow) : Prop where
  lacks : Lacks v asked now
  own : o ∈ v.owners
  customer : ∀ id, asked = some (.customer id) → o = .customer id
  guest : (∀ id, asked ≠ some (.customer id)) → ∃ token, o = .guest token
  before : v.before o = none
  no_lines : c.items = []
  no_coupon : c.couponCode = none

/-- The cart in hand is the caller's, or the call has made it. -/
def Opens (v : Visit) (asked : Option CartOwner) (now : Instant) (o : CartOwner) (c : CartRow) :
    Prop := Finds v asked o c ∨ Makes v asked now o c

section found

variable {e : CartEvent}

theorem Finds.found (h : Finds v asked o c) (ha : e.arrived = v.arrived)
    (hB : ∀ o ∈ v.owners, B o = v.before o) : e.Found B asked o c :=
  ⟨h.asked, (hB o h.own).trans h.before, ha ▸ h.live⟩

theorem Lacks.missing (h : Lacks v asked now) (ht : now ≤ e.answered)
    (hB : ∀ o ∈ v.owners, B o = v.before o) : e.Missing B asked := by
  intro o ho c hc
  obtain ⟨hown, hlive⟩ := h o ho
  exact not_live_of_le ht (hlive c ((hB o hown).symm.trans hc))

theorem Opens.own (h : Opens v asked now o c) : o ∈ v.owners := by
  rcases h with h | h
  · exact h.own
  · exact h.own

theorem Opens.lines (h : Opens v asked now o c) : c.Lines := by
  rcases h with h | h
  · exact h.lines
  · exact CartRow.lines_of_no_items h.no_lines

theorem Opens.opened (h : Opens v asked now o c) (ha : e.arrived = v.arrived)
    (ht : now ≤ e.answered) (hB : ∀ o ∈ v.owners, B o = v.before o) : e.Opened B asked o c := by
  rcases h with h | h
  · exact .inl (h.found ha hB)
  · exact .inr ⟨h.lacks.missing ht hB, h.customer, h.guest, (hB o h.own).trans h.before,
      h.no_lines, h.no_coupon⟩

end found

theorem guest_of_cart (hs : s.Sound) (hc : s.cart o = some c) :
    c.guestToken.isSome = o.customerId.isNone := by
  have howner := hs.owner c (cart_mem hc)
  have howns := cart_owns hc
  cases o with
  | customer id =>
      have hid : c.customerId = some id := by simpa [CartOwner.owns] using howns
      rw [hid] at howner
      cases hg : c.guestToken with
      | none => rfl
      | some text =>
          rw [hg] at howner
          cases howner
  | guest token =>
      obtain ⟨hg, -⟩ := by simpa [CartOwner.owns] using howns
      rw [hg]
      rfl

theorem live_of_customer {id : CustomerId} (hc : s.cart (.customer id) = some c) (now : Instant) :
    c.live now = true := by
  have hid : c.customerId = some id := by simpa [CartOwner.owns] using cart_owns hc
  simp [CartRow.live, hid]

theorem text_of_guest {token : CartToken} (hc : s.cart (.guest token) = some c) :
    c.guestToken = some token.text := by
  have := cart_owns hc
  simp only [CartOwner.owns, Bool.and_eq_true, decide_eq_true_eq] at this
  exact this.1

/-! ### A call ends -/

theorem touched_touch {e : CartEvent} (ha : e.arrived ≤ now) (ht : now ≤ e.answered)
    (he : c'.expiresAt = c.expiresAt) : e.Touched o c (c'.touch now o.customerId.isNone) := by
  cases o with
  | customer id => exact he
  | guest token => exact ⟨now, ha, ht, rfl⟩

/-- The cart in hand is touched. -/
theorem obeys_touch {Q : Except Fault CartRow → CartDesk → Prop} (h : Holding v B since s)
    (ho : o ∈ v.owners) (hB : B o = some c)
    (hok : ∀ now u, since ≤ now →
      Holding v (Baskets.put B o (c.touch now o.customerId.isNone)) now u →
      Q (.ok (c.touch now o.customerId.isNone)) u)
    (herr : ∀ e u, Holding v B since u → Q (.error e) u) :
    (contract B₀).Obeys v.thread Q (CartService.touch c.id) s := by
  have hcart : ∀ u, Holding v B since u → u.cart o = some c := fun u hu => (hu.cart o ho).trans hB
  refine obeys_look h ⟨v, B, rfl, h.toAt, trivial⟩ (fun i x u => ?_)
    (fun x token u hu hi ha => ?_) herr
  · simp only [CartOp.perform]
    split
    · rfl
    · rfl
  · have htoken : c.guestToken = token := by
      simp only [CartOp.perform, find_id hi.sound (hcart u hu)] at ha
      exact Except.ok.inj ha
    have hguest : token.isSome = o.customerId.isNone := by
      rw [← htoken]
      exact guest_of_cart hi.sound (hcart u hu)
    rw [hguest]
    apply obeys_last
    refine obeys_change (g := fun u => c.touch u.now o.customerId.isNone) hu ho hB
      ⟨v, B, rfl, hu.toAt, o, ho, c, hB, rfl⟩ (fun x u' hs hc => ?_)
      (fun x a u' t hi' hc ha hnow ht w hw => ?_) herr
    · obtain ⟨hok, hchanged⟩ := touch_spec hs hc o.customerId.isNone
      exact ⟨⟨_, hok⟩, hchanged⟩
    · obtain ⟨hok', -⟩ := touch_spec hi'.sound hc o.customerId.isNone
      have hrow : a = c.touch u'.now o.customerId.isNone :=
        Except.ok.inj (ha.symm.trans hok')
      rw [hrow]
      exact hok u'.now w hnow (ht.stable hw)

theorem put_put : Baskets.put (Baskets.put B o c) o c' = B.put o c' := by
  simp [Baskets.put]

/-- A call ends when its cart has become what it wanted. -/
theorem obeys_finish (h : Holding v (Baskets.put v.before o c') since s) (ho : o ∈ v.owners)
    (hw : Wished v since o c wanted coupon) (hb : c.Becomes c' wanted coupon)
    (he : c'.expiresAt = c.expiresAt) :
    (contract B₀).Obeys v.thread (fun r t => Ready v.thread (r.map some) t)
      (CartService.touch c.id) s := by
  rw [← hb.id]
  refine obeys_touch h ho (by simp [Baskets.put]) (fun now u hnow hu => ?_) fun e u hu => ?_
  · rw [put_put] at hu
    refine hu.ready (settles_put ho fun at_ hat B₀ hagree => ?_)
    exact .done (hw _ B₀ rfl (hnow.trans hat) hagree)
      ⟨hb.id, hb.customerId, hb.guestToken, hb.quantity, hb.coupon, hb.lines⟩
      (touched_touch (h.arrived.trans hnow) hat he) rfl
  · exact hu.ready (hw.broken ho (.inr ⟨hb, he⟩) e)

/-- A call changes its cart in one statement and touches it. -/
theorem obeys_settle {op : CartOp} {g : CartDesk → CartRow}
    (h : Holding v (Baskets.put v.before o c) since s) (ho : o ∈ v.owners)
    (hw : Wished v since o c wanted coupon) (hfits : Pre v.thread op s)
    (hdone : ∀ x u, u.Sound → u.cart o = some c →
      (∃ a, (op.perform v.thread x u).1 = .ok a) ∧ Changed u (op.perform v.thread x u).2 o (g u))
    (hb : ∀ u, c.Becomes (g u) wanted coupon ∧ (g u).expiresAt = c.expiresAt) :
    (contract B₀).Obeys v.thread (fun r t => Ready v.thread (r.map some) t)
      (CartService.run op >>= fun _ => CartService.touch c.id) s := by
  have hB : Baskets.put v.before o c o = some c := by simp [Baskets.put]
  refine obeys_change h ho hB hfits hdone (fun _ _ u t _ _ _ hnow ht => ?_) fun e u hu => ?_
  · rw [put_put] at ht
    exact obeys_finish ht ho (hw.later hnow) (hb u).1 (hb u).2
  · exact hu.ready (hw.broken ho (.inl rfl) e)

/-- What answers with a row answers with a cart. -/
theorem obeys_some {p : CartCall CartRow}
    (h : (contract B₀).Obeys i (fun r t => Ready i (r.map some) t) p s) :
    (contract B₀).Obeys i (Ready i) (some <$> p) s := by
  refine Contract.Obeys.bind (h.mono fun r t hr => ?_)
  cases r with
  | ok c => exact fun u hu => hr.stable hu
  | error e => exact hr

/-- A call is refused before it has changed anything. -/
theorem Holding.refused (h : Holding v v.before since s) (fault : Fault) :
    Ready v.thread (.error fault) s := h.ready settles_refused

/-! ### A call finds its cart, or makes one -/

/-- `find`, of a call that has changed nothing. -/
theorem obeys_lookup {f : Option CartRow → CartCall β} {Q : Except Fault β → CartDesk → Prop}
    (h : Holding v v.before since s) (hasked : ∀ o, asked = some o → o ∈ v.owners)
    (hfound : ∀ o c u, Finds v asked o c → Holding v v.before u.now u →
      (contract B₀).Obeys v.thread Q (f (some c)) u)
    (hmissing : ∀ u, Lacks v asked u.now → Holding v v.before u.now u →
      (contract B₀).Obeys v.thread Q (f none) u)
    (herr : ∀ e u, Ready v.thread (.error e) u → Q (.error e) u) :
    (contract B₀).Obeys v.thread Q (CartService.find asked >>= f) s := by
  refine obeys_find h hasked (fun o c u ho hc hlive hlines _ hu => ?_) (fun u hnone _ hu => ?_)
    fun e u hu => herr e u (hu.refused e)
  · exact hfound o c u ⟨ho, hasked o ho, hc, live_of_le hu.arrived hlive, hlines⟩ hu
  · exact hmissing u (fun o ho => ⟨hasked o ho, hnone o ho⟩) hu

theorem obeys_require {f : CartRow → CartCall β} {Q : Except Fault β → CartDesk → Prop}
    (h : Holding v v.before since s) (hasked : ∀ o, asked = some o → o ∈ v.owners)
    (hfound : ∀ o c u, Finds v asked o c → Holding v v.before u.now u →
      (contract B₀).Obeys v.thread Q (f c) u)
    (herr : ∀ e u, Ready v.thread (.error e) u → Q (.error e) u) :
    (contract B₀).Obeys v.thread Q (CartService.requireCart asked >>= f) s := by
  refine Contract.Obeys.bind (obeys_lookup h hasked (fun o c u hf hu => ?_) (fun u _ hu => ?_) herr)
  · exact fun w hw => (hfound o c u hf hu).stable hw
  · exact fun w hw => herr _ w ((hu.refused _).stable hw)

/-- The customer's new cart. -/
theorem makes_customer {id : CustomerId} (hlacks : Lacks v (some (.customer id)) now)
    (hnone : v.before (.customer id) = none) (token : CartToken) :
    Makes v (some (.customer id)) now (.customer id) (s.newCart (some id) token) where
  lacks := hlacks
  own := (hlacks _ rfl).1
  customer _ hid := Option.some.inj hid
  guest hid := absurd rfl (hid id)
  before := hnone
  no_lines := rfl
  no_coupon := rfl

/-- A guest's new cart. -/
theorem makes_guest (hlacks : Lacks v asked now) (hguest : ∀ id, asked ≠ some (.customer id))
    (token : CartToken) :
    Makes (v.drawn token) asked now (.guest token) (s.newCart none token) where
  lacks o ho := by
    obtain ⟨hown, hlive⟩ := hlacks o ho
    refine ⟨List.mem_cons_of_mem _ hown, fun c hc => ?_⟩
    by_cases he : o = .guest token
    · subst he
      simp [Visit.drawn] at hc
    · have hbefore : (v.drawn token).before o = v.before o := Function.update_of_ne he _ _
      exact hlive c (hbefore.symm.trans hc)
  own := List.mem_cons_self
  customer id hid := absurd hid (hguest id)
  guest _ := ⟨token, rfl⟩
  before := by simp [Visit.drawn]
  no_lines := rfl
  no_coupon := rfl

theorem obeys_createCustomer {id : CustomerId} {f : CartRow → CartCall β}
    {Q : Except Fault β → CartDesk → Prop} (h : Holding v v.before since s)
    (hlacks : Lacks v (some (.customer id)) since)
    (hnone : v.before (.customer id) = none)
    (hok : ∀ c u, Makes v (some (.customer id)) u.now (.customer id) c →
      Holding v (Baskets.put v.before (.customer id) c) u.now u →
      (contract B₀).Obeys v.thread Q (f c) u)
    (herr : ∀ e u, Ready v.thread (.error e) u → Q (.error e) u) :
    (contract B₀).Obeys v.thread Q (CartService.run (.createCart (some id)) >>= f) s := by
  have ho := (hlacks _ rfl).1
  refine obeys_run ⟨v, _, rfl, h.toAt, ho, hnone⟩ (fun u x c t hr hi _ hp => ?_)
    fun u x e t hr hi ht w hw => ?_
  · have hu := h.stable hr
    obtain ⟨hc, hchanged⟩ := insertCart_customer hi.sound ((hu.cart _ ho).trans hnone) x.token
    rw [show u.insertCart (some id) x.token = (.ok c, t) from hp] at hc hchanged
    obtain rfl := Except.ok.inj hc
    have hlater : Lacks v (some (.customer id)) t.now := fun o ho' =>
      ⟨(hlacks o ho').1, fun c hc => not_live_of_le (hu.since.trans hchanged.now.symm.le)
        ((hlacks o ho').2 c hc)⟩
    refine hok _ t (makes_customer hlater hnone x.token) ⟨⟨?_, fun o' ho' => ?_⟩, ?_, le_refl _⟩
    · rw [hchanged.underway]
      exact hu.mem
    · rw [hchanged.cart]
      by_cases he : o' = .customer id
      · subst he
        simp [Baskets.put]
      · rw [Baskets.put, Function.update_of_ne he, Baskets.put, Function.update_of_ne he]
        exact hu.cart o' ho'
    · rw [hchanged.now]
      exact hu.later.arrived
  · have hu := h.stable hr
    rcases ht with ⟨-, rfl⟩ | hp
    · exact herr e w (((hu.stable hw).refused e))
    · obtain ⟨hc, -⟩ := insertCart_customer hi.sound ((hu.cart _ ho).trans hnone) x.token
      rw [show u.insertCart (some id) x.token = (.error e, t) from hp] at hc
      cases hc

theorem obeys_createGuest {f : CartRow → CartCall β} {Q : Except Fault β → CartDesk → Prop}
    (h : Holding v v.before since s) (hlacks : Lacks v asked since)
    (hguest : ∀ id, asked ≠ some (.customer id))
    (hok : ∀ token c u, Makes (v.drawn token) asked u.now (.guest token) c →
      Holding (v.drawn token) (Baskets.put (v.drawn token).before (.guest token) c) u.now u →
      (contract B₀).Obeys v.thread Q (f c) u)
    (herr : ∀ e u, Ready v.thread (.error e) u → Q (.error e) u) :
    (contract B₀).Obeys v.thread Q (CartService.run (.createCart none) >>= f) s := by
  refine obeys_run ⟨v, _, rfl, h.toAt, trivial⟩ (fun u x c t hr hi _ hp => ?_)
    fun u x e t hr hi ht w hw => ?_
  · have hu := h.stable hr
    simp only [CartOp.perform] at hp
    rcases insertCart_guest hi.sound x.token with ⟨fault, hfail⟩ | ⟨hdone, hnone, hchanged⟩
    · rw [hfail] at hp
      cases hp
    · rw [hdone] at hp
      obtain ⟨hc, rfl⟩ := Prod.mk.inj hp
      obtain rfl := Except.ok.inj hc
      have hlater : Lacks v asked u.now := fun o ho' =>
        ⟨(hlacks o ho').1, fun c hc => not_live_of_le hu.since ((hlacks o ho').2 c hc)⟩
      refine hok x.token _ _ (makes_guest hlater hguest x.token)
        ⟨⟨?_, fun o' ho' => ?_⟩, hu.later.arrived, le_refl _⟩
      · exact List.mem_map.mpr ⟨v, hu.mem, if_pos rfl⟩
      · refine (congrFun hchanged.cart o').trans ?_
        by_cases he : o' = .guest x.token
        · subst he
          simp [Baskets.put]
        · have hown : o' ∈ v.owners := (List.mem_cons.mp ho').resolve_left he
          rw [Baskets.put, Function.update_of_ne he, Baskets.put, Function.update_of_ne he,
            hu.cart o' hown]
          exact (Function.update_of_ne he _ _).symm
  · have hu := h.stable hr
    have ht' : t = u := by
      rcases ht with ⟨-, rfl⟩ | hp
      · rfl
      · simp only [CartOp.perform] at hp
        rcases insertCart_guest hi.sound x.token with ⟨fault, hfail⟩ | ⟨hdone, -, -⟩
        · rw [hfail] at hp
          exact (Prod.mk.inj hp).2.symm
        · rw [hdone] at hp
          cases hp
    subst ht'
    exact herr e w ((hu.stable hw).refused e)

/-- The call goes on with a cart, the one it has found or a new one. -/
theorem obeys_ensure {f : CartRow → CartCall β} {Q : Except Fault β → CartDesk → Prop}
    (h : Holding v v.before since s) (hasked : ∀ o, asked = some o → o ∈ v.owners)
    (hok : ∀ v' o c u, v'.thread = v.thread → v'.request = v.request → Opens v' asked u.now o c →
      Holding v' (Baskets.put v'.before o c) u.now u → (contract B₀).Obeys v.thread Q (f c) u)
    (herr : ∀ e u, Ready v.thread (.error e) u → Q (.error e) u) :
    (contract B₀).Obeys v.thread Q (CartService.ensure asked >>= f) s := by
  refine Contract.Obeys.bind (obeys_lookup h hasked (fun o c u hf hu => ?_) (fun u hl hu => ?_)
    herr)
  · intro w hw
    refine (hok v o c u rfl rfl (.inl hf) ?_).stable hw
    rw [put_self hf.before]
    exact hu
  · have hguest : (∀ id, asked ≠ some (.customer id)) →
        (contract B₀).Obeys v.thread ((contract B₀).After v.thread Q f)
          (CartService.run (.createCart none)) u := fun hne =>
      obeys_last (obeys_createGuest hu hl hne
        (fun token c u' hm hu' w hw =>
          (hok (v.drawn token) _ c u' rfl rfl (.inr hm) hu').stable hw) herr)
    cases asked with
    | none => exact hguest (by simp)
    | some o =>
        cases o with
        | guest token => exact hguest (by simp)
        | customer id =>
            have hnone : v.before (.customer id) = none := by
              obtain ⟨ho, hdead⟩ := hl _ rfl
              cases hb : v.before (.customer id) with
              | none => rfl
              | some c =>
                  have := hdead c hb
                  rw [live_of_customer ((hu.cart _ ho).trans hb)] at this
                  cases this
            exact obeys_last (obeys_createCustomer hu hl hnone
              (fun c u' hm hu' w hw => (hok v _ c u' rfl rfl (.inr hm) hu').stable hw) herr)

/-! ### The calls that change one cart -/

section calls

variable {host : Host} {dto : AddCartItemDto} {key : LineKey} {code : String} {item : CartItem}

theorem wished_add (h : Opens v asked since o c) (hr : v.request = .add asked dto)
    (hkey : dto.key = some key) :
    Wished v since o c (fun k => if k = key then min 99 (c.quantity k + dto.qty) else c.quantity k)
      c.couponCode := by
  intro e B ha ht hB
  rw [hr]
  exact .add (h.opened ha ht hB) hkey

/-- A line that is there gets more. -/
theorem becomes_more (hlines : c.Lines) (hi : item ∈ c.items) (hkey : item.key = key) (q : ℤ) :
    c.Becomes (c.setItem item.id (min 99 (item.quantity + q)))
      (fun k => if k = key then min 99 (c.quantity k + q) else c.quantity k) c.couponCode := by
  have hb := CartRow.becomes_setItem (q := min 99 (item.quantity + q)) hlines hi
  have hwanted : (fun k => if k = item.key then min 99 (item.quantity + q) else c.quantity k) =
      fun k => if k = key then min 99 (c.quantity k + q) else c.quantity k := by
    funext k
    by_cases hk : k = key
    · subst hk
      rw [if_pos hkey.symm, if_pos rfl, ← hkey, CartRow.quantity_of_mem hlines hi]
    · rw [if_neg hk, if_neg (hkey ▸ hk)]
  rw [hwanted] at hb
  exact hb

/-- A line that is not there is added. -/
theorem becomes_addItem (hfresh : ∀ i ∈ c.items, i.key ≠ key) {q : ℤ} (hq : q ≤ 99)
    (id : CartItemId) :
    c.Becomes (c.addItem (key.item id q))
      (fun k => if k = key then min 99 (c.quantity k + q) else c.quantity k) c.couponCode where
  id := rfl
  customerId := rfl
  guestToken := rfl
  coupon := rfl
  lines i hi _ := CartRow.kept_addItem hi
  quantity k := by
    have hnew : ∀ i ∈ c.items, i.key ≠ (key.item id q).key := by
      rw [LineKey.item_key]
      exact hfresh
    rw [CartRow.quantity_addItem hnew, LineKey.item_key, LineKey.item_quantity]
    by_cases hk : k = key
    · subst hk
      rw [if_pos rfl, if_pos rfl, CartRow.quantity_eq_zero hfresh]
      omega
    · rw [if_neg hk, if_neg hk]

theorem obeys_add (h : Holding v v.before since s) (hasked : ∀ o, asked = some o → o ∈ v.owners)
    (hr : v.request = .add asked dto) :
    (contract B₀).Obeys v.thread (fun r t => Ready v.thread (r.map some) t)
      (CartService.add asked dto) s := by
  unfold CartService.add
  cases hkey : dto.key with
  | none => exact fun w hw => (h.stable hw).refused _
  | some key =>
      refine obeys_look h ⟨v, _, rfl, h.toAt, trivial⟩ (fun _ _ _ => rfl) (fun x a u hu _ _ => ?_)
        fun e u hu => hu.refused e
      by_cases hbad : a.isSome = true
      · simp only [if_pos hbad]
        exact fun w hw => (hu.stable hw).refused _
      simp only [if_neg hbad]
      refine obeys_ensure hu hasked (fun v' o c u' hthread hrequest hopens hu' => ?_)
        fun _ _ hready => hready
      rw [← hthread]
      rw [← hrequest] at hr
      have ho := hopens.own
      have hB : Baskets.put v'.before o c o = some c := by simp [Baskets.put]
      have hwished := wished_add hopens hr hkey
      have hfail : ∀ e t, Holding v' (Baskets.put v'.before o c) u'.now t →
          Ready v'.thread (.error e) t := fun e t ht => ht.ready (hwished.broken ho (.inl rfl) e)
      cases hfind : c.items.find? (·.isOf key) with
      | some existing =>
          have hi := List.mem_of_find?_eq_some hfind
          have hexisting : existing.key = key := by
            have := List.find?_some hfind
            exact (CartItem.isOf_iff (hopens.lines.target _ hi)).mp this
          have hqty := dto.qty_range
          have hold := hopens.lines.range _ hi
          have hrange : 1 ≤ min 99 (existing.quantity + dto.qty) ∧
              min 99 (existing.quantity + dto.qty) ≤ 99 := by omega
          refine obeys_settle
            (g := fun _ => c.setItem existing.id (min 99 (existing.quantity + dto.qty)))
            hu' ho hwished ⟨v', _, rfl, hu'.toAt, ⟨o, ho, c, hB, existing, hi, rfl⟩, hrange⟩
            (fun x w hs hc => ?_) fun w => ?_
          · obtain ⟨hok, hchanged⟩ := updateItem_spec hs hc hi hrange
            exact ⟨⟨_, hok⟩, hchanged⟩
          · exact ⟨becomes_more hopens.lines hi hexisting dto.qty, rfl⟩
      | none =>
          have hfresh : ∀ i ∈ c.items, i.key ≠ key := by
            intro i hi hkey'
            have := List.find?_eq_none.mp hfind i hi
            exact this ((CartItem.isOf_iff (hopens.lines.target i hi)).mpr hkey')
          by_cases hfull : 50 ≤ c.items.length
          · simp only [if_pos hfull]
            exact fun w hw => hfail _ w (hu'.stable hw)
          simp only [if_neg hfull]
          refine obeys_settle (g := fun w => c.addItem (key.item w.nextItem dto.qty)) hu' ho hwished
            ⟨v', _, rfl, hu'.toAt, ⟨o, ho, c, hB, rfl, hfresh⟩, dto.qty_range⟩
            (fun x w hs hc => ?_) fun w => ?_
          · obtain ⟨hok, hchanged⟩ := createItem_spec hs hc dto.qty_range hfresh
            exact ⟨⟨_, hok⟩, hchanged⟩
          · exact ⟨becomes_addItem hfresh dto.qty_range.2 _, rfl⟩

theorem obeys_setQuantity {dto : UpdateCartItemDto} {itemId : CartItemId}
    (h : Holding v v.before since s) (hasked : ∀ o, asked = some o → o ∈ v.owners)
    (hr : v.request = .setQuantity asked itemId dto) :
    (contract B₀).Obeys v.thread (fun r t => Ready v.thread (r.map some) t)
      (CartService.setQuantity asked itemId dto.quantity) s := by
  refine obeys_require h hasked (fun o c u hf hu => ?_) fun _ _ hready => hready
  cases hfind : c.items.find? (·.id = itemId) with
  | none => exact fun w hw => (hu.stable hw).refused _
  | some i =>
      have hi := List.mem_of_find?_eq_some hfind
      obtain rfl : i.id = itemId := by simpa using List.find?_some hfind
      have hB : v.before o = some c := hf.before
      have hwished : Wished v u.now o c
          (fun k => if k = i.key then dto.quantity else c.quantity k) c.couponCode := by
        intro e B ha _ hB
        rw [hr]
        exact .setQuantity (hf.found ha hB) hi
      rw [← put_self hB] at hu
      by_cases hzero : dto.quantity = 0
      · simp only [if_pos hzero]
        refine obeys_settle (g := fun _ => c.dropItem i.id) hu hf.own hwished
          ⟨v, _, rfl, hu.toAt, o, hf.own, c, by simp [Baskets.put], i, hi, rfl⟩
          (fun x w hs hc => ?_) fun w => ?_
        · obtain ⟨hok, hchanged⟩ := deleteItem_spec hs hc hi
          exact ⟨⟨_, hok⟩, hchanged⟩
        · rw [hzero]
          exact ⟨CartRow.becomes_dropItem hf.lines hi, rfl⟩
      · simp only [if_neg hzero]
        have hrange : 1 ≤ dto.quantity ∧ dto.quantity ≤ 99 := by
          have := dto.bounds
          omega
        refine obeys_settle (g := fun _ => c.setItem i.id dto.quantity) hu hf.own hwished
          ⟨v, _, rfl, hu.toAt, ⟨o, hf.own, c, by simp [Baskets.put], i, hi, rfl⟩, hrange⟩
          (fun x w hs hc => ?_) fun w => ?_
        · obtain ⟨hok, hchanged⟩ := updateItem_spec hs hc hi hrange
          exact ⟨⟨_, hok⟩, hchanged⟩
        · exact ⟨CartRow.becomes_setItem hf.lines hi, rfl⟩

/-- An update of the cart itself. -/
theorem update_done {f : CartRow → CartRow} (hc : s.cart o = some c) (hs : s.Sound)
    (hf : Keeps c (f c)) (hitems : (f c).items = c.items ∨ (f c).items = []) :
    (∃ a, (s.update c.id f).1 = .ok a) ∧ Changed s (s.update c.id f).2 o (s.stamp f c) := by
  obtain ⟨hok, hchanged⟩ := update_spec hs hc hf hitems
  exact ⟨⟨_, hok⟩, hchanged⟩

theorem becomes_clear (s : CartDesk) (c : CartRow) :
    c.Becomes (s.stamp CartRow.clear c) (fun _ => 0) none where
  id := rfl
  customerId := rfl
  guestToken := rfl
  quantity _ := CartRow.quantity_of_no_items rfl
  coupon := rfl
  lines _ _ hwanted := absurd rfl hwanted

theorem obeys_clear (h : Holding v v.before since s) (hasked : ∀ o, asked = some o → o ∈ v.owners)
    (hr : v.request = .clear asked) :
    (contract B₀).Obeys v.thread (Ready v.thread) (CartService.clear asked) s := by
  refine obeys_lookup h hasked (fun o c u hf hu => ?_) (fun u hl hu => ?_) fun _ _ hready => hready
  · have hwished : Wished v u.now o c (fun _ => 0) none := by
      intro e B ha _ hB
      rw [hr]
      exact .clear (hf.found ha hB)
    rw [← put_self hf.before] at hu
    have hsettle : (contract B₀).Obeys v.thread (fun r t => Ready v.thread (r.map some) t)
        (CartService.run (.clear c.id) >>= fun _ => CartService.touch c.id) u := by
      refine obeys_settle (g := fun u => u.stamp CartRow.clear c) hu hf.own hwished
        ⟨v, _, rfl, hu.toAt, o, hf.own, c, by simp [Baskets.put], rfl⟩ (fun x t hs hc => ?_)
        fun t => ?_
      · exact update_done (f := CartRow.clear) hc hs ⟨rfl, rfl, rfl⟩ (.inr rfl)
      · exact ⟨becomes_clear t c, rfl⟩
    have hmap := obeys_some hsettle
    rw [Prog.map_bind] at hmap
    exact hmap
  · refine fun w hw => (hu.stable hw).ready (settles_same fun at_ hat B₀ hB => ?_)
    exact .missed (.inr hr) (hl.missing hat hB) rfl

theorem obeys_setCoupon {new : Option String} (hf : Finds v asked o c)
    (h : Holding v v.before since s) (hw : Wished v since o c c.quantity new) :
    (contract B₀).Obeys v.thread (fun r t => Ready v.thread (r.map some) t)
      (CartService.run (.setCoupon c.id new) >>= fun _ => CartService.touch c.id) s := by
  rw [← put_self hf.before] at h
  refine obeys_settle (g := fun u => u.stamp ({ · with couponCode := new }) c) h hf.own hw
    ⟨v, _, rfl, h.toAt, o, hf.own, c, by simp [Baskets.put], rfl⟩ (fun x u hs hc => ?_) fun u => ?_
  · exact update_done (f := ({ · with couponCode := new })) hc hs ⟨rfl, rfl, rfl⟩ (.inl rfl)
  · refine ⟨CartRow.becomes_of_items ?_ ?_ ?_ ?_ ?_, rfl⟩ <;> rfl

theorem obeys_applyCoupon (h : Holding v v.before since s)
    (hasked : ∀ o, asked = some o → o ∈ v.owners) (hr : v.request = .applyCoupon asked code) :
    (contract B₀).Obeys v.thread (fun r t => Ready v.thread (r.map some) t)
      (CartService.applyCoupon host asked code) s := by
  refine obeys_require h hasked (fun o c u hf hu => ?_) fun _ _ hready => hready
  by_cases hempty : c.items = []
  · simp only [if_pos hempty]
    exact fun w hw => (hu.stable hw).refused _
  simp only [if_neg hempty]
  refine obeys_look hu ⟨v, _, rfl, hu.toAt, trivial⟩ (fun _ _ _ => rfl) (fun x a t ht _ _ => ?_)
    fun e t ht => ht.refused e
  cases hbad : a.quote.couponRejection with
  | some bad => exact fun w hw => (ht.stable hw).refused _
  | none =>
      refine obeys_setCoupon hf ht fun e B ha _ hB => ?_
      rw [hr]
      exact .applyCoupon (hf.found ha hB) hempty

theorem obeys_removeCoupon (h : Holding v v.before since s)
    (hasked : ∀ o, asked = some o → o ∈ v.owners) (hr : v.request = .removeCoupon asked) :
    (contract B₀).Obeys v.thread (fun r t => Ready v.thread (r.map some) t)
      (CartService.removeCoupon asked) s := by
  refine obeys_require h hasked (fun o c u hf hu => ?_) fun _ _ hready => hready
  refine obeys_setCoupon hf hu fun e B ha _ hB => ?_
  rw [hr]
  exact .removeCoupon (hf.found ha hB)

end calls

/-! ### The other calls -/

section calls

variable {host : Host} {id : CustomerId} {token : CartToken} {g m m' : CartRow}

theorem obeys_get (h : Holding v v.before since s) (hasked : ∀ o, asked = some o → o ∈ v.owners)
    (hr : v.request = .get asked) :
    (contract B₀).Obeys v.thread (Ready v.thread) (CartService.find asked) s := by
  apply obeys_last
  refine obeys_lookup h hasked (fun o c u hf hu w hw => ?_) (fun u hl hu w hw => ?_)
    fun _ _ hready => hready
  · exact (hu.stable hw).ready (settles_same fun _ _ B₀ hB => .seen hr (hf.found rfl hB) rfl)
  · exact (hu.stable hw).ready
      (settles_same fun _ hat B₀ hB => .missed (.inl hr) (hl.missing hat hB) rfl)

theorem Opens.customer (h : Opens v asked now o c) (ha : asked = some (.customer id)) :
    o = .customer id := by
  rcases h with h | h
  · rw [h.asked] at ha
    exact Option.some.inj ha
  · exact h.customer id ha

theorem Opens.guest (h : Opens v asked now o c) (ha : ∀ id, asked ≠ some (.customer id)) :
    ∃ token, o = .guest token := by
  rcases h with h | h
  · cases o with
    | customer id => exact absurd h.asked (ha id)
    | guest token => exact ⟨token, rfl⟩
  · exact h.guest ha

/-- The cart of a new guest is looked for by its token. -/
theorem obeys_create (h : Holding v v.before since s) (hasked : ∀ o, asked = some o → o ∈ v.owners)
    (hr : v.request = .create asked) :
    (contract B₀).Obeys v.thread (Ready v.thread) (CartService.create asked) s := by
  refine obeys_ensure h hasked (fun v' o c u hthread hrequest hopens hu => ?_) fun _ _ hready =>
    hready
  rw [← hthread]
  rw [← hrequest] at hr
  have hown := hopens.own
  have hB : Baskets.put v'.before o c o = some c := by simp [Baskets.put]
  have hsettled : ∀ a now, u.now ≤ now → (a = .ok none → c.live now = false) →
      (∀ c', a = .ok (some c') → c' = c) → Settles v' (Baskets.put v'.before o c) a now :=
    fun a now hnow hmissing hfound => settles_put hown fun at_ hat B₀ hB =>
      .opened hr (hopens.opened rfl (hnow.trans hat) hB)
        (fun ha => not_live_of_le hat (hmissing ha)) hfound
  have hlook : (contract B₀).Obeys v'.thread (Ready v'.thread) (CartService.find (some o)) u := by
    apply obeys_last
    refine obeys_find hu (fun o' ho => Option.some.inj ho ▸ hown)
      (fun o' c' t ho hc _ _ hnow ht w hw => ?_) (fun t hnone hnow ht w hw => ?_) fun e t ht => ?_
    · obtain rfl := Option.some.inj ho
      obtain rfl := Option.some.inj (hB.symm.trans hc)
      refine (ht.stable hw).ready (hsettled _ _ hnow (fun ha => by cases ha) fun c' ha => ?_)
      exact (Option.some.inj (Except.ok.inj ha)).symm
    · refine (ht.stable hw).ready (hsettled _ _ hnow (fun _ => hnone o rfl c hB) fun c' ha => ?_)
      cases Except.ok.inj ha
    · exact ht.ready (hsettled _ _ (le_refl _) (fun ha => by cases ha) fun _ ha => by cases ha)
  by_cases hcustomer : ∃ id, asked = some (.customer id)
  · obtain ⟨id, rfl⟩ := hcustomer
    obtain rfl := hopens.customer rfl
    exact hlook
  · obtain ⟨token, rfl⟩ := hopens.guest fun id ha => hcustomer ⟨id, ha⟩
    have htext : (c.guestToken.bind CartToken.read).map CartOwner.guest = some (.guest token) := by
      rw [text_of_guest ((hu.cart _ hown).trans hB)]
      simp [CartToken.read_text]
    rw [← htext] at hlook
    split
    · rename_i id
      exact absurd ⟨id, rfl⟩ hcustomer
    · exact hlook

/-- Where a guest's cart has gone into a customer's. -/
theorem settles_joined {a : CartAnswer} (hcustomer : .customer id ∈ v.owners)
    (hguest : .guest token ∈ v.owners)
    (h : ∀ at_, since ≤ at_ → ∀ B₀ : Baskets, (∀ o ∈ v.owners, B₀ o = v.before o) →
      CartEvent.Outcome ⟨v.thread, v.request, a, v.arrived, at_⟩ B₀
        ((B₀.put (.customer id) m).remove (.guest token))) :
    Settles v ((Baskets.put v.before (.customer id) m).remove (.guest token)) a since := by
  intro at_ hat B₀ hagree
  have hput : (fun o => if o ∈ v.owners then
        (Baskets.put v.before (.customer id) m).remove (.guest token) o else B₀ o) =
      (B₀.put (.customer id) m).remove (.guest token) := by
    funext o
    by_cases hg : o = .guest token
    · subst hg
      simp [hguest, Baskets.remove]
    · by_cases hc : o = .customer id
      · subst hc
        simp [hcustomer, Baskets.remove, Baskets.put]
      · by_cases ho : o ∈ v.owners
        · simp [ho, hg, hc, Baskets.remove, Baskets.put, hagree o ho]
        · simp [ho, hg, hc, Baskets.remove, Baskets.put]
  rw [hput]
  exact h at_ hat B₀ hagree

theorem put_remove : ((B.put (.customer id) m).remove (.guest token)).put (.customer id) m' =
    (B.put (.customer id) m').remove (.guest token) := by
  funext o
  by_cases hc : o = .customer id
  · subst hc
    simp [Baskets.put, Baskets.remove]
  · by_cases hg : o = .guest token
    · subst hg
      simp [Baskets.put, Baskets.remove]
    · simp [Baskets.put, Baskets.remove, hc, hg]

/-- A cart that is only touched. -/
theorem becomes_touch (hb : c.Becomes c' wanted coupon) (now : Instant) (guest : Bool) :
    c.Becomes (c'.touch now guest) wanted coupon :=
  ⟨hb.id, hb.customerId, hb.guestToken, hb.quantity, hb.coupon, hb.lines⟩

theorem settles_merge {a : CartAnswer} (h : Holding v v.before since u)
    (hcustomer : .customer id ∈ v.owners) (hguest : .guest token ∈ v.owners)
    (hr : v.request = .merge id token) (hg : u.cart (.guest token) = some g)
    (hmine : Baskets.Mine u.cart id m)
    (hb : m.Becomes m' (fun k => min 99 (m.quantity k + g.quantity k)) (m.joinedCoupon g))
    (ha : ∀ c, a = .ok c → c = some m') :
    Settles v ((Baskets.put v.before (.customer id) m').remove (.guest token)) a now := by
  refine settles_joined hcustomer hguest fun _ _ B₀ hB => ?_
  have hguest' : B₀ (.guest token) = some g :=
    (hB _ hguest).trans ((h.cart _ hguest).symm.trans hg)
  have hmine' : B₀.Mine id m := by
    unfold Baskets.Mine at hmine ⊢
    rw [hB _ hcustomer, ← h.cart _ hcustomer]
    exact hmine
  exact .joined hr hguest' hmine' hb ha

/-- The guest's cart has gone into the customer's. -/
theorem holding_merged (h : Holding v v.before u.now u)
    (hcart : t.cart = (Baskets.put u.cart (.customer id) m).remove (.guest token))
    (hnow : t.now = u.now) (hunderway : t.underway = u.underway) :
    Holding v ((Baskets.put v.before (.customer id) m).remove (.guest token)) u.now t := by
  refine ⟨⟨hunderway ▸ h.mem, fun o ho => ?_⟩, h.arrived, hnow.symm.le⟩
  rw [hcart]
  by_cases hg : o = .guest token
  · subst hg
    simp [Baskets.remove]
  · by_cases hc : o = .customer id
    · subst hc
      simp [Baskets.remove, Baskets.put]
    · simp [Baskets.remove, Baskets.put, hg, hc, h.cart o ho]

theorem obeys_merge (h : Holding v v.before since s) (hcustomer : .customer id ∈ v.owners)
    (hguest : .guest token ∈ v.owners) (hr : v.request = .merge id token) :
    (contract B₀).Obeys v.thread (Ready v.thread) (CartService.merge id token) s := by
  refine obeys_run ⟨v, _, rfl, h.toAt, hcustomer, hguest⟩ (fun u x a t hrely hi _ hp => ?_)
    fun u x e t hrely _ ht w hw => ?_
  · have hu := (h.stable hrely).later
    have hmerge : u.merge id token = (a, t) := by
      simp only [CartOp.perform] at hp
      obtain ⟨ha, ht⟩ := Prod.mk.inj hp
      exact Prod.ext (Except.ok.inj ha) ht
    cases hg : u.cart (.guest token) with
    | none =>
        rw [merge_none hi.sound hg] at hmerge
        obtain ⟨rfl, rfl⟩ := Prod.mk.inj hmerge
        have hbefore := (hu.cart _ hguest).symm.trans hg
        cases hm : u.cart (.customer id) with
        | none =>
            have hmine := (hu.cart _ hcustomer).symm.trans hm
            exact fun w hw => (hu.stable hw).ready (settles_same fun _ _ B₀ hB =>
              .nothing hr ((hB _ hguest).trans hbefore) ((hB _ hcustomer).trans hmine) rfl)
        | some m =>
            have hmine := (hu.cart _ hcustomer).symm.trans hm
            refine obeys_some (obeys_touch hu hcustomer hmine (fun now w _ hw => ?_) fun e w hw =>
              hw.refused e)
            refine hw.ready (settles_put hcustomer fun _ _ B₀ hB => ?_)
            exact .unjoined hr ((hB _ hguest).trans hbefore) ((hB _ hcustomer).trans hmine)
              (becomes_touch (CartRow.becomes_of_items rfl rfl rfl rfl rfl) _ _) rfl
    | some g =>
        obtain ⟨m, next, hmine, hlines, hbelow, hid, -, hcart, hnow, hunderway, -⟩ :=
          merge_some id hi.sound hg
        rw [hmerge] at hid hcart hnow hunderway
        have hglines := hi.sound.lines g (cart_mem hg)
        obtain ⟨hbecomes, -⟩ := CartRow.take_spec hlines hglines hbelow
        have ht := holding_merged hu hcart hnow hunderway
        have htaken : ((Baskets.put v.before (.customer id) (m.take g next).1).remove
            (.guest token)) (.customer id) = some (m.take g next).1 := by
          simp [Baskets.remove, Baskets.put]
        subst hid
        rw [← hbecomes.id]
        refine obeys_some (obeys_touch ht hcustomer htaken (fun now w _ hw => ?_) fun e w hw => ?_)
        · rw [put_remove] at hw
          exact hw.ready (settles_merge hu hcustomer hguest hr hg hmine
            (becomes_touch hbecomes _ _) fun _ ha => (Except.ok.inj ha).symm)
        · exact hw.ready (settles_merge hu hcustomer hguest hr hg hmine hbecomes
            fun _ ha => by cases ha)
  · have ht' : t = u := by
      rcases ht with ⟨-, rfl⟩ | hp
      · rfl
      · simp only [CartOp.perform] at hp
        cases (Prod.mk.inj hp).1
    subst ht'
    exact ((h.stable hrely).stable hw).refused e

/-- An order has been placed from the cart. -/
theorem obeys_ordered (h : Holding v v.before since s) (ho : o ∈ v.owners)
    (hr : v.request = .clearForOrder (some o)) :
    (contract B₀).Obeys v.thread (Ready v.thread)
      (CartService.run (.clearForOrder o) >>= fun _ => Pure.pure none) s := by
  refine obeys_run ⟨v, _, rfl, h.toAt, ho⟩ (fun u x a t hrely hi _ hp w hw => ?_)
    fun u x e t hrely _ ht w hw => ?_
  · have hu := h.stable hrely
    obtain rfl : u.clearForOrder o = t := (Prod.mk.inj hp).2
    cases hc : u.cart o with
    | none =>
        rw [clearForOrder_none hi.sound hc] at hw
        have hbefore := (hu.cart o ho).symm.trans hc
        refine (hu.stable hw).ready (settles_same fun _ _ B₀ hB => .unordered hr ?_ rfl)
        intro o' ho'
        obtain rfl := Option.some.inj ho'
        exact (hB _ ho).trans hbefore
    | some c =>
        have hbefore := (hu.cart o ho).symm.trans hc
        have hchanged := clearForOrder_some hi.sound hc
        have ht : Holding v (Baskets.put v.before o (u.stamp CartRow.clear c)) since
            (u.clearForOrder o) := by
          refine ⟨⟨hchanged.underway ▸ hu.mem, fun o' ho' => ?_⟩, hu.arrived,
            hchanged.now ▸ hu.since⟩
          rw [hchanged.cart]
          by_cases he : o' = o
          · subst he
            simp [Baskets.put]
          · simp [Baskets.put, he, hu.cart o' ho']
        exact (ht.stable hw).ready (settles_put ho fun _ _ B₀ hB =>
          .ordered hr ((hB o ho).trans hbefore) (becomes_clear u c) rfl)
  · rcases ht with ⟨-, rfl⟩ | hp
    · exact ((h.stable hrely).stable hw).refused e
    · cases (Prod.mk.inj hp).1

/-! ### Every call -/

theorem obeys_body (h : Holding v v.before since s) (hown : v.owners = v.request.owners)
    (hpurge : v.request ≠ .purgeExpiredGuestCarts) :
    (contract B₀).Obeys v.thread (Ready v.thread) (v.request.body host) s := by
  have hasked : ∀ asked, v.request.owners = asked.toList → ∀ o, asked = some o → o ∈ v.owners := by
    rintro asked howners o rfl
    rw [hown, howners]
    exact List.mem_cons_self
  cases hr : v.request with
  | get asked => exact obeys_get h (hasked asked (by rw [hr]; rfl)) hr
  | create asked => exact obeys_create h (hasked asked (by rw [hr]; rfl)) hr
  | add asked dto => exact obeys_some (obeys_add h (hasked asked (by rw [hr]; rfl)) hr)
  | setQuantity asked itemId dto =>
      exact obeys_some (obeys_setQuantity h (hasked asked (by rw [hr]; rfl)) hr)
  | clear asked => exact obeys_clear h (hasked asked (by rw [hr]; rfl)) hr
  | applyCoupon asked code =>
      exact obeys_some (obeys_applyCoupon h (hasked asked (by rw [hr]; rfl)) hr)
  | removeCoupon asked =>
      exact obeys_some (obeys_removeCoupon h (hasked asked (by rw [hr]; rfl)) hr)
  | merge id token =>
      rw [hr] at hown
      exact obeys_merge h (by rw [hown]; exact List.mem_cons_self)
        (by rw [hown]; exact List.mem_cons_of_mem _ List.mem_cons_self) hr
  | clearForOrder asked =>
      cases asked with
      | none =>
          exact fun w hw => (h.stable hw).ready
            (settles_same fun _ _ B₀ _ => .unordered hr (fun o ho => by cases ho) rfl)
      | some o => exact obeys_ordered h (hasked (some o) (by rw [hr]; rfl) o rfl) hr
  | purgeExpiredGuestCarts => exact absurd hr hpurge

/-- What a call of thread `i` returns has been answered. -/
def Recorded (i : TxId) (r : CartAnswer) (s : CartDesk) : Prop :=
  ∀ c, r = .ok c → ∃ e ∈ s.history, e.thread = i ∧ e.answer = r

theorem Recorded.stable {r : CartAnswer} (h : Recorded i r s) (hr : Rely i s t) :
    Recorded i r t := by
  intro c hc
  obtain ⟨e, he, hmade⟩ := h c hc
  exact ⟨e, hr.history.subset he, hmade⟩

/-- The answer goes out. -/
theorem obeys_answer {a : CartAnswer} {f : Unit → CartCall β}
    {Q : Except Fault β → CartDesk → Prop} (h : Ready i a s)
    (hok : ∀ t, (∃ e ∈ t.history, e.thread = i ∧ e.answer = a) →
      (contract B₀).Obeys i Q (f ()) t) :
    (contract B₀).Obeys i Q (CartService.run (.answer a) >>= f) s := by
  refine obeys_run h (fun u x _ t hr hi _ hp => ?_) fun u x e t hr hi ht => ?_
  · obtain rfl : u.answered i a = t := (Prod.mk.inj hp).2
    obtain ⟨v, B, rfl, hat, -⟩ := h.stable hr
    apply hok
    rw [history_answered hi hat.mem a]
    exact ⟨_, List.mem_cons_self, rfl, rfl⟩
  · rcases ht with ⟨hfail, -⟩ | hp
    · cases hfail
    · cases (Prod.mk.inj hp).1

theorem obeys_served {request : CartRequest} (hfresh : ∀ v ∈ s.underway, v.thread ≠ i)
    (hpurge : request ≠ .purgeExpiredGuestCarts) :
    (contract B₀).Obeys i (Recorded i) (request.served host) s := by
  refine obeys_run hfresh (fun u x _ t hr hi _ hp => ?_) fun u x e t hr hi ht => ?_
  · obtain rfl : u.arrive i request = t := (Prod.mk.inj hp).2
    -- the call starts with the carts as they are
    let v : Visit := { thread := i, request, owners := request.owners, arrived := u.now,
                       before := u.cart }
    have hv : Holding v v.before u.now (u.arrive i request) :=
      ⟨⟨List.mem_cons_self, fun _ _ => rfl⟩, le_refl _, le_refl _⟩
    have hbody : (contract B₀).Obeys v.thread (Ready v.thread) (request.body host)
        (u.arrive i request) := obeys_body hv rfl hpurge
    refine Contract.Obeys.bind (Contract.Obeys.catching (hbody.mono fun r t hready => ?_))
    cases r with
    | ok c => exact obeys_answer hready fun t ht w hw => Recorded.stable (fun _ _ => ht) hw
    | error fault => exact obeys_answer hready fun t ht w hw => Recorded.stable (fun _ _ => ht) hw
  · rcases ht with ⟨hfail, -⟩ | hp
    · cases hfail
    · cases (Prod.mk.inj hp).1

theorem obeys_serve (request : CartRequest) (hfresh : ∀ v ∈ s.underway, v.thread ≠ i) :
    (contract B₀).Obeys i (Recorded i) (request.serve host) s := by
  cases request with
  | purgeExpiredGuestCarts =>
      refine obeys_run trivial (fun u x _ t hr hi _ hp => ?_) fun u x e t hr hi _ w hw c hc => ?_
      · obtain rfl : u.purge i = t := (Prod.mk.inj hp).2
        exact fun w hw =>
          Recorded.stable (fun _ _ => ⟨_, List.mem_cons_self, rfl, rfl⟩) hw
      · cases hc
  | _ => exact obeys_served hfresh (by simp)

end calls

/-! ### Every run -/

theorem Inv.initial (hs : s.Sound) (hidle : s.underway = []) (hnew : s.history = []) :
    Inv s.cart s where
  sound := hs
  threads v hv := by simp [hidle] at hv
  apart v hv := by simp [hidle] at hv
  arrived v hv := by simp [hidle] at hv
  ledger := ⟨s.cart, hnew ▸ .nil, fun _ _ => rfl, fun v hv => by simp [hidle] at hv⟩

/-- **The carts are what the answered calls have made of them, one after the other.**  The calls
of the shoppers come at any time and their statements interleave and fail; where no two calls on
one cart overlap, each cart that no call has in hand is as the answered calls leave it when each
is made in one go, in the order of the answers. -/
theorem carts_serial {host : Host} {s₀ : CartDesk} (hs : s₀.Sound) (hidle : s₀.underway = [])
    (hnew : s₀.history = []) (as : List (Prog.Act CartRequest CartInput)) {w : CartWorld}
    (hapart : Machine.GuardedRun (cartStep host) (Prog.World.Admits Apart) { state := s₀ } as)
    (hrun : Machine.runFrom (cartStep host) { state := s₀ } as = some w) :
    (∃ B, Follows s₀.cart w.state.history B ∧
      ∀ o, (∀ v ∈ w.state.underway, o ∉ v.owners) → w.state.cart o = B o) ∧
    ∀ (i : ℕ) c, w.threads[i]? = some (.pure c) →
      ∃ e ∈ w.state.history, e.thread = i ∧ e.answer = .ok c := by
  have hstart : (contract s₀.cart).Kept Recorded ({ state := s₀ } : CartWorld) := by
    refine ⟨Inv.initial hs hidle hnew, fun i p hp => ?_, fun i _ v hv => ?_⟩
    · simp at hp
    · simp [hidle] at hv
  have hguarded := (Prog.World.run_guarded as _ hapart).trans hrun
  have hkept := Contract.Kept.run (C := contract s₀.cart)
    (fun request i s _ hfresh => obeys_serve request hfresh) as hstart hguarded
  refine ⟨?_, fun i c hc => ?_⟩
  · obtain ⟨B, hledger⟩ := hkept.inv.ledger
    exact ⟨B, hledger.follows, hledger.idle⟩
  · exact hkept.threads i _ hc _ (Rely.refl) c rfl

section merged

/-- Texts are as they are. -/
def cartHost : Host where
  md5 _ := ""
  toUpperCase := id
  toLowerCase := id
  number _ := none

def emptyDesk : CartDesk := { carts := [], nextCart := 1, nextItem := 1, now := 0 }

theorem emptyDesk_sound : emptyDesk.Sound := by
  constructor <;> simp [emptyDesk]

def guestToken : CartToken := ⟨"guest-0123456789", by decide, by decide⟩

/-- A guest and a customer put the same book in their carts at once, and then the guest logs
in. -/
def mergedCarts : List (Prog.Act CartRequest CartInput) :=
  let go (i : ℕ) : Prog.Act CartRequest CartInput :=
    .run i { now := 1, token := guestToken, shop := bookShop, store := couponDay [] }
  let book (q : ℤ) (hq : 1 ≤ q ∧ q ≤ 99) : AddCartItemDto :=
    { kind := .product, productId := some 1, quantity := some q,
      bounds := fun _ h => Option.some.inj h ▸ hq }
  [.start (.create none), go 0, go 0, go 0, go 0,
   .start (.add (some (.guest guestToken)) (book 2 (by decide))),
   .start (.add (some (.customer 7)) (book 3 (by decide))),
   go 1, go 2, go 2, go 1, go 2, go 1, go 1, go 2, go 1, go 1, go 2, go 2, go 1, go 2, go 2,
   .start (.merge 7 guestToken), go 3, go 3, go 3, go 3, go 3]

theorem carts_serial_merged : ∃ w : CartWorld,
    Machine.runFrom (cartStep cartHost) { state := emptyDesk } mergedCarts = some w ∧
      ∃ B, Follows emptyDesk.cart w.state.history B ∧ B (.guest guestToken) = none ∧
        ∃ c, B (.customer 7) = some c ∧ c.quantity ⟨.product, 1⟩ = 5 := by
  have hruns : (Machine.runFrom (cartStep cartHost) { state := emptyDesk } mergedCarts).any
      (fun w => w.state.underway.isEmpty && (w.state.cart (.guest guestToken)).isNone &&
        (w.state.cart (.customer 7)).any fun c => c.quantity ⟨.product, 1⟩ = 5) = true := by
    decide +kernel
  have hapart : Machine.GuardedRun (cartStep cartHost) (Prog.World.Admits Apart)
      { state := emptyDesk } mergedCarts := by
    decide +kernel
  obtain ⟨w, hw, hend⟩ := (Option.any_eq_true _ _).mp hruns
  obtain ⟨hend, hcart⟩ := Bool.and_eq_true_iff.mp hend
  obtain ⟨hidle, hguest⟩ := Bool.and_eq_true_iff.mp hend
  obtain ⟨⟨B, hfollows, hcarts⟩, -⟩ :=
    carts_serial emptyDesk_sound rfl rfl mergedCarts hapart hw
  have hall : ∀ o, w.state.cart o = B o := by
    intro o
    apply hcarts
    rw [List.isEmpty_iff.mp hidle]
    simp
  obtain ⟨c, hc, hquantity⟩ := (Option.any_eq_true _ _).mp hcart
  refine ⟨w, hw, B, hfollows, ?_, c, ?_, of_decide_eq_true hquantity⟩
  · rw [← hall]
    exact Option.isNone_iff_eq_none.mp hguest
  · rw [← hall]
    exact hc

end merged

end CartDesk

end BookHouse
