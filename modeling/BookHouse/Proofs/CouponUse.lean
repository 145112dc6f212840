/-
Coupon usage over whole runs: who holds a use, and what the limits are worth.

A use of a coupon is a redemption that is not revoked, and the order it belongs to says
whether it is: a void gives it back and a reopen takes it again.  That much holds in every
state.  The limits are looked at only when a cart is priced, so they hold in a run exactly
when each reopen still finds room for the use it takes.
-/
import BookHouse.Proofs.Coupons
import BookHouse.Proofs.Desk
import BookHouse.Proofs.Quote

namespace BookHouse

open Machine

namespace Store

/-- The uses of a coupon that count. -/
def couponUses (s : Store) (coupon : CouponId) : ℕ :=
  s.redemptions.countP fun r => r.couponId = coupon && r.revokedAt.isNone

/-- The uses of a coupon by one customer. -/
def customerUses (s : Store) (coupon : CouponId) (customer : CustomerId) : ℕ :=
  s.redemptions.countP fun r =>
    r.couponId = coupon && r.customerId = customer && r.revokedAt.isNone

end Store

/-- `usedCount` counts the uses, and a use counts while its order is neither cancelled nor
returned; so the clamp of the next revocation has nothing to do. -/
structure CouponsCounted (s : Store) : Prop where
  counted : ∀ c ∈ s.coupons, c.usedCount = s.couponUses c.id
  live : ∀ r ∈ s.redemptions, ∀ o ∈ s.orders, o.id = r.orderId →
    (r.revokedAt = none ↔ o.status.isTerminal = false)
  clamp : ∀ r ∈ s.redemptions, r.revokedAt = none → ∀ c ∈ s.coupons, c.id = r.couponId →
    max (c.usedCount - 1) 0 = c.usedCount - 1

/-- No coupon is used more often than it allows, in all or by one customer. -/
structure WithinLimits (s : Store) : Prop where
  usage : ∀ c ∈ s.coupons, ∀ l ∈ c.usageLimit, c.usedCount ≤ l
  customer : ∀ c ∈ s.coupons, ∀ l ∈ c.perCustomerLimit, ∀ k, (s.customerUses c.id k : ℤ) ≤ l

/-- There is room for one more use. -/
def hasRoom (s : Store) (r : CouponRedemption) (c : CouponRule) : Bool :=
  c.usageLimit.all (c.usedCount < ·) &&
    c.perCustomerLimit.all ((s.customerUses c.id r.customerId : ℤ) < ·)

/-- A reopen finds room for the use of its order. -/
def RestoresWithin (s : Store) : StockAction → Prop
  | .reopen ref _ _ _ =>
      (Rows.lookup CouponRedemption.orderId ref s.redemptions).all fun r =>
        (Rows.lookup CouponRule.id r.couponId s.coupons).all (hasRoom s r)
  | _ => True

instance (s : Store) : ∀ a, Decidable (RestoresWithin s a)
  | .reopen .. => inferInstanceAs (Decidable (_ = true))
  | .place .. | .apply .. | .regress .. | .receive .. | .addBatch .. | .setOnHand .. =>
      isTrue trivial

/-! ### The invariant -/

/-- What the desk knows of its coupons. -/
structure CouponInv (s : Store) : Prop where
  numbered : s.Numbered
  couponIds : (s.coupons.map CouponRule.id).Nodup
  redemptionIds : (s.redemptions.map CouponRedemption.orderId).Nodup
  placed : ∀ r ∈ s.redemptions, r.orderId < s.orders.length
  known : ∀ r ∈ s.redemptions, r.couponId ∈ s.coupons.map CouponRule.id
  counted : ∀ c ∈ s.coupons, c.usedCount = s.couponUses c.id
  live : ∀ r ∈ s.redemptions, ∀ o ∈ s.orders, o.id = r.orderId →
    (r.revokedAt = none ↔ o.status.isTerminal = false)

section uses

variable {s t : Store} {r : CouponRedemption} {c : CouponRule}

theorem couponUses_pos (hr : r ∈ s.redemptions) (hlive : r.revokedAt = none) :
    0 < s.couponUses r.couponId :=
  List.countP_pos_iff.mpr ⟨r, hr, by simp [hlive]⟩

theorem CouponInv.holds (h : CouponInv s) : CouponsCounted s := by
  refine ⟨h.counted, h.live, fun r hr hlive c hc hid => ?_⟩
  have hpos := couponUses_pos hr hlive
  rw [← hid] at hpos
  have hcount := h.counted c hc
  omega

/-! ### What a call does to the uses -/

theorem coupons_upsertCustomer (s : Store) (req : PlaceOrder) (phone : String) :
    (upsertCustomer s req phone).1.coupons = s.coupons ∧
      (upsertCustomer s req phone).1.redemptions = s.redemptions := by
  unfold upsertCustomer
  dsimp only
  split
  · exact ⟨rfl, rfl⟩
  · split
    · exact ⟨rfl, rfl⟩
    · exact ⟨rfl, rfl⟩

theorem findRule_mem {code : String} {rule : CouponRule} (h : Coupons.findRule s code = some rule) :
    rule ∈ s.coupons := by
  unfold Coupons.findRule at h
  dsimp only at h
  split at h
  · cases h
  · exact List.mem_of_find?_eq_some h

/-- The coupon a priced cart applies is one of the shop's, and was available. -/
theorem priceOrder_coupon {req : PlaceOrder} {customer : CustomerId} {now : Instant}
    {applied : QuotedCoupon} {rule : CouponRule}
    (hq : (priceOrder s req customer now).quote.coupon = some applied)
    (hr : (priceOrder s req customer now).coupon = some rule) :
    rule ∈ s.coupons ∧
      couponAvailability rule (Coupons.usage s rule.id (some customer)) now = none := by
  have hfound : (req.couponCode.filter (trim · ≠ "")).bind (Coupons.findRule s) = some rule := by
    unfold priceOrder at hr
    dsimp only at hr
    split at hr
    · exact hr
    · exact hr
  obtain ⟨code, -, hcode⟩ := Option.bind_eq_some_iff.mp hfound
  refine ⟨findRule_mem hcode, ?_⟩
  have happlied : ∃ res, appliedCoupon
      { lines := req.lines,
        coupon := some { rule, usage := Coupons.usage s rule.id (some customer) },
        zone := some req.zone, shippingRules := req.shippingRules, now := now } = some res := by
    unfold priceOrder at hq
    dsimp only at hq
    rw [hfound] at hq
    split at hq
    · obtain ⟨res, hres, -⟩ := Option.map_eq_some_iff.mp hq
      exact ⟨res, hres⟩
    · obtain ⟨res, hres, -⟩ := Option.map_eq_some_iff.mp hq
      exact ⟨res, hres⟩
  obtain ⟨res, hres⟩ := happlied
  obtain ⟨c, hc, heval⟩ := appliedCoupon_some hres
  obtain rfl := Option.some.inj hc
  exact (evaluateCoupon_ok heval).1

/-- The coupon a placement redeems has room for one more use. -/
theorem pricedAt_room {req : PlaceOrder} {phone : String} {now : Instant} {applied : QuotedCoupon}
    {rule : CouponRule} (hq : (pricedAt s req phone now).quote.coupon = some applied)
    (hr : (pricedAt s req phone now).coupon = some rule) (x : CouponRedemption)
    (hx : x.customerId = (upsertCustomer s req phone).2.id) :
    rule ∈ s.coupons ∧ hasRoom s x rule = true := by
  obtain ⟨hcoupons, hredemptions⟩ := coupons_upsertCustomer s req phone
  obtain ⟨hmem, havail⟩ := priceOrder_coupon hq hr
  refine ⟨hcoupons ▸ hmem, ?_⟩
  obtain ⟨husage, hcustomer, -⟩ := couponAvailability_none havail
  have huses : (Coupons.usage (upsertCustomer s req phone).1 rule.id
      (some (upsertCustomer s req phone).2.id)).customerRedemptions =
        some (s.customerUses rule.id x.customerId : ℤ) := by
    rw [Coupons.usage, hredemptions, hx]
    rfl
  exact Bool.and_eq_true_iff.mpr ⟨husage, hcustomer _ huses⟩

/-- A call takes a use, gives one back, takes one again, or leaves them as they are. -/
inductive UseMove (s : Store) (a : StockAction) (t : Store) : Prop
  | same (coupons : t.coupons = s.coupons) (redemptions : t.redemptions = s.redemptions)
      (ok : RestoresWithin s a)
  | taken {r : CouponRedemption} {c : CouponRule} (fresh : r.orderId = s.orders.length)
      (active : r.revokedAt = none) (mem : c ∈ s.coupons) (rule : c.id = r.couponId)
      (room : hasRoom s r c = true) (ok : RestoresWithin s a)
      (longer : s.orders.length < t.orders.length)
      (coupons : t.coupons = Rows.modify CouponRule.id r.couponId (Coupons.addUsed 1) s.coupons)
      (redemptions : t.redemptions = s.redemptions ++ [r])
  | revoked {r : CouponRedemption} {now : Instant} (mem : r ∈ s.redemptions)
      (active : r.revokedAt = none) (ok : RestoresWithin s a)
      (coupons : t.coupons = Rows.modify CouponRule.id r.couponId
        (fun c => { c with usedCount := max (c.usedCount - 1) 0 }) s.coupons)
      (redemptions : t.redemptions = Rows.modify CouponRedemption.orderId r.orderId
        (fun x => { x with revokedAt := some now }) s.redemptions)
  | restored {r : CouponRedemption} (mem : r ∈ s.redemptions) (revoked : r.revokedAt ≠ none)
      (ok : RestoresWithin s a ↔
        (Rows.lookup CouponRule.id r.couponId s.coupons).all (hasRoom s r) = true)
      (coupons : t.coupons = Rows.modify CouponRule.id r.couponId (Coupons.addUsed 1) s.coupons)
      (redemptions : t.redemptions = Rows.modify CouponRedemption.orderId r.orderId
        (fun x => { x with revokedAt := none }) s.redemptions)

theorem RestoresWithin.of_plain {a : StockAction} (h : a.reopens = false) : RestoresWithin s a := by
  cases a with
  | reopen => cases h
  | place => trivial
  | apply => trivial
  | regress => trivial
  | receive => trivial
  | addBatch => trivial
  | setOnHand => trivial

theorem reopens_of_quiet {a : StockAction} (h : a.actor = none) : a.reopens = false := by
  cases a with
  | reopen => cases h
  | place => rfl
  | apply => rfl
  | regress => rfl
  | receive => rfl
  | addBatch => rfl
  | setOnHand => rfl

/-- A revocation gives a use back, if the order holds one that counts. -/
theorem revoke_move {a : StockAction} {orders : List Order} {id : OrderId} {now : Instant}
    (hok : RestoresWithin s a)
    (hc : t.coupons = (Coupons.revoke { s with orders } id now).coupons)
    (hr : t.redemptions = (Coupons.revoke { s with orders } id now).redemptions) :
    UseMove s a t := by
  unfold Coupons.revoke at hc hr
  dsimp only at hc hr
  cases hfound : (Rows.lookup CouponRedemption.orderId id s.redemptions).filter
      (·.revokedAt.isNone) with
  | none =>
      rw [hfound] at hc hr
      exact .same hc hr hok
  | some r =>
      rw [hfound] at hc hr
      obtain ⟨hl, hactive⟩ := Option.filter_eq_some_iff.mp hfound
      obtain rfl := Rows.key_of_lookup hl
      have hnone : r.revokedAt = none := by simpa using hactive
      exact .revoked (Rows.mem_of_lookup hl) hnone hok hc hr

/-- A reopen takes the use of its order again, if there is one. -/
theorem restore_move {orders : List Order} {ref : OrderId} {cmd : ReopenCommand}
    {actor : TransitionActor} {now : Instant}
    (hrevoked : ∀ r ∈ s.redemptions, r.orderId = ref → r.revokedAt ≠ none)
    (hc : t.coupons = (Coupons.restore { s with orders } ref).coupons)
    (hr : t.redemptions = (Coupons.restore { s with orders } ref).redemptions) :
    UseMove s (.reopen ref cmd actor now) t := by
  unfold Coupons.restore at hc hr
  dsimp only at hc hr
  cases hl : Rows.lookup CouponRedemption.orderId ref s.redemptions with
  | none =>
      rw [hl] at hc hr
      refine .same hc hr ?_
      show (Rows.lookup CouponRedemption.orderId ref s.redemptions).all _ = true
      rw [hl]
      rfl
  | some r =>
      have hne := hrevoked r (Rows.mem_of_lookup hl) (Rows.key_of_lookup hl)
      have hsome : r.revokedAt.isSome := Option.isSome_iff_ne_none.mpr hne
      have hfilter : (some r).filter (·.revokedAt.isSome) = some r := by
        rw [Option.filter_some, if_pos hsome]
      rw [hl, hfilter] at hc hr
      obtain rfl := Rows.key_of_lookup hl
      refine .restored (Rows.mem_of_lookup hl) hne ?_ hc hr
      show (Rows.lookup CouponRedemption.orderId r.orderId s.redemptions).all _ = true ↔ _
      rw [hl]
      rfl

theorem DeskStep.useMove {a : StockAction} (hs : CouponInv s) (h : DeskStep s a t) :
    UseMove s a t := by
  cases h with
  | shelf quiet => exact .same rfl rfl (.of_plain (reopens_of_quiet quiet))
  | placed granted row sound redeemed =>
      rename_i req now phone o u
      obtain ⟨hcoupons, hredemptions⟩ := coupons_upsertCustomer s req phone
      obtain ⟨orderNo, rfl⟩ := row
      have hplain : RestoresWithin s (.place req now) := trivial
      unfold redeemCoupon at redeemed
      split at redeemed
      · rename_i applied rule hq hr
        obtain ⟨hmem, hroom⟩ := pricedAt_room hq hr
          { couponId := rule.id, orderId := s.orders.length,
            customerId := (upsertCustomer s req phone).2.id, discount := applied.discount } rfl
        unfold Coupons.redeem at redeemed
        split at redeemed
        · cases redeemed
        obtain rfl := Except.ok.inj redeemed
        refine .taken rfl rfl hmem rfl hroom hplain ?_ ?_ ?_
        · show s.orders.length < (s.orders ++ [_]).length
          simp
        · exact congrArg (Rows.modify CouponRule.id rule.id (Coupons.addUsed 1)) hcoupons
        · exact congrArg (· ++ _) hredemptions
      · obtain rfl := Except.ok.inj redeemed
        exact .same hcoupons hredemptions hplain
  | transitioned by_ plain found granted sound =>
      rename_i ref cmd actor now order plan
      have hok : RestoresWithin s a := .of_plain plain
      unfold deskTransition bookTransition
      dsimp only
      split
      · exact revoke_move (t := { Coupons.revoke _ order.id now with customers := _ }) hok rfl rfl
      · exact .same rfl rfl hok
  | reopened found granted sound =>
      rename_i ref cmd actor now order plan
      obtain rfl := Rows.key_of_lookup found
      refine restore_move (fun r hr hid hnone => ?_) rfl rfl
      have hopen := (hs.live r hr order (Rows.mem_of_lookup found) hid.symm).mp hnone
      have hclosed := (planReopen_ok granted).2.1
      rw [hopen] at hclosed
      cases hclosed

/-! ### Counting -/

/-- One use more or less, of the coupon and by the customer of a redemption. -/
structure UseShift (s t : Store) (r : CouponRedemption) (δ : ℤ) : Prop where
  coupons : t.coupons = Rows.modify CouponRule.id r.couponId (Coupons.addUsed δ) s.coupons
  uses : ∀ c, (t.couponUses c : ℤ) = s.couponUses c + if c = r.couponId then δ else 0
  customer : ∀ c k, (t.customerUses c k : ℤ) =
    s.customerUses c k + if c = r.couponId ∧ k = r.customerId then δ else 0

theorem UseShift.of_append (hactive : r.revokedAt = none)
    (hc : t.coupons = Rows.modify CouponRule.id r.couponId (Coupons.addUsed 1) s.coupons)
    (hr : t.redemptions = s.redemptions ++ [r]) : UseShift s t r 1 := by
  refine ⟨hc, fun c => ?_, fun c k => ?_⟩
  · unfold Store.couponUses
    rw [hr, List.countP_append, List.countP_singleton]
    by_cases h : c = r.couponId
    · simp [h, hactive]
    · have h' : ¬r.couponId = c := fun e => h e.symm
      simp [h, h']
  · unfold Store.customerUses
    rw [hr, List.countP_append, List.countP_singleton]
    by_cases h : c = r.couponId ∧ k = r.customerId
    · simp [h, hactive]
    · have h' : ¬(r.couponId = c ∧ r.customerId = k) := fun e => h ⟨e.1.symm, e.2.symm⟩
      simp [h, h']

/-- The redemption of an order starts or stops counting. -/
theorem UseShift.of_modify {δ : ℤ} {date : Option Instant} (hs : CouponInv s)
    (hmem : r ∈ s.redemptions)
    (hδ : (if date.isNone then 1 else 0) = (if r.revokedAt.isNone then 1 else 0) + δ)
    (hc : t.coupons = Rows.modify CouponRule.id r.couponId (Coupons.addUsed δ) s.coupons)
    (hr : t.redemptions = Rows.modify CouponRedemption.orderId r.orderId
      (fun x => { x with revokedAt := date }) s.redemptions) : UseShift s t r δ := by
  have hl := Rows.lookup_of_mem hs.redemptionIds hmem
  refine ⟨hc, fun c => ?_, fun c k => ?_⟩
  · unfold Store.couponUses
    rw [hr, Rows.countP_modify hs.redemptionIds hl]
    by_cases h : c = r.couponId
    · simp only [h, decide_true, Bool.true_and, if_true]
      omega
    · have h' : ¬r.couponId = c := fun e => h e.symm
      simp [h, h']
  · unfold Store.customerUses
    rw [hr, Rows.countP_modify hs.redemptionIds hl]
    by_cases h : c = r.couponId ∧ k = r.customerId
    · simp only [h, decide_true, Bool.true_and, and_self, if_true]
      omega
    · have h' : ¬(r.couponId = c ∧ r.customerId = k) := fun e => h ⟨e.1.symm, e.2.symm⟩
      simp [h, h']

/-- The clamp has nothing to do where a use counts. -/
theorem clampUsed_eq (hs : CouponInv s) (hmem : r ∈ s.redemptions) (hactive : r.revokedAt = none) :
    Rows.modify CouponRule.id r.couponId
        (fun c => { c with usedCount := max (c.usedCount - 1) 0 }) s.coupons =
      Rows.modify CouponRule.id r.couponId (Coupons.addUsed (-1)) s.coupons := by
  refine List.map_congr_left fun c hc => ?_
  by_cases hid : c.id = r.couponId
  · have hclamp := hs.holds.clamp r hmem hactive c hc hid
    rw [if_pos hid, if_pos hid]
    dsimp only
    rw [hclamp]
    rfl
  · rw [if_neg hid, if_neg hid]

/-- The coupons after a shift are those before it, with one count moved. -/
theorem UseShift.mem {δ : ℤ} (h : UseShift s t r δ) {c : CouponRule} :
    c ∈ t.coupons ↔ ∃ b ∈ s.coupons,
      { b with usedCount := b.usedCount + if b.id = r.couponId then δ else 0 } = c := by
  rw [h.coupons, Rows.modify, List.mem_map]
  refine exists_congr fun b => and_congr_right fun _ => ?_
  by_cases hid : b.id = r.couponId
  · rw [if_pos hid, if_pos hid]
    rfl
  · rw [if_neg hid, if_neg hid, add_zero]

theorem UseShift.counted {δ : ℤ} (h : UseShift s t r δ)
    (hs : ∀ c ∈ s.coupons, c.usedCount = s.couponUses c.id) :
    ∀ c ∈ t.coupons, c.usedCount = t.couponUses c.id := by
  intro c hc
  obtain ⟨b, hb, rfl⟩ := h.mem.mp hc
  show b.usedCount + _ = (t.couponUses b.id : ℤ)
  rw [h.uses, hs b hb]

/-- What the limits say after a shift, of the counts before it. -/
theorem UseShift.withinLimits {δ : ℤ} (h : UseShift s t r δ) : WithinLimits t ↔
    ∀ c ∈ s.coupons,
      (∀ l ∈ c.usageLimit, c.usedCount + (if c.id = r.couponId then δ else 0) ≤ l) ∧
      ∀ l ∈ c.perCustomerLimit, ∀ k,
        s.customerUses c.id k + (if c.id = r.couponId ∧ k = r.customerId then δ else 0) ≤ l := by
  constructor
  · intro ht c hc
    have hmem := h.mem.mpr ⟨c, hc, rfl⟩
    refine ⟨ht.usage _ hmem, fun l hl k => ?_⟩
    rw [← h.customer]
    exact ht.customer _ hmem l hl k
  · intro hs
    constructor
    · intro c hc
      obtain ⟨b, hb, rfl⟩ := h.mem.mp hc
      exact (hs b hb).1
    · intro c hc l hl k
      obtain ⟨b, hb, rfl⟩ := h.mem.mp hc
      rw [h.customer]
      exact (hs b hb).2 l hl k

/-- Giving a use back keeps within the limits. -/
theorem UseShift.withinLimits_back (h : UseShift s t r (-1)) (hs : WithinLimits s) :
    WithinLimits t := by
  refine h.withinLimits.mpr fun c hc => ⟨fun l hl => ?_, fun l hl k => ?_⟩
  · have hle := hs.usage c hc l hl
    split <;> omega
  · have hle := hs.customer c hc l hl k
    split <;> omega

/-- **Taking a use keeps within the limits exactly when there is room for it.** -/
theorem UseShift.withinLimits_taken (h : UseShift s t r 1) (hs : WithinLimits s) :
    WithinLimits t ↔ ∀ c ∈ s.coupons, c.id = r.couponId → hasRoom s r c = true := by
  have hroom : ∀ c, hasRoom s r c = true ↔ (∀ l ∈ c.usageLimit, c.usedCount < l) ∧
      ∀ l ∈ c.perCustomerLimit, (s.customerUses c.id r.customerId : ℤ) < l := by
    intro c
    simp [hasRoom, Option.all_eq_true]
  rw [h.withinLimits]
  refine forall₂_congr fun c hc => ?_
  by_cases hid : c.id = r.couponId
  · rw [hroom]
    constructor
    · rintro ⟨husage, hcustomer⟩ -
      refine ⟨fun l hl => ?_, fun l hl => ?_⟩
      · have hle := husage l hl
        rw [if_pos hid] at hle
        omega
      · have hle := hcustomer l hl r.customerId
        rw [if_pos ⟨hid, rfl⟩] at hle
        omega
    · intro hall
      obtain ⟨husage, hcustomer⟩ := hall hid
      refine ⟨fun l hl => ?_, fun l hl k => ?_⟩
      · have hlt := husage l hl
        rw [if_pos hid]
        omega
      · by_cases hk : k = r.customerId
        · have hlt := hcustomer l hl
          rw [if_pos ⟨hid, hk⟩, hk]
          omega
        · have hle := hs.customer c hc l hl k
          rw [if_neg fun e => hk e.2]
          omega
  · refine iff_of_true ⟨fun l hl => ?_, fun l hl k => ?_⟩ fun e => absurd e hid
    · have hle := hs.usage c hc l hl
      rw [if_neg hid]
      omega
    · have hle := hs.customer c hc l hl k
      rw [if_neg fun e => hid e.1]
      omega

/-! ### Which uses count -/

/-- An update of an order and of its redemption that agree keeps every use in step with its
order. -/
theorem live_modify {order : Order} {f : Order → Order} {g : CouponRedemption → CouponRedemption}
    (hs : CouponInv s) (found : Rows.lookup Order.id order.id s.orders = some order)
    (hf : (f order).id = order.id) (hg : ∀ r, (g r).orderId = r.orderId)
    (ho : t.orders = Rows.modify Order.id order.id f s.orders)
    (hr : t.redemptions = Rows.modify CouponRedemption.orderId order.id g s.redemptions)
    (hnew : ∀ r ∈ s.redemptions, r.orderId = order.id →
      ((g r).revokedAt = none ↔ (f order).status.isTerminal = false)) :
    ∀ r ∈ t.redemptions, ∀ o ∈ t.orders, o.id = r.orderId →
      (r.revokedAt = none ↔ o.status.isTerminal = false) := by
  intro x hx o hmem hid
  rw [hr] at hx
  rw [ho] at hmem
  obtain ⟨y, hy, rfl⟩ := List.mem_map.mp hx
  by_cases hk : y.orderId = order.id
  · rw [if_pos hk] at hid ⊢
    rcases Rows.mem_modify hs.numbered.nodup found hmem with rfl | ⟨-, hne⟩
    · exact hnew y hy hk
    · rw [hg, hk] at hid
      exact absurd hid hne
  · rw [if_neg hk] at hid ⊢
    rcases Rows.mem_modify hs.numbered.nodup found hmem with rfl | ⟨hold, -⟩
    · rw [hf] at hid
      exact absurd hid.symm hk
    · exact hs.live y hy o hold hid

theorem redemptions_revoke {id : OrderId} {now : Instant}
    (h : ∀ r ∈ s.redemptions, r.orderId = id → r.revokedAt = none) :
    (Coupons.revoke s id now).redemptions =
      Rows.modify CouponRedemption.orderId id (fun x => { x with revokedAt := some now })
        s.redemptions := by
  unfold Coupons.revoke
  cases hl : Rows.lookup CouponRedemption.orderId id s.redemptions with
  | none =>
      have hnot : id ∉ s.redemptions.map CouponRedemption.orderId := by
        rw [← Rows.lookup_isSome, hl]
        simp
      exact (Rows.modify_of_not_mem hnot).symm
  | some r =>
      have hnone := h r (Rows.mem_of_lookup hl) (Rows.key_of_lookup hl)
      rw [Option.filter_some, hnone]
      rfl

theorem redemptions_restore {id : OrderId}
    (h : ∀ r ∈ s.redemptions, r.orderId = id → r.revokedAt ≠ none) :
    (Coupons.restore s id).redemptions =
      Rows.modify CouponRedemption.orderId id (fun x => { x with revokedAt := none })
        s.redemptions := by
  unfold Coupons.restore
  cases hl : Rows.lookup CouponRedemption.orderId id s.redemptions with
  | none =>
      have hnot : id ∉ s.redemptions.map CouponRedemption.orderId := by
        rw [← Rows.lookup_isSome, hl]
        simp
      exact (Rows.modify_of_not_mem hnot).symm
  | some r =>
      have hsome := Option.isSome_iff_ne_none.mpr
        (h r (Rows.mem_of_lookup hl) (Rows.key_of_lookup hl))
      rw [Option.filter_some, hsome]
      rfl

/-- A transition revokes the coupon of exactly the orders it voids. -/
theorem revokeCoupon_eq {order : Order} {req : TransitionRequest} {plan : TransitionPlan}
    (h : planTransition order req = .ok plan) :
    plan.revokeCoupon = plan.toStatus.isTerminal := by
  obtain ⟨hopen, hne, hcase⟩ := planTransition_cases h
  cases hcase with
  | regress mode actor target eq =>
      have hopen' : req.toStatus.isTerminal = false := by
        unfold OrderStatus.regressTarget at target
        split at target
        · exact Option.some.inj target ▸ rfl
        · cases target
      rw [eq]
      exact hopen'.symm
  | void terminal eq granted =>
      rw [eq]
      exact terminal.symm
  | advance flow forward actor paid eq =>
      rw [eq]
      exact flow.symm

theorem DeskStep.live {a : StockAction} (hs : CouponInv s) (h : DeskStep s a t) :
    ∀ r ∈ t.redemptions, ∀ o ∈ t.orders, o.id = r.orderId →
      (r.revokedAt = none ↔ o.status.isTerminal = false) := by
  cases h with
  | shelf quiet => exact hs.live
  | placed granted row sound redeemed =>
      rename_i req now phone o u
      obtain ⟨-, hredemptions⟩ := coupons_upsertCustomer s req phone
      obtain ⟨orderNo, rfl⟩ := row
      intro r hr o ho hid
      have horders : u.orders = s.orders ++ [_] := orders_redeemCoupon redeemed
      have hnew : r ∈ s.redemptions ∨ r.orderId = s.orders.length ∧ r.revokedAt = none := by
        unfold redeemCoupon at redeemed
        split at redeemed
        · unfold Coupons.redeem at redeemed
          split at redeemed
          · cases redeemed
          obtain rfl := Except.ok.inj redeemed
          rcases List.mem_append.mp hr with hold | hlast
          · exact .inl (hredemptions ▸ hold)
          · rw [List.mem_singleton.mp hlast]
            exact .inr ⟨rfl, rfl⟩
        · obtain rfl := Except.ok.inj redeemed
          exact .inl (hredemptions ▸ hr)
      have hlt : ∀ x ∈ s.orders, x.id < s.orders.length := fun x hx =>
        List.mem_range.mp (hs.numbered ▸ List.mem_map_of_mem hx)
      rcases List.mem_append.mp (horders ▸ ho : o ∈ s.orders ++ [_]) with hold | hlast
      · rcases hnew with hr' | ⟨hfresh, -⟩
        · exact hs.live r hr' o hold hid
        · have hbad := hlt o hold
          rw [hid, hfresh] at hbad
          exact absurd hbad (Nat.lt_irrefl _)
      · rw [List.mem_singleton.mp hlast] at hid ⊢
        rcases hnew with hr' | ⟨-, hactive⟩
        · have hbad := hs.placed r hr'
          rw [← hid] at hbad
          exact absurd hbad (Nat.lt_irrefl _)
        · exact iff_of_true hactive rfl
  | transitioned by_ plain found granted sound =>
      rename_i ref cmd actor now order plan
      obtain rfl := Rows.key_of_lookup found
      have hopen := (planTransition_cases granted).1
      have hactive : ∀ r ∈ s.redemptions, r.orderId = order.id → r.revokedAt = none :=
        fun r hr hid => (hs.live r hr order (Rows.mem_of_lookup found) hid.symm).mpr hopen
      have hstatus : (order.transitioned plan cmd.note now).status.isTerminal =
          plan.revokeCoupon := (revokeCoupon_eq granted).symm
      have horders := orders_deskTransition s order plan cmd.note now
      by_cases hrevoke : plan.revokeCoupon = true
      · refine live_modify hs found rfl (g := fun x => { x with revokedAt := some now })
          (fun _ => rfl) horders ?_ fun r hr hid => ?_
        · unfold deskTransition bookTransition
          dsimp only
          rw [if_pos hrevoke]
          exact redemptions_revoke hactive
        · rw [hstatus, hrevoke]
          simp
      · refine live_modify hs found rfl (g := id) (fun _ => rfl) horders ?_ fun r hr hid => ?_
        · unfold deskTransition bookTransition
          dsimp only
          rw [if_neg hrevoke, Rows.modify_id]
        · rw [hstatus]
          exact iff_of_true (hactive r hr hid) (by simpa using hrevoke)
  | reopened found granted sound =>
      rename_i ref cmd actor now order plan
      obtain rfl := Rows.key_of_lookup found
      have hclosed := (planReopen_ok granted).2.1
      have hrevoked : ∀ r ∈ s.redemptions, r.orderId = order.id → r.revokedAt ≠ none := by
        intro r hr hid hnone
        have hopen := (hs.live r hr order (Rows.mem_of_lookup found) hid.symm).mp hnone
        rw [hopen] at hclosed
        cases hclosed
      refine live_modify hs found rfl (g := fun x => { x with revokedAt := none })
        (fun _ => rfl) (orders_deskReopen s order plan.toStatus now) ?_ fun r hr hid => ?_
      · exact redemptions_restore hrevoked
      · have hstatus : plan.toStatus.status.isTerminal = false := by
          cases plan.toStatus with
          | pending => rfl
          | confirmed => rfl
        exact iff_of_true rfl hstatus

/-! ### One call -/

theorem UseMove.couponIds {a : StockAction} (h : UseMove s a t) :
    t.coupons.map CouponRule.id = s.coupons.map CouponRule.id := by
  cases h with
  | same hc hr ok => rw [hc]
  | taken fresh active mem rule room ok longer hc hr =>
      rw [hc]
      exact Rows.map_modify fun _ => rfl
  | revoked mem active ok hc hr =>
      rw [hc]
      exact Rows.map_modify fun _ => rfl
  | restored mem revoked ok hc hr =>
      rw [hc]
      exact Rows.map_modify fun _ => rfl

/-- A redemption after a call was there before, under the same order and coupon, or is that
of the order just placed. -/
theorem UseMove.redemptions {a : StockAction} (h : UseMove s a t) :
    t.redemptions.map (fun r => (r.orderId, r.couponId)) =
        s.redemptions.map (fun r => (r.orderId, r.couponId)) ∨
      ∃ r, t.redemptions = s.redemptions ++ [r] ∧ r.orderId = s.orders.length ∧
        s.orders.length < t.orders.length ∧ r.couponId ∈ s.coupons.map CouponRule.id := by
  cases h with
  | same hc hr ok => exact .inl (by rw [hr])
  | taken fresh active mem rule room ok longer hc hr =>
      exact .inr ⟨_, hr, fresh, longer, rule ▸ List.mem_map_of_mem mem⟩
  | revoked mem active ok hc hr =>
      rw [hr]
      exact .inl (Rows.map_modify fun _ => rfl)
  | restored mem revoked ok hc hr =>
      rw [hr]
      exact .inl (Rows.map_modify fun _ => rfl)

/-- How a call that writes coupons shifts the uses. -/
theorem UseMove.shift {a : StockAction} (hs : CouponInv s) (h : UseMove s a t) :
    (t.coupons = s.coupons ∧ t.redemptions = s.redemptions ∧ RestoresWithin s a) ∨
      (∃ r, UseShift s t r (-1) ∧ RestoresWithin s a) ∨
      ∃ r, UseShift s t r 1 ∧
        (RestoresWithin s a ↔ ∀ c ∈ s.coupons, c.id = r.couponId → hasRoom s r c = true) := by
  cases h with
  | same hc hr ok => exact .inl ⟨hc, hr, ok⟩
  | taken fresh active mem rule room ok longer hc hr =>
      refine .inr (.inr ⟨_, .of_append active hc hr, iff_of_true ok fun b hb hid => ?_⟩)
      have hsame := List.inj_on_of_nodup_map hs.couponIds hb mem (hid.trans rule.symm)
      exact hsame ▸ room
  | revoked mem active ok hc hr =>
      refine .inr (.inl ⟨_, .of_modify hs mem ?_ (hc.trans (clampUsed_eq hs mem active)) hr, ok⟩)
      simp [active]
  | restored mem revoked ok hc hr =>
      rename_i r
      refine .inr (.inr ⟨r, .of_modify hs mem ?_ hc hr, ?_⟩)
      · have hsome := Option.isSome_iff_ne_none.mpr revoked
        simp [Option.isNone_iff_eq_none, revoked]
      obtain ⟨c, hlook⟩ := Option.isSome_iff_exists.mp (Rows.lookup_isSome.mpr (hs.known r mem))
      have hmem := Rows.mem_of_lookup hlook
      have hid := Rows.key_of_lookup hlook
      rw [ok, hlook, Option.all_some]
      refine ⟨fun hroom b hb hid' => ?_, fun hall => hall c hmem hid⟩
      have hsame := List.inj_on_of_nodup_map hs.couponIds hb hmem (hid'.trans hid.symm)
      exact hsame ▸ hroom

theorem UseMove.counted {a : StockAction} (hs : CouponInv s) (h : UseMove s a t) :
    ∀ c ∈ t.coupons, c.usedCount = t.couponUses c.id := by
  rcases h.shift hs with ⟨hc, hr, -⟩ | ⟨r, hshift, -⟩ | ⟨r, hshift, -⟩
  · have huses : t.couponUses = s.couponUses := by
      unfold Store.couponUses
      rw [hr]
    rw [hc, huses]
    exact hs.counted
  · exact hshift.counted hs.counted
  · exact hshift.counted hs.counted

theorem UseMove.withinLimits {a : StockAction} (hs : CouponInv s) (hlimits : WithinLimits s)
    (h : UseMove s a t) : WithinLimits t ↔ RestoresWithin s a := by
  rcases h.shift hs with ⟨hc, hr, hok⟩ | ⟨r, hshift, hok⟩ | ⟨r, hshift, hok⟩
  · have hcustomer : t.customerUses = s.customerUses := by
      unfold Store.customerUses
      rw [hr]
    refine iff_of_true ⟨?_, ?_⟩ hok
    · rw [hc]
      exact hlimits.usage
    · rw [hc, hcustomer]
      exact hlimits.customer
  · exact iff_of_true (hshift.withinLimits_back hlimits) hok
  · rw [hshift.withinLimits_taken hlimits, hok]

theorem DeskStep.couponInv {a : StockAction} (hs : CouponInv s) (h : DeskStep s a t) :
    CouponInv t := by
  have hmove := h.useMove hs
  have hcounted := hmove.counted hs
  have hlength : s.orders.length ≤ t.orders.length := by
    rcases h.orders with heq | ⟨o, heq, -⟩ | ⟨order, f, -, heq, -⟩
    · rw [heq]
    · simp [heq]
    · simp [heq, Rows.modify]
  have hids := hmove.couponIds
  rcases hmove.redemptions with heq | ⟨r, heq, hfresh, hlonger, hknown⟩
  · have horders : t.redemptions.map CouponRedemption.orderId =
        s.redemptions.map CouponRedemption.orderId := by
      have hmap := congrArg (List.map Prod.fst) heq
      simpa [List.map_map, Function.comp_def] using hmap
    have hback : ∀ r ∈ t.redemptions, ∃ x ∈ s.redemptions,
        x.orderId = r.orderId ∧ x.couponId = r.couponId := by
      intro r hr
      have hmem := List.mem_map_of_mem (f := fun r => (r.orderId, r.couponId)) hr
      rw [heq] at hmem
      obtain ⟨x, hx, hpair⟩ := List.mem_map.mp hmem
      exact ⟨x, hx, (Prod.mk.inj hpair).1, (Prod.mk.inj hpair).2⟩
    refine ⟨h.numbered hs.numbered, hids ▸ hs.couponIds, horders ▸ hs.redemptionIds, ?_, ?_,
      hcounted, h.live hs⟩
    · intro r hr
      obtain ⟨x, hx, hid, -⟩ := hback r hr
      exact hid ▸ lt_of_lt_of_le (hs.placed x hx) hlength
    · intro r hr
      obtain ⟨x, hx, -, hid⟩ := hback r hr
      rw [hids, ← hid]
      exact hs.known x hx
  · refine ⟨h.numbered hs.numbered, hids ▸ hs.couponIds, ?_, ?_, ?_, hcounted, h.live hs⟩
    · rw [heq, List.map_append, List.map_singleton]
      refine hs.redemptionIds.append (List.nodup_singleton _) ?_
      rw [List.disjoint_singleton, hfresh]
      intro hmem
      obtain ⟨x, hx, hid⟩ := List.mem_map.mp hmem
      have hlt := hs.placed x hx
      rw [hid] at hlt
      exact absurd hlt (Nat.lt_irrefl _)
    · intro x hx
      rcases List.mem_append.mp (heq ▸ hx) with hold | hnew
      · exact lt_of_lt_of_le (hs.placed x hold) hlength
      · rw [List.mem_singleton.mp hnew, hfresh]
        exact hlonger
    · intro x hx
      rw [hids]
      rcases List.mem_append.mp (heq ▸ hx) with hold | hnew
      · exact hs.known x hold
      · rw [List.mem_singleton.mp hnew]
        exact hknown

theorem stockStep_withinLimits {clamp : ℤ → ℤ} {a : StockAction} (hs : CouponInv s.desk)
    (hlimits : WithinLimits s) (h : stockStep clamp s a = some t) :
    WithinLimits t ↔ RestoresWithin s a := by
  have hmove := (stockStep_desk h).useMove hs
  have hiff := hmove.withinLimits hs ⟨hlimits.usage, hlimits.customer⟩
  have hdesk : WithinLimits t ↔ WithinLimits t.desk :=
    ⟨fun h => ⟨h.usage, h.customer⟩, fun h => ⟨h.usage, h.customer⟩⟩
  have hsame : RestoresWithin s.desk a ↔ RestoresWithin s a := by
    cases a with
    | reopen => exact Iff.rfl
    | place => exact Iff.rfl
    | apply => exact Iff.rfl
    | regress => exact Iff.rfl
    | receive => exact Iff.rfl
    | addBatch => exact Iff.rfl
    | setOnHand => exact Iff.rfl
  exact hdesk.trans (hiff.trans hsame)

theorem couponsCounted_of_desk (h : CouponInv s.desk) : CouponsCounted s := by
  have hdesk := h.holds
  exact ⟨hdesk.counted, fun r hr o ho => hdesk.live r hr o.head (List.mem_map_of_mem ho),
    hdesk.clamp⟩

end uses

/-! ### Whole runs -/

/-- A shop that has sold nothing yet, with its coupons as they were made. -/
structure CouponsNew (s : Store) : Prop where
  noOrders : s.orders = []
  noRedemptions : s.redemptions = []
  ids : (s.coupons.map CouponRule.id).Nodup
  unused : ∀ c ∈ s.coupons, c.usedCount = 0
  limits : ∀ c ∈ s.coupons, (∀ l ∈ c.usageLimit, 0 < l) ∧ ∀ l ∈ c.perCustomerLimit, 0 < l

theorem CouponsNew.couponInv {s : Store} (h : CouponsNew s) : CouponInv s.desk := by
  have horders : s.desk.orders = [] := by simp [Store.desk, h.noOrders]
  have hred : s.desk.redemptions = [] := h.noRedemptions
  have hno : ∀ r, r ∉ s.desk.redemptions := by
    intro r hr
    rw [hred] at hr
    cases hr
  refine ⟨?_, h.ids, ?_, fun r hr => absurd hr (hno r), fun r hr => absurd hr (hno r), ?_,
    fun r hr => absurd hr (hno r)⟩
  · rw [Store.Numbered, horders]
    rfl
  · rw [hred]
    exact List.nodup_nil
  · intro c hc
    rw [h.unused c hc, Store.couponUses, hred]
    rfl

theorem CouponsNew.withinLimits {s : Store} (h : CouponsNew s) : WithinLimits s := by
  constructor
  · intro c hc l hl
    rw [h.unused c hc]
    exact ((h.limits c hc).1 l hl).le
  · intro c hc l hl k
    rw [Store.customerUses, h.noRedemptions]
    exact ((h.limits c hc).2 l hl).le

/-- **In every run, coupon usage is counted rightly; and it stays within the limits in all
states of the run exactly when each reopen finds room for the use it takes again.** -/
theorem coupon_limits_iff (s₀ t : Store) (as : List StockAction) (hnew : CouponsNew s₀)
    (hrun : runFrom (stockStep clampZero) s₀ as = some t) :
    Along (stockStep clampZero) CouponsCounted s₀ as ∧
      (Along (stockStep clampZero) (fun s => CouponsCounted s ∧ WithinLimits s) s₀ as ↔
        GuardedRun (stockStep clampZero) RestoresWithin s₀ as) := by
  have hkeep : ∀ s a s', CouponInv s.desk → stockStep clampZero s a = some s' →
      CouponInv s'.desk := fun s a s' hi h => (stockStep_desk h).couponInv hi
  constructor
  · have hall : ∀ s (a : StockAction), (fun _ _ => True : Store → StockAction → Prop) s a :=
      fun _ _ => trivial
    have halong := along_of_guarded (fun s a s' hi _ h => hkeep s a s' hi h) as s₀ hnew.couponInv
      (guardedRun_of_forall hall as s₀)
    exact Along.mono (fun _ => couponsCounted_of_desk) as s₀ halong
  · refine along_iff_guarded (I := fun s => CouponInv s.desk) (fun s a s' hi hP h => ?_) as s₀ t
      hnew.couponInv ⟨couponsCounted_of_desk hnew.couponInv, hnew.withinLimits⟩ hrun
    have hi' := hkeep s a s' hi h
    refine ⟨hi', ?_⟩
    rw [← stockStep_withinLimits hi hP.2 h]
    exact ⟨fun h => h.2, fun h => ⟨couponsCounted_of_desk hi', h⟩⟩

/-- The small shop with one coupon that one customer may use once. -/
def couponShop : Store :=
  { smallShop with
      coupons := [{ id := 1, code := "EID", type := .fixed, value := 50, usageLimit := some 1,
                    perCustomerLimit := some 1 }] }

theorem couponShop_new : CouponsNew couponShop := by
  refine ⟨rfl, rfl, by decide, ?_, ?_⟩
  · simp [couponShop]
  · simp [couponShop]

/-- An order with the coupon is cancelled, another takes the use, and is cancelled too; then
the second, or the first, is reopened. -/
def couponDays (second : StockAction) : List StockAction :=
  let cart : PlaceOrder := { oneBook .cod with couponCode := some "eid" }
  [.place cart 1, .apply 0 { toStatus := .cancelled } .customer 2, .place cart 3, second,
    .reopen 0 { reason := "ভুল" } .staff 5]

/-- With the second order cancelled as well, the reopen finds room. -/
theorem coupon_limits_iff_roomy :
    (∃ t, runFrom (stockStep clampZero) couponShop
      (couponDays (.apply 1 { toStatus := .cancelled } .customer 4)) = some t) ∧
    Along (stockStep clampZero) (fun s => CouponsCounted s ∧ WithinLimits s) couponShop
      (couponDays (.apply 1 { toStatus := .cancelled } .customer 4)) := by
  have hruns : (runFrom (stockStep clampZero) couponShop
      (couponDays (.apply 1 { toStatus := .cancelled } .customer 4))).isSome = true := by
    decide +kernel
  obtain ⟨t, ht⟩ := Option.isSome_iff_exists.mp hruns
  have hguarded : GuardedRun (stockStep clampZero) RestoresWithin couponShop
      (couponDays (.apply 1 { toStatus := .cancelled } .customer 4)) := by
    decide +kernel
  exact ⟨⟨t, ht⟩, (coupon_limits_iff couponShop t _ couponShop_new ht).2.mpr hguarded⟩

/-- While the second order keeps the use, the reopen takes it a second time. -/
theorem reopened_over_limit :
    ∃ t, runFrom (stockStep clampZero) couponShop
        (couponDays (.receive 1 1 90 { now := 4 })) = some t ∧
      ∃ c ∈ t.coupons, c.usageLimit = some 1 ∧ c.usedCount = 2 ∧ c.perCustomerLimit = some 1 ∧
        t.customerUses c.id 0 = 2 := by
  have hruns : (runFrom (stockStep clampZero) couponShop
      (couponDays (.receive 1 1 90 { now := 4 }))).any (fun t =>
        t.coupons.any fun c => c.usageLimit = some 1 && c.usedCount = 2 &&
          c.perCustomerLimit = some 1 && t.customerUses c.id 0 = 2) = true := by
    decide +kernel
  obtain ⟨t, ht, hany⟩ := Option.any_eq_true _ _ |>.mp hruns
  obtain ⟨c, hc, hfacts⟩ := List.any_eq_true.mp hany
  simp only [Bool.and_eq_true, decide_eq_true_eq, and_assoc] at hfacts
  exact ⟨t, ht, c, hc, hfacts⟩

end BookHouse
