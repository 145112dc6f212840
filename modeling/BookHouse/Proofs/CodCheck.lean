/-
Does asking early say what placing will?

Both read the block flag, but not of the same row.  Placing reads the row it writes the
order to: the account's own row unless that is deleted, else the phone's.  Asking refuses
when either row is blocked, and looks at the account's row even when it is deleted.  So
nobody is let through to be refused later, and what is refused early may still be placed:
`codCheck_follows` says exactly when.
-/
import BookHouse.Orders.CodCheck
import BookHouse.Proofs.CouponExact
import BookHouse.Proofs.Stock

namespace BookHouse

open Result

/-- Asking early lets through exactly what placing does not refuse. -/
def AsksRight (s : Store) (phoneRaw : String) (user : Option AuthUser) (req : PlaceOrder)
    (now : Instant) : Prop :=
  (codCheck s (some phoneRaw) user).codAllowed = true ↔
    placeInTx s (req.onDelivery phoneRaw user) now ≠ .error customerBlocked

/-- The rows that asking reads are blocked only where the row that placing reads is. -/
structure RowsAgree (s : Store) (phoneRaw : String) (user : Option AuthUser) : Prop where
  /-- without a phone nothing is placed, so no account is blocked -/
  phoneless : normalizeBdPhone phoneRaw = none → ∀ c, accountRow s user = some c →
    c.isBlocked = false
  /-- who orders on their own row is blocked there, not by the phone they give -/
  own : ∀ c, accountRow s user = some c → c.deletedAt = none → c.isBlocked = false →
    ∀ d, phoneRow s (some phoneRaw) = some d → d.isBlocked = false
  /-- a deleted row is not ordered on, so its block counts only with the phone's -/
  deleted : ∀ c, accountRow s user = some c → c.deletedAt ≠ none → c.isBlocked = true →
    ∃ d, phoneRow s (some phoneRaw) = some d ∧ d.isBlocked = true

/-! ### Only the block check refuses with it -/

section spares

variable {s : Store}

theorem OrderItem.check_unblocked (i : OrderItem) :
    Spares customerBlocked (fun _ => True) i.check := by
  unfold OrderItem.check
  repeat' split
  all_goals simp [Spares, customerBlocked]

theorem insertOrder_unblocked (o : Order) :
    Spares customerBlocked (fun _ => True) (insertOrder s o) := by
  have hcheck : Spares customerBlocked (fun _ => True) o.check := by
    unfold Order.check
    repeat' split
    all_goals simp [Spares, customerBlocked]
  unfold insertOrder
  split
  · simp [Spares, customerBlocked]
  · refine hcheck.bind fun _ _ => (spares_forM _ fun i _ => i.check_unblocked).bind fun _ _ => ?_
    trivial

theorem Inventory.log_unblocked (p : Product) (type : StockMovementType) (a b : ℤ)
    (ctx : StockContext) : Spares customerBlocked (fun _ => True) (log s p type a b ctx) := by
  unfold log
  repeat' split
  all_goals simp [Spares, customerBlocked]

theorem Inventory.reserveLine_unblocked (ctx : StockContext) (l : StockLine) :
    Spares customerBlocked (fun _ => True) (reserveLine ctx s l) := by
  have hupdate : ∀ c f,
      Spares customerBlocked (fun _ => True) (updateProduct s l.key c f) := by
    intro c f
    unfold updateProduct
    split
    · trivial
    · rename_i p _
      have hcheck : Spares customerBlocked (fun _ => True) (f p).check := by
        unfold Product.check
        repeat' split
        all_goals simp [Spares, customerBlocked]
      exact hcheck.bind fun _ _ => trivial
  unfold reserveLine
  refine (hupdate _ _).bind fun updated _ => ?_
  split
  · exact log_unblocked ..
  · split
    · simp [Spares, customerBlocked]
    · simp [Spares, customerBlocked]

theorem Inventory.reserve_unblocked (lines : List StockLine) (ctx : StockContext) :
    Spares customerBlocked (fun _ => True) (reserve s lines ctx) := by
  have hmerge : Spares customerBlocked (fun _ => True) (merge lines) := by
    unfold merge
    split
    · simp [Spares, customerBlocked]
    · trivial
  unfold reserve
  exact hmerge.bind fun merged _ =>
    spares_foldlM merged s (fun l _ _ _ => reserveLine_unblocked ctx l) trivial

theorem writeOrder_unblocked (order : Order) (priced : PricedQuote) (now : Instant) :
    Spares customerBlocked (fun _ => True) (writeOrder s order priced now) := by
  have hredeem : ∀ t, Spares customerBlocked (fun _ => True)
      (redeemCoupon t priced order.id order.customerId) := by
    intro t
    unfold redeemCoupon
    split
    · unfold Coupons.redeem
      split
      · simp [Spares, customerBlocked]
      · trivial
    · trivial
  unfold writeOrder
  refine (insertOrder_unblocked order).bind fun t _ => ?_
  refine (Inventory.reserve_unblocked _ _).bind fun t _ => ?_
  exact (hredeem t).bind fun _ _ => trivial

/-- A coupon is rejected under a code of its own. -/
theorem CouponRejection.Fails.code_ne {r : CouponRejection} {rule : CouponRule}
    {lines : List CouponLine} {usage : CouponUsage} {now : Instant}
    (h : r.Fails rule lines usage now) : r.code ≠ "order.customer_blocked" := by
  rcases h with ⟨hc, -⟩ | ⟨hc, -⟩ | ⟨hc, -⟩ | ⟨hc, -⟩ | ⟨hc, -⟩ | ⟨hc, -⟩ | ⟨hc, -⟩ | ⟨hc, -⟩
  all_goals
    rw [hc]
    decide

theorem priceOrder_code {req : PlaceOrder} {customer : CustomerId} {now : Instant}
    {r : CouponRejection} (h : (priceOrder s req customer now).quote.couponRejection = some r) :
    r.code ≠ "order.customer_blocked" := by
  unfold priceOrder at h
  dsimp only at h
  split at h
  · obtain rfl := Option.some.inj h
    decide
  · unfold calculateQuote evaluateCartCoupon at h
    dsimp only at h
    split at h
    · rename_i hverdict
      obtain rfl := Option.some.inj h
      split at hverdict
      · split at hverdict
        · cases hverdict
        · exact (evaluateCoupon_error (Option.some.inj hverdict)).code_ne
      · cases hverdict
    · cases h

theorem placementRefusal_ne {req : PlaceOrder} {customer : CustomerId} {now : Instant} :
    placementRefusal req (priceOrder s req customer now).quote ≠ some customerBlocked := by
  unfold placementRefusal
  split
  · rename_i r hr
    intro h
    injection Option.some.inj h with hcode
    exact priceOrder_code hr hcode
  repeat' split
  all_goals simp [customerBlocked]

end spares

/-! ### Whose block placing reads -/

variable {s : Store} {phoneRaw : String} {user : Option AuthUser}

theorem placeInTx_blocked_iff (req : PlaceOrder) (now : Instant) :
    placeInTx s req now = .error customerBlocked ↔
      ∃ phone, req.phone = some phone ∧ (upsertCustomer s req phone).2.isBlocked = true ∧
        req.paymentMethod = .cod := by
  unfold placeInTx
  cases req.phone with
  | none => simp [customerBlocked]
  | some phone =>
      simp only [Option.some.injEq, exists_eq_left']
      split
      · rename_i hblocked
        simpa [customerBlocked] using hblocked
      rename_i hfree
      refine iff_of_false ?_ fun h => hfree (by simpa using h)
      split
      · rename_i failure hrefused
        intro h
        obtain rfl := Except.error.inj h
        exact placementRefusal_ne hrefused
      · exact ((writeOrder_unblocked _ _ _).map (Q := fun _ => True) fun _ _ => trivial).ne

/-- The account's own row unless it is deleted, else the phone's. -/
theorem upsertCustomer_blocked (req : PlaceOrder) (phone : String) :
    (upsertCustomer s (req.onDelivery phoneRaw user) phone).2.isBlocked =
      match (accountRow s user).filter (·.deletedAt.isNone) with
      | some c => c.isBlocked
      | none => (Rows.lookup Customer.phone phone s.customers).any (·.isBlocked) := by
  have hmine : ((user.bind (·.customerId)).bind fun id =>
      (Rows.lookup Customer.id id s.customers).filter (·.deletedAt.isNone)) =
        (accountRow s user).filter (·.deletedAt.isNone) := by
    unfold accountRow
    cases user.bind (·.customerId) with
    | none => rfl
    | some id => rfl
  unfold upsertCustomer PlaceOrder.onDelivery
  simp only [Option.isSome_none, Bool.false_eq_true, if_false]
  rw [hmine]
  cases (accountRow s user).filter (·.deletedAt.isNone) with
  | some c => rfl
  | none =>
      cases Rows.lookup Customer.phone phone s.customers with
      | some c => rfl
      | none => rfl

theorem unblocked_iff {row : Option Customer} :
    row.any (·.isBlocked) = false ↔ ∀ c, row = some c → c.isBlocked = false := by
  cases row with
  | none => simp
  | some c => simp

theorem codCheck_allowed :
    (codCheck s (some phoneRaw) user).codAllowed = true ↔
      (accountRow s user).any (·.isBlocked) = false ∧
        (phoneRow s (some phoneRaw)).any (·.isBlocked) = false := by
  unfold codCheck
  dsimp only
  split
  · rename_i hblocked
    simp [hblocked]
  split
  · rename_i hblocked
    simp [hblocked]
  · rename_i hown hphone
    simp [hown, hphone]

/-- Placing refuses a valid phone when the row it orders on is blocked. -/
theorem onDelivery_blocked_iff (req : PlaceOrder) (now : Instant) :
    placeInTx s (req.onDelivery phoneRaw user) now = .error customerBlocked ↔
      normalizeBdPhone phoneRaw ≠ none ∧
        (match (accountRow s user).filter (·.deletedAt.isNone) with
          | some c => c.isBlocked
          | none => (phoneRow s (some phoneRaw)).any (·.isBlocked)) = true := by
  have hphone : (req.onDelivery phoneRaw user).phone = normalizeBdPhone phoneRaw := rfl
  have hrow : phoneRow s (some phoneRaw) = (normalizeBdPhone phoneRaw).bind fun phone =>
      Rows.lookup Customer.phone phone s.customers := rfl
  rw [placeInTx_blocked_iff, hphone, hrow]
  constructor
  · rintro ⟨phone, hp, hblocked, -⟩
    rw [upsertCustomer_blocked] at hblocked
    rw [hp]
    exact ⟨by simp, hblocked⟩
  · rintro ⟨hvalid, hblocked⟩
    obtain ⟨phone, hp⟩ := Option.ne_none_iff_exists'.mp hvalid
    refine ⟨phone, hp, ?_, rfl⟩
    rw [upsertCustomer_blocked]
    rwa [hp] at hblocked

theorem phoneRow_none (h : normalizeBdPhone phoneRaw = none) :
    phoneRow s (some phoneRaw) = none := by
  show (normalizeBdPhone phoneRaw).bind _ = none
  rw [h]
  rfl

theorem phoneless_asks (h : normalizeBdPhone phoneRaw = none) (req : PlaceOrder)
    (now : Instant) : AsksRight s phoneRaw user req now ↔
      ∀ c, accountRow s user = some c → c.isBlocked = false := by
  have hrow : phoneRow s (some phoneRaw) = none := phoneRow_none h
  unfold AsksRight
  rw [codCheck_allowed, ne_eq, onDelivery_blocked_iff, hrow, h,
    unblocked_iff]
  simp

theorem live_asks {c : Customer} (h : normalizeBdPhone phoneRaw ≠ none)
    (hown : accountRow s user = some c) (hlive : c.deletedAt = none) (req : PlaceOrder)
    (now : Instant) : AsksRight s phoneRaw user req now ↔
      (c.isBlocked = false → (phoneRow s (some phoneRaw)).any (·.isBlocked) = false) := by
  have hfilter : (some c).filter (·.deletedAt.isNone) = some c := by simp [hlive]
  unfold AsksRight
  rw [codCheck_allowed, ne_eq, onDelivery_blocked_iff, hown, hfilter]
  simp [h]

/-- Without a live row of their own the shopper orders on the phone's. -/
theorem rowless_asks (h : normalizeBdPhone phoneRaw ≠ none)
    (hown : ∀ c, accountRow s user = some c → c.deletedAt ≠ none) (req : PlaceOrder)
    (now : Instant) : AsksRight s phoneRaw user req now ↔
      ((phoneRow s (some phoneRaw)).any (·.isBlocked) = false →
        (accountRow s user).any (·.isBlocked) = false) := by
  have hfilter : (accountRow s user).filter (·.deletedAt.isNone) = none := by
    rw [Option.filter_eq_none_iff]
    intro c hc
    simpa using hown c hc
  unfold AsksRight
  rw [codCheck_allowed, ne_eq, onDelivery_blocked_iff, hfilter]
  simp [h]

/-- **Asking early says what placing will exactly when the rows they read agree.** -/
theorem codCheck_follows (s : Store) (phoneRaw : String) (user : Option AuthUser)
    (req : PlaceOrder) (now : Instant) :
    AsksRight s phoneRaw user req now ↔ RowsAgree s phoneRaw user := by
  by_cases h : normalizeBdPhone phoneRaw = none
  · rw [phoneless_asks h]
    have hrow : phoneRow s (some phoneRaw) = none := phoneRow_none h
    constructor
    · intro hfree
      refine ⟨fun _ => hfree, fun c _ _ _ d hd => ?_, fun c hc _ hblocked => ?_⟩
      · rw [hrow] at hd
        cases hd
      · rw [hfree c hc] at hblocked
        cases hblocked
    · intro hr
      exact hr.phoneless h
  by_cases hown : ∃ c, accountRow s user = some c ∧ c.deletedAt = none
  · obtain ⟨c, hc, hlive⟩ := hown
    rw [live_asks h hc hlive, unblocked_iff]
    constructor
    · intro hfree
      refine ⟨fun hn => absurd hn h, fun x hx _ hxfree => ?_, fun x hx hdel => ?_⟩
      · obtain rfl := Option.some.inj (hc.symm.trans hx)
        exact hfree hxfree
      · obtain rfl := Option.some.inj (hc.symm.trans hx)
        exact absurd hlive hdel
    · intro hr
      exact hr.own c hc hlive
  · have hdeleted : ∀ c, accountRow s user = some c → c.deletedAt ≠ none :=
      fun c hc hlive => hown ⟨c, hc, hlive⟩
    rw [rowless_asks h hdeleted]
    constructor
    · intro hfree
      refine ⟨fun hn => absurd hn h, fun c hc hlive => absurd hlive (hdeleted c hc),
        fun c hc _ hblocked => ?_⟩
      by_contra hnone
      have hphone : (phoneRow s (some phoneRaw)).any (·.isBlocked) = false := by
        rw [unblocked_iff]
        intro d hd
        by_contra hd'
        exact hnone ⟨d, hd, by simpa using hd'⟩
      rw [unblocked_iff.mp (hfree hphone) c hc] at hblocked
      cases hblocked
    · intro hr hphone
      rw [unblocked_iff]
      intro c hc
      by_contra hblocked
      obtain ⟨d, hd, hdblocked⟩ := hr.deleted c hc (hdeleted c hc) (by simpa using hblocked)
      rw [unblocked_iff.mp hphone d hd] at hdblocked
      cases hdblocked

/-! ### A row that nobody orders on -/

/-- The small shop with a blocked customer whose row was deleted. -/
def shopOfBlocked : Store :=
  { smallShop with
    customers := [{ id := 0, phone := "+8801711111111", isBlocked := true, deletedAt := some 1 }] }

def blockedShopper : AuthUser := { id := 7, customerId := some 0 }

/-- **The shopper with the deleted row is told they may not pay on delivery, and may.** -/
theorem deleted_block_told : ¬ ∀ (s : Store) (phoneRaw : String) (user : Option AuthUser)
    (req : PlaceOrder) (now : Instant), (placeInTx s (req.onDelivery phoneRaw user) now).isOk →
      AsksRight s phoneRaw user req now := by
  intro hall
  have hok : (placeInTx shopOfBlocked
      ((oneBook .cod).onDelivery "01722222222" (some blockedShopper)) 5).isOk = true := by
    decide +kernel
  have htold := (hall shopOfBlocked "01722222222" (some blockedShopper) (oneBook .cod) 5 hok).mpr
    fun hblocked => by
      rw [hblocked] at hok
      cases hok
  rw [codCheck_allowed] at htold
  exact absurd htold.1 (by decide +kernel)

end BookHouse
