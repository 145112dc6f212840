/-
The cart and the checkout.

Both quotes come from `calculateQuote` on the same lines, zone and rules; what may differ is
what the coupon knows of its customer.  A quote reads the usage through `couponAvailability`
only, and there only by the limit per customer and the first-order rule (`refuses`).  So the
cart shows what the placement charges exactly where the buyer's own use does not decide
(`cart_agrees_iff`).
-/
import BookHouse.Lib.Result
import BookHouse.Orders.Cart
import BookHouse.Proofs.Quote

namespace BookHouse

/-- What is known of the usage of somebody unknown. -/
def CouponUsage.unknown : CouponUsage := { customerRedemptions := none, customerPriorOrders := none }

/-- The customer has used the coupon up, or has ordered before and it is for first orders. -/
def CouponUsage.refuses (usage : CouponUsage) (rule : CouponRule) : Bool :=
  (rule.perCustomerLimit.any fun l => usage.customerRedemptions.any (l ≤ ·)) ||
    rule.firstOrderOnly && usage.customerPriorOrders.any (0 < ·)

section coupon

variable {rule : CouponRule} {usage : CouponUsage} {now : Instant} {lines : List CouponLine}

/-- Where the usage refuses nothing it is not read. -/
theorem couponAvailability_unknown (h : usage.refuses rule = false) :
    couponAvailability rule usage now = couponAvailability rule .unknown now := by
  simp only [CouponUsage.refuses, Bool.or_eq_false_iff] at h
  obtain ⟨hlimit, hfirst⟩ := h
  have hnone : ∀ u : CouponUsage, (rule.perCustomerLimit.any fun l =>
      u.customerRedemptions.any (l ≤ ·)) = false →
      (rule.perCustomerLimit.filter fun l => u.customerRedemptions.any (l ≤ ·)) = none := by
    intro u hu
    cases hl : rule.perCustomerLimit with
    | none => rfl
    | some l =>
        rw [hl, Option.any_some] at hu
        simp [Option.filter, hu]
  have hunknown : (rule.perCustomerLimit.any fun l =>
      CouponUsage.unknown.customerRedemptions.any (l ≤ ·)) = false := by
    cases rule.perCustomerLimit <;> rfl
  unfold couponAvailability
  rw [hnone usage hlimit, hnone .unknown hunknown, hfirst]
  simp [CouponUsage.unknown]

theorem couponAvailability_refused (h : usage.refuses rule = true) :
    couponAvailability rule usage now ≠ none := by
  intro hc
  obtain ⟨-, hlimit, hfirst⟩ := couponAvailability_none hc
  rw [CouponUsage.refuses, hfirst, Bool.or_false] at h
  obtain ⟨l, hl, hused⟩ := (Option.any_eq_true _ _).mp h
  obtain ⟨n, hn, hle⟩ := (Option.any_eq_true _ _).mp hused
  have hall := hlimit n hn
  simp only [hl, Option.all_some, decide_eq_true_eq] at hall hle
  omega

theorem evaluateCoupon_unknown (h : usage.refuses rule = false) :
    evaluateCoupon rule lines usage now = evaluateCoupon rule lines .unknown now := by
  rw [evaluateCoupon, evaluateCoupon, couponAvailability_unknown h]

theorem evaluateCoupon_refused (h : usage.refuses rule = true) (res : CouponApplied) :
    evaluateCoupon rule lines usage now ≠ .ok res :=
  fun hok => couponAvailability_refused h (evaluateCoupon_ok hok).1

end coupon

/-! ### Two quotes for one cart -/

/-- The same lines and amounts, and the coupon accepted in both or in neither. -/
structure SameQuote (q r : Quote) : Prop where
  lines : q.lines = r.lines
  itemsSubtotal : q.itemsSubtotal = r.itemsSubtotal
  discountTotal : q.discountTotal = r.discountTotal
  shippingFee : q.shippingFee = r.shippingFee
  taxTotal : q.taxTotal = r.taxTotal
  grandTotal : q.grandTotal = r.grandTotal
  accepted : q.coupon.isSome = r.coupon.isSome

/-- The fee of a cart with these lines, and free delivery from its coupon or not. -/
def cartFee (input : QuoteInput) (lines : List QuotedLine) (couponFreeShipping : Bool) :
    Option Money :=
  (resolveShipping
    { zone := input.zone,
      lines := lines.map fun l =>
        { kind := l.kind, sectionId := l.sectionId, freeShipping := l.freeShipping },
      netSubtotal := (lines.map (·.gross)).sum - (lines.map (·.discount)).sum,
      couponFreeShipping, rules := input.shippingRules, now := input.now }).fee.map round2

theorem calculateQuote_fee (input : QuoteInput) : (calculateQuote input).shippingFee =
    cartFee input (calculateQuote input).lines
      (((appliedCoupon input).map (·.freeShipping)).getD false) := rfl

theorem calculateQuote_total (input : QuoteInput) : (calculateQuote input).grandTotal =
    ((calculateQuote input).lines.map (·.gross)).sum -
      ((calculateQuote input).lines.map (·.discount)).sum +
      (calculateQuote input).shippingFee.getD 0 +
      ((calculateQuote input).lines.map (·.taxAmount)).sum := rfl

/-- A quote depends on the coupon through what was applied. -/
theorem sameQuote_of_applied {input : QuoteInput} {c : Option CouponInput}
    (h : appliedCoupon input = appliedCoupon { input with coupon := c }) :
    SameQuote (calculateQuote input) (calculateQuote { input with coupon := c }) := by
  have hlines : (calculateQuote input).lines =
      (calculateQuote { input with coupon := c }).lines := by
    rw [calculateQuote_lines, calculateQuote_lines]
    simp only [couponShareAt, couponEligibleAt, h]
  have hfee : (calculateQuote input).shippingFee =
      (calculateQuote { input with coupon := c }).shippingFee := by
    rw [calculateQuote_fee, calculateQuote_fee, hlines, h]
    rfl
  refine ⟨hlines, ?_, ?_, hfee, ?_, ?_, ?_⟩
  · exact congrArg (fun ls : List QuotedLine => (ls.map (·.gross)).sum) hlines
  · exact congrArg (fun ls : List QuotedLine => (ls.map (·.discount)).sum) hlines
  · exact congrArg (fun ls : List QuotedLine => (ls.map (·.taxAmount)).sum) hlines
  · rw [calculateQuote_total, calculateQuote_total, hlines, hfee]
  · rw [calculateQuote_coupon, calculateQuote_coupon, h]

/-! ### What the pricing service returns -/

namespace PricingService

variable {s : Store} {shop : Shop} {req : QuoteRequest} {p : PricedLines}
  {lines : List (Tally.Entry LineKey)} {district : Option District}

/-- What is noted on a quote is no part of what is compared. -/
theorem noteMissing_same (b b' : Bool) {q r : Quote} :
    SameQuote (noteMissing b q) (noteMissing b' r) ↔ SameQuote q r := by
  constructor
  · intro h
    cases b <;> cases b' <;> exact ⟨h.1, h.2, h.3, h.4, h.5, h.6, h.7⟩
  · intro h
    cases b <;> cases b' <;> exact ⟨h.1, h.2, h.3, h.4, h.5, h.6, h.7⟩

/-- Lines that merge, a district that is found, nothing missing that must be there. -/
theorem quote_ok (req : QuoteRequest) (hm : mergeLines req.lines = .ok lines)
    (hd : districtOf shop req.district = .ok district)
    (hs : req.strict = true → (loadLines s shop req.now lines).2 = []) :
    ∃ p, quote s shop req = .ok p ∧ p.coupon = couponOf s req.couponCode ∧
      p.quote = noteMissing (req.couponCode.any (trim · ≠ "") && (couponOf s req.couponCode).isNone)
        (calculateQuote (quoteInput s shop req lines district)) := by
  have hstrict : (req.strict && decide ((loadLines s shop req.now lines).2 ≠ [])) = false := by
    cases hr : req.strict with
    | false => rfl
    | true => simp [hs hr]
  simp only [quote, hm, hd, bind, Except.bind, hstrict]
  exact ⟨_, rfl, rfl, rfl⟩

/-- A strict request with a line that cannot be sold is refused. -/
theorem quote_unavailable (req : QuoteRequest) (hm : mergeLines req.lines = .ok lines)
    (hd : districtOf shop req.district = .ok district) (hs : req.strict = true)
    (hu : (loadLines s shop req.now lines).2 ≠ []) : quote s shop req =
      .error (.rule "order.item_unavailable" "কিছু পণ্য এখন বিক্রি হচ্ছে না — কার্ট আপডেট করুন") := by
  have hstrict : (req.strict && decide ((loadLines s shop req.now lines).2 ≠ [])) = true := by
    simp [hs, hu]
  simp only [quote, hm, hd, bind, Except.bind, hstrict]
  rfl

/-- Lines that do not merge make no quote. -/
theorem quote_unmerged (req : QuoteRequest) {failure : Failure} (hm : mergeLines req.lines = .error failure) :
    quote s shop req = .error failure := by
  simp only [quote, hm, bind, Except.bind]

/-- The quote of a placement is its priced order on the lines it resolves to. -/
theorem priceOrder_of_quote {dto : PlaceOrderDto} (user : Option AuthUser)
    (staff : Option StaffOrderOptions) {d : District} {customer : CustomerId} {now : Instant}
    (hd : districtOf shop (some { id := some d.id }) = .ok (some d))
    (h : quote s shop (OrderPlacementService.quoteRequest dto d customer now) = .ok p) :
    ∃ lines, priceOrder s (OrderPlacementService.resolved shop dto user staff d lines) customer
      now = ⟨p.quote, p.coupon⟩ := by
  let req := OrderPlacementService.quoteRequest dto d customer now
  cases hm : mergeLines req.lines with
  | error failure =>
      rw [quote_unmerged req hm] at h
      cases h
  | ok lines =>
      by_cases hu : (loadLines s shop now lines).2 = []
      · obtain ⟨p', hp', hcoupon, hquote⟩ := quote_ok (s := s) req hm hd fun _ => hu
        obtain rfl := Except.ok.inj (h.symm.trans hp')
        refine ⟨(loadLines s shop now lines).1, ?_⟩
        rw [hquote, hcoupon]
        cases hcode : dto.couponCode with
        | none =>
            simp [priceOrder, OrderPlacementService.resolved, hcode, req,
              OrderPlacementService.quoteRequest, couponOf, noteMissing, quoteInput]
        | some code =>
            by_cases hblank : trim code = ""
            · simp [priceOrder, OrderPlacementService.resolved, hcode, req, hblank,
                OrderPlacementService.quoteRequest, couponOf, noteMissing, quoteInput]
            · simp [priceOrder, OrderPlacementService.resolved, hcode, req, hblank,
                OrderPlacementService.quoteRequest, couponOf, noteMissing, quoteInput]
              split <;> rfl
      · rw [quote_unavailable req hm hd rfl hu] at h
        cases h

end PricingService

/-! ### The cart and the placement -/

/-- A placement that fails for one of these says nothing about the quote. -/
def excused : Failure → Bool
  | .rule code _ _ => code ∈ ["order.item_unavailable", "stock.insufficient", "order.phone_invalid",
      "order.customer_blocked", "payment.min_amount"]
  | _ => false

section cart

open OrderPlacementService

variable {s : Store} {shop : Shop} {cart : Cart} {form : PlaceOrderDto} {userId : ℕ} {d : District}
  {phone : String} {now : Instant}

/-- The store and the customer that the cart is placed for. -/
def buyer (s : Store) (shop : Shop) (cart : Cart) (form : PlaceOrderDto) (userId : ℕ) (d : District)
    (phone : String) : Store × Customer :=
  upsertCustomer s (resolved shop (cart.order form) (some (cart.shopper userId)) none d []) phone

/-- The quote a placement of the cart charges. -/
def charged (s : Store) (shop : Shop) (cart : Cart) (form : PlaceOrderDto) (userId : ℕ)
    (d : District) (phone : String) (now : Instant) : Except Failure PricedLines :=
  let (s, customer) := buyer s shop cart form userId d phone
  PricingService.quote s shop (quoteRequest (cart.order form) d customer.id now)

/-- Wherever both have a quote for the cart it is the same. -/
def Agree (viewed : Except Failure CartView) (placed : Except Failure PricedLines) : Prop :=
  ∀ v q p, viewed = .ok v → v.quote = some q → placed = .ok p → SameQuote q p.quote

/-- The coupon would be accepted from somebody unknown, and is refused for what the customer
has used of it. -/
def OwnUseDecides (s : Store) (shop : Shop) (cart : Cart) (customer : CustomerId)
    (now : Instant) : Prop :=
  ∃ lines rule res, PricingService.mergeLines (toRefs cart) = .ok lines ∧
    PricingService.couponOf s cart.couponCode = some rule ∧
    evaluateCoupon rule ((PricingService.loadLines s shop now lines).1.map toCouponLine) .unknown
      now = .ok res ∧
    (Coupons.usage s rule.id (some customer)).refuses rule = true

/-- Finding the customer writes their row and nothing else. -/
theorem upsertCustomer_tables (s : Store) (req : PlaceOrder) (phone : String) :
    ∃ customers, (upsertCustomer s req phone).1 = { s with customers } := by
  unfold upsertCustomer
  dsimp only
  split
  · exact ⟨_, rfl⟩
  · split
    · exact ⟨_, rfl⟩
    · exact ⟨_, rfl⟩

theorem resolveDistrict_ok {ref : DistrictRef} (h : GeoService.resolveDistrict shop ref = .ok d) :
    GeoService.isGiven ref = true ∧ d ∈ shop.districts := by
  unfold GeoService.resolveDistrict at h
  split at h
  · rename_i hgiven
    split at h
    · rename_i found hfound
      obtain rfl := Except.ok.inj h
      refine ⟨hgiven, ?_⟩
      unfold GeoService.findDistrict at hfound
      split at hfound
      · exact Rows.mem_of_lookup hfound
      · exact List.mem_of_find?_eq_some hfound
    · cases h
  · cases h

theorem districtOf_of_resolve {ref : DistrictRef}
    (h : GeoService.resolveDistrict shop ref = .ok d) :
    PricingService.districtOf shop (some ref) = .ok (some d) := by
  rw [PricingService.districtOf, Option.filter_some, if_pos (resolveDistrict_ok h).1]
  simp [h, Except.map]

/-- A district is found again by its id. -/
theorem resolveDistrict_id {ref : DistrictRef} (h : GeoService.resolveDistrict shop ref = .ok d) :
    GeoService.resolveDistrict shop { id := some d.id } = .ok d := by
  have hfound : GeoService.findDistrict shop { id := some d.id } = some d := by
    simp only [GeoService.findDistrict, Option.filter_some, decide_eq_true d.id_pos, if_true]
    exact Rows.lookup_of_mem shop.districts_nodup (resolveDistrict_ok h).2
  have hgiven : GeoService.isGiven { id := some d.id } = true := by
    simp [GeoService.isGiven, d.id_pos]
  simp only [GeoService.resolveDistrict, if_pos hgiven, hfound]

/-- Whether the coupon is applied does not depend on a use that refuses nothing. -/
theorem appliedCoupon_unknown {input : QuoteInput} {rule : CouponRule} {usage : CouponUsage}
    (h : usage.refuses rule = false) :
    appliedCoupon { input with coupon := some { rule, usage } } =
      appliedCoupon { input with coupon := some { rule, usage := .unknown } } := by
  simp only [appliedCoupon, evaluateCartCoupon, evaluateCoupon_unknown h]

/-- A use that refuses leaves no coupon applied. -/
theorem appliedCoupon_refused {input : QuoteInput} {rule : CouponRule} {usage : CouponUsage}
    (h : usage.refuses rule = true) :
    appliedCoupon { input with coupon := some { rule, usage } } = none := by
  cases happlied : appliedCoupon { input with coupon := some { rule, usage } } with
  | none => rfl
  | some res =>
      obtain ⟨c, hc, heval⟩ := appliedCoupon_some happlied
      obtain rfl := Option.some.inj hc
      exact absurd heval (evaluateCoupon_refused h res)

/-- What is accepted from somebody unknown is what evaluates. -/
theorem appliedCoupon_eq_some {input : QuoteInput} {c : CouponInput} {res : CouponApplied}
    (hc : input.coupon = some c)
    (h : evaluateCoupon c.rule (input.lines.map toCouponLine) c.usage input.now = .ok res) :
    appliedCoupon input = some res := by
  have hne : input.lines ≠ [] := by
    intro hnil
    rw [hnil] at h
    exact (evaluateCoupon_ok h).2.2.1 rfl
  simp only [appliedCoupon, evaluateCartCoupon, hc, if_neg hne, h]

/-- Somebody unknown and a customer get one quote, unless the customer's own use refuses a
coupon that the unknown gets. -/
theorem calculateQuote_same_iff (input : QuoteInput) (rule : CouponRule) (usage : CouponUsage) :
    SameQuote (calculateQuote { input with coupon := some { rule, usage := .unknown } })
        (calculateQuote { input with coupon := some { rule, usage } }) ↔
      ¬ ((∃ res, evaluateCoupon rule (input.lines.map toCouponLine) .unknown input.now = .ok res) ∧
        usage.refuses rule = true) := by
  let unknown : QuoteInput := { input with coupon := some { rule, usage := .unknown } }
  let own : QuoteInput := { input with coupon := some { rule, usage } }
  change SameQuote (calculateQuote unknown) (calculateQuote own) ↔ _
  by_cases hrefuses : usage.refuses rule = true
  · have hown : appliedCoupon own = none := appliedCoupon_refused hrefuses
    cases happlied : appliedCoupon unknown with
    | none =>
        refine iff_of_true (sameQuote_of_applied (happlied.trans hown.symm)) ?_
        rintro ⟨⟨res, heval⟩, -⟩
        have hsome : appliedCoupon unknown = some res := appliedCoupon_eq_some rfl heval
        rw [happlied] at hsome
        cases hsome
    | some res =>
        obtain ⟨c, hc, heval⟩ := appliedCoupon_some happlied
        obtain rfl := Option.some.inj hc
        refine iff_of_false ?_ (not_not.mpr ⟨⟨res, heval⟩, hrefuses⟩)
        intro hsame
        have haccepted := hsame.accepted
        rw [calculateQuote_coupon, calculateQuote_coupon, happlied, hown] at haccepted
        simp at haccepted
  · have happlied : appliedCoupon own = appliedCoupon unknown :=
      appliedCoupon_unknown (Bool.eq_false_iff.mpr hrefuses)
    refine iff_of_true (sameQuote_of_applied happlied.symm) ?_
    rintro ⟨-, h⟩
    exact hrefuses h

/-- The cart's request as it is calculated, with what is known of the customer. -/
def cartInput (s : Store) (shop : Shop) (cart : Cart) (d : District) (now : Instant)
    (lines : List (Tally.Entry LineKey)) (usage : CouponRule → CouponUsage) : QuoteInput :=
  { lines := (PricingService.loadLines s shop now lines).1,
    coupon := (PricingService.couponOf s cart.couponCode).map fun rule =>
      { rule, usage := usage rule },
    zone := some d.zone, shippingRules := shop.rules.filter (·.isActive), now }

/-- The view prices for somebody unknown. -/
theorem view_quote {district : String} {lines : List (Tally.Entry LineKey)}
    (hview : (districtRef district).map (GeoService.resolveDistrict shop) = some (.ok d))
    (hm : PricingService.mergeLines (toRefs cart) = .ok lines) (hne : cart.items ≠ []) :
    ∃ v missing, CartService.view s shop cart district now = .ok v ∧
      v.quote = some (PricingService.noteMissing missing
        (calculateQuote (cartInput s shop cart d now lines fun _ => .unknown))) := by
  obtain ⟨ref, href, hok⟩ := Option.map_eq_some_iff.mp hview
  have hd : PricingService.districtOf shop (districtRef district) = .ok (some d) :=
    href ▸ districtOf_of_resolve hok
  obtain ⟨p, hquote, -, hp⟩ := PricingService.quote_ok (s := s)
    (CartService.quoteRequest cart district now) hm hd fun hc => by cases hc
  unfold CartService.view
  rw [if_neg hne, hquote]
  exact ⟨_, _, rfl, congrArg some hp⟩

/-- The placement prices for its buyer. -/
theorem charged_quote {lines : List (Tally.Entry LineKey)} {ref : DistrictRef}
    (hplace : GeoService.resolveDistrict shop ref = .ok d)
    (hm : PricingService.mergeLines (toRefs cart) = .ok lines)
    (havailable : (PricingService.loadLines s shop now lines).2 = []) :
    ∃ p missing, charged s shop cart form userId d phone now = .ok p ∧
      p.quote = PricingService.noteMissing missing (calculateQuote
        (cartInput s shop cart d now lines fun rule =>
          Coupons.usage s rule.id (some (buyer s shop cart form userId d phone).2.id))) := by
  obtain ⟨customers, hs⟩ : ∃ customers, (buyer s shop cart form userId d phone).1 =
      { s with customers } := upsertCustomer_tables s _ phone
  have hd := districtOf_of_resolve (resolveDistrict_id hplace)
  unfold charged
  generalize buyer s shop cart form userId d phone = b at hs ⊢
  obtain ⟨t, customer⟩ := b
  obtain rfl : t = { s with customers } := hs
  obtain ⟨p, hquote, -, hp⟩ := PricingService.quote_ok (s := { s with customers })
    (quoteRequest (cart.order form) d customer.id now) hm hd fun _ => havailable
  exact ⟨p, _, hquote, hp⟩

/-- A placement writes what is charged. -/
theorem placeInTx_charged (hplace : GeoService.resolveDistrict shop form.district = .ok d)
    (hphone : form.phone = some phone) :
    OrderPlacementService.placeInTx s shop (cart.order form) (some (cart.shopper userId)) none now =
      if (buyer s shop cart form userId d phone).2.isBlocked && form.paymentMethod = .cod then
        .error (.rule "order.customer_blocked"
          "এই নম্বরে ক্যাশ অন ডেলিভারি বন্ধ আছে — অনলাইনে পেমেন্ট করুন বা হেল্পলাইনে যোগাযোগ করুন")
      else (charged s shop cart form userId d phone now).bind fun priced =>
        placePriced (buyer s shop cart form userId d phone).1
          (resolved shop (cart.order form) (some (cart.shopper userId)) none d [])
          (buyer s shop cart form userId d phone).2.id phone ⟨priced.quote, priced.coupon⟩ now := by
  have hform : (cart.order form).phone = some phone := hphone
  have hdistrict : GeoService.resolveDistrict shop (cart.order form).district = .ok d := hplace
  simp only [OrderPlacementService.placeInTx, hform, hdistrict, bind, Except.bind]
  rfl

/-- A line that cannot be sold is charged for by nobody. -/
theorem charged_unavailable {lines : List (Tally.Entry LineKey)} {ref : DistrictRef}
    (hplace : GeoService.resolveDistrict shop ref = .ok d)
    (hm : PricingService.mergeLines (toRefs cart) = .ok lines)
    (hu : (PricingService.loadLines s shop now lines).2 ≠ []) :
    charged s shop cart form userId d phone now =
      .error (.rule "order.item_unavailable" "কিছু পণ্য এখন বিক্রি হচ্ছে না — কার্ট আপডেট করুন") := by
  obtain ⟨customers, hs⟩ : ∃ customers, (buyer s shop cart form userId d phone).1 =
      { s with customers } := upsertCustomer_tables s _ phone
  have hd := districtOf_of_resolve (resolveDistrict_id hplace)
  unfold charged
  generalize buyer s shop cart form userId d phone = b at hs ⊢
  obtain ⟨t, customer⟩ := b
  obtain rfl : t = { s with customers } := hs
  exact PricingService.quote_unavailable (s := { s with customers })
    (quoteRequest (cart.order form) d customer.id now) hm hd rfl hu

/-- A placement from references places the lines they resolve to. -/
theorem placeInTx_resolves {dto : PlaceOrderDto} {user : Option AuthUser}
    {staff : Option StaffOrderOptions} {r : Store × Order}
    (h : OrderPlacementService.placeInTx s shop dto user staff now = .ok r) :
    ∃ d lines, GeoService.resolveDistrict shop dto.district = .ok d ∧
      BookHouse.placeInTx s (resolved shop dto user staff d lines) now = .ok r := by
  unfold OrderPlacementService.placeInTx at h
  split at h
  · cases h
  rename_i phone hphone
  obtain ⟨d, hd, h⟩ := Result.bind_ok.mp h
  dsimp only at h
  split at h
  · cases h
  rename_i hblocked
  obtain ⟨p, hp, hplaced⟩ := Result.bind_ok.mp h
  obtain ⟨lines, hpriced⟩ := PricingService.priceOrder_of_quote user staff
    (districtOf_of_resolve (resolveDistrict_id hd)) hp
  refine ⟨d, lines, hd, ?_⟩
  -- the lines are not read when the customer is found
  have hbuyer : upsertCustomer s (resolved shop dto user staff d lines) phone =
      upsertCustomer s (resolved shop dto user staff d []) phone := rfl
  have hresolved : (resolved shop dto user staff d lines).phone = some phone := hphone
  have hmethod : (resolved shop dto user staff d lines).paymentMethod = dto.paymentMethod := rfl
  simp only [BookHouse.placeInTx, hresolved, hbuyer, hpriced, hmethod, if_neg hblocked]
  exact hplaced

/-- A placement that is not excused found the lines it could merge to be for sale. -/
theorem available_of_unexcused {lines : List (Tally.Entry LineKey)}
    (hplace : GeoService.resolveDistrict shop form.district = .ok d)
    (hphone : form.phone = some phone)
    (h : ∀ failure, OrderPlacementService.placeInTx s shop (cart.order form)
      (some (cart.shopper userId)) none now = .error failure → excused failure = false)
    (hm : PricingService.mergeLines (toRefs cart) = .ok lines) :
    (PricingService.loadLines s shop now lines).2 = [] := by
  by_contra hne
  rw [placeInTx_charged hplace hphone, charged_unavailable hplace hm hne] at h
  split at h
  · have := h _ rfl
    simp [excused] at this
  · have := h _ rfl
    simp [excused] at this

/-- An order placed from the cart has the charged quote for its amounts and lines. -/
theorem placed_from_charged {t : Store} {order : Order}
    (hplace : GeoService.resolveDistrict shop form.district = .ok d)
    (hphone : form.phone = some phone)
    (h : OrderPlacementService.placeInTx s shop (cart.order form) (some (cart.shopper userId)) none
      now = .ok (t, order)) :
    ∃ p id orderNo, charged s shop cart form userId d phone now = .ok p ∧
      order = newOrder id orderNo (buyer s shop cart form userId d phone).2.id phone
        (resolved shop (cart.order form) (some (cart.shopper userId)) none d []) p.quote now := by
  rw [placeInTx_charged hplace hphone] at h
  split at h
  · cases h
  · obtain ⟨p, hp, hwritten⟩ := Result.bind_ok.mp h
    unfold placePriced at hwritten
    split at hwritten
    · cases hwritten
    · obtain ⟨t', -, ht⟩ := Result.map_ok.mp hwritten
      exact ⟨p, _, _, hp, (Prod.mk.inj ht).2.symm⟩

/-- Two quotes for the cart differ exactly where the use alone refuses its coupon. -/
theorem cartInput_same_iff (lines : List (Tally.Entry LineKey)) (usage : CouponRule → CouponUsage) :
    SameQuote (calculateQuote (cartInput s shop cart d now lines fun _ => .unknown))
        (calculateQuote (cartInput s shop cart d now lines usage)) ↔
      ¬ ∃ rule res, PricingService.couponOf s cart.couponCode = some rule ∧
        evaluateCoupon rule ((PricingService.loadLines s shop now lines).1.map toCouponLine)
          .unknown now = .ok res ∧ (usage rule).refuses rule = true := by
  have hlines : (cartInput s shop cart d now lines usage).lines =
      (PricingService.loadLines s shop now lines).1 := rfl
  have hnow : (cartInput s shop cart d now lines usage).now = now := rfl
  cases hrule : PricingService.couponOf s cart.couponCode with
  | none =>
      have hsame : cartInput s shop cart d now lines usage =
          cartInput s shop cart d now lines fun _ => .unknown := by
        simp only [cartInput, hrule, Option.map_none]
      rw [hsame]
      refine iff_of_true (sameQuote_of_applied (c := (cartInput s shop cart d now lines
        fun _ => .unknown).coupon) rfl) ?_
      rintro ⟨rule, res, hsome, -⟩
      cases hsome
  | some rule =>
      have hviewed : cartInput s shop cart d now lines (fun _ => .unknown) =
          { cartInput s shop cart d now lines usage with
            coupon := some { rule, usage := .unknown } } := by
        simp only [cartInput, hrule, Option.map_some]
      have hcharged : cartInput s shop cart d now lines usage =
          { cartInput s shop cart d now lines usage with
            coupon := some { rule, usage := usage rule } } := by
        simp only [cartInput, hrule, Option.map_some]
      rw [hviewed, hcharged, calculateQuote_same_iff, hlines, hnow]
      constructor
      · rintro h ⟨_, res, hsome, heval, hr⟩
        obtain rfl := Option.some.inj hsome
        exact h ⟨⟨res, heval⟩, hr⟩
      · rintro h ⟨⟨res, heval⟩, hr⟩
        exact h ⟨rule, res, rfl, heval, hr⟩

/-- An empty cart has nothing to price, so no use of its coupon decides. -/
theorem not_ownUseDecides_empty (h : cart.items = []) (customer : CustomerId) :
    ¬ OwnUseDecides s shop cart customer now := by
  rintro ⟨lines, rule, res, hm, -, heval, -⟩
  have hrefs : toRefs cart = [] := by
    simp only [toRefs, h, List.map_nil]
  rw [hrefs] at hm
  obtain rfl : ([] : List (Tally.Entry LineKey)) = lines := Except.ok.inj hm
  exact (evaluateCoupon_ok heval).2.2.1 rfl

/-- The view and the placement of a cart agree exactly where the buyer's own use of the
coupon does not decide. -/
theorem cart_agrees_iff (s : Store) (shop : Shop) (cart : Cart) (form : PlaceOrderDto) (userId : ℕ)
    (district : String) (d : District) (phone : String) (now : Instant)
    (hview : (districtRef district).map (GeoService.resolveDistrict shop) = some (.ok d))
    (hplace : GeoService.resolveDistrict shop form.district = .ok d)
    (hphone : form.phone = some phone)
    (h : ∀ failure, OrderPlacementService.placeInTx s shop (cart.order form)
      (some (cart.shopper userId)) none now = .error failure → excused failure = false) :
    Agree (CartService.view s shop cart district now)
        (charged s shop cart form userId d phone now) ↔
      ¬ OwnUseDecides s shop cart (buyer s shop cart form userId d phone).2.id now := by
  by_cases hempty : cart.items = []
  · refine iff_of_true ?_ (not_ownUseDecides_empty hempty _)
    intro v q p hv hq hp
    rw [CartService.view, if_pos hempty] at hv
    obtain rfl := Except.ok.inj hv
    cases hq
  cases hm : PricingService.mergeLines (toRefs cart) with
  | error failure =>
      refine iff_of_true ?_ ?_
      · intro v q p hv hq hp
        rw [CartService.view, if_neg hempty, PricingService.quote_unmerged
          (CartService.quoteRequest cart district now) hm] at hv
        cases hv
      · rintro ⟨lines, rule, res, hlines, -⟩
        rw [hm] at hlines
        cases hlines
  | ok lines =>
      obtain ⟨v, b, hv, hq⟩ :
          ∃ v missing, CartService.view s shop cart district now = .ok v ∧ _ :=
        view_quote hview hm hempty
      obtain ⟨p, b', hp, hpq⟩ :
          ∃ p missing, charged s shop cart form userId d phone now = .ok p ∧ _ :=
        charged_quote hplace hm (available_of_unexcused hplace hphone h hm)
      have hagree : Agree (CartService.view s shop cart district now)
          (charged s shop cart form userId d phone now) ↔
          SameQuote (calculateQuote (cartInput s shop cart d now lines fun _ => .unknown))
            (calculateQuote (cartInput s shop cart d now lines fun rule =>
              Coupons.usage s rule.id (some (buyer s shop cart form userId d phone).2.id))) := by
        rw [← PricingService.noteMissing_same b b', ← hpq]
        constructor
        · intro hagree
          exact hagree v _ p hv hq hp
        · intro hsame v' q' p' hv' hq' hp'
          rw [hv] at hv'
          obtain rfl := Except.ok.inj hv'
          rw [hq] at hq'
          obtain rfl := Option.some.inj hq'
          rw [hp] at hp'
          obtain rfl := Except.ok.inj hp'
          exact hsame
      rw [hagree, cartInput_same_iff, not_iff_not]
      constructor
      · rintro ⟨rule, res, hrule, heval, hr⟩
        exact ⟨lines, rule, res, hm, hrule, heval, hr⟩
      · rintro ⟨lines', rule, res, hlines, hrule, heval, hr⟩
        rw [hm] at hlines
        obtain rfl := Except.ok.inj hlines
        exact ⟨rule, res, hrule, heval, hr⟩

/-! ### A coupon that is used up -/

def dhaka : District where
  id := 1
  id_pos := by decide
  nameBn := "ঢাকা"
  zone := { id := 1, code := "dhaka", nameBn := "ঢাকা", fee := 60, courierCost := 50 }

def bookShop : Shop where
  listings := [{ productId := 1 }]
  districts := [dhaka]

/-- One book, and a coupon of one use for each customer. -/
def couponDay (redemptions : List CouponRedemption) : Store where
  products := [{ id := 1, price := 500, stockOnHand := 10 }]
  customers := [{ id := 1, phone := "+8801711000000" }]
  coupons := [{ id := 1, code := "EID", type := .fixed, value := 50, perCustomerLimit := some 1 }]
  redemptions := redemptions
  counters := [{ scope := .order, pfx := "BBH", nextValue := 1, padding := 6 }]

def eidCart : Cart where
  id := 1
  customerId := some 1
  couponCode := some "EID"
  items := [{ id := 1, productId := some 1, quantity := 1 }]

def codForm : PlaceOrderDto where
  lines := []
  phone := some "+8801711000000"
  district := { id := some 1 }
  paymentMethod := .cod

/-- The customer has used the coupon: the cart still takes it off, the checkout refuses it. -/
theorem cart_takes_spent_coupon :
    ¬ ∀ (s : Store) (shop : Shop) (cart : Cart) (form : PlaceOrderDto) (userId : ℕ)
      (district : String) (d : District) (phone : String) (now : Instant),
      (districtRef district).map (GeoService.resolveDistrict shop) = some (.ok d) →
      GeoService.resolveDistrict shop form.district = .ok d → form.phone = some phone →
      (∀ failure, OrderPlacementService.placeInTx s shop (cart.order form)
        (some (cart.shopper userId)) none now = .error failure → excused failure = false) →
      Agree (CartService.view s shop cart district now)
        (charged s shop cart form userId d phone now) := by
  intro h
  let spent : Store := couponDay [{ couponId := 1, orderId := 7, customerId := 1, discount := 50 }]
  let failed := (OrderPlacementService.placeInTx spent bookShop (eidCart.order codForm)
    (some (eidCart.shopper 4)) none 100).map fun _ => ()
  have hfailed : failed = .error (.rule "coupon.customer_limit"
      "আপনি এই কুপন সর্বোচ্চ বার ব্যবহার করেছেন" [.coupon (.limit 1)]) := by decide +kernel
  have hexcused : ∀ failure, OrderPlacementService.placeInTx spent bookShop (eidCart.order codForm)
      (some (eidCart.shopper 4)) none 100 = .error failure → excused failure = false := by
    intro failure hplaced
    have hmap : failed = .error failure := by simp only [failed, hplaced, Except.map]
    obtain rfl := Except.error.inj (hfailed.symm.trans hmap)
    decide
  have hagree := h spent bookShop eidCart codForm 4 "1" dhaka "+8801711000000" 100
    (by decide +kernel) (by decide +kernel) rfl hexcused
  obtain ⟨v, hv, hquote⟩ := (Option.any_eq_true _ _).mp (show
    (CartService.view spent bookShop eidCart "1" 100).toOption.any
      (·.quote.any (·.coupon.isSome)) = true by decide +kernel)
  obtain ⟨q, hq, haccepted⟩ := (Option.any_eq_true _ _).mp hquote
  obtain ⟨p, hp, hrefused⟩ := (Option.any_eq_true _ _).mp (show
    (charged spent bookShop eidCart codForm 4 dhaka "+8801711000000" 100).toOption.any
      (·.quote.coupon.isNone) = true by decide +kernel)
  have hsame := hagree v q p (Result.toOption_some.mp hv) hq (Result.toOption_some.mp hp)
  have hisSome := hsame.accepted
  rw [haccepted, Option.isNone_iff_eq_none.mp hrefused] at hisSome
  cases hisSome

/-- The first time, both take it off. -/
theorem cart_agrees_first_use :
    Agree (CartService.view (couponDay []) bookShop eidCart "1" 100)
        (charged (couponDay []) bookShop eidCart codForm 4 dhaka "+8801711000000" 100) ↔
      ¬ OwnUseDecides (couponDay []) bookShop eidCart
        (buyer (couponDay []) bookShop eidCart codForm 4 dhaka "+8801711000000").2.id 100 := by
  refine cart_agrees_iff (couponDay []) bookShop eidCart codForm 4 "1" dhaka "+8801711000000" 100
    (by decide +kernel) (by decide +kernel) rfl ?_
  intro failure hplaced
  have hmap : (OrderPlacementService.placeInTx (couponDay []) bookShop (eidCart.order codForm)
      (some (eidCart.shopper 4)) none 100).isOk = true := by decide +kernel
  rw [hplaced] at hmap
  cases hmap

end cart

end BookHouse
