/-
What `evaluateCoupon` answers, for the rules the coupon form accepts.

The form (`validateCouponShape`) bounds the value of a rule and says which type may have a
cap, but not what the cap is: that it is an amount of two places and not below zero is for
the request (`CreateCouponDto`) and the column to say, and with another cap the bounds fail.
-/
import BookHouse.Proofs.Quote

namespace BookHouse

open Rounding

/-- What an applied coupon gives. -/
structure CouponExact (rule : CouponRule) (lines : List CouponLine) (res : CouponApplied) :
    Prop where
  eligibleSubtotal : res.eligibleSubtotal = eligibleGross rule lines
  nonneg : 0 ≤ res.discount
  le_eligible : res.discount ≤ res.eligibleSubtotal
  eligible_le : res.eligibleSubtotal ≤ (lines.map (·.gross)).sum
  le_max : ∀ m, rule.maxDiscount = some m → res.discount ≤ m
  length : res.allocations.length = lines.length
  sum : res.allocations.sum = res.discount
  share : ∀ (i : ℕ) (l : CouponLine), lines[i]? = some l → ∃ share, res.allocations[i]? = some share ∧
    0 ≤ share ∧ share ≤ l.gross ∧ (lineEligible rule l = false → share = 0)
  freeShipping : rule.type = .freeShipping → res.discount = 0

/-- The condition a rejection stands for. -/
def CouponRejection.Fails (r : CouponRejection) (rule : CouponRule) (lines : List CouponLine)
    (usage : CouponUsage) (now : Instant) : Prop :=
  (r.code = "coupon.inactive" ∧ (rule.isActive = false ∨ rule.deletedAt.isSome)) ∨
  (r.code = "coupon.not_started" ∧ ∃ s, rule.startsAt = some s ∧ now < s) ∨
  (r.code = "coupon.expired" ∧ ∃ e, rule.endsAt = some e ∧ e ≤ now) ∨
  (r.code = "coupon.exhausted" ∧ ∃ n, rule.usageLimit = some n ∧ n ≤ rule.usedCount) ∨
  (r.code = "coupon.customer_limit" ∧ ∃ n used, rule.perCustomerLimit = some n ∧
    usage.customerRedemptions = some used ∧ n ≤ used) ∨
  (r.code = "coupon.first_order_only" ∧ rule.firstOrderOnly = true ∧
    ∃ n, usage.customerPriorOrders = some n ∧ 0 < n) ∨
  (r.code = "coupon.min_subtotal" ∧ (lines.map (·.gross)).sum < rule.minSubtotal) ∨
  (r.code = "coupon.not_applicable" ∧ eligibleGross rule lines = 0)

section

variable {rule : CouponRule} {lines : List CouponLine} {usage : CouponUsage} {now : Instant}
  {res : CouponApplied} {r : CouponRejection}

/-! ### Rejections -/

theorem couponAvailability_some (h : couponAvailability rule usage now = some r) :
    r.Fails rule lines usage now := by
  unfold couponAvailability at h
  split at h
  · rename_i hc
    obtain rfl := Option.some.inj h
    exact .inl ⟨rfl, by simpa using hc⟩
  split at h
  · rename_i s hs
    obtain rfl := Option.some.inj h
    obtain ⟨hstart, hlt⟩ := Option.filter_eq_some_iff.mp hs
    exact .inr (.inl ⟨rfl, s, hstart, by simpa using hlt⟩)
  split at h
  · rename_i e he
    obtain rfl := Option.some.inj h
    obtain ⟨hend, hle⟩ := Option.filter_eq_some_iff.mp he
    exact .inr (.inr (.inl ⟨rfl, e, hend, by simpa using hle⟩))
  split at h
  · rename_i hused
    obtain rfl := Option.some.inj h
    obtain ⟨n, hn, hle⟩ := (Option.any_eq_true _ _).mp hused
    exact .inr (.inr (.inr (.inl ⟨rfl, n, hn, by simpa using hle⟩)))
  split at h
  · rename_i n hn
    obtain rfl := Option.some.inj h
    obtain ⟨hlimit, hany⟩ := Option.filter_eq_some_iff.mp hn
    obtain ⟨used, hused, hle⟩ := (Option.any_eq_true _ _).mp hany
    exact .inr (.inr (.inr (.inr (.inl ⟨rfl, n, used, hlimit, hused, by simpa using hle⟩))))
  split at h
  · rename_i hfirst
    obtain rfl := Option.some.inj h
    obtain ⟨hrule, hany⟩ := Bool.and_eq_true_iff.mp hfirst
    obtain ⟨n, hn, hpos⟩ := (Option.any_eq_true _ _).mp hany
    exact .inr (.inr (.inr (.inr (.inr (.inl ⟨rfl, hrule, n, hn, by simpa using hpos⟩)))))
  · cases h

/-- **A coupon is rejected for a condition that fails.** -/
theorem evaluateCoupon_error (h : evaluateCoupon rule lines usage now = .error r) :
    r.Fails rule lines usage now := by
  unfold evaluateCoupon at h
  cases ha : couponAvailability rule usage now with
  | some unavailable =>
      simp only [ha] at h
      obtain rfl := Except.error.inj h
      exact couponAvailability_some ha
  | none =>
      simp only [ha] at h
      split at h
      · rename_i hmin
        obtain rfl := Except.error.inj h
        exact .inr (.inr (.inr (.inr (.inr (.inr (.inl ⟨rfl, hmin⟩))))))
      split at h
      · rename_i hnone
        obtain rfl := Except.error.inj h
        refine .inr (.inr (.inr (.inr (.inr (.inr (.inr ⟨rfl, ?_⟩))))))
        rcases Bool.or_eq_true_iff.mp hnone with hno | hzero
        · have hempty : lines.filter (lineEligible rule) = [] := by
            simpa [List.filter_eq_nil_iff] using hno
          rw [eligibleGross, hempty]
          rfl
        · exact of_decide_eq_true hzero
      · cases h

/-- Without an applied coupon a cart is not discounted. -/
theorem quote_undiscounted {input : QuoteInput} (h : appliedCoupon input = none) :
    (calculateQuote input).discountTotal = 0 ∧ (calculateQuote input).coupon = none := by
  have hshare : ∀ i, couponShareAt input i = 0 := by
    intro i
    rw [couponShareAt, h, Option.map_none, Option.getD_none, List.getD_eq_getElem?_getD,
      List.getElem?_map]
    cases input.lines[i]? <;> rfl
  have hzero : round2 0 = 0 := round2_of_paisa HasPlaces.zero
  constructor
  · show ((calculateQuote input).lines.map (·.discount)).sum = 0
    refine List.sum_eq_zero fun x hx => ?_
    obtain ⟨l, hl, rfl⟩ := List.mem_map.mp hx
    rw [calculateQuote_lines] at hl
    obtain ⟨i, hi, rfl⟩ := List.mem_mapIdx.mp hl
    rw [hshare]
    cases input.lines[i] <;> exact hzero
  · rw [calculateQuote_coupon, h, Option.map_none]

theorem appliedCoupon_rejected {input : QuoteInput} (hc : input.coupon = some ⟨rule, usage⟩)
    (h : evaluateCoupon rule (input.lines.map toCouponLine) usage input.now = .error r) :
    appliedCoupon input = none := by
  unfold appliedCoupon evaluateCartCoupon
  simp only [hc, h]
  split <;> simp_all

/-! ### The bounds -/

/-- A rule the form accepts has a value above zero where it counts, and a cap only for a
percentage. -/
theorem validateCouponShape_none (h : validateCouponShape rule.shape = none) :
    (rule.type ≠ .freeShipping → 0 < rule.value) ∧
      (rule.type ≠ .percent → rule.maxDiscount = none) := by
  unfold validateCouponShape at h
  split at h
  · cases h
  rename_i hpercent
  split at h
  · cases h
  rename_i hfixed
  split at h
  · cases h
  rename_i hcap
  constructor
  · intro hne
    cases htype : rule.type with
    | percent =>
        by_contra hv
        exact hpercent ⟨htype, fun hb => hv hb.1⟩
    | fixed =>
        by_contra hv
        exact hfixed ⟨htype, hv⟩
    | freeShipping => exact absurd htype hne
  · intro hne
    by_contra hsome
    exact hcap ⟨hne, Option.isSome_iff_ne_none.mpr hsome⟩

/-- A cap of two places is kept. -/
theorem couponDiscount_le_max {m e : Money} (htype : rule.type = .percent) (hv : 0 ≤ rule.value)
    (he : 0 ≤ e) (hm : rule.maxDiscount = some m) (hnonneg : 0 ≤ m) (hplaces : Paisa m) :
    round2 (rawDiscount rule e) ≤ m := by
  have hpct : 0 ≤ toPlaces .halfUp 0 (e * rule.value / 100) := by
    refine toPlaces_nonneg ?_
    positivity
  simp only [rawDiscount, htype, hm]
  refine round2_le ?_ hplaces ?_
  · exact le_min (le_min hpct hnonneg) he
  · exact (min_le_left _ _).trans (min_le_right _ _)

/-- What is eligible is part of the cart. -/
theorem eligibleGross_le (hl : ∀ l ∈ lines, l.Valid) :
    eligibleGross rule lines ≤ (lines.map (·.gross)).sum := by
  induction lines with
  | nil => exact le_refl _
  | cons l rest ih =>
      have hrest := ih fun x hx => hl x (List.mem_cons_of_mem _ hx)
      have hgross := (hl l List.mem_cons_self).gross_nonneg
      unfold eligibleGross at hrest ⊢
      rw [List.filter_cons, List.map_cons, List.sum_cons]
      split
      · rw [List.map_cons, List.sum_cons]
        linarith
      · linarith

/-- A discount that the value of the rule cannot make negative. -/
theorem CouponExact.of_valid (hr : rule.Valid) (hl : ∀ l ∈ lines, l.Valid)
    (hmax : ∀ m, rule.maxDiscount = some m → rule.type = .percent ∧ Paisa m)
    (h : evaluateCoupon rule lines usage now = .ok res) : CouponExact rule lines res := by
  obtain ⟨hnonneg, hle, hpaisa⟩ := couponDiscount_bounds hr hl h
  obtain ⟨hlength, hsum⟩ := couponAllocations_sum hr hl h
  obtain ⟨-, -, hne, hres⟩ := evaluateCoupon_ok h
  have hdiscount : res.discount = round2 (rawDiscount rule (eligibleGross rule lines)) := by
    rw [hres]
  have hsubtotal : res.eligibleSubtotal = eligibleGross rule lines := by rw [hres]
  refine ⟨hsubtotal, hnonneg, hsubtotal ▸ hle, hsubtotal ▸ eligibleGross_le hl, fun m hm => ?_,
    hlength, hsum, fun i l hi => ?_, fun htype => ?_⟩
  · obtain ⟨htype, hplaces⟩ := hmax m hm
    rw [hdiscount]
    exact couponDiscount_le_max htype hr.value_nonneg (eligibleGross_nonneg hl) hm
      (hr.maxDiscount_nonneg m hm) hplaces
  · obtain ⟨share, hget, hshare⟩ := couponAllocations_share hr hl h hi
    refine ⟨share, hget, hshare.nonneg, hshare.le_gross, fun hout => ?_⟩
    have hall : res.allocations = if round2 (rawDiscount rule (eligibleGross rule lines)) = 0
        then lines.map fun _ => 0
        else allocate (round2 (rawDiscount rule (eligibleGross rule lines)))
          (couponWeights rule lines) := by
      rw [hres]
    rw [hall, ← hdiscount] at hget
    split at hget
    · rw [List.getElem?_map, hi, Option.map_some] at hget
      exact (Option.some.inj hget).symm
    · -- a line outside the scope has no weight
      have hw : (couponWeights rule lines)[i]? = some 0 := by
        rw [couponWeights, List.getElem?_map, hi, Option.map_some, if_neg (by simp [hout])]
      obtain ⟨fair, hfair, hfairness⟩ := allocate_fair hpaisa hnonneg (couponWeights_nonneg hl) hw
      obtain rfl := Option.some.inj (hfair.symm.trans hget)
      exact hfairness.zero (by rw [sum_couponWeights]; exact hne) rfl
  · rw [hdiscount, rawDiscount, htype]
    exact round2_of_paisa HasPlaces.zero

/-- Free shipping does not read the value of its rule. -/
theorem evaluateCoupon_freeShipping (htype : rule.type = .freeShipping) :
    evaluateCoupon { rule with value := 0 } lines usage now =
      evaluateCoupon rule lines usage now := by
  have hraw : ∀ e, rawDiscount { rule with value := 0 } e = rawDiscount rule e := by
    intro e
    simp only [rawDiscount, htype]
  simp only [evaluateCoupon, hraw]
  rfl

end

/-- **A rule that the coupon form accepts, with a cap of two places not below zero, is applied
exactly, or rejected for a condition that fails.** -/
theorem evaluateCoupon_exact (rule : CouponRule) (lines : List CouponLine) (usage : CouponUsage)
    (now : Instant) (hshape : validateCouponShape rule.shape = none)
    (hmax : ∀ m, rule.maxDiscount = some m → 0 ≤ m ∧ Paisa m) (hlines : ∀ l ∈ lines, l.Valid) :
    (∀ res, evaluateCoupon rule lines usage now = .ok res → CouponExact rule lines res) ∧
    ∀ r, evaluateCoupon rule lines usage now = .error r → r.Fails rule lines usage now ∧
      ∀ input : QuoteInput, input.coupon = some ⟨rule, usage⟩ →
        input.lines.map toCouponLine = lines → input.now = now →
        (calculateQuote input).discountTotal = 0 ∧ (calculateQuote input).coupon = none := by
  obtain ⟨hvalue, hcap⟩ := validateCouponShape_none hshape
  refine ⟨fun res h => ?_, fun r h => ⟨evaluateCoupon_error h, ?_⟩⟩
  · have hplaces : ∀ m, rule.maxDiscount = some m → rule.type = .percent ∧ Paisa m := by
      intro m hm
      refine ⟨?_, (hmax m hm).2⟩
      by_contra hne
      rw [hcap hne] at hm
      cases hm
    by_cases htype : rule.type = .freeShipping
    · have hexact : CouponExact { rule with value := 0 } lines res :=
        .of_valid ⟨le_refl 0, fun m hm => (hmax m hm).1⟩ hlines hplaces
          ((evaluateCoupon_freeShipping htype).trans h)
      exact ⟨hexact.1, hexact.2, hexact.3, hexact.4, hexact.5, hexact.6, hexact.7, hexact.8,
        hexact.9⟩
    · exact .of_valid ⟨(hvalue htype).le, fun m hm => (hmax m hm).1⟩ hlines hplaces h
  · rintro input hc rfl rfl
    exact quote_undiscounted (appliedCoupon_rejected hc h)

/-- Ten percent, with a cap that the form does not look at. -/
def cappedCoupon (cap : Money) : CouponRule where
  id := 0
  code := "EID10"
  type := .percent
  value := 10
  maxDiscount := some cap

def bookOf500 : List CouponLine :=
  [{ kind := .product, productId := some 0, bundleId := none, sectionCode := "book",
     categoryIds := [], gross := 500 }]

theorem evaluateCoupon_exact_capped :
    (∀ res, evaluateCoupon (cappedCoupon 20) bookOf500 ⟨none, none⟩ 0 = .ok res →
      CouponExact (cappedCoupon 20) bookOf500 res) ∧
    ∀ r, evaluateCoupon (cappedCoupon 20) bookOf500 ⟨none, none⟩ 0 = .error r →
      r.Fails (cappedCoupon 20) bookOf500 ⟨none, none⟩ 0 ∧
      ∀ input : QuoteInput, input.coupon = some ⟨cappedCoupon 20, ⟨none, none⟩⟩ →
        input.lines.map toCouponLine = bookOf500 → input.now = 0 →
        (calculateQuote input).discountTotal = 0 ∧ (calculateQuote input).coupon = none := by
  refine evaluateCoupon_exact (cappedCoupon 20) bookOf500 ⟨none, none⟩ 0 (by decide +kernel)
    (fun m hm => ?_) fun l hl => ?_
  · obtain rfl := Option.some.inj hm
    exact ⟨by norm_num, 2000, by norm_num⟩
  · obtain rfl := List.mem_singleton.mp hl
    exact ⟨by norm_num, 50000, by norm_num⟩

/-- **The form accepts a cap below zero, and the discount is negative.** -/
theorem coupon_discount_negative : ¬ ∀ (rule : CouponRule) (lines : List CouponLine)
    (usage : CouponUsage) (now : Instant), validateCouponShape rule.shape = none →
      (∀ l ∈ lines, l.Valid) → ∀ res, evaluateCoupon rule lines usage now = .ok res →
        CouponExact rule lines res := by
  intro hall
  have hneg : (evaluateCoupon (cappedCoupon (-5)) bookOf500 ⟨none, none⟩ 0).toOption.any
      (fun res => res.discount = -5) = true := by
    decide +kernel
  cases hres : evaluateCoupon (cappedCoupon (-5)) bookOf500 ⟨none, none⟩ 0 with
  | error r =>
      rw [hres] at hneg
      cases hneg
  | ok res =>
      rw [hres] at hneg
      have hexact := hall (cappedCoupon (-5)) bookOf500 ⟨none, none⟩ 0 (by decide +kernel)
        (fun l hl => ?_) res hres
      · have hnonneg := hexact.nonneg
        rw [show res.discount = -5 from of_decide_eq_true hneg] at hnonneg
        norm_num at hnonneg
      · obtain rfl := List.mem_singleton.mp hl
        exact ⟨by norm_num, 50000, by norm_num⟩

/-- A cap of three places is passed when the discount is rounded. -/
theorem coupon_discount_above_cap : (evaluateCoupon (cappedCoupon (20005 / 1000)) bookOf500
    ⟨none, none⟩ 0).toOption.any (fun res => res.discount = 2001 / 100) = true := by
  decide +kernel

end BookHouse
