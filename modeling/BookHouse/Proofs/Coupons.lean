/-
What an applied coupon gives.

Whatever the rule, the discount lies between zero and the eligible subtotal, and the
allocations are one share per line, adding up to it, none above its line's gross.
Both rest on the subtotals being whole paisa: rounding the discount then cannot take
it past the subtotal it was capped at, and a share cannot be rounded past its line.
-/
import BookHouse.Orders.Coupons
import BookHouse.Proofs.Money

namespace BookHouse

open Rounding

/-- The `coupons_value` CHECK and the coupon form keep the amounts of a rule non-negative. -/
structure CouponRule.Valid (rule : CouponRule) : Prop where
  value_nonneg : 0 ≤ rule.value
  maxDiscount_nonneg : ∀ m, rule.maxDiscount = some m → 0 ≤ m

/-- A line amount as the calculator passes it. -/
structure CouponLine.Valid (l : CouponLine) : Prop where
  gross_nonneg : 0 ≤ l.gross
  gross_paisa : Paisa l.gross

/-- The gross of the lines in the coupon's scope. -/
def eligibleGross (rule : CouponRule) (lines : List CouponLine) : Money :=
  ((lines.filter (lineEligible rule)).map (·.gross)).sum

/-- The weights the discount is allocated by. -/
def couponWeights (rule : CouponRule) (lines : List CouponLine) : List Money :=
  lines.map fun l => if lineEligible rule l then l.gross else 0

variable {rule : CouponRule} {lines : List CouponLine} {usage : CouponUsage} {now : Instant}
  {res : CouponApplied}

/-- A coupon that is available has uses left, in all and for the customer, and takes an
order that is not the first only where it may. -/
theorem couponAvailability_none (h : couponAvailability rule usage now = none) :
    rule.usageLimit.all (rule.usedCount < ·) ∧
      (∀ n, usage.customerRedemptions = some n → rule.perCustomerLimit.all (n < ·)) ∧
      (rule.firstOrderOnly && usage.customerPriorOrders.any (0 < ·)) = false := by
  unfold couponAvailability at h
  split at h
  · cases h
  split at h
  · cases h
  split at h
  · cases h
  split at h
  · cases h
  rename_i hused
  split at h
  · cases h
  rename_i hcustomer
  split at h
  · cases h
  rename_i hfirst
  refine ⟨?_, fun n hn => ?_, Bool.eq_false_iff.mpr hfirst⟩
  · cases hl : rule.usageLimit with
    | none => rfl
    | some l => simpa [hl] using hused
  · cases hl : rule.perCustomerLimit with
    | none => rfl
    | some l =>
        by_contra hc
        have hle : l ≤ n := by simpa using hc
        exact hcustomer l (by simp [hl, hn, hle])

/-- Everything an accepted coupon says. -/
theorem evaluateCoupon_ok (h : evaluateCoupon rule lines usage now = .ok res) :
    couponAvailability rule usage now = none ∧
      rule.minSubtotal ≤ (lines.map (·.gross)).sum ∧
      eligibleGross rule lines ≠ 0 ∧
      res = { code := normalizeCouponCode rule.code, type := rule.type,
              discount := round2 (rawDiscount rule (eligibleGross rule lines)),
              allocations :=
                if round2 (rawDiscount rule (eligibleGross rule lines)) = 0
                then lines.map fun _ => 0
                else allocate (round2 (rawDiscount rule (eligibleGross rule lines)))
                  (couponWeights rule lines),
              eligible := lines.map (lineEligible rule),
              eligibleSubtotal := eligibleGross rule lines,
              freeShipping := rule.type == .freeShipping } := by
  unfold evaluateCoupon at h
  cases ha : couponAvailability rule usage now with
  | some r => simp [ha] at h
  | none =>
      simp only [ha] at h
      by_cases hmin : (lines.map (·.gross)).sum < rule.minSubtotal
      · simp [hmin] at h
      · rw [if_neg hmin] at h
        split at h
        · exact absurd h (by simp)
        · rename_i hel
          have hne : eligibleGross rule lines ≠ 0 := by
            intro hc
            rw [eligibleGross] at hc
            exact hel (by simp [hc])
          exact ⟨rfl, not_lt.mp hmin, hne, (Except.ok.inj h).symm⟩

/-! ### The discount -/

theorem sum_couponWeights (rule : CouponRule) (lines : List CouponLine) :
    (couponWeights rule lines).sum = eligibleGross rule lines := by
  unfold couponWeights eligibleGross
  induction lines with
  | nil => rfl
  | cons l rest ih =>
      by_cases hl : lineEligible rule l
      · simp [hl, ih]
      · simp [hl, ih]

theorem eligibleGross_paisa (hl : ∀ l ∈ lines, l.Valid) : Paisa (eligibleGross rule lines) := by
  refine HasPlaces.sum fun x hx => ?_
  obtain ⟨l, hmem, rfl⟩ := List.mem_map.mp hx
  exact (hl l (List.mem_filter.mp hmem).1).gross_paisa

theorem couponWeights_nonneg (hl : ∀ l ∈ lines, l.Valid) :
    ∀ x ∈ couponWeights rule lines, 0 ≤ x := by
  intro x hx
  obtain ⟨l, hmem, rfl⟩ := List.mem_map.mp hx
  split
  · exact (hl l hmem).gross_nonneg
  · exact le_refl 0

theorem eligibleGross_nonneg (hl : ∀ l ∈ lines, l.Valid) : 0 ≤ eligibleGross rule lines := by
  rw [← sum_couponWeights]
  exact List.sum_nonneg (couponWeights_nonneg hl)

theorem rawDiscount_nonneg (hr : rule.Valid) {e : Money} (he : 0 ≤ e) :
    0 ≤ rawDiscount rule e := by
  unfold rawDiscount
  split
  · have hpct : 0 ≤ toPlaces .halfUp 0 (e * rule.value / 100) := by
      refine toPlaces_nonneg ?_
      have := hr.value_nonneg
      positivity
    refine le_min ?_ he
    split
    · rename_i m hm
      exact le_min hpct (hr.maxDiscount_nonneg m hm)
    · exact hpct
  · exact le_min hr.value_nonneg he
  · exact le_refl 0

theorem rawDiscount_le {e : Money} (he : 0 ≤ e) : rawDiscount rule e ≤ e := by
  unfold rawDiscount
  split
  · exact min_le_right _ _
  · exact min_le_right _ _
  · exact he

/-- **An applied discount lies between zero and the eligible subtotal.** -/
theorem couponDiscount_bounds (hr : rule.Valid) (hl : ∀ l ∈ lines, l.Valid)
    (h : evaluateCoupon rule lines usage now = .ok res) :
    0 ≤ res.discount ∧ res.discount ≤ eligibleGross rule lines ∧ Paisa res.discount := by
  obtain ⟨-, -, -, rfl⟩ := evaluateCoupon_ok h
  have he : 0 ≤ eligibleGross rule lines := eligibleGross_nonneg hl
  have hraw := rawDiscount_nonneg hr he
  exact ⟨round2_nonneg hraw, round2_le hraw (eligibleGross_paisa hl) (rawDiscount_le he),
    round2_paisa _⟩

/-! ### The allocations -/

/-- What a line's share of a coupon is good for. -/
structure CouponShare (gross share : Money) : Prop where
  nonneg : 0 ≤ share
  le_gross : share ≤ gross
  paisa : Paisa share

theorem CouponShare.zero {gross : Money} (h : 0 ≤ gross) : CouponShare gross 0 :=
  ⟨le_refl 0, h, HasPlaces.zero⟩

/-- **The allocations add up to the discount.** -/
theorem couponAllocations_sum (hr : rule.Valid) (hl : ∀ l ∈ lines, l.Valid)
    (h : evaluateCoupon rule lines usage now = .ok res) :
    res.allocations.length = lines.length ∧ res.allocations.sum = res.discount := by
  obtain ⟨h0, hle, hpaisa⟩ := couponDiscount_bounds hr hl h
  obtain ⟨-, -, hne, rfl⟩ := evaluateCoupon_ok h
  have hweights : couponWeights rule lines ≠ [] := by
    intro hc
    rw [← sum_couponWeights, hc] at hne
    exact hne rfl
  dsimp only at h0 hle hpaisa ⊢
  split
  · rename_i hz
    simp [hz]
  · refine ⟨by simp [couponWeights], ?_⟩
    exact allocate_sum hpaisa h0 (couponWeights_nonneg hl) hweights

/-- **No line's share is negative or above its gross.** -/
theorem couponAllocations_share (hr : rule.Valid) (hl : ∀ l ∈ lines, l.Valid)
    (h : evaluateCoupon rule lines usage now = .ok res) {i : ℕ} {l : CouponLine}
    (hi : lines[i]? = some l) :
    ∃ share, res.allocations[i]? = some share ∧ CouponShare l.gross share := by
  obtain ⟨h0, hle, hpaisa⟩ := couponDiscount_bounds hr hl h
  obtain ⟨-, -, hne, rfl⟩ := evaluateCoupon_ok h
  have hv := hl l (List.mem_of_getElem? hi)
  dsimp only at h0 hle hpaisa ⊢
  split
  · exact ⟨0, by rw [List.getElem?_map, hi, Option.map_some], CouponShare.zero hv.gross_nonneg⟩
  · have hw : (couponWeights rule lines)[i]? = some (if lineEligible rule l then l.gross else 0) := by
      simp [couponWeights, hi]
    obtain ⟨share, hget, hfair⟩ :=
      allocate_fair hpaisa h0 (couponWeights_nonneg hl) hw
    refine ⟨share, hget, hfair.nonneg, ?_, hfair.paisa⟩
    rw [sum_couponWeights] at hfair
    by_cases hel : lineEligible rule l
    · rw [if_pos hel] at hfair
      exact hfair.le hle hv.gross_paisa
    · rw [if_neg hel] at hfair
      rw [hfair.zero hne rfl]
      exact hv.gross_nonneg

end BookHouse
