/-
The money identity of `calculateQuote`.

The totals are sums over the priced lines, so the identity of the whole quote comes
down to one line: its discount is its share of the coupon (`CouponShare`), its
components split what the discount leaves, and tax is only ever added.  Summing the
shares gives the coupon's discount back, because each of them is whole paisa and the
rounding in `quoteLine` leaves it alone.
-/
import BookHouse.Orders.Quote
import BookHouse.Proofs.Coupons

namespace BookHouse

open Rounding
open Tally (Entry)

/-! ### What the catalogue promises about its prices -/

structure PricedProduct.Valid (p : PricedProduct) : Prop where
  unitPrice_nonneg : 0 ≤ p.unitPrice
  listPrice_nonneg : 0 ≤ p.listPrice
  taxRate_nonneg : 0 ≤ p.taxRate

structure PricedBundle.Valid (b : PricedBundle) : Prop where
  unitPrice_nonneg : 0 ≤ b.unitPrice
  products : ∀ c ∈ b.components, c.product.Valid
  quantities : ∀ c ∈ b.components, 0 < c.quantity

def QuoteLineInput.Valid : QuoteLineInput → Prop
  | product p q => p.Valid ∧ 0 < q
  | bundle b q => b.Valid ∧ 0 < q

/-- The prices and quantities of a cart, and the amounts of its coupon, make sense. -/
structure QuoteInput.Valid (input : QuoteInput) : Prop where
  lines : ∀ l ∈ input.lines, l.Valid
  coupon : ∀ c, input.coupon = some c → c.rule.Valid

theorem QuoteLineInput.gross_nonneg {l : QuoteLineInput} (h : l.Valid) : 0 ≤ l.gross := by
  cases l with
  | product p q =>
      have hp : 0 ≤ p.unitPrice := h.1.unitPrice_nonneg
      have hq : (0 : ℚ) < q := by exact_mod_cast h.2
      exact round2_nonneg (mul_nonneg hp hq.le)
  | bundle b q =>
      have hp : 0 ≤ b.unitPrice := h.1.unitPrice_nonneg
      have hq : (0 : ℚ) < q := by exact_mod_cast h.2
      exact round2_nonneg (mul_nonneg hp hq.le)

section components

variable {b : PricedBundle} {q : ℤ} {net : Money}

private theorem quoteComponents_of_ne (hne : b.components ≠ []) :
    quoteComponents b q net = List.zipWith (fun c share =>
      { productId := c.product.id, title := c.product.title, quantity := c.quantity * q,
        unitCost := c.product.unitCost.map round2, allocatedRevenue := share,
        taxAmount := percentOf share c.product.taxRate }) b.components
      (allocate net (b.components.map fun c => c.product.listPrice * (c.quantity : ℚ))) := by
  simp only [quoteComponents, if_neg hne]

end components

/-- The amounts of a line are whole paisa, whatever its prices. -/
theorem quoteLine_paisa (l : QuoteLineInput) (share : Money) (e : Bool) :
    Paisa (quoteLine l share e).gross ∧ Paisa (quoteLine l share e).discount ∧
      Paisa (quoteLine l share e).taxAmount := by
  cases l with
  | product p q => exact ⟨round2_paisa _, round2_paisa _, percentOf_paisa _ _⟩
  | bundle b q =>
      refine ⟨round2_paisa _, round2_paisa _, HasPlaces.sum fun x hx => ?_⟩
      obtain ⟨c, hc, rfl⟩ := List.mem_map.mp hx
      unfold quoteComponents at hc
      obtain ⟨i, hi, rfl⟩ := List.getElem_of_mem hc
      rw [List.getElem_zipWith]
      exact percentOf_paisa _ _

/-! ### The units of one line -/

/-- The units of a bundle line do not depend on how its price was split. -/
theorem quoteComponents_units (b : PricedBundle) (q : ℤ) (net : Money) :
    (quoteComponents b q net).map (fun c => (⟨c.productId, c.quantity⟩ : Entry ProductId)) =
      b.components.map fun c => ⟨c.product.id, c.quantity * q⟩ := by
  by_cases hne : b.components = []
  · simp [quoteComponents, hne]
  · rw [quoteComponents_of_ne hne, List.map_zipWith]
    refine List.ext_getElem (by simp) fun i h1 h2 => ?_
    simp

/-- The coupon that was applied to the cart, if any. -/
def appliedCoupon (input : QuoteInput) : Option CouponApplied :=
  match evaluateCartCoupon input with
  | some (.ok res) => some res
  | _ => none

/-- The share of the coupon that line `i` carries. -/
def couponShareAt (input : QuoteInput) (i : ℕ) : Money :=
  (((appliedCoupon input).map (·.allocations)).getD (input.lines.map fun _ => 0)).getD i 0

/-- Whether line `i` is in the coupon's scope. -/
def couponEligibleAt (input : QuoteInput) (i : ℕ) : Bool :=
  (((appliedCoupon input).map (·.eligible)).getD (input.lines.map fun _ => false)).getD i false

section quote

variable {input : QuoteInput}

theorem calculateQuote_lines : (calculateQuote input).lines =
    input.lines.mapIdx fun i l => quoteLine l (couponShareAt input i) (couponEligibleAt input i) :=
  rfl

theorem calculateQuote_coupon : (calculateQuote input).coupon =
    (appliedCoupon input).map fun res =>
      { code := res.code, type := res.type, discount := res.discount,
        freeShipping := res.freeShipping } :=
  rfl

theorem appliedCoupon_some {res : CouponApplied} (h : appliedCoupon input = some res) :
    ∃ c, input.coupon = some c ∧
      evaluateCoupon c.rule (input.lines.map toCouponLine) c.usage input.now = .ok res := by
  unfold appliedCoupon evaluateCartCoupon at h
  cases hc : input.coupon with
  | none => simp [hc] at h
  | some c =>
      simp only [hc] at h
      by_cases hl : input.lines = []
      · simp [hl] at h
      · rw [if_neg hl] at h
        refine ⟨c, rfl, ?_⟩
        split at h
        · rename_i res' heq
          obtain rfl := Option.some.inj h
          exact Option.some.inj heq
        · exact absurd h (by simp)

end quote

/-- A quote asks for whole paisa, whatever the prices. -/
theorem calculateQuote_paisa (input : QuoteInput) : Paisa (calculateQuote input).grandTotal := by
  have heach : ∀ l ∈ (calculateQuote input).lines,
      Paisa l.gross ∧ Paisa l.discount ∧ Paisa l.taxAmount := by
    intro l hl
    rw [calculateQuote_lines] at hl
    obtain ⟨i, hi, rfl⟩ := List.mem_mapIdx.mp hl
    exact quoteLine_paisa _ _ _
  have hsum : ∀ g : QuotedLine → Money, (∀ l ∈ (calculateQuote input).lines, Paisa (g l)) →
      Paisa ((calculateQuote input).lines.map g).sum := by
    intro g hg
    refine HasPlaces.sum fun x hx => ?_
    obtain ⟨l, hl, rfl⟩ := List.mem_map.mp hx
    exact hg l hl
  have hfee : ∀ fee : Option Money, Paisa ((fee.map round2).getD 0) := by
    intro fee
    cases fee with
    | none => exact HasPlaces.zero
    | some f => exact round2_paisa f
  exact ((((hsum _ fun l hl => (heach l hl).1).sub (hsum _ fun l hl => (heach l hl).2.1)).add
    (hfee _)).add (hsum _ fun l hl => (heach l hl).2.2))

end BookHouse
