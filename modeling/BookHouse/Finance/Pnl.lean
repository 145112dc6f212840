/-
What papers contribute to profit: `finance/reports/domain/pnl.ts`.
-/
import BookHouse.Finance.Documents
import BookHouse.Lib.Grouping

namespace BookHouse

structure Pnl where
  sales : Money := 0
  coupon : Money := 0
  cogs : Money := 0
  shipIn : Money := 0
  courier : Money := 0
  gatewayFee : Money := 0
  courierLoss : Money := 0
  invoices : ℕ := 0
  credits : ℕ := 0
  /-- papers without a full cost snapshot — left out of the money figures -/
  skipped : ℕ := 0
deriving DecidableEq, Repr

structure LineMoney where
  sales : Money
  cogs : Money
  /-- every line's cost is known -/
  known : Bool
deriving DecidableEq, Repr

def lineMoney (lines : List DocLine) : LineMoney :=
  { sales := (lines.map fun l => l.unitPrice * (l.qty : ℚ)).sum,
    cogs := (lines.map fun l => l.unitCost.getD 0 * (l.qty : ℚ)).sum,
    known := !lines.isEmpty && lines.all (·.unitCost.isSome) }

/-- One paper of the loop in `pnlFor`. -/
def Pnl.add (out : Pnl) (doc : FinancialDocument) : Pnl :=
  if doc.kind = .receipt then out
  else
    let credit := doc.kind = .creditNote
    let out := if credit then { out with credits := out.credits + 1 }
      else { out with invoices := out.invoices + 1 }
    let money := lineMoney doc.lines
    if !money.known then { out with skipped := out.skipped + 1 }
    else
      let sign : ℚ := if credit then -1 else 1
      { out with
        sales := out.sales + money.sales * sign,
        coupon := out.coupon + doc.discount * sign,
        cogs := out.cogs + money.cogs * sign,
        shipIn := out.shipIn + doc.shippingFee * sign,
        gatewayFee := out.gatewayFee + doc.gatewayFee * sign,
        courier := if !credit then out.courier + doc.shippingCost
          else if doc.reverseCourier then out.courier - doc.shippingCost else out.courier,
        courierLoss := if credit then out.courierLoss + doc.courierLoss.getD 0 else out.courierLoss }

/--
Invoices add, credit notes subtract.  Receipts are cash, not revenue, and are ignored.
-/
def pnlFor (docs : List FinancialDocument) : Pnl := docs.foldl Pnl.add {}

/-! ### The categories -/

structure CatRow where
  category : String
  qty : ℤ
  sales : Money
  cogs : Money
deriving DecidableEq, Repr

/-- `OTHER` -/
def otherCategory : String := "অন্যান্য"

/-- `PACK` -/
def packCategory : String := "প্যাকেজ"

/-- `categoryName || OTHER` -/
def categoryNameOr (name : Option String) : String := (name.filter (· ≠ "")).getD otherCategory

/-- What is added under a category: quantity, sales and costs. -/
abbrev CatSums := ℤ × Money × Money

/-- What a line adds to the categories; a bundle is split over its components by the bundle
price allocation snapshot. -/
def lineRows (sign : ℤ) (l : DocLine) : List (String × CatSums) :=
  let lineSales := l.unitPrice * (l.qty : ℚ)
  let lineCogs := l.unitCost.getD 0 * (l.qty : ℚ) * (sign : ℚ)
  if l.kind = .bundle then
    if l.components = [] then [(packCategory, sign * l.qty, lineSales * (sign : ℚ), lineCogs)]
    else
      let parts := allocate lineSales (l.components.map (·.allocatedRevenue))
      List.zipWith (fun c part => (categoryNameOr c.categoryName, sign * c.qty,
        part * (sign : ℚ), c.unitCost.getD 0 * (c.qty : ℚ) * (sign : ℚ))) l.components parts
  else [(categoryNameOr l.categoryName, sign * l.qty, lineSales * (sign : ℚ), lineCogs)]

def docRows (doc : FinancialDocument) : List (String × CatSums) :=
  if doc.kind = .receipt then []
  else doc.lines.flatMap (lineRows (if doc.kind = .creditNote then -1 else 1))

/-- Sales and costs per category, the best sold first. -/
def categoryRows (docs : List FinancialDocument) : List CatRow :=
  let rows := (Grouping.collect (docs.flatMap docRows)).map fun r : String × CatSums =>
    { category := r.1, qty := r.2.1, sales := r.2.2.1, cogs := r.2.2.2 : CatRow }
  (rows.filter fun r => r.qty ≠ 0 || r.sales ≠ 0).insertionSort fun a b => b.sales ≤ a.sales

/-! ### The money figures, one paper at a time -/

inductive Figure
  | sales | coupon | cogs | shipIn | courier | gatewayFee | courierLoss
deriving DecidableEq, Repr

def Pnl.figure (p : Pnl) : Figure → Money
  | .sales => p.sales
  | .coupon => p.coupon
  | .cogs => p.cogs
  | .shipIn => p.shipIn
  | .courier => p.courier
  | .gatewayFee => p.gatewayFee
  | .courierLoss => p.courierLoss

/-- What one paper adds to a figure. -/
def docFigure (k : Figure) (doc : FinancialDocument) : Money := (Pnl.add {} doc).figure k

theorem Pnl.figure_add (p : Pnl) (doc : FinancialDocument) (k : Figure) :
    (p.add doc).figure k = p.figure k + docFigure k doc := by
  unfold docFigure Pnl.add
  by_cases hr : doc.kind = .receipt
  · cases k <;> simp [hr, Pnl.figure]
  by_cases hc : doc.kind = .creditNote
  · cases hk : (lineMoney doc.lines).known
    · cases k <;> simp [hc, hk, Pnl.figure]
    · cases doc.reverseCourier <;> cases k <;> simp [hc, hk, Pnl.figure, sub_eq_add_neg]
  · cases hk : (lineMoney doc.lines).known
    · cases k <;> simp [hr, hc, hk, Pnl.figure]
    · cases k <;> simp [hr, hc, hk, Pnl.figure]

/-- **Each money figure is the sum of what the papers add to it.** -/
theorem pnlFor_figure (docs : List FinancialDocument) (k : Figure) :
    (pnlFor docs).figure k = (docs.map (docFigure k)).sum := by
  have hfold : ∀ (docs : List FinancialDocument) (p : Pnl),
      (docs.foldl Pnl.add p).figure k = p.figure k + (docs.map (docFigure k)).sum := by
    intro docs
    induction docs with
    | nil => intro p; simp
    | cons d rest ih =>
        intro p
        rw [List.foldl_cons, ih, Pnl.figure_add, List.map_cons, List.sum_cons, add_assoc]
  rw [pnlFor, hfold]
  cases k <;> simp [Pnl.figure]

end BookHouse
