/-
The category report against the profit report.

What the lines add under the categories adds up to what the papers add to sales and costs: a
bundle's parts add up to its price.  Grouping keeps the sums, and so does leaving out a
category without sales, as far as sales go; but such a category may still have costs, of a
book that was sold at one cost and taken back at another.
-/
import BookHouse.Finance.Pnl
import BookHouse.Proofs.Money

namespace BookHouse

open Rounding

/-- Amounts as papers carry them. -/
structure DocLine.Valid (l : DocLine) : Prop where
  price : 0 ≤ l.unitPrice
  paisa : Paisa l.unitPrice
  qty : 0 ≤ l.qty
  revenue : ∀ c ∈ l.components, 0 ≤ c.allocatedRevenue

/-- The costs are known, and a bundle costs what its components cost. -/
structure DocLine.Costed (l : DocLine) : Prop where
  known : l.unitCost.isSome = true
  bundle : l.kind = .bundle → l.components ≠ [] → l.unitCost.getD 0 * (l.qty : ℚ) =
    (l.components.map fun c => c.unitCost.getD 0 * (c.qty : ℚ)).sum

/-- The lines that are written for an order have amounts as papers carry them. -/
theorem buildLines_valid {categoryOf : ProductId → Option String} {items : List OrderItem}
    (h : ∀ it ∈ items, 0 ≤ it.unitPrice ∧ 0 ≤ it.quantity ∧
      ∀ c ∈ it.components, 0 ≤ c.allocatedRevenue) :
    ∀ l ∈ buildLines categoryOf items, l.Valid := by
  intro l hl
  obtain ⟨it, hit, rfl⟩ := List.mem_map.mp hl
  obtain ⟨hprice, hqty, hrevenue⟩ := h it hit
  refine ⟨round2_nonneg hprice, round2_paisa _, hqty, fun c hc => ?_⟩
  dsimp only at hc
  split at hc
  · obtain ⟨c', hc', rfl⟩ := List.mem_map.mp hc
    exact round2_nonneg (hrevenue c' hc')
  · cases hc

/-! ### What the lines add -/

/-- The sums of keyed values. -/
def allSums (es : List (String × CatSums)) : CatSums := (es.map Prod.snd).sum

@[simp] theorem allSums_nil : allSums [] = 0 := rfl

@[simp] theorem allSums_append (es fs : List (String × CatSums)) :
    allSums (es ++ fs) = allSums es + allSums fs := by
  simp [allSums]

theorem allSums_flatMap {ι : Type} (f : ι → List (String × CatSums)) (xs : List ι) :
    allSums (xs.flatMap f) = (xs.map fun x => allSums (f x)).sum := by
  induction xs with
  | nil => rfl
  | cons x rest ih => rw [List.flatMap_cons, allSums_append, ih, List.map_cons, List.sum_cons]

theorem sum_snd (xs : List CatSums) :
    xs.sum.2.1 = (xs.map (·.2.1)).sum ∧ xs.sum.2.2 = (xs.map (·.2.2)).sum := by
  induction xs with
  | nil => exact ⟨rfl, rfl⟩
  | cons x rest ih => simp [ih.1, ih.2]

variable {l : DocLine} {sign : ℤ}

/-- The parts of a bundle. -/
theorem allSums_parts (cs : List DocComponent) (parts : List Money)
    (hlength : parts.length = cs.length) :
    (allSums (List.zipWith (fun (c : DocComponent) part => (categoryNameOr c.categoryName,
      sign * c.qty, part * (sign : ℚ), c.unitCost.getD 0 * (c.qty : ℚ) * (sign : ℚ))) cs parts)).2 =
      (parts.sum * (sign : ℚ), (cs.map fun c => c.unitCost.getD 0 * (c.qty : ℚ)).sum * (sign : ℚ)) := by
  induction cs generalizing parts with
  | nil =>
      obtain rfl := List.length_eq_zero_iff.mp hlength
      simp
      rfl
  | cons c rest ih =>
      obtain ⟨part, parts, rfl⟩ := List.exists_cons_of_length_eq_add_one hlength
      have hrest := ih parts (by simpa using hlength)
      simp only [allSums] at hrest ⊢
      rw [List.zipWith_cons_cons, List.map_cons, List.sum_cons, Prod.snd_add, hrest,
        Prod.mk_add_mk, List.sum_cons, List.map_cons, List.sum_cons, add_mul, add_mul]

/-- **A line adds its sales and its costs, whatever categories they go under.** -/
theorem allSums_lineRows (hvalid : l.Valid) (hcosted : l.Costed) :
    (allSums (lineRows sign l)).2 = (l.unitPrice * (l.qty : ℚ) * (sign : ℚ),
      l.unitCost.getD 0 * (l.qty : ℚ) * (sign : ℚ)) := by
  unfold lineRows
  dsimp only
  split
  · rename_i hkind
    split
    · simp [allSums]
    · rename_i hne
      rw [allSums_parts _ _ (by simp), ← hcosted.bundle hkind hne]
      have hpaisa : Paisa (l.unitPrice * (l.qty : ℚ)) := hvalid.paisa.mul_int l.qty
      have hqty : (0 : ℚ) ≤ (l.qty : ℚ) := by exact_mod_cast hvalid.qty
      have htotal : 0 ≤ l.unitPrice * (l.qty : ℚ) := mul_nonneg hvalid.price hqty
      rw [allocate_sum hpaisa htotal]
      · intro x hx
        obtain ⟨c, hc, rfl⟩ := List.mem_map.mp hx
        exact hvalid.revenue c hc
      · simpa using hne
  · simp [allSums]

theorem allSums_lines {lines : List DocLine} (hvalid : ∀ l ∈ lines, l.Valid)
    (hcosted : ∀ l ∈ lines, l.Costed) : (allSums (lines.flatMap (lineRows sign))).2 =
      ((lineMoney lines).sales * (sign : ℚ), (lineMoney lines).cogs * (sign : ℚ)) := by
  unfold lineMoney
  induction lines with
  | nil =>
      simp
      rfl
  | cons l rest ih =>
      have hrest := ih (fun x hx => hvalid x (List.mem_cons_of_mem _ hx))
        fun x hx => hcosted x (List.mem_cons_of_mem _ hx)
      rw [List.flatMap_cons, allSums_append, Prod.snd_add, hrest,
        allSums_lineRows (hvalid l List.mem_cons_self) (hcosted l List.mem_cons_self)]
      simp only [Prod.mk_add_mk, List.map_cons, List.sum_cons, add_mul]

/-- Lines whose costs are known are counted, unless there are none. -/
theorem eq_nil_of_not_known {lines : List DocLine} (hcosted : ∀ l ∈ lines, l.Costed)
    (hk : (lineMoney lines).known = false) : lines = [] := by
  by_contra hne
  have hall : lines.all (·.unitCost.isSome) = true :=
    List.all_eq_true.mpr fun l hl => (hcosted l hl).known
  simp [lineMoney, hne, hall] at hk

/-- A paper adds to the categories what it adds to the report. -/
theorem allSums_docRows {doc : FinancialDocument} (hvalid : ∀ l ∈ doc.lines, l.Valid)
    (hcosted : ∀ l ∈ doc.lines, l.Costed) :
    (allSums (docRows doc)).2 = (docFigure .sales doc, docFigure .cogs doc) := by
  unfold docRows docFigure Pnl.add
  by_cases hr : doc.kind = .receipt
  · simp [hr, Pnl.figure]
    rfl
  rw [if_neg hr, if_neg hr]
  cases hk : (lineMoney doc.lines).known with
  | false =>
      have hnone : ∀ sign, (allSums (doc.lines.flatMap (lineRows sign))).2 = (0, 0) := by
        intro sign
        rw [eq_nil_of_not_known hcosted hk]
        rfl
      rw [hnone]
      by_cases hc : doc.kind = .creditNote <;> simp [hc, hk, Pnl.figure]
  | true =>
      rw [allSums_lines hvalid hcosted]
      by_cases hc : doc.kind = .creditNote <;> simp [hc, hk, Pnl.figure]

/-! ### What the report leaves out -/

/-- What has been sold of a category, in all. -/
def categorySums (docs : List FinancialDocument) (category : String) : CatSums :=
  Grouping.total category (docs.flatMap docRows)

/-- The categories of the papers' lines. -/
def categories (docs : List FinancialDocument) : List String :=
  ((docs.flatMap docRows).map Prod.fst).dedup

/-- The categories of which as much was taken back as was sold, in number and in sales. -/
def evenCategories (docs : List FinancialDocument) : List String :=
  (categories docs).filter fun c =>
    (categorySums docs c).1 = 0 && (categorySums docs c).2.1 = 0

def catRow (r : String × CatSums) : CatRow :=
  { category := r.1, qty := r.2.1, sales := r.2.2.1, cogs := r.2.2.2 }

/-- The report adds up to the profit report. -/
structure CategoriesAgree (docs : List FinancialDocument) : Prop where
  sales : ((categoryRows docs).map (·.sales)).sum = (pnlFor docs).sales
  cogs : ((categoryRows docs).map (·.cogs)).sum = (pnlFor docs).cogs
  distinct : ((categoryRows docs).map (·.category)).Nodup
  sorted : (categoryRows docs).Pairwise fun a b => b.sales ≤ a.sales

section

variable {docs : List FinancialDocument}

/-- The rows before they are filtered and sorted. -/
def allRows (docs : List FinancialDocument) : List CatRow :=
  (Grouping.collect (docs.flatMap docRows)).map catRow

def CatRow.shown (r : CatRow) : Bool := r.qty ≠ 0 || r.sales ≠ 0

theorem categoryRows_perm : (categoryRows docs).Perm ((allRows docs).filter CatRow.shown) :=
  List.perm_insertionSort _ _

theorem categoryRows_sorted : (categoryRows docs).Pairwise fun a b => b.sales ≤ a.sales := by
  have : Std.Total fun a b : CatRow => b.sales ≤ a.sales := ⟨fun a b => le_total b.sales a.sales⟩
  have : IsTrans CatRow fun a b => b.sales ≤ a.sales := ⟨fun _ _ _ hab hbc => le_trans hbc hab⟩
  exact List.pairwise_insertionSort _ _

theorem categoryRows_distinct : ((categoryRows docs).map (·.category)).Nodup := by
  rw [(categoryRows_perm.map _).nodup_iff]
  have hall : ((allRows docs).map (·.category)).Nodup := by
    rw [allRows, List.map_map]
    exact Grouping.nodup_collect _
  exact hall.sublist (List.filter_sublist.map _)

/-- The rows add up to what the lines add. -/
theorem sum_allRows : ((allRows docs).map (·.sales)).sum = (allSums (docs.flatMap docRows)).2.1 ∧
    ((allRows docs).map (·.cogs)).sum = (allSums (docs.flatMap docRows)).2.2 := by
  have hsum : (allSums (docs.flatMap docRows)) =
      ((Grouping.collect (docs.flatMap docRows)).map Prod.snd).sum :=
    (Grouping.sum_collect _).symm
  rw [hsum, allRows, (sum_snd _).1, (sum_snd _).2]
  simp only [List.map_map]
  exact ⟨rfl, rfl⟩

theorem allSums_eq_report (hvalid : ∀ d ∈ docs, ∀ l ∈ d.lines, l.Valid)
    (hcosted : ∀ d ∈ docs, ∀ l ∈ d.lines, l.Costed) :
    (allSums (docs.flatMap docRows)).2 = ((pnlFor docs).sales, (pnlFor docs).cogs) := by
  have hfigures : (allSums (docs.flatMap docRows)).2 =
      ((docs.map (docFigure .sales)).sum, (docs.map (docFigure .cogs)).sum) := by
    induction docs with
    | nil => rfl
    | cons d rest ih =>
        have hrest := ih (fun x hx => hvalid x (List.mem_cons_of_mem _ hx))
          fun x hx => hcosted x (List.mem_cons_of_mem _ hx)
        rw [List.flatMap_cons, allSums_append, Prod.snd_add, hrest,
          allSums_docRows (hvalid d List.mem_cons_self) (hcosted d List.mem_cons_self)]
        rfl
  rw [hfigures, ← pnlFor_figure, ← pnlFor_figure]
  rfl

/-- What is shown and what is not. -/
theorem sum_shown (docs : List FinancialDocument) (f : CatRow → Money) :
    ((categoryRows docs).map f).sum + (((allRows docs).filter fun r => !r.shown).map f).sum =
      ((allRows docs).map f).sum := by
  rw [(categoryRows_perm.map f).sum_eq, ← List.sum_append, ← List.map_append]
  exact ((List.filter_append_perm CatRow.shown (allRows docs)).map f).sum_eq

/-- The rows that are not shown are the even categories. -/
theorem sum_hidden : (((allRows docs).filter fun r => !r.shown).map (·.cogs)).sum =
    ((evenCategories docs).map fun c => (categorySums docs c).2.2).sum := by
  have hperm : (allRows docs).Perm ((categories docs).map fun c => catRow (c, categorySums docs c)) := by
    have hrows := (Grouping.collect_perm (docs.flatMap docRows)).map catRow
    rw [List.map_map] at hrows
    exact hrows
  rw [((hperm.filter _).map _).sum_eq, List.filter_map, List.map_map, evenCategories]
  congr 1
  have hsame : ((fun r => !r.shown) ∘ fun c => catRow (c, categorySums docs c)) = fun c =>
      (decide ((categorySums docs c).1 = 0) && decide ((categorySums docs c).2.1 = 0)) := by
    funext c
    simp [CatRow.shown, catRow]
  rw [hsame]
  rfl

theorem sum_hidden_sales : (((allRows docs).filter fun r => !r.shown).map (·.sales)).sum = 0 := by
  refine List.sum_eq_zero fun x hx => ?_
  obtain ⟨r, hr, rfl⟩ := List.mem_map.mp hx
  have hhidden := (List.mem_filter.mp hr).2
  simp only [CatRow.shown, Bool.not_or, Bool.and_eq_true] at hhidden
  simpa using hhidden.2

end

/-- **The category report adds up to the profit report exactly when the categories that are
not shown have no costs left.** -/
theorem categoryRows_agree_iff (docs : List FinancialDocument)
    (hvalid : ∀ d ∈ docs, ∀ l ∈ d.lines, l.Valid)
    (hcosted : ∀ d ∈ docs, ∀ l ∈ d.lines, l.Costed) :
    CategoriesAgree docs ↔
      ((evenCategories docs).map fun c => (categorySums docs c).2.2).sum = 0 := by
  have hreport := allSums_eq_report hvalid hcosted
  have hsales := sum_shown docs (·.sales)
  have hcogs := sum_shown docs (·.cogs)
  rw [sum_hidden_sales, sum_allRows.1, hreport, add_zero] at hsales
  rw [sum_hidden, sum_allRows.2, hreport] at hcogs
  constructor
  · intro h
    rw [h.cogs] at hcogs
    exact add_left_cancel (hcogs.trans (add_zero _).symm)
  · intro h
    rw [h, add_zero] at hcogs
    exact ⟨hsales, hcogs, categoryRows_distinct, categoryRows_sorted⟩

/-- A book of 250 that was sold, or taken back, at a cost. -/
def oneNovel (kind : DocumentKind) (unitCost : Money) : FinancialDocument where
  id := 0
  docNo := ""
  kind := kind
  orderId := 1
  customerName := ""
  customerPhone := ""
  address := ""
  paymentLabel := ""
  lines := [{ kind := .product, id := some 3, title := "বই", sectionCode := "book",
              categoryName := some "উপন্যাস", qty := 1, unitPrice := 250,
              unitCost := some unitCost, discount := 0, lineTotal := 250 }]
  subtotal := 250
  couponCode := none
  discount := 0
  shippingFee := 0
  shippingCost := 0
  gatewayFee := 0
  taxTotal := 0
  total := 250
  issuedAt := 0

theorem oneNovel_lines {kind : DocumentKind} {unitCost : Money} :
    ∀ l ∈ (oneNovel kind unitCost).lines, l.Valid ∧ l.Costed := by
  intro l hl
  obtain rfl := List.mem_singleton.mp hl
  refine ⟨⟨by norm_num, ⟨25000, by norm_num⟩, by norm_num, fun c hc => by cases hc⟩, rfl, fun hk => ?_⟩
  cases hk

/-- A novel that was bought for 100 was taken back, and one that was bought for 150 was sold. -/
def dearerNovel : List FinancialDocument := [oneNovel .creditNote 100, oneNovel .invoice 150]

theorem dearerNovel_lines : ∀ d ∈ dearerNovel, ∀ l ∈ d.lines, l.Valid ∧ l.Costed := by
  intro d hd
  rcases List.mem_cons.mp hd with rfl | hd
  · exact oneNovel_lines
  · obtain rfl := List.mem_singleton.mp hd
    exact oneNovel_lines

/-- **A category without sales hides its costs.** -/
theorem hidden_category_cogs : ¬ ∀ docs : List FinancialDocument,
    (∀ d ∈ docs, ∀ l ∈ d.lines, l.Valid) → (∀ d ∈ docs, ∀ l ∈ d.lines, l.Costed) →
      CategoriesAgree docs := by
  intro hall
  have hagree := (hall dearerNovel (fun d hd l hl => (dearerNovel_lines d hd l hl).1)
    fun d hd l hl => (dearerNovel_lines d hd l hl).2).cogs
  exact absurd hagree (by decide +kernel)

theorem categoryRows_agree_sale : CategoriesAgree [oneNovel .invoice 150] ↔
    ((evenCategories [oneNovel .invoice 150]).map fun c =>
      (categorySums [oneNovel .invoice 150] c).2.2).sum = 0 := by
  refine categoryRows_agree_iff [oneNovel .invoice 150] (fun d hd l hl => ?_) fun d hd l hl => ?_
  · obtain rfl := List.mem_singleton.mp hd
    exact (oneNovel_lines l hl).1
  · obtain rfl := List.mem_singleton.mp hd
    exact (oneNovel_lines l hl).2

end BookHouse
