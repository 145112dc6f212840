/-
The two ways of telling a customer's segment agree, as long as the database can double a count.

Stored names are trimmed, so neither trim changes them and both look for the same tag.  Every
other rule is compared on its own: a rate of one half is twice the cancelled orders, and what a
row does not say passes in neither.  Twice the cancelled orders may not fit the column's type,
and then the lists raise an error unless the tag has decided before.
-/
import BookHouse.Customers.Segments

namespace BookHouse

open Sql

/-! ### Stored names are trimmed -/

/-- Nothing to drop at either end. -/
structure IsTrimmed (blank : Char → Bool) (cs : List Char) : Prop where
  first : ∀ c, cs.head? = some c → blank c = false
  last : ∀ c, cs.getLast? = some c → blank c = false

theorem dropWhile_head {blank : Char → Bool} : ∀ (cs : List Char) {c : Char},
    (cs.dropWhile blank).head? = some c → blank c = false := by
  intro cs
  induction cs with
  | nil => intro c h; simp at h
  | cons a rest ih =>
      intro c h
      by_cases ha : blank a = true
      · rw [List.dropWhile_cons_of_pos ha] at h
        exact ih h
      · rw [List.dropWhile_cons_of_neg ha, List.head?_cons] at h
        obtain rfl := Option.some.inj h
        simpa using ha

/-- Dropping at the end leaves the start alone, where anything is left. -/
theorem isTrimmed_trim (v : String) : IsTrimmed isBlank (trim v).toList := by
  have hdrop : ∀ cs : List Char, ∃ front, cs = front ++ cs.dropWhile isBlank :=
    fun cs => ⟨cs.takeWhile isBlank, List.takeWhile_append_dropWhile.symm⟩
  let cs := v.toList.dropWhile isBlank
  have htext : (trim v).toList = (cs.reverse.dropWhile isBlank).reverse := by
    simp [trim, cs]
  obtain ⟨front, hfront⟩ := hdrop cs.reverse
  have hcs : cs = (cs.reverse.dropWhile isBlank).reverse ++ front.reverse := by
    rw [← List.reverse_append, ← hfront, List.reverse_reverse]
  rw [htext]
  constructor
  · intro c hc
    refine dropWhile_head v.toList (c := c) ?_
    show cs.head? = some c
    rw [hcs, List.head?_append, hc]
    rfl
  · intro c hc
    rw [List.getLast?_reverse] at hc
    exact dropWhile_head cs.reverse hc

theorem IsTrimmed.mono {blank blank' : Char → Bool} {cs : List Char} (h : IsTrimmed blank cs)
    (hb : ∀ c, blank' c = true → blank c = true) : IsTrimmed blank' cs := by
  have hout : ∀ c, blank c = false → blank' c = false := by
    intro c hc
    cases hc' : blank' c with
    | false => rfl
    | true => exact absurd ((hb c hc').symm.trans hc) (by decide)
  exact ⟨fun c hc => hout c (h.first c hc), fun c hc => hout c (h.last c hc)⟩

theorem dropWhile_of_head {blank : Char → Bool} {cs : List Char}
    (h : ∀ c, cs.head? = some c → blank c = false) : cs.dropWhile blank = cs := by
  cases cs with
  | nil => rfl
  | cons a rest =>
      refine List.dropWhile_cons_of_neg ?_
      rw [h a rfl]
      decide

/-- A text with nothing to drop is left as it is. -/
theorem drop_of_isTrimmed {blank : Char → Bool} {cs : List Char} (h : IsTrimmed blank cs) :
    ((cs.dropWhile blank).reverse.dropWhile blank).reverse = cs := by
  rw [dropWhile_of_head h.first, dropWhile_of_head, List.reverse_reverse]
  intro c hc
  rw [List.head?_reverse] at hc
  exact h.last c hc

theorem trim_of_isTrimmed {v : String} (h : IsTrimmed isBlank v.toList) : trim v = v := by
  unfold trim
  rw [drop_of_isTrimmed h, String.ofList_toList]

theorem btrim_trim (v : String) : btrim (trim v) = trim v := by
  have hspace : ∀ c : Char, decide (c = ' ') = true → isBlank c = true := by
    intro c hc
    obtain rfl := of_decide_eq_true hc
    decide
  unfold btrim
  rw [drop_of_isTrimmed ((isTrimmed_trim v).mono hspace), String.ofList_toList]

/-- **Every name that a call stores is trimmed.** -/
theorem storedTags_trimmed (calls : List TagCall) : ∀ n ∈ storedTags calls, ∃ v, n = trim v := by
  have hstep : ∀ (tags : List String) (call : TagCall), (∀ n ∈ tags, ∃ v, n = trim v) →
      ∀ n ∈ call.apply tags, ∃ v, n = trim v := by
    intro tags call htags n hn
    cases call with
    | setTags names =>
        have hmem := (List.mem_filter.mp (List.mem_dedup.mp hn)).1
        obtain ⟨v, -, rfl⟩ := List.mem_map.mp hmem
        exact ⟨v, rfl⟩
    | bulkTag tag add =>
        unfold TagCall.apply at hn
        dsimp only at hn
        split at hn
        · split at hn
          · exact htags n hn
          · rcases List.mem_append.mp hn with hn | hn
            · exact htags n hn
            · exact ⟨tag, List.mem_singleton.mp hn⟩
        · exact htags n (List.mem_filter.mp hn).1
  have hrun : ∀ (calls : List TagCall) (tags : List String), (∀ n ∈ tags, ∃ v, n = trim v) →
      ∀ n ∈ calls.foldl TagCall.apply tags, ∃ v, n = trim v := by
    intro calls
    induction calls with
    | nil => intro tags htags; exact htags
    | cons call rest ih => intro tags htags; exact ih _ (hstep tags call htags)
  exact hrun calls [] (by simp)

variable {upper : String → String} {calls : List TagCall} {c : CustomersRow} {now : Instant}

/-- Both look for the tag in the same names. -/
theorem hasVipTag_eq (upper : String → String) (calls : List TagCall) :
    (storedTags calls).any (fun name => upper (btrim name) = vipTag) =
      hasVipTag upper (storedTags calls) := by
  unfold hasVipTag
  rw [Bool.eq_iff_iff, List.any_eq_true, List.any_eq_true]
  have hsame : ∀ n ∈ storedTags calls, btrim n = trim n := by
    intro n hn
    obtain ⟨v, rfl⟩ := storedTags_trimmed calls n hn
    rw [btrim_trim, trim_of_isTrimmed (isTrimmed_trim v)]
  constructor
  · rintro ⟨n, hn, h⟩
    exact ⟨n, hn, by rwa [hsame n hn] at h⟩
  · rintro ⟨n, hn, h⟩
    exact ⟨n, hn, by rwa [hsame n hn]⟩

/-! ### The other rules -/

/-- A rate of at least one half is twice the cancelled orders being at least all of them. -/
theorem rate_iff {orders cancelled : ℤ} (h : 2 ≤ orders) :
    (1 / 2 : ℚ) ≤ (cancelled : ℚ) / (orders : ℚ) ↔ orders ≤ cancelled * 2 := by
  have hpos : (0 : ℚ) < orders := by
    have : (0 : ℤ) < orders := by omega
    exact_mod_cast this
  rw [le_div_iff₀ hpos]
  constructor
  · intro hle
    have : (orders : ℚ) ≤ (cancelled * 2 : ℤ) := by
      push_cast
      linarith
    exact_mod_cast this
  · intro hle
    have : (orders : ℚ) ≤ (cancelled * 2 : ℤ) := by exact_mod_cast hle
    push_cast at this
    linarith

theorem holds_risk (c : CustomerAggregates) :
    (Truth.and (some (decide (segmentRules.riskMinOrders ≤ c.ordersCount)))
      (some (decide (c.ordersCount ≤ c.cancelledOrders * 2)))).Holds ↔
    segmentRules.riskMinOrders ≤ c.ordersCount ∧
      segmentRules.riskCancelRate ≤ (c.cancelledOrders : ℚ) / (c.ordersCount : ℚ) := by
  rw [Truth.holds_and, Truth.holds_some, Truth.holds_some, decide_eq_true_eq, decide_eq_true_eq]
  constructor
  · rintro ⟨hmin, hle⟩
    exact ⟨hmin, (rate_iff hmin).mpr hle⟩
  · rintro ⟨hmin, hle⟩
    exact ⟨hmin, (rate_iff hmin).mp hle⟩

theorem holds_sleep (c : CustomerAggregates) (now : Instant) :
    (Truth.and (some c.lastOrderAt.isSome)
      (compare (fun a b => decide (a < b)) c.lastOrderAt
        (some (now - segmentRules.sleepDays * 86400000)))).Holds ↔
    c.lastOrderAt.any (fun last => segmentRules.sleepDays * 86400000 < now - last) = true := by
  cases c.lastOrderAt with
  | none => simp [Truth.Holds, Truth.and]
  | some last =>
      simp only [Truth.holds_and, Truth.holds_some, Option.isSome_some, true_and, holds_compare,
        Option.some.injEq, Option.any_some, decide_eq_true_eq]
      constructor
      · rintro ⟨a, b, rfl, rfl, h⟩
        exact lt_sub_comm.mp h
      · intro h
        exact ⟨last, _, rfl, rfl, lt_sub_comm.mp h⟩

/-- The CASE is the chain of rules, where the product fits. -/
theorem segmentCaseSql_eq (hfits : c.cancelledOrders * 2 ≤ int4Max) :
    segmentCaseSql upper c.toCustomerAggregates (storedTags calls) now =
      .ok (segmentOf c.toCustomerAggregates (hasVipTag upper (storedTags calls)) now) := by
  have hlow : -int4Max - 1 ≤ c.cancelledOrders * 2 := by
    have := c.cancelled_nonneg
    unfold int4Max
    omega
  have hspent : round2 c.totalSpent = c.totalSpent := round2_of_paisa c.spent_paisa
  unfold segmentCaseSql mulInt4
  dsimp only
  rw [hasVipTag_eq, if_pos ⟨hlow, hfits⟩]
  simp only [Except.map, caseWhen, holds_risk, holds_sleep, Truth.holds_or, Truth.holds_some,
    decide_eq_true_eq]
  unfold segmentOf
  dsimp only
  rw [hspent]
  split_ifs <;> rfl

/-- The tag decides before anything is multiplied. -/
theorem segmentCaseSql_vip (h : hasVipTag upper (storedTags calls) = true) :
    segmentCaseSql upper c.toCustomerAggregates (storedTags calls) now = .ok .vip := by
  unfold segmentCaseSql
  dsimp only
  rw [hasVipTag_eq, h]
  rfl

/-- Without the tag, a product that does not fit is an error. -/
theorem segmentCaseSql_error (h : hasVipTag upper (storedTags calls) = false)
    (hlarge : int4Max < c.cancelledOrders * 2) :
    segmentCaseSql upper c.toCustomerAggregates (storedTags calls) now =
      .error .integerOutOfRange := by
  unfold segmentCaseSql mulInt4
  dsimp only
  rw [hasVipTag_eq, h, if_neg (fun hc => absurd hc.2 (not_le.mpr hlarge))]
  rfl

/-- **The lists and the page tell the same segment exactly when a tag decides it or the count of
cancelled orders can be doubled.** -/
theorem segments_agree_iff (upper : String → String) (calls : List TagCall) (c : CustomersRow)
    (now : Instant) :
    segmentCaseSql upper c.toCustomerAggregates (storedTags calls) now =
        .ok (segmentOf c.toCustomerAggregates (hasVipTag upper (storedTags calls)) now) ↔
      hasVipTag upper (storedTags calls) = true ∨ c.cancelledOrders * 2 ≤ int4Max := by
  constructor
  · intro h
    by_contra hc
    obtain ⟨htag, hlarge⟩ := not_or.mp hc
    rw [segmentCaseSql_error (by simpa using htag) (not_le.mp hlarge)] at h
    cases h
  · rintro (htag | hfits)
    · rw [segmentCaseSql_vip htag, htag]
      rfl
    · exact segmentCaseSql_eq hfits

/-- Every one of 2³⁰ orders cancelled. -/
def neverDelivered : CustomersRow where
  ordersCount := 1073741824
  cancelledOrders := 1073741824
  cancelled_nonneg := by decide
  cancelled_le := by decide
  live_nonneg := by decide
  orders_le := by decide
  live_le := by decide
  spent_paisa := ⟨0, by norm_num⟩

/-- The page calls such a customer a risk, and the lists raise an error. -/
theorem segments_disagree : ¬∀ (upper : String → String) (calls : List TagCall) (c : CustomersRow)
    (now : Instant), segmentCaseSql upper c.toCustomerAggregates (storedTags calls) now =
      .ok (segmentOf c.toCustomerAggregates (hasVipTag upper (storedTags calls)) now) := by
  intro h
  have herror : segmentCaseSql id neverDelivered.toCustomerAggregates (storedTags []) 0 =
      .error _ := segmentCaseSql_error rfl (by decide)
  rw [h] at herror
  cases herror

end BookHouse
