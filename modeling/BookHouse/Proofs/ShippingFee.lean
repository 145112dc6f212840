/-
When delivery is free.

`resolveShipping` walks seven precedence levels over a sorted list of rules, yet what the
customer pays depends on one question only: does some condition for free delivery apply?
`FreeDelivery` asks it without the order of the levels, the order of the rules, their
priorities or the lowest threshold, and `fee_of_free` and `fee_of_paid` say that the fee
is zero when it holds and the zone's fee when it does not.

Everything else is a fact about `FreeDelivery`.  It survives a rule being added or
switched on, a coupon and a larger subtotal (`FreeDelivery.eased`), it does not see the
order of the rules, and adding the hinted amount reaches the lowest threshold.
-/
import BookHouse.Orders.Shipping
import Mathlib.Logic.Relation

namespace BookHouse

/-- Some condition makes delivery free. -/
inductive FreeDelivery (i : ShippingInput) : Prop
  | itemFlags (hlines : i.lines ≠ []) (hfree : ∀ l ∈ i.lines, l.freeShipping = true)
  | anyBundle (r : FreeShippingRule) (hr : r ∈ i.rules) (hlive : ruleIsLive r i.now = true)
      (htype : r.type = .anyBundle) (l : ShippingLine) (hl : l ∈ i.lines)
      (hkind : l.kind = .bundle)
  | sectionOnly (r : FreeShippingRule) (hr : r ∈ i.rules)
      (hlive : ruleIsLive r i.now = true) (htype : r.type = .sectionOnly)
      (s : SectionId) (hs : r.sectionId = some s) (hlines : i.lines ≠ [])
      (hsec : ∀ l ∈ i.lines, l.sectionId = s)
  | coupon (hc : i.couponFreeShipping = true)
  | campaignAll (r : FreeShippingRule) (hr : r ∈ i.rules)
      (hlive : ruleIsLive r i.now = true) (htype : r.type = .campaignAll)
  | minSubtotal (r : FreeShippingRule) (hr : r ∈ i.rules)
      (hlive : ruleIsLive r i.now = true) (htype : r.type = .minSubtotal)
      (m : Money) (hm : r.minSubtotal = some m) (hpos : 0 < m) (hlines : i.lines ≠ [])
      (hnet : m ≤ i.netSubtotal)

/-! ### The live rules and the lowest threshold -/

@[simp]
theorem mem_liveRules {rules : List FreeShippingRule} {now : Instant}
    {r : FreeShippingRule} :
    r ∈ liveRules rules now ↔ r ∈ rules ∧ ruleIsLive r now = true := by
  simp [liveRules, List.mem_insertionSort]

/-- The rules that ask for a subtotal above zero. -/
def thresholdRules (i : ShippingInput) : List FreeShippingRule :=
  (liveRules i.rules i.now).filter fun r => r.type == .minSubtotal && r.minSubtotal.any (0 < ·)

theorem mem_thresholdRules {i : ShippingInput} {r : FreeShippingRule} :
    r ∈ thresholdRules i ↔ r ∈ i.rules ∧ ruleIsLive r i.now = true ∧
      r.type = .minSubtotal ∧ ∃ m, r.minSubtotal = some m ∧ 0 < m := by
  simp only [thresholdRules, List.mem_filter, mem_liveRules, Bool.and_eq_true, beq_iff_eq,
    Option.any_eq_true, decide_eq_true_eq]
  tauto

/-- Starting from a rule, the fold ends with one that no rule it saw undercuts. -/
theorem lowest_foldl (rs : List FreeShippingRule) (m : FreeShippingRule) :
    ∃ r, rs.foldl (fun m r =>
        match m with
        | none => some r
        | some m => if r.minSubtotal.getD 0 < m.minSubtotal.getD 0 then some r else some m)
        (some m) = some r ∧
      (r = m ∨ r ∈ rs) ∧ r.minSubtotal.getD 0 ≤ m.minSubtotal.getD 0 ∧
      ∀ x ∈ rs, r.minSubtotal.getD 0 ≤ x.minSubtotal.getD 0 := by
  induction rs generalizing m with
  | nil => exact ⟨m, rfl, Or.inl rfl, le_rfl, by simp⟩
  | cons x rs ih =>
    rw [List.foldl_cons]
    by_cases hlt : x.minSubtotal.getD 0 < m.minSubtotal.getD 0
    · obtain ⟨r, hr, hmem, hle, hall⟩ := ih x
      refine ⟨r, ?_, ?_, hle.trans hlt.le, ?_⟩
      · simp only [if_pos hlt]
        exact hr
      · rcases hmem with rfl | hmem
        · exact Or.inr List.mem_cons_self
        · exact Or.inr (List.mem_cons_of_mem _ hmem)
      · intro y hy
        rcases List.mem_cons.mp hy with rfl | hy
        · exact hle
        · exact hall y hy
    · obtain ⟨r, hr, hmem, hle, hall⟩ := ih m
      refine ⟨r, ?_, ?_, hle, ?_⟩
      · simp only [if_neg hlt]
        exact hr
      · rcases hmem with rfl | hmem
        · exact Or.inl rfl
        · exact Or.inr (List.mem_cons_of_mem _ hmem)
      · intro y hy
        rcases List.mem_cons.mp hy with rfl | hy
        · exact hle.trans (not_lt.mp hlt)
        · exact hall y hy

theorem lowestRule_cons (x : FreeShippingRule) (rs : List FreeShippingRule) :
    ∃ r ∈ x :: rs, lowestRule (x :: rs) = some r ∧
      ∀ y ∈ x :: rs, r.minSubtotal.getD 0 ≤ y.minSubtotal.getD 0 := by
  obtain ⟨r, hr, hmem, hle, hall⟩ := lowest_foldl rs x
  refine ⟨r, ?_, hr, ?_⟩
  · rcases hmem with rfl | hmem
    · exact List.mem_cons_self
    · exact List.mem_cons_of_mem _ hmem
  · intro y hy
    rcases List.mem_cons.mp hy with rfl | hy
    · exact hle
    · exact hall y hy

theorem lowestRule_mem {rs : List FreeShippingRule} {r : FreeShippingRule}
    (h : lowestRule rs = some r) : r ∈ rs := by
  cases rs with
  | nil => exact absurd h (by simp [lowestRule])
  | cons x rs =>
    obtain ⟨m, hm, heq, -⟩ := lowestRule_cons x rs
    rw [heq] at h
    exact Option.some.inj h ▸ hm

/-- Every rule has the lowest one at or below it. -/
theorem lowestRule_le {rs : List FreeShippingRule} {y : FreeShippingRule} (hy : y ∈ rs) :
    ∃ r, lowestRule rs = some r ∧ r.minSubtotal.getD 0 ≤ y.minSubtotal.getD 0 := by
  cases rs with
  | nil => exact absurd hy List.not_mem_nil
  | cons x rs =>
    obtain ⟨m, -, heq, hall⟩ := lowestRule_cons x rs
    exact ⟨m, heq, hall y hy⟩

/-! ### The fee -/

/-- The first live rule that passes a test is a rule in force that passes it. -/
theorem find?_liveRules_some {rules : List FreeShippingRule} {now : Instant}
    {p : FreeShippingRule → Bool} {r : FreeShippingRule}
    (h : (liveRules rules now).find? p = some r) :
    r ∈ rules ∧ ruleIsLive r now = true ∧ p r = true := by
  have hmem := mem_liveRules.mp (List.mem_of_find?_eq_some h)
  exact ⟨hmem.1, hmem.2, List.find?_some h⟩

/-- A rule in force that passes a test makes the search find one. -/
theorem exists_find?_liveRules (p : FreeShippingRule → Bool) {rules : List FreeShippingRule}
    {now : Instant} {r : FreeShippingRule} (hr : r ∈ rules)
    (hlive : ruleIsLive r now = true) (hp : p r = true) :
    ∃ m, (liveRules rules now).find? p = some m :=
  Option.isSome_iff_exists.mp
    (List.find?_isSome.mpr ⟨r, mem_liveRules.mpr ⟨hr, hlive⟩, hp⟩)

/-- The fee is zero when some condition applies, else the zone's, which is nothing without
a zone.  Only the zone's own fee comes with a hint, which leads to the lowest threshold. -/
theorem fee_cases (i : ShippingInput) :
    (FreeDelivery i ∧ (resolveShipping i).fee = some 0 ∧
      (resolveShipping i).amountToFree = none) ∨
    (¬ FreeDelivery i ∧ (resolveShipping i).fee = i.zone.map (·.fee) ∧
      ∀ y, (resolveShipping i).amountToFree = some y →
        ∃ r, lowestRule (thresholdRules i) = some r ∧
          i.netSubtotal + y = r.minSubtotal.getD 0) := by
  unfold resolveShipping
  simp only []
  split
  · rename_i h
    simp only [Bool.and_eq_true, decide_eq_true_eq, List.all_eq_true] at h
    exact Or.inl ⟨.itemFlags h.1 h.2, rfl, by simp⟩
  rename_i hflags
  split
  · rename_i r hr
    obtain ⟨hfind, hline⟩ := Option.filter_eq_some_iff.mp hr
    obtain ⟨hmem, hlive, htype⟩ := find?_liveRules_some hfind
    obtain ⟨l, hl, hkind⟩ := List.any_eq_true.mp hline
    exact Or.inl ⟨.anyBundle r hmem hlive (beq_iff_eq.mp htype) l hl (beq_iff_eq.mp hkind),
      rfl, by simp⟩
  rename_i hbundle
  split
  · rename_i r hr
    obtain ⟨hfind, hline⟩ := Option.filter_eq_some_iff.mp hr
    obtain ⟨hmem, hlive, hp⟩ := find?_liveRules_some hfind
    simp only [Bool.and_eq_true, beq_iff_eq, Option.any_eq_true, List.all_eq_true] at hp
    obtain ⟨htype, s, hs, hsec⟩ := hp
    exact Or.inl ⟨.sectionOnly r hmem hlive htype s hs (of_decide_eq_true hline) hsec,
      rfl, by simp⟩
  rename_i hsection
  split
  · rename_i h
    exact Or.inl ⟨.coupon h, rfl, by simp⟩
  rename_i hcoupon
  split
  · rename_i r hfind
    obtain ⟨hmem, hlive, htype⟩ := find?_liveRules_some hfind
    exact Or.inl ⟨.campaignAll r hmem hlive (beq_iff_eq.mp htype), rfl, by simp⟩
  rename_i hcampaign
  split
  · rename_i r hr
    obtain ⟨hlow, hp⟩ := Option.filter_eq_some_iff.mp hr
    obtain ⟨hmem, hlive, htype, m, hm, hpos⟩ := mem_thresholdRules.mp (lowestRule_mem hlow)
    simp only [hm, Option.getD_some, Bool.and_eq_true, decide_eq_true_eq] at hp
    exact Or.inl ⟨.minSubtotal r hmem hlive htype m hm hpos hp.1 hp.2, rfl, by simp⟩
  rename_i hmin
  refine Or.inr ⟨?_, ?_, ?_⟩
  · intro hfree
    cases hfree with
    | itemFlags hlines hfree => exact hflags (by simpa [hlines] using hfree)
    | anyBundle r hr hlive htype l hl hkind =>
      obtain ⟨m, hm⟩ := exists_find?_liveRules (·.type == .anyBundle) hr hlive
        (beq_iff_eq.mpr htype)
      exact hbundle m (Option.filter_eq_some_iff.mpr
        ⟨hm, List.any_eq_true.mpr ⟨l, hl, beq_iff_eq.mpr hkind⟩⟩)
    | sectionOnly r hr hlive htype s hs hlines hsec =>
      obtain ⟨m, hm⟩ := exists_find?_liveRules (fun r => r.type == .sectionOnly &&
        r.sectionId.any fun s => i.lines.all (·.sectionId == s)) hr hlive
        (by simpa [htype, hs] using hsec)
      exact hsection m (Option.filter_eq_some_iff.mpr ⟨hm, decide_eq_true hlines⟩)
    | coupon hc => exact hcoupon hc
    | campaignAll r hr hlive htype =>
      obtain ⟨m, hm⟩ := exists_find?_liveRules (·.type == .campaignAll) hr hlive
        (beq_iff_eq.mpr htype)
      exact hcampaign m hm
    | minSubtotal r hr hlive htype m hm hpos hlines hnet =>
      obtain ⟨low, hlow, hle⟩ := lowestRule_le
        (mem_thresholdRules.mpr ⟨hr, hlive, htype, m, hm, hpos⟩)
      rw [hm, Option.getD_some] at hle
      exact hmin low (Option.filter_eq_some_iff.mpr
        ⟨hlow, by simp [hlines, hle.trans hnet]⟩)
  · cases i.zone <;> rfl
  · intro y hy
    cases hz : i.zone with
    | none => simp [hz] at hy
    | some z =>
      simp only [hz] at hy
      obtain ⟨f, hf, rfl⟩ := Option.map_eq_some_iff.mp hy
      obtain ⟨r, hr, rfl⟩ := Option.map_eq_some_iff.mp (Option.filter_eq_some_iff.mp hf).1
      exact ⟨r, hr, by ring⟩

theorem fee_of_free {i : ShippingInput} (h : FreeDelivery i) :
    (resolveShipping i).fee = some 0 := by
  rcases fee_cases i with ⟨-, hfee, -⟩ | ⟨hpaid, -⟩
  · exact hfee
  · exact absurd h hpaid

theorem fee_of_paid {i : ShippingInput} (h : ¬ FreeDelivery i) :
    (resolveShipping i).fee = i.zone.map (·.fee) := by
  rcases fee_cases i with ⟨hfree, -⟩ | ⟨-, hfee, -⟩
  · exact absurd hfree h
  · exact hfee

/-! ### Changes in the customer's favour -/

/-- One change in the customer's favour; lines, zone and instant stay. -/
inductive Eased : ShippingInput → ShippingInput → Prop
  | addRule {i : ShippingInput} (before after : List FreeShippingRule) (r : FreeShippingRule)
      (h : i.rules = before ++ after) :
      Eased i { i with rules := before ++ r :: after }
  | activate {i : ShippingInput} (before after : List FreeShippingRule)
      (r : FreeShippingRule) (h : i.rules = before ++ r :: after) :
      Eased i { i with rules := before ++ { r with isActive := true } :: after }
  | coupon {i : ShippingInput} : Eased i { i with couponFreeShipping := true }
  | raiseNet {i : ShippingInput} (net : Money) (h : i.netSubtotal ≤ net) :
      Eased i { i with netSubtotal := net }

/-- Two rules that ask for the same; only being live may differ. -/
def SameTerms (r r' : FreeShippingRule) : Prop :=
  r'.type = r.type ∧ r'.sectionId = r.sectionId ∧ r'.minSubtotal = r.minSubtotal

/-- Every rule in force has one in force with the same terms. -/
def StaysLive (i j : ShippingInput) : Prop :=
  ∀ r ∈ i.rules, ruleIsLive r i.now = true →
    ∃ r' ∈ j.rules, ruleIsLive r' j.now = true ∧ SameTerms r r'

theorem StaysLive.of_subset {i j : ShippingInput} (hnow : j.now = i.now)
    (h : ∀ r ∈ i.rules, r ∈ j.rules) : StaysLive i j := by
  intro r hr hlive
  exact ⟨r, h r hr, hnow ▸ hlive, rfl, rfl, rfl⟩

theorem ruleIsLive_activated {r : FreeShippingRule} {now : Instant}
    (h : ruleIsLive r now = true) :
    ruleIsLive { r with isActive := true } now = true := by
  simp only [ruleIsLive, Bool.and_eq_true] at h ⊢
  exact ⟨⟨trivial, h.1.2⟩, h.2⟩

/-- A condition that applies keeps applying when the rules in force stay so and neither the
coupon nor the subtotal is taken back. -/
theorem FreeDelivery.mono {i j : ShippingInput} (h : FreeDelivery i)
    (hlines : j.lines = i.lines) (hrules : StaysLive i j)
    (hcoupon : i.couponFreeShipping = true → j.couponFreeShipping = true)
    (hnet : i.netSubtotal ≤ j.netSubtotal) : FreeDelivery j := by
  cases h with
  | itemFlags hne hfree => exact .itemFlags (hlines ▸ hne) (hlines ▸ hfree)
  | anyBundle r hr hlive htype l hl hkind =>
    obtain ⟨r', hr', hlive', hsame⟩ := hrules r hr hlive
    exact .anyBundle r' hr' hlive' (hsame.1.trans htype) l (hlines ▸ hl) hkind
  | sectionOnly r hr hlive htype s hs hne hsec =>
    obtain ⟨r', hr', hlive', hsame⟩ := hrules r hr hlive
    exact .sectionOnly r' hr' hlive' (hsame.1.trans htype) s (hsame.2.1.trans hs)
      (hlines ▸ hne) (hlines ▸ hsec)
  | coupon hc => exact .coupon (hcoupon hc)
  | campaignAll r hr hlive htype =>
    obtain ⟨r', hr', hlive', hsame⟩ := hrules r hr hlive
    exact .campaignAll r' hr' hlive' (hsame.1.trans htype)
  | minSubtotal r hr hlive htype m hm hpos hne hle =>
    obtain ⟨r', hr', hlive', hsame⟩ := hrules r hr hlive
    exact .minSubtotal r' hr' hlive' (hsame.1.trans htype) m (hsame.2.2.trans hm) hpos
      (hlines ▸ hne) (hle.trans hnet)

theorem FreeDelivery.eased {i j : ShippingInput} (h : FreeDelivery i) (he : Eased i j) :
    FreeDelivery j := by
  cases he with
  | addRule before after r hrules =>
    refine h.mono rfl (StaysLive.of_subset rfl ?_) id le_rfl
    intro x hx
    rw [hrules] at hx
    rcases List.mem_append.mp hx with hx | hx
    · exact List.mem_append_left _ hx
    · exact List.mem_append_right _ (List.mem_cons_of_mem _ hx)
  | activate before after r hrules =>
    refine h.mono rfl ?_ id le_rfl
    intro x hx hlive
    rw [hrules] at hx
    rcases List.mem_append.mp hx with hx | hx
    · exact ⟨x, List.mem_append_left _ hx, hlive, rfl, rfl, rfl⟩
    rcases List.mem_cons.mp hx with rfl | hx
    · exact ⟨_, List.mem_append_right _ List.mem_cons_self, ruleIsLive_activated hlive,
        rfl, rfl, rfl⟩
    · exact ⟨x, List.mem_append_right _ (List.mem_cons_of_mem _ hx), hlive, rfl, rfl, rfl⟩
  | coupon => exact h.mono rfl (StaysLive.of_subset rfl fun _ hx => hx) (fun _ => rfl) le_rfl
  | raiseNet net hnet =>
    exact h.mono rfl (StaysLive.of_subset rfl fun _ hx => hx) id hnet

theorem Eased.zone_eq {i j : ShippingInput} (he : Eased i j) : j.zone = i.zone := by
  cases he <;> rfl

/-- A zero fee stays zero: either its condition survives, or it is the zone's own fee. -/
theorem Eased.fee_zero {i j : ShippingInput} (he : Eased i j)
    (h : (resolveShipping i).fee = some 0) : (resolveShipping j).fee = some 0 := by
  by_cases hj : FreeDelivery j
  · exact fee_of_free hj
  · have hi : ¬ FreeDelivery i := fun hi => hj (hi.eased he)
    rw [fee_of_paid hj, he.zone_eq, ← fee_of_paid hi]
    exact h

/-! ### The order of the rules, and the hint -/

theorem freeDelivery_perm {i : ShippingInput} {rules : List FreeShippingRule}
    (h : rules.Perm i.rules) : FreeDelivery { i with rules := rules } ↔ FreeDelivery i := by
  constructor
  · intro hfree
    exact hfree.mono rfl (StaysLive.of_subset rfl fun _ hx => h.mem_iff.mp hx) id le_rfl
  · intro hfree
    exact hfree.mono rfl (StaysLive.of_subset rfl fun _ hx => h.mem_iff.mpr hx) id le_rfl

theorem fee_perm {i : ShippingInput} {rules : List FreeShippingRule}
    (h : rules.Perm i.rules) :
    (resolveShipping { i with rules := rules }).fee = (resolveShipping i).fee := by
  by_cases hi : FreeDelivery i
  · rw [fee_of_free hi, fee_of_free ((freeDelivery_perm h).mpr hi)]
  · rw [fee_of_paid hi, fee_of_paid (mt (freeDelivery_perm h).mp hi)]

/-- Spending what the hint asks for reaches the lowest threshold. -/
theorem fee_of_hint {i : ShippingInput} {y : Money} (hlines : i.lines ≠ [])
    (h : (resolveShipping i).amountToFree = some y) :
    (resolveShipping { i with netSubtotal := i.netSubtotal + y }).fee = some 0 := by
  rcases fee_cases i with ⟨-, -, hnone⟩ | ⟨-, -, hhint⟩
  · rw [hnone] at h
    exact absurd h (by simp)
  · obtain ⟨r, hlow, hreach⟩ := hhint y h
    obtain ⟨hr, hlive, htype, m, hm, hpos⟩ := mem_thresholdRules.mp (lowestRule_mem hlow)
    rw [hm, Option.getD_some] at hreach
    exact fee_of_free (.minSubtotal r hr hlive htype m hm hpos hlines hreach.ge)

/-- The fee is unknown exactly without a zone and without a condition for free delivery,
else it is zero or the zone's; changes in the customer's favour keep a zero fee, the order
of the rules is not seen, and the hint is right. -/
theorem shippingFee_monotone (i : ShippingInput) :
    ((resolveShipping i).fee = none ↔ i.zone = none ∧ ¬ FreeDelivery i) ∧
    ((resolveShipping i).fee = none ∨ (resolveShipping i).fee = some 0 ∨
      ∃ z, i.zone = some z ∧ (resolveShipping i).fee = some z.fee) ∧
    (∀ j, Relation.ReflTransGen Eased i j → (resolveShipping i).fee = some 0 →
      (resolveShipping j).fee = some 0) ∧
    (∀ rules : List FreeShippingRule, rules.Perm i.rules →
      (resolveShipping { i with rules := rules }).fee = (resolveShipping i).fee) ∧
    (∀ y, i.lines ≠ [] → (resolveShipping i).amountToFree = some y →
      (resolveShipping { i with netSubtotal := i.netSubtotal + y }).fee = some 0) := by
  refine ⟨?_, ?_, ?_, fun _ => fee_perm, fun _ => fee_of_hint⟩
  · by_cases hi : FreeDelivery i
    · simp [fee_of_free hi, hi]
    · simp [fee_of_paid hi, hi]
  · by_cases hi : FreeDelivery i
    · exact Or.inr (Or.inl (fee_of_free hi))
    · rw [fee_of_paid hi]
      cases i.zone with
      | none => exact Or.inl rfl
      | some z => exact Or.inr (Or.inr ⟨z, rfl, rfl⟩)
  · intro j hsteps hzero
    induction hsteps with
    | refl => exact hzero
    | tail _ he ih => exact he.fee_zero ih

end BookHouse
