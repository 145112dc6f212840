/-
What rounding and allocating do to amounts of two places.

`allocate_sum` and `allocate_fair` are the two facts the quote rests on: the
shares add up to the total, and each share is a non-negative amount that is zero on
a zero weight and stays below its weight when the total stays below the weights.
The first comes from the remainders being a whole number of paisa, the second from
`Apportion.getElem?_settle`: only a share that was really cut gets a paisa back.
`allocate_fairSplit` puts them together with the distance from the exact proportion.
-/
import BookHouse.Money

namespace BookHouse

open Rounding Apportion

/-- An amount with at most two decimal places. -/
abbrev Paisa (x : ℚ) : Prop := HasPlaces 2 x

theorem round2_paisa (v : ℚ) : Paisa (round2 v) := toPlaces_hasPlaces

@[simp] theorem round2_of_paisa {v : ℚ} (h : Paisa v) : round2 v = v := toPlaces_of_hasPlaces h

theorem round2_nonneg {v : ℚ} (h : 0 ≤ v) : 0 ≤ round2 v := toPlaces_nonneg h

theorem round2_le {v g : ℚ} (h0 : 0 ≤ v) (hg : Paisa g) (h : v ≤ g) : round2 v ≤ g :=
  toPlaces_le h0 hg h

theorem percentOf_paisa (amount pct : ℚ) : Paisa (percentOf amount pct) := round2_paisa _

theorem percentOf_nonneg {amount pct : ℚ} (ha : 0 ≤ amount) (hp : 0 ≤ pct) :
    0 ≤ percentOf amount pct := by
  refine round2_nonneg ?_
  positivity

/-! ### The two branches of `allocate` -/

section allocate

variable {t : ℚ} {weights : List ℚ}

/-- The exact shares. -/
private def rawShares (t : ℚ) (weights : List ℚ) : List ℚ :=
  weights.map fun x => t * x / weights.sum

/-- The exact shares rounded down. -/
private def flooredShares (t : ℚ) (weights : List ℚ) : List ℚ :=
  (rawShares t weights).map (toPlaces .down 2)

/-- What rounding down took from each share. -/
private def fracs (t : ℚ) (weights : List ℚ) : List ℚ :=
  List.zipWith (fun x f => x - f) (rawShares t weights) (flooredShares t weights)

private theorem allocate_of_ne (ht : Paisa t) (hW : weights.sum ≠ 0) :
    allocate t weights = settle (1 / 100) (fracs t weights)
      ((t - (flooredShares t weights).sum) * 100) (flooredShares t weights) := by
  simp only [allocate, round2_of_paisa ht, if_neg hW]
  rfl

private theorem allocate_of_eq (ht : Paisa t) (hW : weights.sum = 0) :
    allocate t weights = weights.mapIdx fun i _ => if i = 0 then t else 0 := by
  simp only [allocate, round2_of_paisa ht, if_pos hW]

private theorem sum_rawShares (hW : weights.sum ≠ 0) : (rawShares t weights).sum = t := by
  have h : ∀ (c : ℚ) (ws : List ℚ), (ws.map fun x => t * x / c).sum = t * ws.sum / c := by
    intro c ws
    induction ws with
    | nil => simp
    | cons w rest ih =>
        rw [List.map_cons, List.sum_cons, ih, List.sum_cons]
        ring
  rw [rawShares, h]
  field_simp

private theorem rawShares_nonneg (h0 : 0 ≤ t) (hw : ∀ x ∈ weights, 0 ≤ x) :
    ∀ x ∈ rawShares t weights, 0 ≤ x := by
  intro x hx
  obtain ⟨w, hmem, rfl⟩ := List.mem_map.mp hx
  have := hw w hmem
  have hsum : 0 ≤ weights.sum := List.sum_nonneg hw
  positivity

private theorem fracs_eq : fracs t weights =
    (rawShares t weights).map fun x => x - toPlaces .down 2 x := by
  rw [fracs, flooredShares]
  induction rawShares t weights with
  | nil => rfl
  | cons x rest ih => simp [ih]

private theorem length_fracs : (fracs t weights).length = (flooredShares t weights).length := by
  simp [fracs_eq, flooredShares]

private theorem fracs_le (h0 : 0 ≤ t) (hw : ∀ x ∈ weights, 0 ≤ x) :
    ∀ k ∈ fracs t weights, k ≤ 1 / 100 := by
  intro k hk
  rw [fracs_eq] at hk
  obtain ⟨x, hx, rfl⟩ := List.mem_map.mp hk
  have : x < toPlaces .down 2 x + 1 / 10 ^ 2 := lt_down_add (rawShares_nonneg h0 hw x hx)
  norm_num at this ⊢
  linarith

private theorem sum_fracs (hW : weights.sum ≠ 0) :
    (fracs t weights).sum = t - (flooredShares t weights).sum := by
  have h : ∀ xs : List ℚ, (xs.map fun x => x - toPlaces .down 2 x).sum =
      xs.sum - (xs.map (toPlaces .down 2)).sum := by
    intro xs
    induction xs with
    | nil => simp
    | cons x rest ih =>
        simp only [List.map_cons, List.sum_cons, ih]
        ring
  rw [fracs_eq, h, sum_rawShares hW, flooredShares]

/-- What is left over after rounding down is a whole number of paisa. -/
private theorem rest_eq_nat (ht : Paisa t) (h0 : 0 ≤ t) (hw : ∀ x ∈ weights, 0 ≤ x)
    (hW : weights.sum ≠ 0) :
    ∃ n : ℕ, (t - (flooredShares t weights).sum) * 100 = n ∧
      (fracs t weights).sum = n * (1 / 100) := by
  have hplaces : Paisa (t - (flooredShares t weights).sum) := by
    refine ht.sub (HasPlaces.sum fun x hx => ?_)
    obtain ⟨y, -, rfl⟩ := List.mem_map.mp hx
    exact toPlaces_hasPlaces
  obtain ⟨m, hm⟩ := hplaces
  have hnn : 0 ≤ t - (flooredShares t weights).sum := by
    rw [← sum_fracs hW, fracs_eq]
    refine List.sum_nonneg fun k hk => ?_
    obtain ⟨x, hx, rfl⟩ := List.mem_map.mp hk
    exact sub_nonneg.mpr (down_le (rawShares_nonneg h0 hw x hx))
  have hm0 : 0 ≤ m := by
    rw [hm] at hnn
    have : (0 : ℚ) ≤ m := by
      have := mul_nonneg hnn (show (0 : ℚ) ≤ 10 ^ 2 by norm_num)
      rwa [div_mul_cancel₀ _ (by norm_num)] at this
    exact_mod_cast this
  obtain ⟨n, rfl⟩ := Int.eq_ofNat_of_zero_le hm0
  refine ⟨n, ?_, ?_⟩
  · rw [hm]
    push_cast
    ring
  · rw [sum_fracs hW, hm]
    push_cast
    ring

@[simp] theorem length_allocate (total : ℚ) (weights : List ℚ) :
    (allocate total weights).length = weights.length := by
  unfold allocate
  simp only
  split
  · simp
  · simp [length_settle]

/-- **The shares add up to the total.** -/
theorem allocate_sum (ht : Paisa t) (h0 : 0 ≤ t) (hw : ∀ x ∈ weights, 0 ≤ x)
    (hne : weights ≠ []) : (allocate t weights).sum = t := by
  by_cases hW : weights.sum = 0
  · rw [allocate_of_eq ht hW]
    obtain ⟨w, rest, rfl⟩ := List.exists_cons_of_ne_nil hne
    have hrest : rest.mapIdx (fun _ _ => (0 : ℚ)) = List.replicate rest.length 0 := by
      refine List.eq_replicate_iff.mpr ⟨by simp, fun x hx => ?_⟩
      obtain ⟨i, _, rfl⟩ := List.mem_mapIdx.mp hx
      rfl
    simp [List.mapIdx_cons, hrest]
  · obtain ⟨n, hrest, hsum⟩ := rest_eq_nat ht h0 hw hW
    rw [allocate_of_ne ht hW, hrest,
      sum_settle (by norm_num) n length_fracs (fracs_le h0 hw) hsum, ← hsum, sum_fracs hW]
    ring

/-- What an index of `allocate` holds when the weights are not all zero. -/
private theorem getElem?_allocate (ht : Paisa t) (h0 : 0 ≤ t) (hw : ∀ x ∈ weights, 0 ≤ x)
    (hW : weights.sum ≠ 0) {i : ℕ} {w : ℚ} (hi : weights[i]? = some w) :
    ∃ share, (allocate t weights)[i]? = some share ∧
      (share = toPlaces .down 2 (t * w / weights.sum) ∨
        (share = toPlaces .down 2 (t * w / weights.sum) + 1 / 100 ∧
          toPlaces .down 2 (t * w / weights.sum) < t * w / weights.sum)) := by
  obtain ⟨n, hrest, hsum⟩ := rest_eq_nat ht h0 hw hW
  have hx : (flooredShares t weights)[i]? = some (toPlaces .down 2 (t * w / weights.sum)) := by
    simp [flooredShares, rawShares, hi]
  rw [allocate_of_ne ht hW, hrest]
  rcases getElem?_settle (by norm_num) n (fracs_le h0 hw) hsum hx with hs | ⟨hs, k, hk, hpos⟩
  · exact ⟨_, hs, Or.inl rfl⟩
  · refine ⟨_, hs, Or.inr ⟨rfl, ?_⟩⟩
    rw [fracs_eq, List.getElem?_map, rawShares, List.getElem?_map, hi] at hk
    simp only [Option.map_some, Option.some.injEq] at hk
    linarith

/-- What a share owes its weight. -/
structure FairShare (t wSum w share : ℚ) : Prop where
  nonneg : 0 ≤ share
  paisa : Paisa share
  /-- A zero weight gets nothing, unless every weight is zero. -/
  zero : wSum ≠ 0 → w = 0 → share = 0
  /-- No share exceeds its weight when the total does not exceed the weights. -/
  le : t ≤ wSum → Paisa w → share ≤ w

/-- **Each share is fair to its weight.** -/
theorem allocate_fair (ht : Paisa t) (h0 : 0 ≤ t) (hw : ∀ x ∈ weights, 0 ≤ x) {i : ℕ} {w : ℚ}
    (hi : weights[i]? = some w) :
    ∃ share, (allocate t weights)[i]? = some share ∧ FairShare t weights.sum w share := by
  have hw0 : 0 ≤ w := hw w (List.mem_of_getElem? hi)
  have hsum0 : 0 ≤ weights.sum := List.sum_nonneg hw
  by_cases hW : weights.sum = 0
  · refine ⟨if i = 0 then t else 0, ?_, ?_, ?_, fun hc => absurd hW hc, ?_⟩
    · rw [allocate_of_eq ht hW, List.getElem?_mapIdx, hi]
      rfl
    · split
      · exact h0
      · exact le_refl 0
    · split
      · exact ht
      · exact HasPlaces.zero
    · intro hle _
      rw [hW] at hle
      split
      · linarith
      · exact hw0
  · have hWpos : 0 < weights.sum := lt_of_le_of_ne hsum0 (Ne.symm hW)
    have hraw : 0 ≤ t * w / weights.sum := by positivity
    obtain ⟨share, hget, hshare⟩ := getElem?_allocate ht h0 hw hW hi
    have hfloor : 0 ≤ toPlaces .down 2 (t * w / weights.sum) := toPlaces_nonneg hraw
    refine ⟨share, hget, ?_, ?_, ?_, ?_⟩
    · rcases hshare with rfl | ⟨rfl, -⟩
      · exact hfloor
      · positivity
    · rcases hshare with rfl | ⟨rfl, -⟩
      · exact toPlaces_hasPlaces
      · have : Paisa (toPlaces .down 2 (t * w / weights.sum) + 1 / 10 ^ 2) :=
          toPlaces_hasPlaces.add_unit
        norm_num at this
        norm_num
        exact this
    · rintro - rfl
      have hz : toPlaces .down 2 (t * 0 / weights.sum) = 0 := by
        rw [mul_zero, zero_div]
        exact toPlaces_of_hasPlaces HasPlaces.zero
      rcases hshare with h | ⟨-, hlt⟩
      · rw [h, hz]
      · rw [hz] at hlt
        simp at hlt
    · intro hle hpaisa
      have hraww : t * w / weights.sum ≤ w := by
        rw [div_le_iff₀ hWpos]
        nlinarith
      have hfw : toPlaces .down 2 (t * w / weights.sum) ≤ w := toPlaces_le hraw hpaisa hraww
      rcases hshare with rfl | ⟨rfl, hlt⟩
      · exact hfw
      · -- the floor is strictly below the weight, and both are whole paisa
        have hdown : Paisa (toPlaces .down 2 (t * w / weights.sum)) := toPlaces_hasPlaces
        obtain ⟨m, hm⟩ := hdown
        obtain ⟨n, hn⟩ := hpaisa
        have hmn : m < n := by
          have hlt' : (m : ℚ) / 10 ^ 2 < n / 10 ^ 2 := by
            rw [← hm, ← hn]
            exact lt_of_lt_of_le hlt hraww
          have := (div_lt_div_iff_of_pos_right (show (0 : ℚ) < 10 ^ 2 by norm_num)).mp hlt'
          exact_mod_cast this
        have hcast : (m : ℚ) + 1 ≤ n := by exact_mod_cast hmn
        rw [hm, hn]
        norm_num
        linarith

private theorem share_cases (ht : Paisa t) (h0 : 0 ≤ t) (hw : ∀ x ∈ weights, 0 ≤ x)
    (hW : weights.sum ≠ 0) {i : ℕ} {w share : ℚ} (hi : weights[i]? = some w)
    (hs : (allocate t weights)[i]? = some share) :
    share = toPlaces .down 2 (t * w / weights.sum) ∨
      (share = toPlaces .down 2 (t * w / weights.sum) + 1 / 100 ∧
        toPlaces .down 2 (t * w / weights.sum) < t * w / weights.sum) := by
  obtain ⟨share', hget, hshare⟩ := getElem?_allocate ht h0 hw hW hi
  have heq : share' = share := Option.some.inj (hget.symm.trans hs)
  rwa [heq] at hshare

/-- A share is less than a paisa from the exact proportion. -/
private theorem share_near (ht : Paisa t) (h0 : 0 ≤ t) (hw : ∀ x ∈ weights, 0 ≤ x)
    (hW : weights.sum ≠ 0) {i : ℕ} {w share : ℚ} (hi : weights[i]? = some w)
    (hs : (allocate t weights)[i]? = some share) :
    |share - t * w / weights.sum| < 1 / 100 := by
  have hraw : 0 ≤ t * w / weights.sum := by
    have hw0 : 0 ≤ w := hw w (List.mem_of_getElem? hi)
    have hsum0 : 0 ≤ weights.sum := List.sum_nonneg hw
    positivity
  have hlow : toPlaces .down 2 (t * w / weights.sum) ≤ t * w / weights.sum := down_le hraw
  have hhigh : t * w / weights.sum < toPlaces .down 2 (t * w / weights.sum) + 1 / 10 ^ 2 :=
    lt_down_add hraw
  norm_num at hhigh
  rw [abs_lt]
  rcases share_cases ht h0 hw hW hi hs with rfl | ⟨rfl, hcut⟩
  · constructor <;> linarith
  · constructor <;> linarith

/-- The floors keep the order of the weights, and a share is at most a paisa above its floor. -/
private theorem share_ordered (ht : Paisa t) (h0 : 0 ≤ t) (hw : ∀ x ∈ weights, 0 ≤ x)
    (hW : weights.sum ≠ 0) {i j : ℕ} {w w' share share' : ℚ} (hi : weights[i]? = some w)
    (hj : weights[j]? = some w') (hs : (allocate t weights)[i]? = some share)
    (hs' : (allocate t weights)[j]? = some share') (hle : w ≤ w') :
    share - 1 / 100 ≤ share' := by
  have hsum0 : 0 ≤ weights.sum := List.sum_nonneg hw
  have hw0 : 0 ≤ w := hw w (List.mem_of_getElem? hi)
  have hraw : t * w / weights.sum ≤ t * w' / weights.sum := by gcongr
  have hfloors : toPlaces .down 2 (t * w / weights.sum) ≤
      toPlaces .down 2 (t * w' / weights.sum) := by
    rw [toPlaces_of_nonneg (by positivity), toPlaces_of_nonneg (le_trans (by positivity) hraw)]
    exact roundMag_mono hraw
  have hupper : share ≤ toPlaces .down 2 (t * w / weights.sum) + 1 / 100 := by
    rcases share_cases ht h0 hw hW hi hs with h | ⟨h, -⟩ <;> linarith
  have hlower : toPlaces .down 2 (t * w' / weights.sum) ≤ share' := by
    rcases share_cases ht h0 hw hW hj hs' with h | ⟨h, -⟩ <;> linarith
  linarith

/-- A split of `total` over `weights` that is exact and fair. -/
structure FairSplit (total : ℚ) (weights shares : List ℚ) : Prop where
  length : shares.length = weights.length
  sum : shares.sum = total
  nonneg : ∀ share ∈ shares, 0 ≤ share
  paisa : ∀ share ∈ shares, Paisa share
  /-- The proportion exists when the weights are not all zero. -/
  near : weights.sum ≠ 0 → ∀ (i : ℕ) w share, weights[i]? = some w → shares[i]? = some share →
    |share - total * w / weights.sum| < 1 / 100
  zero : (∃ w ∈ weights, 0 < w) → ∀ i : ℕ, weights[i]? = some 0 → shares[i]? = some 0
  ordered : ∀ (i j : ℕ) w w' share share', weights[i]? = some w → weights[j]? = some w' →
    shares[i]? = some share → shares[j]? = some share' → w < w' → share - 1 / 100 ≤ share'
  capped : total ≤ weights.sum → (∀ w ∈ weights, Paisa w) →
    ∀ (i : ℕ) w share, weights[i]? = some w → shares[i]? = some share → share ≤ w

/-- **`allocate` is a fair exact split.** -/
theorem allocate_fairSplit (total : ℚ) (weights : List ℚ) (ht : Paisa total) (h0 : 0 ≤ total)
    (hne : weights ≠ []) (hw : ∀ w ∈ weights, 0 ≤ w) :
    FairSplit total weights (allocate total weights) := by
  have hfair : ∀ (i : ℕ) w share, weights[i]? = some w → (allocate total weights)[i]? = some share →
      FairShare total weights.sum w share := by
    intro i w share hi hs
    obtain ⟨_, hget, hshare⟩ := allocate_fair ht h0 hw hi
    obtain rfl := Option.some.inj (hget.symm.trans hs)
    exact hshare
  -- every share is at an index that a weight is at
  have hindex : ∀ share ∈ allocate total weights, ∃ w, FairShare total weights.sum w share := by
    intro share hmem
    obtain ⟨i, hs⟩ := List.getElem?_of_mem hmem
    have hi : i < weights.length := by
      have hlt := (List.getElem?_eq_some_iff.mp hs).1
      rwa [length_allocate] at hlt
    exact ⟨weights[i], hfair i _ share (List.getElem?_eq_getElem hi) hs⟩
  have hpositive : ∀ w ∈ weights, 0 < w → weights.sum ≠ 0 := fun w hmem hpos =>
    ne_of_gt (lt_of_lt_of_le hpos (List.single_le_sum hw w hmem))
  exact {
    length := length_allocate total weights
    sum := allocate_sum ht h0 hw hne
    nonneg := fun share hmem => (hindex share hmem).choose_spec.nonneg
    paisa := fun share hmem => (hindex share hmem).choose_spec.paisa
    near := fun hW i w share hi hs => share_near ht h0 hw hW hi hs
    zero := by
      rintro ⟨w, hmem, hpos⟩ i hi
      obtain ⟨share, hget, hshare⟩ := allocate_fair ht h0 hw hi
      rw [hget, hshare.zero (hpositive w hmem hpos) rfl]
    ordered := by
      intro i j w w' share share' hi hj hs hs' hlt
      have hpos : 0 < w' := lt_of_le_of_lt (hw w (List.mem_of_getElem? hi)) hlt
      have hW := hpositive w' (List.mem_of_getElem? hj) hpos
      exact share_ordered ht h0 hw hW hi hj hs hs' hlt.le
    capped := fun hle hpaisa i w share hi hs =>
      (hfair i w share hi hs).le hle (hpaisa w (List.mem_of_getElem? hi)) }

theorem allocate_fairSplit_thirds : FairSplit 10 [1, 1, 1, 0] (allocate 10 [1, 1, 1, 0]) :=
  allocate_fairSplit 10 [1, 1, 1, 0] ⟨1000, by norm_num⟩ (by norm_num) (by simp) (by simp)

end allocate

end BookHouse
