/-
Largest-remainder apportionment.

A total is split into shares that are each rounded down; what is left over is a
whole number of units, and the shares with the largest remainders get one unit each.

The one fact everything rests on is that a share which gets a unit had a remainder
above zero.  The remainders add up to `n` units and none is above one unit, so when
they are put in descending order the first `n` cannot include a zero: past a zero
only zeros follow, and they would have to make up the missing units.
-/
import Mathlib.Data.List.Sort
import Mathlib.Data.List.Zip
import Mathlib.Data.List.OfFn
import Mathlib.Algebra.Order.Field.Rat
import Mathlib.Algebra.BigOperators.Group.List.Basic
import Mathlib.Algebra.Order.BigOperators.Group.List
import Mathlib.Tactic.Ring
import Mathlib.Tactic.Linarith

namespace Apportion

/-- Indexes with their keys, largest key first; equal keys keep their order. -/
def byKeyDesc (keys : List ℚ) : List (ℚ × ℕ) :=
  keys.zipIdx.insertionSort fun a b => b.1 ≤ a.1

/-- Walk down the order and give one unit to each index until nothing is left. -/
def grant (unit : ℚ) : List ℕ → ℚ → List ℚ → List ℚ
  | [], _, xs => xs
  | i :: order, rest, xs =>
    if rest ≤ 0 then xs else grant unit order (rest - 1) (xs.modify i (· + unit))

/-! ### Granting units -/

theorem length_grant (unit : ℚ) :
    ∀ (order : List ℕ) (rest : ℚ) (xs : List ℚ), (grant unit order rest xs).length = xs.length := by
  intro order
  induction order with
  | nil => intro rest xs; rfl
  | cons i order ih =>
      intro rest xs
      rw [grant]
      split
      · rfl
      · rw [ih, List.length_modify]

/-- The first `n` indexes of the order get a unit, and nothing else changes. -/
theorem getElem?_grant (unit : ℚ) :
    ∀ (order : List ℕ) (n : ℕ) (xs : List ℚ) (j : ℕ), order.Nodup →
      (grant unit order n xs)[j]? =
        xs[j]?.map fun x => if j ∈ order.take n then x + unit else x := by
  intro order
  induction order with
  | nil => intro n xs j _; simp [grant]
  | cons i order ih =>
      intro n xs j hnd
      rw [List.nodup_cons] at hnd
      rw [grant]
      cases n with
      | zero => simp
      | succ n =>
          rw [if_neg (by push_cast; linarith [Nat.cast_nonneg (α := ℚ) n]),
            show ((n + 1 : ℕ) : ℚ) - 1 = n by push_cast; ring, ih n _ j hnd.2,
            List.getElem?_modify, List.take_succ_cons]
          by_cases hji : i = j
          · subst hji
            have hnot : i ∉ order.take n := fun hc => hnd.1 (List.mem_of_mem_take hc)
            cases xs[i]? <;> simp [hnot]
          · have hij : ¬j = i := fun hc => hji hc.symm
            cases xs[j]? <;> simp [hji, hij]

theorem sum_modify_add (unit : ℚ) :
    ∀ (xs : List ℚ) (i : ℕ), i < xs.length → (xs.modify i (· + unit)).sum = xs.sum + unit := by
  intro xs
  induction xs with
  | nil => intro i hi; simp at hi
  | cons x rest ih =>
      intro i hi
      cases i with
      | zero => simp; ring
      | succ i =>
          simp only [List.modify_succ_cons, List.sum_cons]
          rw [ih i (by simpa using hi)]
          ring

/-- Granting `n` units adds `n` units to the sum. -/
theorem sum_grant (unit : ℚ) :
    ∀ (order : List ℕ) (n : ℕ) (xs : List ℚ), n ≤ order.length →
      (∀ i ∈ order, i < xs.length) → (grant unit order n xs).sum = xs.sum + n * unit := by
  intro order
  induction order with
  | nil =>
      intro n xs hn _
      have hn0 : n = 0 := by simpa using hn
      simp [grant, hn0]
  | cons i order ih =>
      intro n xs hn hlt
      rw [grant]
      cases n with
      | zero => simp
      | succ n =>
          rw [if_neg (by push_cast; linarith [Nat.cast_nonneg (α := ℚ) n]),
            show ((n + 1 : ℕ) : ℚ) - 1 = n by push_cast; ring, ih n _ (by simpa using hn),
            sum_modify_add unit xs i (hlt i (by simp))]
          · push_cast
            ring
          · intro j hj
            rw [List.length_modify]
            exact hlt j (by simp [hj])

/-! ### The order of the remainders -/

theorem byKeyDesc_perm (keys : List ℚ) : (byKeyDesc keys).Perm keys.zipIdx :=
  List.perm_insertionSort _ _

theorem byKeyDesc_sorted (keys : List ℚ) :
    (byKeyDesc keys).Pairwise fun a b => b.1 ≤ a.1 := by
  have : Std.Total fun a b : ℚ × ℕ => b.1 ≤ a.1 := ⟨fun a b => le_total b.1 a.1⟩
  have : IsTrans (ℚ × ℕ) fun a b => b.1 ≤ a.1 := ⟨fun _ _ _ hab hbc => le_trans hbc hab⟩
  exact List.pairwise_insertionSort _ _

theorem length_byKeyDesc (keys : List ℚ) : (byKeyDesc keys).length = keys.length := by
  rw [(byKeyDesc_perm keys).length_eq, List.length_zipIdx]

theorem byKeyDesc_indexes_perm (keys : List ℚ) :
    ((byKeyDesc keys).map Prod.snd).Perm (List.range keys.length) := by
  have h := (byKeyDesc_perm keys).map Prod.snd
  rwa [List.zipIdx_map_snd, ← List.range_eq_range'] at h

theorem byKeyDesc_indexes_nodup (keys : List ℚ) : ((byKeyDesc keys).map Prod.snd).Nodup :=
  (byKeyDesc_indexes_perm keys).nodup_iff.mpr List.nodup_range

theorem byKeyDesc_indexes_lt (keys : List ℚ) :
    ∀ i ∈ (byKeyDesc keys).map Prod.snd, i < keys.length := fun _ hi =>
  List.mem_range.mp ((byKeyDesc_indexes_perm keys).mem_iff.mp hi)

theorem sum_byKeyDesc (keys : List ℚ) : ((byKeyDesc keys).map Prod.fst).sum = keys.sum := by
  rw [((byKeyDesc_perm keys).map Prod.fst).sum_eq, List.zipIdx_map_fst]

/--
In a descending list whose entries are at most one unit, the first `n` are above
zero as soon as the list adds up to `n` units.  Induction on `n`: the head is above
zero or the whole list is not, and taking it off costs at most one unit.
-/
theorem take_pos_of_sum (unit : ℚ) (hunit : 0 < unit) :
    ∀ (n : ℕ) (ks : List (ℚ × ℕ)), ks.Pairwise (fun a b => b.1 ≤ a.1) →
      (∀ k ∈ ks, k.1 ≤ unit) → n * unit ≤ (ks.map Prod.fst).sum →
      ∀ k ∈ ks.take n, 0 < k.1 := by
  intro n
  induction n with
  | zero => intro ks _ _ _ k hk; simp at hk
  | succ n ih =>
      intro ks hsorted hle hsum k hk
      cases ks with
      | nil => simp at hk
      | cons a rest =>
          rw [List.pairwise_cons] at hsorted
          simp only [List.map_cons, List.sum_cons] at hsum
          have ha : 0 < a.1 := by
            by_contra hc
            have hrest : (rest.map Prod.fst).sum ≤ 0 := by
              have hcard := List.sum_le_card_nsmul (rest.map Prod.fst) 0 fun x hx => by
                obtain ⟨b, hb, rfl⟩ := List.mem_map.mp hx
                exact le_trans (hsorted.1 b hb) (not_lt.mp hc)
              simpa using hcard
            have hn : (0 : ℚ) ≤ n * unit := by positivity
            push_cast at hsum
            linarith [not_lt.mp hc]
          rw [List.take_succ_cons] at hk
          rcases List.mem_cons.mp hk with rfl | hr
          · exact ha
          · refine ih rest hsorted.2 (fun x hx => hle x (by simp [hx])) ?_ k hr
            have := hle a (by simp)
            push_cast at hsum
            linarith

/-- A list of entries below one unit that adds up to `n` units has at least `n` entries. -/
theorem le_length_of_sum (unit : ℚ) (hunit : 0 < unit) (n : ℕ) (keys : List ℚ)
    (hle : ∀ k ∈ keys, k ≤ unit) (hsum : keys.sum = n * unit) : n ≤ keys.length := by
  have h := List.sum_le_card_nsmul keys unit hle
  rw [hsum, nsmul_eq_mul] at h
  exact_mod_cast le_of_mul_le_mul_right h hunit

/-! ### The shares -/

/-- The rounded-down shares with the units left over granted by remainder. -/
def settle (unit : ℚ) (keys : List ℚ) (rest : ℚ) (floors : List ℚ) : List ℚ :=
  grant unit ((byKeyDesc keys).map Prod.snd) rest floors

variable {unit rest : ℚ} {keys floors : List ℚ}

theorem length_settle : (settle unit keys rest floors).length = floors.length :=
  length_grant _ _ _ _

/-- **The shares add up to the floors and the units left over.** -/
theorem sum_settle (hunit : 0 < unit) (n : ℕ) (hlen : keys.length = floors.length)
    (hle : ∀ k ∈ keys, k ≤ unit) (hsum : keys.sum = n * unit) :
    (settle unit keys n floors).sum = floors.sum + n * unit := by
  refine sum_grant unit _ n floors ?_ ?_
  · rw [List.length_map, length_byKeyDesc]
    exact le_length_of_sum unit hunit n keys hle hsum
  · intro i hi
    rw [← hlen]
    exact byKeyDesc_indexes_lt keys i hi

/-- **A share is its floor, or one unit more when its remainder is above zero.** -/
theorem getElem?_settle (hunit : 0 < unit) (n : ℕ) (hle : ∀ k ∈ keys, k ≤ unit)
    (hsum : keys.sum = n * unit) {j : ℕ} {x : ℚ} (hx : floors[j]? = some x) :
    (settle unit keys n floors)[j]? = some x ∨
      ((settle unit keys n floors)[j]? = some (x + unit) ∧ ∃ k, keys[j]? = some k ∧ 0 < k) := by
  have hget := getElem?_grant unit ((byKeyDesc keys).map Prod.snd) n floors j
    (byKeyDesc_indexes_nodup keys)
  rw [hx, Option.map_some] at hget
  by_cases hj : j ∈ ((byKeyDesc keys).map Prod.snd).take n
  · rw [if_pos hj] at hget
    refine Or.inr ⟨hget, ?_⟩
    rw [← List.map_take] at hj
    obtain ⟨k, hk, rfl⟩ := List.mem_map.mp hj
    have hpos : 0 < k.1 := by
      refine take_pos_of_sum unit hunit n (byKeyDesc keys) (byKeyDesc_sorted keys) ?_ ?_ k hk
      · intro b hb
        have hb' : b ∈ keys.zipIdx := (byKeyDesc_perm keys).mem_iff.mp hb
        exact hle b.1 (List.fst_mem_of_mem_zipIdx hb')
      · rw [sum_byKeyDesc, hsum]
    have hmem : k ∈ keys.zipIdx :=
      (byKeyDesc_perm keys).mem_iff.mp (List.mem_of_mem_take hk)
    exact ⟨k.1, List.mem_zipIdx_iff_getElem?.mp hmem, hpos⟩
  · rw [if_neg hj] at hget
    exact Or.inl hget

end Apportion
